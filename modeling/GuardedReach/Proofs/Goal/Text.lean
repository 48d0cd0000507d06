/-
  The text of a goal — what is printed of instructions and goals says all that they do.

  1. **Splitting** — a text that is joined by a separator falls apart into its pieces in one way only,
     if some character of the separator is in none of them (`eq_of_intercalate_eq`).  Numbers are
     digits and a sign, so they hold no separator (`not_mem_repr`, `not_mem_repr_int`).

  2. **Instructions** — the text of an instruction is its mnemonic and its operands, joined by commas
     (`text_eq_operands`).  It shows the instruction but for a source register that is not used
     (`shown_eq_of_text_eq`), and nothing looks at that one (`check_shown`, `execute_shown`).

  3. **Goals** — the text of a goal is that of its instructions, joined by `&&`, which occurs in none of
     them (`map_shown_eq_of_text_eq`).

  4. **Statement** — `text_determines`.
-/
import GuardedReach.Goal
import GuardedReach.Proofs.Json.Numeral
import GuardedReach.Proofs.Machine.Execution

namespace GuardedReach

/-! ## Splitting

    What is printed is joined from pieces.  To tell the pieces from the whole it is enough that one
    character of the separator stands in none of them. -/

/-- Where a character first occurs, a list splits in one way. -/
theorem eq_and_eq_of_append_cons_eq {α : Type} {c : α} {front front' back back' : List α}
    (hc : c ∉ front) (hc' : c ∉ front') (h : front ++ c :: back = front' ++ c :: back') :
    front = front' ∧ back = back' := by
  induction front generalizing front' with
  | nil =>
    cases front' with
    | nil => exact ⟨rfl, (List.cons.inj h).2⟩
    | cons x front' =>
      obtain rfl := (List.cons.inj h).1
      exact absurd (List.mem_cons_self ..) hc'
  | cons x front ih =>
    cases front' with
    | nil =>
      obtain rfl := (List.cons.inj h).1
      exact absurd (List.mem_cons_self ..) hc
    | cons y front' =>
      obtain ⟨rfl, hrest⟩ := List.cons.inj h
      obtain ⟨rfl, hback⟩ := ih (fun hm => hc (List.mem_cons_of_mem _ hm))
        (fun hm => hc' (List.mem_cons_of_mem _ hm)) hrest
      exact ⟨rfl, hback⟩

/-- **Joined pieces can be told apart**, if the separator holds a character that none of them does. -/
theorem eq_of_intercalate_eq {α : Type} (front : List α) (c : α) (back : List α) (hc : c ∉ front)
    {pieces others : List (List α)} (hpieces : ∀ piece ∈ pieces, c ∉ piece)
    (hothers : ∀ piece ∈ others, c ∉ piece) (hne : pieces ≠ []) (hne' : others ≠ [])
    (h : (front ++ c :: back).intercalate pieces = (front ++ c :: back).intercalate others) :
    pieces = others := by
  -- more pieces than one hold the character between them
  have hmore : ∀ (piece next : List α) (rest : List (List α)),
      (front ++ c :: back).intercalate (piece :: next :: rest) =
        (piece ++ front) ++ c :: (back ++ (front ++ c :: back).intercalate (next :: rest)) := by
    intro piece next rest
    rw [List.intercalate_cons_cons]
    simp only [List.append_assoc, List.cons_append]
  have hfree : ∀ piece, c ∉ piece → c ∉ piece ++ front := by
    intro piece hp hm
    exact (List.mem_append.mp hm).elim hp hc
  induction pieces generalizing others with
  | nil => exact absurd rfl hne
  | cons piece rest ih =>
    cases others with
    | nil => exact absurd rfl hne'
    | cons other rest' =>
      have hpiece := hpieces piece (List.mem_cons_self ..)
      have hother := hothers other (List.mem_cons_self ..)
      cases rest with
      | nil =>
        cases rest' with
        | nil => simpa using h
        | cons next' rest' =>
          rw [hmore, List.intercalate_singleton] at h
          exact absurd (h ▸ List.mem_append_cons_self) hpiece
      | cons next rest =>
        cases rest' with
        | nil =>
          rw [hmore, List.intercalate_singleton] at h
          exact absurd (h ▸ List.mem_append_cons_self) hother
        | cons next' rest' =>
          rw [hmore, hmore] at h
          obtain ⟨hfirst, hlater⟩ :=
            eq_and_eq_of_append_cons_eq (hfree piece hpiece) (hfree other hother) h
          rw [List.append_cancel_right hfirst,
            ih (fun p hm => hpieces p (List.mem_cons_of_mem _ hm))
              (fun p hm => hothers p (List.mem_cons_of_mem _ hm)) (by simp) (by simp)
              (List.append_cancel_left hlater)]

/-- What stands in a joined list stands in the separator or in a piece. -/
theorem mem_intercalate_cases {α : Type} {x : α} {separator : List α} {pieces : List (List α)}
    (h : x ∈ separator.intercalate pieces) : x ∈ separator ∨ ∃ piece ∈ pieces, x ∈ piece := by
  induction pieces with
  | nil => exact absurd h (by simp)
  | cons piece rest ih =>
    cases rest with
    | nil => exact Or.inr ⟨piece, List.mem_cons_self .., by simpa using h⟩
    | cons next rest =>
      rw [List.intercalate_cons_cons] at h
      rcases List.mem_append.mp h with h | h
      · rcases List.mem_append.mp h with h | h
        · exact Or.inr ⟨piece, List.mem_cons_self .., h⟩
        · exact Or.inl h
      · exact (ih h).imp_right fun ⟨other, hm, hx⟩ => ⟨other, List.mem_cons_of_mem _ hm, hx⟩

/-- The decimal text of a number holds digits only. -/
theorem not_mem_repr {c : Char} (h : c.isDigit = false) (n : Nat) : c ∉ n.repr.toList := by
  intro hm
  rw [Nat.toList_repr] at hm
  exact absurd ((Numeral.isDigit_of_mem_toDigits hm).symm.trans h) (by simp)

/-- That of an integer holds digits and a minus sign. -/
theorem not_mem_repr_int {c : Char} (h : c.isDigit = false) (hsign : c ≠ '-') (n : Int) :
    c ∉ n.repr.toList := by
  intro hm
  rw [Numeral.toList_repr_int, ← Nat.toList_repr] at hm
  rcases List.mem_append.mp hm with hm | hm
  · split at hm
    · exact hsign (List.mem_singleton.mp hm)
    · exact absurd hm List.not_mem_nil
  · exact not_mem_repr h _ hm

/-- Nor do two numbers have one text. -/
theorem eq_of_repr_eq {m n : Int} (h : m.repr = n.repr) : m = n := by
  have hread := congrArg (fun text => Numeral.signedDigits? text.toList) h
  simp only [Numeral.signedDigits?_repr] at hread
  exact Option.some.inj hread

/-! ## Instructions

    Mnemonics tell opcodes apart, an index and an amount are told by their digits, and the commas fall
    between them. -/

/-- Mnemonics tell opcodes apart. -/
theorem Opcode.mnemonic_inj {opcode other : Opcode} (h : opcode.mnemonic = other.mnemonic) :
    opcode = other := by
  cases opcode <;> cases other <;> first | rfl | exact absurd h (by decide)

/-- A mnemonic is made of letters. -/
theorem Opcode.isAlpha_of_mem_mnemonic {opcode : Opcode} {c : Char}
    (h : c ∈ opcode.mnemonic.toList) : c.isAlpha = true := by
  have hall : opcode.mnemonic.toList.all Char.isAlpha = true := by cases opcode <;> decide
  exact List.all_eq_true.mp hall c h

namespace Instruction

/-- What stands behind the mnemonic. -/
def operands (ins : Instruction) : List String :=
  ("r" ++ ins.target.toNat.repr) ::
    ((if ins.opcode.usesSource then ["r" ++ ins.source.toNat.repr] else []) ++
      [ins.amount.toInt.repr])

/-- The text of an instruction is its mnemonic before its operands, which commas separate. -/
theorem text_eq_operands (ins : Instruction) :
    ins.text = ins.opcode.mnemonic ++ " " ++ ", ".intercalate ins.operands := by
  apply String.toList_inj.mp
  unfold text operands
  cases ins.opcode.usesSource with
  | true => simp
  | false => simp

/-- The operands are registers and a number. -/
theorem not_mem_operands {ins : Instruction} {c : Char} (hdigit : c.isDigit = false)
    (hsign : c ≠ '-') (hregister : c ≠ 'r') {operand : String} (h : operand ∈ ins.operands) :
    c ∉ operand.toList := by
  have hnumbered : ∀ n : Nat, c ∉ ("r" ++ n.repr).toList := by
    intro n hm
    rw [String.toList_append] at hm
    rcases List.mem_append.mp hm with hm | hm
    · exact hregister (List.mem_singleton.mp hm)
    · exact not_mem_repr hdigit n hm
  rcases List.mem_cons.mp h with rfl | h
  · exact hnumbered _
  · rcases List.mem_append.mp h with h | h
    · split at h
      · rw [List.mem_singleton.mp h]
        exact hnumbered _
      · exact absurd h List.not_mem_nil
    · rw [List.mem_singleton.mp h]
      exact not_mem_repr_int hdigit hsign _

/-- The instruction as far as its text shows it: with no source, unless it uses one. -/
def shown (ins : Instruction) : Instruction :=
  if ins.opcode.usesSource then ins else { ins with source := 0 }

/-- A register is told by what is printed of it, -/
theorem register_inj {index other : UInt8}
    (h : "r" ++ index.toNat.repr = "r" ++ other.toNat.repr) : index = other := by
  have hnumber : (Int.ofNat index.toNat).repr = (Int.ofNat other.toNat).repr :=
    (String.append_right_inj "r").mp h
  exact UInt8.toNat_inj.mp (Int.ofNat.inj (eq_of_repr_eq hnumber))

/-- and so is an amount, sign and all. -/
theorem amount_inj {amount other : Int64} (h : amount.toInt.repr = other.toInt.repr) :
    amount = other :=
  Int64.toInt_inj.mp (eq_of_repr_eq h)

/-- **An instruction can be read off its text**, but for a source that is not used. -/
theorem shown_eq_of_text_eq {ins other : Instruction} (h : ins.text = other.text) :
    ins.shown = other.shown := by
  have hblank : ∀ opcode : Opcode, ' ' ∉ opcode.mnemonic.toList := by
    intro opcode hm
    exact absurd (Opcode.isAlpha_of_mem_mnemonic hm) (by decide)
  have hcomma : ∀ ins : Instruction, ∀ piece ∈ ins.operands.map String.toList, ',' ∉ piece := by
    intro ins piece hm
    obtain ⟨operand, hmem, rfl⟩ := List.mem_map.mp hm
    exact not_mem_operands (by decide) (by decide) (by decide) hmem
  have hchars := congrArg String.toList h
  simp only [text_eq_operands, String.toList_append, List.append_assoc] at hchars
  -- the first blank ends the mnemonic, and each comma an operand
  obtain ⟨hmnemonic, hrest⟩ := eq_and_eq_of_append_cons_eq (hblank _) (hblank _) hchars
  have hopcode := Opcode.mnemonic_inj (String.toList_inj.mp hmnemonic)
  rw [String.toList_intercalate, String.toList_intercalate] at hrest
  have hpieces := eq_of_intercalate_eq [] ',' [' '] List.not_mem_nil
    (hcomma ins) (hcomma other) (by simp [operands]) (by simp [operands]) hrest
  have hoperands : ins.operands = other.operands :=
    (List.map_inj_right fun _ _ => String.toList_inj.mp).mp hpieces
  obtain ⟨hregister, hlater⟩ := List.cons.inj hoperands
  have htarget := register_inj hregister
  unfold shown
  rw [← hopcode] at hlater ⊢
  cases hsource : ins.opcode.usesSource with
  | true =>
    simp only [hsource, if_true, List.singleton_append, List.cons.injEq, and_true] at hlater ⊢
    cases ins
    cases other
    exact Instruction.mk.injEq .. ▸ ⟨hopcode, htarget, register_inj hlater.1, amount_inj hlater.2⟩
  | false =>
    simp only [hsource, Bool.false_eq_true, if_false, List.nil_append, List.cons.injEq,
      and_true] at hlater ⊢
    rw [hopcode, htarget, amount_inj hlater]

/-! ### What is not shown does not matter -/

/-- The instruction that is shown fits where the instruction does, -/
theorem inBounds_shown (ins : Instruction) (width : Nat) :
    ins.shown.InBounds width ↔ ins.InBounds width := by
  unfold shown InBounds
  cases hsource : ins.opcode.usesSource with
  | true => simp [hsource]
  | false => simp [hsource]

/-- is refused by the check for the same register, -/
theorem check_shown (ins : Instruction) (width : Nat) : ins.shown.check width = ins.check width := by
  unfold shown check touched
  cases hsource : ins.opcode.usesSource with
  | true => simp [hsource]
  | false => simp [hsource]

/-- and does the same. -/
theorem execute_shown (ins : Instruction) (s : State) : ins.shown.execute s = ins.execute s := by
  cases hsource : ins.opcode.usesSource with
  | true => rw [shown, if_pos hsource]
  | false =>
    have hshown : ins.shown = { ins with source := 0 } := by
      rw [shown, hsource]
      rfl
    by_cases hfits : ins.InBounds s.width
    · have hfits' := (inBounds_shown ins s.width).mpr hfits
      have hsource' : ins.shown.opcode.usesSource = false := by rw [hshown, hsource]
      rw [execute_of_unary hsource hfits, execute_of_unary hsource' hfits']
      simp only [hshown]
      rfl
    · have hmisfits : ¬ ins.shown.InBounds s.width := by rwa [inBounds_shown]
      rw [execute_of_not_inBounds hfits, execute_of_not_inBounds hmisfits]

/-- What stands in an instruction's text. -/
theorem not_mem_text {ins : Instruction} {c : Char} (halpha : c.isAlpha = false)
    (hdigit : c.isDigit = false) (hother : c ∉ ['-', ',', ' ']) : c ∉ ins.text.toList := by
  simp only [List.mem_cons, List.not_mem_nil, or_false, not_or] at hother
  obtain ⟨hsign, hcomma, hblank⟩ := hother
  have hregister : c ≠ 'r' := by
    rintro rfl
    exact absurd halpha (by decide)
  intro hm
  rw [text_eq_operands, String.toList_append, String.toList_append, String.toList_intercalate] at hm
  rcases List.mem_append.mp hm with hm | hm
  · rcases List.mem_append.mp hm with hm | hm
    · exact absurd ((Opcode.isAlpha_of_mem_mnemonic hm).symm.trans halpha) (by simp)
    · exact hblank (List.mem_singleton.mp hm)
  · rcases mem_intercalate_cases hm with hm | ⟨piece, hpiece, hm⟩
    · rcases List.mem_cons.mp (show c ∈ [',', ' '] from hm) with rfl | hm
      · exact hcomma rfl
      · exact hblank (List.mem_singleton.mp hm)
    · obtain ⟨operand, hoperand, rfl⟩ := List.mem_map.mp hpiece
      exact not_mem_operands hdigit hsign hregister hoperand hm

/-- No instruction's text is empty, or begins otherwise than with a letter. -/
theorem exists_text (ins : Instruction) :
    ∃ c rest, ins.text.toList = c :: rest ∧ c.isAlpha = true := by
  have hmnemonic : ∃ c rest, ins.opcode.mnemonic.toList = c :: rest := by
    cases ins.opcode <;> exact ⟨_, _, rfl⟩
  obtain ⟨c, rest, hcons⟩ := hmnemonic
  refine ⟨c, rest ++ (' ' :: (", ".intercalate ins.operands).toList), ?_, ?_⟩
  · rw [text_eq_operands, String.toList_append, String.toList_append, hcons, List.append_assoc]
    rfl
  · exact Opcode.isAlpha_of_mem_mnemonic (hcons ▸ List.mem_cons_self ..)

end Instruction

/-! ## Goals

    No instruction prints an ampersand, so a list of guards of any length falls apart into its guards. -/

namespace Goal

variable {guards others : List Instruction}

/-- A goal of at least one guard is the texts of its guards, with ampersands between. -/
theorem toList_text_of_ne_nil (h : guards ≠ []) :
    (allOf guards).text.toList =
      [' ', '&', '&', ' '].intercalate (guards.map fun ins => ins.text.toList) := by
  cases guards with
  | nil => exact absurd rfl h
  | cons guard rest =>
    show (" && ".intercalate ((guard :: rest).map Instruction.text)).toList = _
    rw [String.toList_intercalate, List.map_map]
    rfl

/-- The goal without guards has a text of its own. -/
theorem text_ne_text_nil (h : guards ≠ []) : (allOf guards).text ≠ (allOf []).text := by
  intro heq
  have hchars := congrArg String.toList heq
  rw [toList_text_of_ne_nil h] at hchars
  cases guards with
  | nil => exact h rfl
  | cons guard rest =>
    obtain ⟨c, chars, hcons, halpha⟩ := guard.exists_text
    have hfirst : ∃ more, [' ', '&', '&', ' '].intercalate
        ((guard :: rest).map fun ins => ins.text.toList) = c :: more := by
      cases rest with
      | nil => exact ⟨chars, by simpa using hcons⟩
      | cons next rest =>
        rw [List.map_cons, List.map_cons, List.intercalate_cons_cons, hcons]
        exact ⟨_, rfl⟩
    obtain ⟨more, hmore⟩ := hfirst
    rw [hmore] at hchars
    obtain rfl := (List.cons.inj hchars).1
    exact absurd halpha (by decide)

/-- Instructions that are printed alike, each in its place, are shown alike. -/
theorem map_shown_of_map_text
    (h : guards.map (fun ins => ins.text.toList) = others.map fun ins => ins.text.toList) :
    guards.map Instruction.shown = others.map Instruction.shown := by
  induction guards generalizing others with
  | nil =>
    obtain rfl := List.map_eq_nil_iff.mp h.symm
    rfl
  | cons guard rest ih =>
    obtain ⟨other, rest', rfl, htext, hrest⟩ := List.map_eq_cons_iff.mp h.symm
    rw [List.map_cons, List.map_cons, ih hrest.symm,
      Instruction.shown_eq_of_text_eq (String.toList_inj.mp htext.symm)]

/-- **The guards can be read off the text of a goal**, but for sources that are not used. -/
theorem map_shown_eq_of_text_eq (h : (allOf guards).text = (allOf others).text) :
    guards.map Instruction.shown = others.map Instruction.shown := by
  by_cases hnone : guards = []
  · subst hnone
    by_cases hnone' : others = []
    · rw [hnone']
    · exact absurd h.symm (text_ne_text_nil hnone')
  · by_cases hnone' : others = []
    · subst hnone'
      exact absurd h (text_ne_text_nil hnone)
    · have hchars := congrArg String.toList h
      rw [toList_text_of_ne_nil hnone, toList_text_of_ne_nil hnone'] at hchars
      have hplain : ∀ (instructions : List Instruction),
          ∀ piece ∈ instructions.map fun ins => ins.text.toList, '&' ∉ piece := by
        intro instructions piece hm
        obtain ⟨ins, -, rfl⟩ := List.mem_map.mp hm
        exact Instruction.not_mem_text (by decide) (by decide) (by decide)
      have hpieces := eq_of_intercalate_eq [' '] '&' ['&', ' '] (by decide)
        (hplain guards) (hplain others) (by simpa using hnone) (by simpa using hnone') hchars
      exact map_shown_of_map_text hpieces

/-- Guards accept what they accept, whatever their unused registers are. -/
theorem accepts_map_shown (guards : List Instruction) (s : State) :
    accepts (guards.map Instruction.shown) s = accepts guards s := by
  induction guards generalizing s with
  | nil => rfl
  | cons guard rest ih =>
    simp only [List.map_cons, accepts, Instruction.execute_shown, ih]

end Goal

/-! ## Statement

    Two texts that are the same stand for the same goal, in all that can be made of it. -/

/-- **The text determines the goal.**  Goals that are printed alike hold of the same states, of whatever
    width; instructions that are printed alike fit the same widths, or miss them for the same reason, and
    do the same to every state.  A source that is not used is not printed, and does not matter. -/
theorem text_determines :
    (∀ guards others : List Instruction, (Goal.allOf guards).text = (Goal.allOf others).text →
      ∀ s : State, (Goal.allOf guards).holds s = (Goal.allOf others).holds s) ∧
    ∀ ins other : Instruction, ins.text = other.text →
      (∀ width, ins.check width = other.check width) ∧
      ∀ s : State, ins.execute s = other.execute s ∧ ins.perform s = other.perform s := by
  constructor
  · intro guards others h s
    show Goal.accepts guards s = Goal.accepts others s
    rw [← Goal.accepts_map_shown guards, ← Goal.accepts_map_shown others,
      Goal.map_shown_eq_of_text_eq h]
  · intro ins other h
    have hshown := Instruction.shown_eq_of_text_eq h
    have hexecute : ∀ s, ins.execute s = other.execute s := by
      intro s
      rw [← Instruction.execute_shown ins, ← Instruction.execute_shown other, hshown]
    refine ⟨fun width => ?_, fun s => ⟨hexecute s, ?_⟩⟩
    · rw [← Instruction.check_shown ins, ← Instruction.check_shown other, hshown]
    · rw [Instruction.perform, Instruction.perform, hexecute]

/-- Two guards, and an effect, that name a source they do not use. -/
theorem idle_sources_determined :
    (Goal.allOf [{ opcode := .equal, target := 1, source := 7, amount := 4 }, .notEqual 0 0]).text =
      (Goal.allOf [.equal 1 4, { opcode := .notEqual, target := 0, source := 200, amount := 0 }]).text ∧
    (∀ s : State,
      (Goal.allOf [{ opcode := .equal, target := 1, source := 7, amount := 4 }, .notEqual 0 0]).holds s =
        (Goal.allOf [.equal 1 4,
          { opcode := .notEqual, target := 0, source := 200, amount := 0 }]).holds s) ∧
    ({ opcode := .add, target := 0, source := 200, amount := -1 } : Instruction).text =
      (Instruction.add 0 (-1)).text ∧
    ∀ width, ({ opcode := .add, target := 0, source := 200, amount := -1 } : Instruction).check width =
      (Instruction.add 0 (-1)).check width :=
  ⟨by decide +kernel, text_determines.1 _ _ (by decide +kernel), by decide +kernel,
    (text_determines.2 _ _ (by decide +kernel)).1⟩

end GuardedReach
