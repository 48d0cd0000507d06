/-
  The checks a puzzle goes through — what each has found if it fails, and what holds if it passes.

  1. **Specification** — what can be wrong with an instruction, with an action alone and with an
     action behind others, told of the puzzle as it is written and of nothing that computes.

  2. **First in a list** — every check goes through a list to the first item that fails it.  A first
     item is told by what stands before it: `before ++ [a] <+: items` says that `a` comes right
     behind `before`.  `exists_first_cons_of` and `exists_first_cons_of_not` are the steps of every
     induction.

  3. **Checks** — each has a lemma for its errors and one for its success.  The same registers are
     looked at against the capacity, when an action is made, and against the width, when all have
     been.
-/
import GuardedReach.Proofs.Machine.Execution
import GuardedReach.Puzzle.Basic

namespace GuardedReach

/-! ## Specification

    What is asked of one instruction, of one action and of all actions together is said without any order;
    where several things are wrong, `FirstFault` and `Clash` say which of them counts. -/

/-- Every register the instruction names is below the width: the target, and for a transfer the
    source. -/
def Instruction.Below (width : Nat) (ins : Instruction) : Prop :=
  ins.target.toNat < width ∧ (ins.opcode = .boundedTransfer → ins.source.toNat < width)

/-- The first register the instruction names that is not below the width. -/
inductive Instruction.Misfit (width : Nat) (ins : Instruction) : OutOfRange → Prop where
  | target (h : width ≤ ins.target.toNat) : Misfit width ins { index := ins.target, width }
  | source (ht : ins.target.toNat < width) (hop : ins.opcode = .boundedTransfer)
      (hs : width ≤ ins.source.toNat) : Misfit width ins { index := ins.source, width }

/-- The first instruction that does not fit the width stands at the position. -/
def FirstMisfit (width : Nat) (instructions : List Instruction) (position : Nat)
    (fault : OutOfRange) : Prop :=
  ∃ before ins, before ++ [ins] <+: instructions ∧ (∀ b ∈ before, b.Below width) ∧
    ins.Misfit width fault ∧ position = before.length

namespace ActionDecl

/-- The action can be made. -/
structure Sound (decl : ActionDecl) : Prop where
  named : decl.name ≠ ""
  length_le : decl.instructions.length ≤ 16
  below : ∀ ins ∈ decl.instructions, ins.Below 8

/-- The first thing that is wrong with an action alone. -/
inductive FirstFault (decl : ActionDecl) : MachineError → Prop where
  | unnamed (h : decl.name = "") : FirstFault decl .emptyActionName
  | long (hn : decl.name ≠ "") (h : 16 < decl.instructions.length) :
      FirstFault decl (.capacityExceeded decl.name decl.instructions.length)
  | misfit {position : Nat} {fault : OutOfRange} (hn : decl.name ≠ "")
      (hl : decl.instructions.length ≤ 16) (h : FirstMisfit 8 decl.instructions position fault) :
      FirstFault decl (.invalidInstruction decl.name position fault)

/-- The actions can stand together in a system of this width. -/
structure Together (width : Nat) (decls : List ActionDecl) : Prop where
  below : ∀ decl ∈ decls, ∀ ins ∈ decl.instructions, ins.Below width
  distinct : (decls.map name).Nodup

/-- What is wrong with an action in a system of this width, where the names are taken already. -/
inductive Clash (width : Nat) (taken : List String) (decl : ActionDecl) : SetupError → Prop where
  | misfit {position : Nat} {fault : OutOfRange}
      (h : FirstMisfit width decl.instructions position fault) :
      Clash width taken decl (.machine (.invalidInstruction decl.name position fault))
  | duplicate (hb : ∀ ins ∈ decl.instructions, ins.Below width) (h : decl.name ∈ taken) :
      Clash width taken decl (.duplicateAction decl.name)

end ActionDecl

/-- The action as it is written. -/
def Action.decl (a : Action) : ActionDecl :=
  { name := a.name, instructions := a.instructions }

/-! ## First in a list

    Every check goes through a list and stops at the first item that fails.  To be the first is to stand
    behind a prefix without failures; these lemmas take such a prefix apart at its first item. -/

/-- An item behind a prefix is the first one, or it stands behind a prefix of the rest. -/
theorem exists_prefix_cons {α : Type} {P : List α → α → Prop} {x : α} {items : List α} :
    (∃ before a, before ++ [a] <+: x :: items ∧ P before a) ↔
      P [] x ∨ ∃ before a, before ++ [a] <+: items ∧ P (x :: before) a := by
  constructor
  · rintro ⟨before, a, hat, h⟩
    cases before with
    | nil =>
      obtain rfl : a = x := by simpa using hat
      exact .inl h
    | cons b before =>
      obtain ⟨rfl, hrest⟩ := List.cons_prefix_cons.mp hat
      exact .inr ⟨before, a, hrest, h⟩
  · rintro (h | ⟨before, a, hat, h⟩)
    · exact ⟨[], x, List.prefix_append [x] items, h⟩
    · exact ⟨x :: before, a, List.cons_prefix_cons.mpr ⟨rfl, hat⟩, h⟩

section

variable {α : Type} {Q : α → Prop} {P : List α → α → Prop} {x : α} {items : List α}

/-- If not all is well with an item, nothing behind it is the first. -/
theorem exists_first_cons_of_not (h : ¬ Q x) :
    (∃ before a, before ++ [a] <+: x :: items ∧ (∀ b ∈ before, Q b) ∧ P before a) ↔ P [] x := by
  rw [exists_prefix_cons]
  constructor
  · rintro (⟨-, hx⟩ | ⟨before, a, -, hbefore, -⟩)
    · exact hx
    · exact absurd (hbefore x (List.mem_cons_self ..)) h
  · intro hx
    exact .inl ⟨by simp, hx⟩

/-- If all is well with an item, the first may be that item or one behind it. -/
theorem exists_first_cons_of (h : Q x) :
    (∃ before a, before ++ [a] <+: x :: items ∧ (∀ b ∈ before, Q b) ∧ P before a) ↔
      P [] x ∨ ∃ before a, before ++ [a] <+: items ∧ (∀ b ∈ before, Q b) ∧ P (x :: before) a := by
  rw [exists_prefix_cons]
  simp only [List.forall_mem_cons, h, true_and, List.not_mem_nil, false_implies, implies_true]

end

/-- In the empty list nothing stands behind a prefix. -/
theorem not_exists_prefix_nil {α : Type} {P : List α → α → Prop} :
    ¬ ∃ before a, before ++ [a] <+: ([] : List α) ∧ P before a := by
  rintro ⟨before, a, hat, -⟩
  exact absurd (List.prefix_nil.mp hat) (by simp)

/-! ## Checks of one action

    The instructions are looked at in order, and of each one first the target and then the source. -/

section

variable {width : Nat}

namespace Instruction

/-- To be in bounds is to name registers below the width only. -/
theorem inBounds_iff_below (hw : width ≤ 8) (ins : Instruction) :
    ins.InBounds width ↔ ins.Below width := by
  have hmin : min width registerCapacity = width := Nat.min_eq_left hw
  unfold InBounds Below
  rw [usesSource_iff, hmin]

/-- The check of an instruction, its two questions in order. -/
theorem check_eq_ite (hw : width ≤ 8) (ins : Instruction) :
    ins.check width =
      if width ≤ ins.target.toNat then .error { index := ins.target, width }
      else if ins.opcode = .boundedTransfer ∧ width ≤ ins.source.toNat then
        .error { index := ins.source, width }
      else .ok () := by
  have hmin : min width registerCapacity = width := Nat.min_eq_left hw
  unfold check touched
  simp only [hmin, usesSource_iff]
  by_cases ht : width ≤ ins.target.toNat <;> by_cases hop : ins.opcode = .boundedTransfer <;>
    by_cases hs : width ≤ ins.source.toNat <;> simp [List.find?, ht, hop, hs]

/-- **An instruction is refused for its misfit**, and for nothing else. -/
theorem check_eq_error_iff (hw : width ≤ 8) (ins : Instruction) (fault : OutOfRange) :
    ins.check width = .error fault ↔ ins.Misfit width fault := by
  rw [check_eq_ite hw]
  constructor
  · intro h
    split at h
    · next ht =>
      obtain rfl := Except.error.inj h
      exact .target ht
    · next ht =>
      split at h
      · next hs =>
        obtain rfl := Except.error.inj h
        exact .source (Nat.lt_of_not_le ht) hs.1 hs.2
      · exact absurd h (by simp)
  · rintro (ht | ⟨ht, hop, hs⟩)
    · rw [if_pos ht]
    · rw [if_neg (Nat.not_le_of_lt ht), if_pos ⟨hop, hs⟩]

/-- What fits a machine fits a wider one. -/
theorem Below.mono {other : Nat} {ins : Instruction} (h : ins.Below width) (hle : width ≤ other) :
    ins.Below other :=
  ⟨Nat.lt_of_lt_of_le h.1 hle, fun hop => Nat.lt_of_lt_of_le (h.2 hop) hle⟩

/-- A guard moves nothing. -/
theorem not_transfer_of_isGuard {ins : Instruction} (h : ins.isGuard = true) :
    ins.opcode ≠ .boundedTransfer := by
  intro hop
  unfold isGuard at h
  rw [hop] at h
  exact absurd h (by decide)

/-- A guard names its target only. -/
theorem below_iff_of_isGuard {ins : Instruction} (h : ins.isGuard = true) :
    ins.Below width ↔ ins.target.toNat < width :=
  ⟨And.left, fun ht => ⟨ht, fun hop => absurd hop (not_transfer_of_isGuard h)⟩⟩

/-- A guard has one register, so there is one way to miss. -/
theorem misfit_iff_of_isGuard {ins : Instruction} (h : ins.isGuard = true) {fault : OutOfRange} :
    ins.Misfit width fault ↔
      width ≤ ins.target.toNat ∧ fault = { index := ins.target, width } := by
  constructor
  · rintro (ht | ⟨-, hop, -⟩)
    · exact ⟨ht, rfl⟩
    · exact absurd hop (not_transfer_of_isGuard h)
  · rintro ⟨ht, rfl⟩
    exact .target ht

end Instruction

/-- The search for a misfit finds the first one, and counts positions from where it started. -/
theorem firstMisfit_eq_some_iff (hw : width ≤ 8) {start position : Nat}
    {instructions : List Instruction} {fault : OutOfRange} :
    firstMisfit width start instructions = some (position, fault) ↔
      ∃ before ins, before ++ [ins] <+: instructions ∧ (∀ b ∈ before, b.Below width) ∧
        ins.Misfit width fault ∧ position = start + before.length := by
  induction instructions generalizing start with
  | nil => exact iff_of_false (by simp [firstMisfit]) not_exists_prefix_nil
  | cons ins rest ih =>
    have hbelow := ins.check_eq_ok_iff width
    have hmisfit := ins.check_eq_error_iff hw fault
    rw [ins.inBounds_iff_below hw] at hbelow
    rw [firstMisfit]
    cases hc : ins.check width with
    | error reason =>
      have hnot : ¬ ins.Below width := by simp [← hbelow, hc]
      rw [hc, Except.error.injEq] at hmisfit
      rw [exists_first_cons_of_not hnot, ← hmisfit]
      simp [and_comm, eq_comm]
    | ok u =>
      have hnot : ¬ ins.Misfit width fault := by simp [← hmisfit, hc]
      rw [exists_first_cons_of (hbelow.mp hc)]
      simp [ih, hnot, Nat.add_assoc, Nat.add_comm 1]

end

/-- From the beginning, the positions are those in the list. -/
theorem firstMisfit_zero_eq_some_iff {width : Nat} (hw : width ≤ 8) {position : Nat}
    {instructions : List Instruction} {fault : OutOfRange} :
    firstMisfit width 0 instructions = some (position, fault) ↔
      FirstMisfit width instructions position fault := by
  rw [firstMisfit_eq_some_iff hw]
  simp [FirstMisfit]

namespace Action

/-- An action is made again from its own declaration. -/
theorem make_decl (a : Action) : make a.decl.name a.decl.instructions = .ok a := by
  unfold make decl
  have hfits := (firstMisfit_eq_none_iff registerCapacity 0 a.instructions).mpr a.inBounds
  rw [dif_neg a.name_ne, dif_neg (Nat.not_lt_of_le a.length_le)]
  split
  · next h => exact absurd (hfits.symm.trans h) (by simp)
  · rfl

/-- What is made from a declaration has it for its declaration. -/
theorem decl_of_make {decl : ActionDecl} {a : Action}
    (h : make decl.name decl.instructions = .ok a) : a.decl = decl := by
  unfold make at h
  split at h
  · exact absurd h (by simp)
  · split at h
    · exact absurd h (by simp)
    · split at h
      · exact absurd h (by simp)
      · rw [← Except.ok.inj h]
        rfl

/-- Whatever was made was sound. -/
theorem sound_decl (a : Action) : a.decl.Sound where
  named := a.name_ne
  length_le := a.length_le
  below ins hins := (ins.inBounds_iff_below (Nat.le_refl 8)).mp (a.inBounds ins hins)

/-- Whatever is sound can be made. -/
theorem exists_make_of_sound {decl : ActionDecl} (h : decl.Sound) :
    ∃ a, make decl.name decl.instructions = .ok a := by
  let a : Action :=
    { name := decl.name, instructions := decl.instructions, name_ne := h.named
      length_le := h.length_le
      inBounds := fun ins hins => (ins.inBounds_iff_below (Nat.le_refl 8)).mpr (h.below ins hins) }
  exact ⟨a, make_decl a⟩

/-- **A declaration is refused for its first fault**: the name comes before the length, the length before
    the instructions. -/
theorem make_eq_error_iff {decl : ActionDecl} {reason : MachineError} :
    make decl.name decl.instructions = .error reason ↔ decl.FirstFault reason := by
  -- the checks stand in the order of the faults, so each is reached when those before it pass
  unfold make
  constructor
  · intro h
    split at h
    · next hn =>
      obtain rfl := Except.error.inj h
      exact .unnamed hn
    · next hn =>
      split at h
      · next hl =>
        obtain rfl := Except.error.inj h
        exact .long hn hl
      · next hl =>
        split at h
        · next position fault hm =>
          obtain rfl := Except.error.inj h
          exact .misfit hn (Nat.le_of_not_lt hl)
            ((firstMisfit_zero_eq_some_iff (Nat.le_refl 8)).mp hm)
        · exact absurd h (by simp)
  · rintro (hn | ⟨hn, hl⟩ | ⟨hn, hl, hm⟩)
    · rw [dif_pos hn]
    · have hlong : instructionCapacity < decl.instructions.length := hl
      rw [dif_neg hn, dif_pos hlong]
    · have hshort : ¬ instructionCapacity < decl.instructions.length := Nat.not_lt_of_le hl
      have hfound : firstMisfit registerCapacity 0 decl.instructions = some _ :=
        (firstMisfit_zero_eq_some_iff (Nat.le_refl 8)).mpr hm
      rw [dif_neg hn, dif_neg hshort]
      split
      · next h =>
        obtain ⟨rfl, rfl⟩ := Prod.mk.inj (Option.some.inj (h.symm.trans hfound))
        rfl
      · next h => exact absurd (h.symm.trans hfound) (by simp)

/-- The check against a width, where everything has been made already. -/
theorem check_eq_ok_iff_below {width : Nat} (hw : width ≤ 8) (a : Action) :
    a.check width = .ok () ↔ ∀ ins ∈ a.decl.instructions, ins.Below width := by
  rw [a.check_eq_ok_iff]
  exact forall₂_congr fun ins _ => ins.inBounds_iff_below hw

/-- An action is refused by a system for its first misfit, under its own name. -/
theorem check_eq_error_iff {width : Nat} (hw : width ≤ 8) (a : Action) (reason : MachineError) :
    a.check width = .error reason ↔
      ∃ position fault, FirstMisfit width a.decl.instructions position fault ∧
        reason = .invalidInstruction a.decl.name position fault := by
  unfold check decl
  constructor
  · intro h
    split at h
    · next position fault hm =>
      exact ⟨position, fault, (firstMisfit_zero_eq_some_iff hw).mp hm, (Except.error.inj h).symm⟩
    · exact absurd h (by simp)
  · rintro ⟨position, fault, hm, rfl⟩
    rw [(firstMisfit_zero_eq_some_iff hw).mpr hm]

end Action

/-! ## Checks of all actions

    First every action is made, then all of them are checked against the width and against the names before
    them.  The names met so far are carried along, so the induction is over lists with names already taken.
    -/

namespace Puzzle

/-- Actions are built from the declarations that they have. -/
theorem buildActions_eq_ok_iff {decls : List ActionDecl} {actions : List Action} :
    buildActions decls = .ok actions ↔ actions.map Action.decl = decls := by
  induction decls generalizing actions with
  | nil => simp [buildActions, eq_comm]
  | cons decl rest ih =>
    rw [buildActions]
    constructor
    · intro h
      split at h
      · exact absurd h (by simp)
      · next a ha =>
        cases hrest : buildActions rest with
        | error reason => exact absurd h (by simp [hrest, Except.map])
        | ok others =>
          rw [hrest] at h
          rw [← Except.ok.inj h, List.map_cons, Action.decl_of_make ha, ih.mp hrest]
    · intro h
      cases actions with
      | nil => exact absurd h (by simp)
      | cons a others =>
        obtain ⟨rfl, hothers⟩ := List.cons.inj h
        rw [a.make_decl, ih.mpr hothers]
        rfl

/-- The first declaration that cannot be made is the one that is reported. -/
theorem buildActions_eq_error_iff {decls : List ActionDecl} {reason : SetupError} :
    buildActions decls = .error reason ↔
      ∃ before decl, before ++ [decl] <+: decls ∧ (∀ b ∈ before, b.Sound) ∧
        ∃ fault, decl.FirstFault fault ∧ reason = .machine fault := by
  induction decls with
  | nil => exact iff_of_false (by simp [buildActions]) not_exists_prefix_nil
  | cons decl rest ih =>
    rw [buildActions]
    cases hmake : Action.make decl.name decl.instructions with
    | error fault =>
      -- the first declaration has the fault, and what stands behind it is not looked at
      have hnot : ¬ decl.Sound := by
        intro h
        obtain ⟨a, ha⟩ := Action.exists_make_of_sound h
        exact absurd (hmake.symm.trans ha) (by simp)
      have hfault : ∀ other, decl.FirstFault other ↔ fault = other := by
        intro other
        rw [← Action.make_eq_error_iff, hmake, Except.error.injEq]
      rw [exists_first_cons_of_not hnot]
      simp [hfault, eq_comm]
    | ok a =>
      have hsound : decl.Sound := Action.decl_of_make hmake ▸ a.sound_decl
      have hnot : ∀ fault, ¬ decl.FirstFault fault := by
        intro fault h
        exact absurd (hmake.symm.trans (Action.make_eq_error_iff.mpr h)) (by simp)
      have hmap : (buildActions rest).map (a :: ·) = .error reason ↔
          buildActions rest = .error reason := by
        cases buildActions rest <;> simp [Except.map]
      rw [exists_first_cons_of hsound]
      simp [hmap, ih, hnot]

end Puzzle

namespace ActionDecl

/-- Actions go together if the first one fits, shares its name with none of the others, and they go
    together. -/
theorem together_cons_iff {width : Nat} {decl : ActionDecl} {rest : List ActionDecl} :
    Together width (decl :: rest) ↔
      (∀ ins ∈ decl.instructions, ins.Below width) ∧ decl.name ∉ rest.map name ∧
        Together width rest := by
  constructor
  · rintro ⟨hbelow, hdistinct⟩
    rw [List.forall_mem_cons] at hbelow
    rw [List.map_cons, List.nodup_cons] at hdistinct
    exact ⟨hbelow.1, hdistinct.1, hbelow.2, hdistinct.2⟩
  · rintro ⟨hthis, hnew, hbelow, hdistinct⟩
    exact ⟨List.forall_mem_cons.mpr ⟨hthis, hbelow⟩, List.nodup_cons.mpr ⟨hnew, hdistinct⟩⟩

/-- Only which names are taken matters, not their order. -/
theorem Clash.mono {width : Nat} {taken others : List String} {decl : ActionDecl}
    {reason : SetupError} (h : decl.Clash width taken reason)
    (hsub : ∀ name ∈ taken, name ∈ others) : decl.Clash width others reason := by
  cases h with
  | misfit h => exact .misfit h
  | duplicate hb h => exact .duplicate hb (hsub _ h)

end ActionDecl

namespace Action

variable {width : Nat} {taken : List String} {a : Action} {reason : SetupError}

/-- An action that does not fit clashes by that, whatever its name. -/
theorem clash_iff_of_error (hw : width ≤ 8) {fault : MachineError}
    (h : a.check width = .error fault) :
    a.decl.Clash width taken reason ↔ .machine fault = reason := by
  constructor
  · rintro (hm | ⟨hb, -⟩)
    · have hfault := (a.check_eq_error_iff hw _).mpr ⟨_, _, hm, rfl⟩
      rw [Except.error.inj (h.symm.trans hfault)]
    · exact absurd (h.symm.trans ((a.check_eq_ok_iff_below hw).mpr hb)) (by simp)
  · rintro rfl
    obtain ⟨position, fault, hm, rfl⟩ := (a.check_eq_error_iff hw _).mp h
    exact .misfit hm

/-- An action that fits the width can only clash by its name. -/
theorem clash_iff_of_ok (hw : width ≤ 8) (h : a.check width = .ok ()) :
    a.decl.Clash width taken reason ↔ a.name ∈ taken ∧ .duplicateAction a.name = reason := by
  constructor
  · rintro (hm | ⟨-, hmem⟩)
    · have hfault := (a.check_eq_error_iff hw _).mpr ⟨_, _, hm, rfl⟩
      exact absurd (h.symm.trans hfault) (by simp)
    · exact ⟨hmem, rfl⟩
  · rintro ⟨hmem, rfl⟩
    exact .duplicate ((a.check_eq_ok_iff_below hw).mp h) hmem

end Action

namespace TransitionSystem

/-- **The first action that clashes is reported**, with the names in front of it taken into account. -/
theorem checkActions_eq_error_iff {width : Nat} (hw : width ≤ 8) {seen : List String}
    {actions : List Action} {reason : SetupError} :
    checkActions width seen actions = .error reason ↔
      ∃ before decl, before ++ [decl] <+: actions.map Action.decl ∧
        (ActionDecl.Together width before ∧ ∀ b ∈ before, b.name ∉ seen) ∧
        decl.Clash width (before.map ActionDecl.name ++ seen) reason := by
  induction actions generalizing seen with
  | nil => exact iff_of_false (by simp [checkActions]) not_exists_prefix_nil
  | cons a rest ih =>
    have htogether : ActionDecl.Together width [] := ⟨by simp, by simp⟩
    have hbelow := a.check_eq_ok_iff_below hw
    rw [List.map_cons, exists_prefix_cons, checkActions]
    cases hc : a.check width with
    | error fault =>
      have hnot : ¬ ∀ ins ∈ a.decl.instructions, ins.Below width := by simp [← hbelow, hc]
      simp [ActionDecl.together_cons_iff, hnot, htogether, Action.clash_iff_of_error hw hc]
    | ok u =>
      have hthis := hbelow.mp hc
      by_cases hseen : a.name ∈ seen
      · have hname : a.decl.name ∈ seen := hseen
        simp [hseen, hname, htogether, Action.clash_iff_of_ok hw hc]
      · have hname : a.decl.name ∉ seen := hseen
        -- The name moves from those seen to those of the actions before.
        have hmoved : ∀ (before : List ActionDecl) (other : String),
            other ∈ before.map ActionDecl.name ++ (a.name :: seen) ↔
              other ∈ (a.decl :: before).map ActionDecl.name ++ seen := by
          intro before other
          simp [or_left_comm, Action.decl]
        simp only [hseen, if_false, ih, ActionDecl.together_cons_iff]
        constructor
        · rintro ⟨before, decl, hat, ⟨hrest, hnew⟩, hclash⟩
          have hfresh : a.decl.name ∉ before.map ActionDecl.name := by
            intro hmem
            obtain ⟨b, hb, hsame⟩ := List.mem_map.mp hmem
            exact hnew b hb (hsame ▸ List.mem_cons_self ..)
          have hunseen : ∀ b ∈ a.decl :: before, b.name ∉ seen :=
            List.forall_mem_cons.mpr
              ⟨hname, fun b hb hmem => hnew b hb (List.mem_cons_of_mem _ hmem)⟩
          exact .inr ⟨before, decl, hat, ⟨⟨hthis, hfresh, hrest⟩, hunseen⟩,
            hclash.mono fun other h => (hmoved before other).mp h⟩
        · rintro (⟨-, hclash⟩ | ⟨before, decl, hat, ⟨⟨-, hfresh, hrest⟩, hunseen⟩, hclash⟩)
          · exact absurd ((Action.clash_iff_of_ok hw hc).mp hclash).1 hseen
          · have hnew : ∀ b ∈ before, b.name ∉ a.name :: seen := by
              intro b hb hmem
              rcases List.mem_cons.mp hmem with hsame | hmem
              · exact hfresh (List.mem_map.mpr ⟨b, hb, hsame⟩)
              · exact hunseen b (List.mem_cons_of_mem _ hb) hmem
            exact ⟨before, decl, hat, ⟨hrest, hnew⟩,
              hclash.mono fun other h => (hmoved before other).mpr h⟩

/-- In a system with no action yet, the actions are accepted if they can stand together. -/
theorem checkActions_eq_ok_iff_together {width : Nat} (hw : width ≤ 8) {actions : List Action} :
    checkActions width [] actions = .ok () ↔
      ActionDecl.Together width (actions.map Action.decl) := by
  have hnames : (actions.map Action.decl).map ActionDecl.name = actions.map Action.name := by
    rw [List.map_map]
    rfl
  rw [checkActions_eq_ok_iff]
  constructor
  · rintro ⟨hfits, -, hdistinct⟩
    exact ⟨List.forall_mem_map.mpr fun a ha => (a.check_eq_ok_iff_below hw).mp (hfits a ha),
      hnames ▸ hdistinct⟩
  · rintro ⟨hbelow, hdistinct⟩
    exact ⟨fun a ha => (a.check_eq_ok_iff_below hw).mpr (hbelow a.decl (List.mem_map_of_mem ha)),
      by simp, hnames ▸ hdistinct⟩

end TransitionSystem

/-! ## Checks of the target

    The guards are checked for their registers first, and only then for being guards. -/

namespace Goal

/-- The search for an effect finds the first one, counting from where it started. -/
theorem firstEffect_eq_some_iff {start position : Nat} {instructions : List Instruction}
    {effect : Instruction} :
    firstEffect start instructions = some (position, effect) ↔
      ∃ before ins, before ++ [ins] <+: instructions ∧ (∀ b ∈ before, b.isGuard = true) ∧
        ins.isGuard = false ∧ ins = effect ∧ position = start + before.length := by
  induction instructions generalizing start with
  | nil => exact iff_of_false (by simp [firstEffect]) not_exists_prefix_nil
  | cons ins rest ih =>
    rw [firstEffect]
    cases hg : ins.isGuard with
    | false =>
      rw [exists_first_cons_of_not (by simp [hg])]
      simp [hg, and_comm, eq_comm]
    | true =>
      rw [exists_first_cons_of (Q := fun b : Instruction => b.isGuard = true) hg]
      simp [ih, hg, Nat.add_assoc, Nat.add_comm 1]

/-- The first guard with a misfit is reported. -/
theorem checkBounds_eq_error_iff {width : Nat} (hw : width ≤ 8) {guards : List Instruction}
    {reason : SetupError} :
    checkBounds width guards = .error reason ↔
      ∃ before ins, before ++ [ins] <+: guards ∧ (∀ b ∈ before, b.Below width) ∧
        ∃ fault, ins.Misfit width fault ∧ reason = .machine (.registerOutOfRange fault) := by
  induction guards with
  | nil => exact iff_of_false (by simp [checkBounds]) not_exists_prefix_nil
  | cons ins rest ih =>
    have hbelow := ins.check_eq_ok_iff width
    have hmisfit := ins.check_eq_error_iff hw
    rw [ins.inBounds_iff_below hw] at hbelow
    rw [checkBounds]
    cases hc : ins.check width with
    | error fault =>
      have hnot : ¬ ins.Below width := by simp [← hbelow, hc]
      rw [exists_first_cons_of_not hnot]
      simp [← hmisfit, hc, eq_comm]
    | ok u =>
      have hnot : ∀ fault, ¬ ins.Misfit width fault := by simp [← hmisfit, hc]
      rw [exists_first_cons_of (hbelow.mp hc)]
      simp [ih, hnot]

/-- None is reported if all registers are there. -/
theorem checkBounds_eq_ok_iff {width : Nat} (hw : width ≤ 8) {guards : List Instruction} :
    checkBounds width guards = .ok () ↔ ∀ ins ∈ guards, ins.Below width := by
  induction guards with
  | nil => simp [checkBounds]
  | cons ins rest ih =>
    have hbelow := ins.check_eq_ok_iff width
    rw [ins.inBounds_iff_below hw] at hbelow
    rw [checkBounds, List.forall_mem_cons, ← hbelow, ← ih]
    cases ins.check width <;> simp

/-- A target passes if it is made of guards. -/
theorem checkGuards_eq_ok_iff {guards : List Instruction} :
    checkGuards guards = .ok () ↔ ∀ ins ∈ guards, ins.isGuard = true := by
  rw [← firstEffect_eq_none_iff 0]
  unfold checkGuards
  split <;> simp_all

/-- Otherwise the first instruction that is no guard is reported, with its position. -/
theorem checkGuards_eq_error_iff {guards : List Instruction} {reason : SetupError} :
    checkGuards guards = .error reason ↔
      ∃ before ins, before ++ [ins] <+: guards ∧ (∀ b ∈ before, b.isGuard = true) ∧
        ins.isGuard = false ∧ reason = .goalNotGuard before.length ins := by
  have hfirst : checkGuards guards = .error reason ↔
      ∃ position effect, firstEffect 0 guards = some (position, effect) ∧
        .goalNotGuard position effect = reason := by
    unfold checkGuards
    split <;> simp_all [and_assoc]
  simp only [hfirst, firstEffect_eq_some_iff]
  constructor
  · rintro ⟨position, effect, ⟨before, ins, hat, hbefore, hg, rfl, rfl⟩, rfl⟩
    exact ⟨before, ins, hat, hbefore, hg, by rw [Nat.zero_add]⟩
  · rintro ⟨before, ins, hat, hbefore, hg, rfl⟩
    exact ⟨before.length, ins, ⟨before, ins, hat, hbefore, hg, rfl, by rw [Nat.zero_add]⟩, rfl⟩

end Goal

end GuardedReach
