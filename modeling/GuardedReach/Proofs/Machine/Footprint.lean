/-
  Footprints — which registers an action depends on, and which it may change.

  1. **Specification** — an instruction touches its target and, if it is a transfer, its source; it may
     change them unless it is a guard (`Touches`, `Writes`).  An action does what its instructions do.
     `State.AgreeOn`: two states, of one width or of two, hold the same in the registers named.  A
     register that neither has is no difference.

  2. **Frame** — what is not written stays (`execute_frame`), over a sequence by induction
     (`runAll_frame`).

  3. **Noninterference** — on states that agree on a set of registers, an instruction that touches no
     other is refused by both or by neither, and the states it leads to agree on the set again
     (`execute_agree`).  The set is that of the whole action, for a later instruction reads what an
     earlier one has written; so it stays fixed in the induction (`runAll_agree`).

  4. **Sources** — an instruction that is no transfer ignores its source (`execute_congr`).

  5. **Statement** — `Action.apply_within_footprint`.
-/
import GuardedReach.Proofs.Machine.Execution
import Mathlib.Data.List.Forall2

namespace GuardedReach

/-! ## Specification

    What an instruction touches and writes is read off its opcode and its registers, without running it. -/

/-- The states hold the same in the registers named, or neither has the register. -/
def State.AgreeOn (registers : Nat → Prop) (s t : State) : Prop :=
  ∀ i, registers i → s.get? i = t.get? i

namespace Instruction

/-- The instruction looks at the register or changes it. -/
def Touches (ins : Instruction) (i : Nat) : Prop :=
  ins.target.toNat = i ∨ ins.opcode = .boundedTransfer ∧ ins.source.toNat = i

/-- The instruction may change the register. -/
def Writes (ins : Instruction) (i : Nat) : Prop :=
  ins.isGuard = false ∧ ins.target.toNat = i ∨ ins.opcode = .boundedTransfer ∧ ins.source.toNat = i

instance (ins : Instruction) (i : Nat) : Decidable (ins.Touches i) :=
  inferInstanceAs (Decidable (_ ∨ _))

instance (ins : Instruction) (i : Nat) : Decidable (ins.Writes i) :=
  inferInstanceAs (Decidable (_ ∨ _))

/-- The instructions differ in nothing but a source that neither has a use for. -/
structure SameUse (ins other : Instruction) : Prop where
  opcode : other.opcode = ins.opcode
  target : other.target = ins.target
  source : ins.opcode = .boundedTransfer → other.source = ins.source
  amount : other.amount = ins.amount

end Instruction

namespace Action

/-- An action touches what one of its instructions touches, -/
def Touches (a : Action) (i : Nat) : Prop :=
  ∃ ins ∈ a.instructions, ins.Touches i

/-- and may change what one of them may change. -/
def Writes (a : Action) (i : Nat) : Prop :=
  ∃ ins ∈ a.instructions, ins.Writes i

instance (a : Action) (i : Nat) : Decidable (a.Touches i) :=
  inferInstanceAs (Decidable (∃ ins ∈ a.instructions, ins.Touches i))

instance (a : Action) (i : Nat) : Decidable (a.Writes i) :=
  inferInstanceAs (Decidable (∃ ins ∈ a.instructions, ins.Writes i))

end Action

/-! ## Agreement

    To agree on registers is a relation between two states of any widths. -/

namespace State.AgreeOn

variable {registers : Nat → Prop} {s t : State}

/-- It does not matter which of the two comes first. -/
theorem symm (h : AgreeOn registers s t) : AgreeOn registers t s :=
  fun i hi => (h i hi).symm

/-- What one state holds in a register named is there in the other. -/
theorem exists_read (h : AgreeOn registers s t) {i : Nat} (hi : registers i) (hs : i < s.width) :
    ∃ ht : i < t.width, t.read i ht = s.read i hs :=
  get?_eq_some_iff.mp ((h i hi).symm.trans (get?_eq_some_iff.mpr ⟨hs, rfl⟩))

/-- A register that counts is there in both or in neither. -/
theorem lt_width_iff (h : AgreeOn registers s t) {i : Nat} (hi : registers i) :
    i < s.width ↔ i < t.width :=
  ⟨fun hs => (h.exists_read hi hs).1, fun ht => (h.symm.exists_read hi ht).1⟩

/-- Where it is there, both hold the same in it. -/
theorem read (h : AgreeOn registers s t) {i : Nat} (hi : registers i) (hs : i < s.width)
    (ht : i < t.width) : s.read i hs = t.read i ht :=
  (h.exists_read hi hs).2.symm

/-- After writing the same value to the same register they still agree. -/
theorem write (h : AgreeOn registers s t) {i : Nat} (hs : i < s.width) (ht : i < t.width)
    (value : Int64) : AgreeOn registers (s.write i hs value) (t.write i ht value) := by
  intro j hj
  rw [get?_write, get?_write, h j hj]

end State.AgreeOn

namespace Instruction

variable {registers : Nat → Prop} {ins other : Instruction} {s t : State}

/-- An instruction fits if all registers it touches are there. -/
theorem inBounds_iff_touches (ins : Instruction) (s : State) :
    ins.InBounds s.width ↔ ∀ i, ins.Touches i → i < s.width := by
  have hmin : min s.width registerCapacity = s.width := Nat.min_eq_left s.width_le
  unfold InBounds
  rw [hmin, usesSource_iff]
  constructor
  · rintro ⟨htarget, hsource⟩ i (rfl | ⟨hop, rfl⟩)
    · exact htarget
    · exact hsource hop
  · intro h
    exact ⟨h _ (Or.inl rfl), fun hop => h _ (Or.inr ⟨hop, rfl⟩)⟩

/-! ## Frame

    A transfer writes two registers and every other effect one, so the rest can be told to be what it was.
    -/

/-- A transfer leaves every other register alone. -/
theorem get?_transfer {target source : Nat} (htarget : target < s.width) (hsource : source < s.width)
    (capacity : Int64) {i : Nat} (hi : i ≠ target) (hi' : i ≠ source) :
    (transfer s target source htarget hsource capacity).get? i = s.get? i := by
  unfold transfer
  split
  · rfl
  · refine (State.get?_write _ target _ _ i).trans ?_
    rw [if_neg hi.symm, State.get?_write, if_neg hi'.symm]

/-- What an instruction does not write stays. -/
theorem execute_frame (h : ins.execute s = some t) {i : Nat} (hi : ¬ ins.Writes i) :
    t.get? i = s.get? i := by
  by_cases hguard : ins.isGuard = true
  · rw [execute_guard hguard h]
  · have heffect : ins.isGuard = false := Bool.eq_false_iff.mpr hguard
    have htarget : i ≠ ins.target.toNat := fun heq => hi (Or.inl ⟨heffect, heq.symm⟩)
    have hfits := inBounds_of_execute h
    cases huses : ins.opcode.usesSource with
    | false =>
      rw [execute_of_unary huses hfits] at h
      split at h
      · obtain rfl := Option.some.inj h
        rw [State.get?_write, if_neg htarget.symm]
      · exact absurd h (by simp)
    | true =>
      have hop := (usesSource_iff ins).mp huses
      have hsource : i ≠ ins.source.toNat := fun heq => hi (Or.inr ⟨hop, heq.symm⟩)
      rw [execute_of_transfer hop hfits] at h
      obtain rfl := Option.some.inj h
      exact get?_transfer _ _ _ htarget hsource

/-! ## Noninterference

    Two states that agree on what is touched are treated alike: the same comparison is made, and the same
    values are written. -/

/-- A transfer between registers that count keeps the agreement. -/
theorem transfer_agree (h : State.AgreeOn registers s t) {i j : Nat} (hi : registers i)
    (hj : registers j) (his : i < s.width) (hjs : j < s.width) (hit : i < t.width)
    (hjt : j < t.width) (capacity : Int64) :
    State.AgreeOn registers (transfer s i j his hjs capacity) (transfer t i j hit hjt capacity) := by
  unfold transfer
  split
  · exact h
  · rw [h.read hi his hit, h.read hj hjs hjt]
    exact (h.write hjs hjt _).write his hit _

/-- **States that agree on what an instruction touches are told apart by nothing it does.** -/
theorem execute_agree (h : State.AgreeOn registers s t) (htouches : ∀ i, ins.Touches i → registers i) :
    Option.Rel (State.AgreeOn registers) (ins.execute s) (ins.execute t) := by
  have hbounds : ins.InBounds s.width ↔ ins.InBounds t.width := by
    rw [inBounds_iff_touches, inBounds_iff_touches]
    exact forall₂_congr fun i hi => h.lt_width_iff (htouches i hi)
  by_cases hfits : ins.InBounds s.width
  · have hfits' := hbounds.mp hfits
    have htarget : registers ins.target.toNat := htouches _ (Or.inl rfl)
    cases huses : ins.opcode.usesSource with
    | false =>
      rw [execute_of_unary huses hfits, execute_of_unary huses hfits',
        h.read htarget hfits.target_lt hfits'.target_lt]
      split
      · exact .some (h.write hfits.target_lt hfits'.target_lt _)
      · exact .none
    | true =>
      have hop := (usesSource_iff ins).mp huses
      have hsource : registers ins.source.toNat := htouches _ (Or.inr ⟨hop, rfl⟩)
      rw [execute_of_transfer hop hfits, execute_of_transfer hop hfits']
      exact .some (transfer_agree h htarget hsource _ _ _ _ _)
  · rw [execute_of_not_inBounds hfits, execute_of_not_inBounds (mt hbounds.mpr hfits)]
    exact .none

/-! ## Sources

    An instruction that is no transfer has a source nevertheless, and it makes no difference. -/

/-- Instructions that differ in an unused source touch the same registers. -/
theorem SameUse.touches_iff (h : ins.SameUse other) (i : Nat) : other.Touches i ↔ ins.Touches i := by
  unfold Touches
  rw [h.opcode, h.target]
  exact or_congr_right (and_congr_right fun hop => by rw [h.source hop])

/-- Instructions of the same use do the same. -/
theorem execute_congr (h : ins.SameUse other) (s : State) : other.execute s = ins.execute s := by
  have hbounds : other.InBounds s.width ↔ ins.InBounds s.width := by
    rw [inBounds_iff_touches, inBounds_iff_touches]
    exact forall_congr' fun i => imp_congr_left (h.touches_iff i)
  obtain ⟨opcode, target, source, amount⟩ := ins
  obtain ⟨opcode', target', source', amount'⟩ := other
  obtain ⟨rfl, rfl, hsource, rfl⟩ := h
  by_cases hop : opcode' = .boundedTransfer
  · obtain rfl : source' = source := hsource hop
    rfl
  · have huses : opcode'.usesSource = false :=
      Bool.eq_false_iff.mpr (mt (usesSource_iff ⟨opcode', target', source', amount'⟩).mp hop)
    by_cases hfits : InBounds ⟨opcode', target', source', amount'⟩ s.width
    · rw [execute_of_unary huses hfits, execute_of_unary huses (hbounds.mp hfits)]
      rfl
    · rw [execute_of_not_inBounds hfits, execute_of_not_inBounds (mt hbounds.mpr hfits)]

end Instruction

/-! ## Instruction sequences

    What holds of each instruction holds of a sequence, by induction over it; the registers that count are
    those of the whole sequence from the beginning. -/

/-- A register that none of them may change is what it was at the end. -/
theorem runAll_frame {instructions : List Instruction} {s t : State}
    (h : runAll instructions s = .ok t) {i : Nat} (hi : ∀ ins ∈ instructions, ¬ ins.Writes i) :
    t.get? i = s.get? i := by
  refine runAll_induction (P := fun u => u.get? i = s.get? i) ?_ rfl h
  intro ins hins u v hu hexecute
  rw [Instruction.execute_frame hexecute (hi ins hins), hu]

/-- **Both runs come to an end or neither does**, and the ends agree. -/
theorem runAll_agree {registers : Nat → Prop} {instructions : List Instruction} {s t : State}
    (h : State.AgreeOn registers s t)
    (htouches : ∀ ins ∈ instructions, ∀ i, ins.Touches i → registers i) :
    Option.Rel (State.AgreeOn registers) (runAll instructions s).toOption
      (runAll instructions t).toOption := by
  induction instructions generalizing s t with
  | nil => exact .some h
  | cons ins rest ih =>
    have hfirst := Instruction.execute_agree h (htouches ins (List.mem_cons_self ..))
    have hrest : ∀ ins' ∈ rest, ∀ i, ins'.Touches i → registers i :=
      fun ins' hins' => htouches ins' (List.mem_cons_of_mem _ hins')
    rw [runAll, runAll]
    generalize ins.execute s = next, ins.execute t = next' at hfirst
    cases hfirst with
    | none => exact .none
    | some hnext => exact ih hnext hrest

/-- Unused sources make no difference to a sequence. -/
theorem runAll_congr {instructions others : List Instruction}
    (h : List.Forall₂ Instruction.SameUse instructions others) (s : State) :
    (runAll others s).toOption = (runAll instructions s).toOption := by
  induction h generalizing s with
  | nil => rfl
  | @cons ins other rest rest' hsame hrest ih =>
    rw [runAll, runAll, Instruction.execute_congr hsame]
    cases ins.execute s with
    | none => rfl
    | some next => exact ih next

/-! ## Actions

    An action is checked and then run on a copy, and neither looks at anything outside its footprint. -/

namespace Action

variable {a b : Action} {s t : State}

/-- What an action may not change stays what it was. -/
theorem apply_frame (h : a.apply s = some t) {i : Nat} (hi : ¬ a.Writes i) : t.get? i = s.get? i :=
  runAll_frame (apply_eq_some_iff.mp h) fun ins hins hwrites => hi ⟨ins, hins, hwrites⟩

/-- Whether states agree on what an action touches can be seen from its instructions. -/
theorem agreeOn_touches_iff :
    State.AgreeOn a.Touches s t ↔ ∀ ins ∈ a.instructions,
      s.get? ins.target.toNat = t.get? ins.target.toNat ∧
        (ins.opcode = .boundedTransfer → s.get? ins.source.toNat = t.get? ins.source.toNat) := by
  constructor
  · intro h ins hins
    exact ⟨h _ ⟨ins, hins, Or.inl rfl⟩, fun hop => h _ ⟨ins, hins, Or.inr ⟨hop, rfl⟩⟩⟩
  · rintro h i ⟨ins, hins, rfl | ⟨hop, rfl⟩⟩
    · exact (h ins hins).1
    · exact (h ins hins).2 hop

/-- Two states that agree on what it touches are both refused, or lead to states that agree again. -/
theorem apply_agree {registers : Nat → Prop} (h : State.AgreeOn registers s t)
    (htouches : ∀ i, a.Touches i → registers i) :
    Option.Rel (State.AgreeOn registers) (a.apply s) (a.apply t) :=
  runAll_agree h fun ins hins i hi => htouches i ⟨ins, hins, hi⟩

/-- **The footprint of an action.**

    1. An action that happens keeps the width, and what it does not write.
    2. On two states that hold the same in the registers it touches, of whatever widths, it is refused
       twice or happens twice, and then what it leaves in those registers is the same.
    3. The source of an instruction that is no transfer makes no difference, to the instruction or to an
       action that holds it. -/
theorem apply_within_footprint :
    (∀ (a : Action) (s t : State), a.apply s = some t →
      t.width = s.width ∧ ∀ i, ¬ a.Writes i → t.get? i = s.get? i) ∧
    (∀ (a : Action) (s t : State), State.AgreeOn a.Touches s t →
      Option.Rel (State.AgreeOn a.Touches) (a.apply s) (a.apply t)) ∧
    (∀ (ins other : Instruction), ins.SameUse other →
      ∀ s : State, other.execute s = ins.execute s) ∧
    ∀ (a b : Action), List.Forall₂ Instruction.SameUse a.instructions b.instructions →
      ∀ s : State, b.apply s = a.apply s := by
  refine ⟨?_, ?_, fun ins other h s => Instruction.execute_congr h s,
    fun a b h s => runAll_congr h s⟩
  · intro a s t h
    exact ⟨width_apply h, fun i hi => apply_frame h hi⟩
  · intro a s t h
    exact apply_agree h fun i hi => hi

/-- Pours from the first register to the second, unless the first holds five or the third nothing. -/
def guardedPour (unused : UInt8) : Action where
  name := "Pour"
  instructions :=
    [{ opcode := .lessThan, target := 0, source := unused, amount := 5 },
      .boundedTransfer 1 0 3,
      { opcode := .notEqual, target := 2, source := unused, amount := 0 }]
  name_ne := by decide
  length_le := show 3 ≤ 16 by decide
  inBounds := (firstMisfit_eq_none_iff registerCapacity 0 _).mp rfl

/-- Two states that differ beyond the registers touched, and an action beside one that differs in sources
    not used. -/
theorem guardedPour_within_footprint :
    ∃ s t s' t' : State, s.active = [4, 1, 9] ∧ t.active = [4, 1, 9, 77] ∧
      State.AgreeOn (guardedPour 0).Touches s t ∧
      (guardedPour 0).apply s = some s' ∧ s'.active = [2, 3, 9] ∧
      (guardedPour 0).apply t = some t' ∧
      State.AgreeOn (guardedPour 0).Touches s' t' ∧
      t'.width = 4 ∧ t'.get? 2 = some 9 ∧ t'.get? 3 = some 77 ∧
      List.Forall₂ Instruction.SameUse (guardedPour 0).instructions
        (guardedPour 255).instructions ∧
      (guardedPour 255).apply s = some s' := by
  let s : State := ⟨3, #v[4, 1, 9, 0, 0, 0, 0, 0], by decide, by decide, by decide⟩
  let t : State := ⟨4, #v[4, 1, 9, 77, 0, 0, 0, 0], by decide, by decide, by decide⟩
  have hst : State.AgreeOn (guardedPour 0).Touches s t := agreeOn_touches_iff.mpr (by decide)
  have hactive : ((guardedPour 0).apply s).map State.active = some [2, 3, 9] := by decide
  obtain ⟨s', hs', hafter⟩ := Option.map_eq_some_iff.mp hactive
  obtain ⟨hframe, hagree, -, hsources⟩ := apply_within_footprint
  have hrel := hagree (guardedPour 0) s t hst
  rw [hs'] at hrel
  generalize ht' : (guardedPour 0).apply t = next at hrel
  cases hrel with
  | some hst' =>
    obtain ⟨hwidth, hkept⟩ := hframe _ _ _ ht'
    have hsame : List.Forall₂ Instruction.SameUse (guardedPour 0).instructions
        (guardedPour 255).instructions :=
      .cons ⟨rfl, rfl, by decide, rfl⟩ (.cons ⟨rfl, rfl, by decide, rfl⟩
        (.cons ⟨rfl, rfl, by decide, rfl⟩ .nil))
    exact ⟨s, t, s', _, rfl, rfl, hst, hs', hafter, ht', hst', hwidth, hkept 2 (by decide),
      hkept 3 (by decide), hsame, (hsources _ _ hsame s).trans hs'⟩

end Action

end GuardedReach
