/-
  Independence — actions that keep out of each other's registers can be taken in either order.

  1. **Specification** — two actions are independent (`Action.Independent`) if neither writes a register
     that the other touches.  They may both look at a register that neither writes.

  2. **Verdicts** — what one of them leaves agrees with what it found on all that the other touches
     (`Independent.agreeOn`), so the other is refused after it exactly if it is refused before
     (`Independent.refused_iff`).

  3. **Effects** — whatever does not belong to the second action is, after both, as the first left it; and
     in the other order too (`Independent.get?_eq`).  No register belongs to both, so the two ends hold the
     same.

  4. **Statement** — `Action.independent_commute`.
-/
import GuardedReach.Proofs.Machine.Footprint

namespace GuardedReach

namespace Action

/-! ## Specification

    Writing and touching are said of the instructions, so that independence can be decided. -/

/-- Neither action writes what the other touches. -/
def Independent (a b : Action) : Prop :=
  ∀ i, (a.Writes i → ¬ b.Touches i) ∧ (b.Writes i → ¬ a.Touches i)

/-- The state after the action, which a refusal leaves as it was. -/
def attempted (a : Action) (s : State) : State :=
  (a.apply s).getD s

variable {a b : Action} {s t u v w : State} {i : Nat}

theorem touches_of_writes (h : a.Writes i) : a.Touches i := by
  obtain ⟨ins, hins, ⟨-, htarget⟩ | hsource⟩ := h
  · exact ⟨ins, hins, Or.inl htarget⟩
  · exact ⟨ins, hins, Or.inr hsource⟩

/-- What an action touches is one of the registers of a full file. -/
theorem lt_of_touches (h : a.Touches i) : i < registerCapacity := by
  obtain ⟨ins, hins, rfl | ⟨hop, rfl⟩⟩ := h
  · exact (a.inBounds ins hins).target_lt
  · exact (a.inBounds ins hins).source_lt ((Instruction.usesSource_iff ins).mpr hop)

/-- Registers beyond a full file are neither written nor touched, so it is enough to look at eight. -/
theorem independent_iff :
    Independent a b ↔
      ∀ i < registerCapacity, (a.Writes i → ¬ b.Touches i) ∧ (b.Writes i → ¬ a.Touches i) := by
  constructor
  · intro h i _
    exact h i
  · intro h i
    by_cases hi : i < registerCapacity
    · exact h i hi
    · have hfar : ∀ c : Action, ¬ c.Touches i := fun c htouches => hi (lt_of_touches htouches)
      exact ⟨fun _ => hfar b, fun _ => hfar a⟩

instance (a b : Action) : Decidable (Independent a b) :=
  decidable_of_iff' _ independent_iff

namespace Independent

theorem symm (h : Independent a b) : Independent b a :=
  fun i => (h i).symm

/-! ## Verdicts

    An action is refused by what it touches, and the other has left all of that alone. -/

/-- One action leaves all that the other touches as it was. -/
theorem agreeOn (h : Independent a b) (ha : a.apply s = some t) : State.AgreeOn b.Touches s t := by
  intro i hi
  exact (apply_frame ha fun hwrites => (h i).1 hwrites hi).symm

/-- What the other does after the one agrees with what it does without it. -/
theorem apply_agree (h : Independent a b) (ha : a.apply s = some t) :
    Option.Rel (State.AgreeOn b.Touches) (b.apply s) (b.apply t) :=
  Action.apply_agree (h.agreeOn ha) fun _ hi => hi

/-- After the first, the second is refused exactly if it is refused at once. -/
theorem refused_iff (h : Independent a b) (ha : a.apply s = some t) :
    b.apply t = none ↔ b.apply s = none := by
  have hrel := h.apply_agree ha
  generalize b.apply s = before, b.apply t = after at hrel
  cases hrel with
  | none => exact Iff.rfl
  | some _ => simp

/-! ## Effects

    Register by register: what an action does not write stays, and what it writes comes from what it
    touches. -/

/-- A register that the second action does not write holds the same in the end, whichever comes first. -/
theorem get?_eq (h : Independent a b) (ha : a.apply s = some t) (hb : b.apply s = some u)
    (hab : b.apply t = some v) (hba : a.apply u = some w) (hi : ¬ b.Writes i) :
    v.get? i = w.get? i := by
  have hkept : v.get? i = t.get? i := apply_frame hab hi
  by_cases htouches : a.Touches i
  · -- the first action saw the same registers both times
    have hrel := h.symm.apply_agree hb
    rw [ha, hba] at hrel
    cases hrel with
    | some hagree => exact hkept.trans (hagree i htouches)
  · have hwrites : ¬ a.Writes i := mt touches_of_writes htouches
    calc
      v.get? i = t.get? i := hkept
      _ = s.get? i := apply_frame ha hwrites
      _ = u.get? i := (apply_frame hb hi).symm
      _ = w.get? i := (apply_frame hba hwrites).symm

/-- Two actions that both happen lead to one state in either order. -/
theorem end_eq (h : Independent a b) (ha : a.apply s = some t) (hb : b.apply s = some u)
    (hab : b.apply t = some v) (hba : a.apply u = some w) : v = w := by
  refine State.ext_get? fun i => ?_
  by_cases hi : b.Writes i
  · have hi' : ¬ a.Writes i := fun hwrites => (h i).2 hi (touches_of_writes hwrites)
    exact (h.symm.get?_eq hb ha hba hab hi').symm
  · exact h.get?_eq ha hb hab hba hi

end Independent

/-! ## Statement

    In either order the two are refused together, and otherwise end the same. -/

/-- **Independent actions commute**, on every state, whether or not it has the registers they touch.

    1. One and then the other is refused, or leads to a state, exactly as in the other order.
    2. Where one happens the other is refused after it exactly if it would have been refused before it.
    3. If a refusal is passed over and the state kept, the end is the same in either order too. -/
theorem independent_commute (h : Independent a b) (s : State) :
    (a.apply s).bind b.apply = (b.apply s).bind a.apply ∧
    (∀ t, a.apply s = some t → (b.apply t = none ↔ b.apply s = none)) ∧
    (∀ t, b.apply s = some t → (a.apply t = none ↔ a.apply s = none)) ∧
    b.attempted (a.attempted s) = a.attempted (b.attempted s) := by
  have hafter : ∀ t, a.apply s = some t → (b.apply t = none ↔ b.apply s = none) :=
    fun t ht => h.refused_iff ht
  have hafter' : ∀ t, b.apply s = some t → (a.apply t = none ↔ a.apply s = none) :=
    fun t ht => h.symm.refused_iff ht
  unfold attempted
  cases ha : a.apply s with
  | none =>
    cases hb : b.apply s with
    | none => simp [ha, hb]
    | some u =>
      have hau : a.apply u = none := (hafter' u hb).mpr ha
      simp [hb, hau]
  | some t =>
    cases hb : b.apply s with
    | none =>
      have hbt : b.apply t = none := (hafter t ha).mpr hb
      simp [ha, hbt]
    | some u =>
      -- both happen, and so they do after each other
      have hbt : b.apply t ≠ none := fun hnone => by simp [(hafter t ha).mp hnone] at hb
      have hau : a.apply u ≠ none := fun hnone => by simp [(hafter' u hb).mp hnone] at ha
      obtain ⟨v, hv⟩ := Option.ne_none_iff_exists'.mp hbt
      obtain ⟨w, hw⟩ := Option.ne_none_iff_exists'.mp hau
      obtain rfl := h.end_eq ha hb hv hw
      simp [hv, hw]

/-- Pours from the third register into the second while the first is set. -/
def pouring : Action where
  name := "Tip"
  instructions := [.notEqual 0 0, .boundedTransfer 1 2 5]
  name_ne := by decide
  length_le := by decide
  inBounds := (firstMisfit_eq_none_iff registerCapacity 0 _).mp rfl

/-- Counts the fourth register up, but not to seven, while the first is set. -/
def counting : Action where
  name := "Count"
  instructions := [.notEqual 0 0, .add 3 1, .lessThan 3 7]
  name_ne := by decide
  length_le := by decide
  inBounds := (firstMisfit_eq_none_iff registerCapacity 0 _).mp rfl

/-- Two actions that look at one register: on a state on which both happen, on one on which the second is
    refused by a guard of its own, and on one too narrow for the second. -/
theorem pouring_counting_commute :
    Independent pouring counting ∧
    ∃ s t full narrow : State, s.active = [1, 3, 4, 5] ∧ t.active = [1, 5, 2, 6] ∧
      (pouring.apply s).bind counting.apply = some t ∧
      (counting.apply s).bind pouring.apply = some t ∧
      full.active = [1, 3, 4, 6] ∧ counting.apply full = none ∧
      (∀ u, pouring.apply full = some u → counting.apply u = none) ∧
      narrow.active = [1, 3, 4] ∧ counting.apply narrow = none ∧
      (counting.attempted (pouring.attempted narrow)).active = [1, 5, 2] ∧
      (pouring.attempted (counting.attempted narrow)).active = [1, 5, 2] := by
  let s : State := ⟨4, #v[1, 3, 4, 5, 0, 0, 0, 0], by decide, by decide, by decide⟩
  let full : State := ⟨4, #v[1, 3, 4, 6, 0, 0, 0, 0], by decide, by decide, by decide⟩
  let narrow : State := ⟨3, #v[1, 3, 4, 0, 0, 0, 0, 0], by decide, by decide, by decide⟩
  have hind : Independent pouring counting := by decide
  have hquery : ((pouring.apply s).bind counting.apply).map State.active = some [1, 5, 2, 6] := by
    decide
  obtain ⟨t, ht, hactive⟩ := Option.map_eq_some_iff.mp hquery
  obtain ⟨hboth, -⟩ := independent_commute hind s
  obtain ⟨-, hafter, -⟩ := independent_commute hind full
  obtain ⟨-, -, -, hkept⟩ := independent_commute hind narrow
  have hnarrow : (counting.attempted (pouring.attempted narrow)).active = [1, 5, 2] := by decide
  have hfull : counting.apply full = none := by decide
  exact ⟨hind, s, t, full, narrow, by decide, hactive, ht, hboth.symm.trans ht, by decide, hfull,
    fun u hu => (hafter u hu).mpr hfull, by decide, by decide, hnarrow, hkept ▸ hnarrow⟩

end Action

end GuardedReach
