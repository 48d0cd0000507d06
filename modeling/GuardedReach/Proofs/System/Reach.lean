/-
  Reachability — which states the actions of a system lead to, and how many of them it takes.

  1. **Words** — `follow` takes the actions at the positions of a word, one after the other, from a
     state.  Every position must be there and no action may refuse.

  2. **Specification** — `ReachableIn n s`: some word of length `n` leads from the initial state to
     `s`.  `Reachable` forgets the length, `IsDistance` asks that it be the least.

  3. **Recursion** — `reachableIn_zero_iff` and `reachableIn_succ_iff` peel the last action off, and
     are all that inductions over reachable states need.
-/
import GuardedReach.TransitionSystem

namespace GuardedReach

namespace TransitionSystem

variable {system : TransitionSystem}

/-! ## Words of actions

    A word is a list of positions.  It leads somewhere or not, depending on the state it is followed from.
    -/

/-- The state that a word of action positions leads to. -/
def follow (system : TransitionSystem) : List Nat → State → Option State
  | [], s => some s
  | index :: word, s =>
    match system.actions[index]? with
    | none => none
    | some a =>
      match a.apply s with
      | none => none
      | some t => system.follow word t

/-- A longer word goes on from where its first part has led. -/
theorem follow_append (front back : List Nat) (s : State) :
    system.follow (front ++ back) s = (system.follow front s).bind (system.follow back) := by
  induction front generalizing s with
  | nil => rfl
  | cons index front ih =>
    rw [List.cons_append, follow, follow]
    cases system.actions[index]? with
    | none => rfl
    | some a =>
      cases ha : a.apply s with
      | none => simp only [ha, Option.bind_none]
      | some t => simp only [ha]; exact ih t

/-- The last action of a word is taken on the state that the others have led to. -/
theorem follow_concat_eq_some_iff {word : List Nat} {index : Nat} {s t : State} :
    system.follow (word ++ [index]) s = some t ↔
      ∃ r a, system.follow word s = some r ∧ system.actions[index]? = some a ∧
        a.apply r = some t := by
  rw [follow_append, Option.bind_eq_some_iff]
  constructor
  · rintro ⟨r, hr, hlast⟩
    unfold follow at hlast
    split at hlast
    · exact absurd hlast (by simp)
    · next a ha =>
      split at hlast
      · exact absurd hlast (by simp)
      · next u hu => exact ⟨r, a, hr, ha, by rw [hu]; exact hlast⟩
  · rintro ⟨r, a, hr, ha, hat⟩
    exact ⟨r, hr, by simp only [follow, ha, hat]⟩

/-! ## Reachable states

    All that is reached by some word from the initial state. -/

/-- Some word of length `n` leads from the initial state to `s`. -/
def ReachableIn (system : TransitionSystem) (n : Nat) (s : State) : Prop :=
  ∃ word : List Nat, word.length = n ∧ system.follow word system.initial = some s

/-- Some word leads from the initial state to `s`. -/
def Reachable (system : TransitionSystem) (s : State) : Prop :=
  ∃ word : List Nat, system.follow word system.initial = some s

/-- The shortest words that lead from the initial state to `s` have length `n`. -/
def IsDistance (system : TransitionSystem) (n : Nat) (s : State) : Prop :=
  system.ReachableIn n s ∧ ∀ m, system.ReachableIn m s → n ≤ m

theorem reachable_iff_exists {s : State} : system.Reachable s ↔ ∃ n, system.ReachableIn n s := by
  constructor
  · rintro ⟨word, hw⟩
    exact ⟨word.length, word, rfl, hw⟩
  · rintro ⟨_, word, _, hw⟩
    exact ⟨word, hw⟩

/-- No action leads to the initial state only. -/
theorem reachableIn_zero_iff {s : State} : system.ReachableIn 0 s ↔ s = system.initial := by
  constructor
  · rintro ⟨word, hlen, hw⟩
    obtain rfl := List.eq_nil_of_length_eq_zero hlen
    exact (Option.some.inj hw).symm
  · rintro rfl
    exact ⟨[], rfl, rfl⟩

/-- What is reached in one action more is reached by that action from what was reached before. -/
theorem reachableIn_succ_iff {n : Nat} {t : State} :
    system.ReachableIn (n + 1) t ↔
      ∃ (s : State) (index : Nat) (a : Action), system.ReachableIn n s ∧
        system.actions[index]? = some a ∧ a.apply s = some t := by
  constructor
  · rintro ⟨word, hlen, hw⟩
    rcases List.eq_nil_or_concat word with rfl | ⟨front, index, rfl⟩
    · exact absurd hlen (by simp)
    · rw [List.concat_eq_append] at hlen hw
      obtain ⟨s, a, hs, ha, hat⟩ := follow_concat_eq_some_iff.mp hw
      exact ⟨s, index, a, ⟨front, by simpa using hlen, hs⟩, ha, hat⟩
  · rintro ⟨s, index, a, ⟨word, hlen, hw⟩, ha, hat⟩
    refine ⟨word ++ [index], by simp [hlen], ?_⟩
    exact follow_concat_eq_some_iff.mpr ⟨s, a, hw, ha, hat⟩

theorem reachable_initial : system.Reachable system.initial :=
  ⟨[], rfl⟩

theorem Reachable.step {s t : State} {index : Nat} {a : Action} (h : system.Reachable s)
    (ha : system.actions[index]? = some a) (hat : a.apply s = some t) : system.Reachable t := by
  obtain ⟨word, hw⟩ := h
  exact ⟨word ++ [index], follow_concat_eq_some_iff.mpr ⟨s, a, hw, ha, hat⟩⟩

/-- **Induction over reachable states.** -/
theorem Reachable.induction {P : State → Prop} (hinitial : P system.initial)
    (hstep : ∀ (s t : State) (index : Nat) (a : Action), P s → system.actions[index]? = some a →
      a.apply s = some t → P t)
    {s : State} (h : system.Reachable s) : P s := by
  obtain ⟨n, hn⟩ := reachable_iff_exists.mp h
  induction n generalizing s with
  | zero =>
    rw [reachableIn_zero_iff.mp hn]
    exact hinitial
  | succ n ih =>
    obtain ⟨r, index, a, hr, ha, hat⟩ := reachableIn_succ_iff.mp hn
    exact hstep r s index a (ih (reachable_iff_exists.mpr ⟨n, hr⟩) hr) ha hat

end TransitionSystem

end GuardedReach
