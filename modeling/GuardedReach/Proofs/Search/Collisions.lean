/-
  Collisions — what a search compares when it meets a fingerprint again, and what it counts.

  A state is compared with another as a whole, the cells beyond its width included.  Nothing can be seen of
  those cells; so what is counted is what can be seen only if they are the same in all states, however these
  were built and whatever was done to them.

  1. **Comparisons** — a successor whose fingerprint is known is compared with a state, never with nothing;
     and since nothing that is stored is ever replaced, that state can be looked up at any later time
     (`Trailed.compared`).

  2. **Counts** — so a collision is counted for every successor that differs in its active registers from
     the state it was compared with, and for no other (`Trailed.collisions_eq_countP`).

  3. **Statement** — `registers_represented`.
-/
import GuardedReach.Proofs.Machine.Bare
import GuardedReach.Proofs.Search.Accounting

namespace GuardedReach

namespace Explorer

variable {system : TransitionSystem} {goal : Goal} {settings : Settings} {trail : Trail}
  {e f : Explorer} {attempt : Attempt}

/-! ## Comparisons

    At the moment of an attempt both maps have the same keys, so there is a state to compare with. -/

/-- A successor whose fingerprint was known was compared with the state that is stored under it. -/
def Attempt.Compared (e : Explorer) (attempt : Attempt) : Prop :=
  ∀ (next : State) (stored : Option State), attempt = .known next stored →
    ∃ t : State, stored = some t ∧ e.store[next.fingerprint]? = some t

/-- A comparison can be made again later, with the same state. -/
theorem Attempt.Compared.mono (h : attempt.Compared e) (hx : Extends e f) : attempt.Compared f := by
  intro next stored hknown
  obtain ⟨t, hstored, ht⟩ := h next stored hknown
  exact ⟨t, hstored, hx.store _ _ ht⟩

/-- An attempt is compared when it is made. -/
theorem Tree.compared_attempt {expanded : List Fingerprint} (h : Tree e expanded) (a : Action)
    (s : State) : (e.attempt a s).Compared e := by
  intro next stored hknown
  have ht := tried_attempt e a s
  rw [hknown] at ht
  cases ht with
  | known ha hk =>
    obtain ⟨t, ht⟩ := Fingerprint.mem_iff_exists.mp ((h.mem_parents_iff_mem_store _).mp hk)
    exact ⟨t, ht, ht⟩

/-- One step compares whatever it meets again. -/
theorem Tree.compared_of_stepped {expanded : List Fingerprint} {events : List Event} {leg : Trail}
    (h : Tree e expanded) (hs : Stepped e events leg f) :
    ∀ attempt ∈ leg.attempts, attempt.Compared f := by
  cases hs with
  | rested ht => exact fun attempt hm => absurd hm List.not_mem_nil
  | ended hr hq => exact fun attempt hm => absurd hm List.not_mem_nil
  | found hv hg => exact fun attempt hm => absurd hm List.not_mem_nil
  | @expanded current frontier s link hv hg =>
    refine ((h.opened hv hg).induction
      (P := fun tries g => ∀ attempt ∈ tries, attempt.Compared g) ?_ ?_).2
    · exact fun attempt hm => absurd hm List.not_mem_nil
    · intro tries a g hg ha hcompared attempt hm
      have hx := hg.extends_record (tried_attempt g a s)
      rcases List.mem_append.mp hm with hm | hm
      · exact (hcompared attempt hm).mono hx
      · rw [List.mem_singleton.mp hm]
        exact (hg.tree.compared_attempt a s).mono hx

/-- Whatever a search has met again, it has compared. -/
theorem Trailed.compared (h : Trailed system goal settings trail e) :
    ∀ attempt ∈ trail.attempts, attempt.Compared e := by
  induction h with
  | start h => exact fun attempt hm => absurd hm List.not_mem_nil
  | step he h ih =>
    have hs := stepped_of_step h
    intro attempt hm
    rcases List.mem_append.mp hm with hm | hm
    · exact (ih attempt hm).mono (he.tree.extends_stepped hs)
    · exact he.tree.compared_of_stepped hs attempt hm

/-! ## Counts

    States that differ in a cell that can be seen differ in their active registers, since the other cells
    are zero. -/

/-- The successor was compared with a state whose active registers are others. -/
def Attempt.differs : Attempt → Bool
  | known next (some stored) => stored.active ≠ next.active
  | known _ none | refused _ | dropped _ | fresh _ => false

/-- That is, a state was stored under the fingerprint, and its active registers are others. -/
theorem Attempt.differs_iff :
    attempt.differs = true ↔
      ∃ next stored : State, attempt = .known next (some stored) ∧ stored.active ≠ next.active := by
  constructor
  · intro h
    cases attempt with
    | known next stored? =>
      cases stored? with
      | none => exact absurd h (by simp [differs])
      | some stored => exact ⟨next, stored, rfl, of_decide_eq_true h⟩
    | refused ins => exact absurd h (by simp [differs])
    | dropped budget => exact absurd h (by simp [differs])
    | fresh next => exact absurd h (by simp [differs])
  · rintro ⟨next, stored, rfl, hne⟩
    exact decide_eq_true hne

/-- Comparing whole states or their active registers makes no difference. -/
theorem Attempt.Compared.collides_eq_differs (h : attempt.Compared e) :
    attempt.collides = attempt.differs := by
  cases attempt with
  | known next stored =>
    obtain ⟨t, rfl, -⟩ := h next stored rfl
    have hsame : some t = some next ↔ t.active = next.active :=
      ⟨fun heq => congrArg State.active (Option.some.inj heq),
        fun heq => congrArg some (State.ext_active heq)⟩
    exact decide_eq_decide.mpr (not_congr hsame)
  | refused ins => rfl
  | dropped budget => rfl
  | fresh next => rfl

/-- **Collisions are differences that can be seen.** -/
theorem Trailed.collisions_eq_countP (h : Trailed system goal settings trail e) :
    e.stats.collisions = trail.attempts.countP Attempt.differs := by
  rw [h.counted.collisions]
  exact List.countP_congr fun attempt hm => by rw [(h.compared attempt hm).collides_eq_differs]

end Explorer

/-! ## Statement

    First of the register file alone, then of searches. -/

/-- **What a state is, is what can be seen of it.**

    1. A bare file is built, from a width, from values or from text, exactly where a state is, and is what
       is stored of it.
    2. Whatever is then done to it with instructions and actions of any indices, no access leaves the file;
       what comes of it is what comes of the state.  Its width stays as it was and in range, and the cells
       beyond are zero.
    3. So states are stored alike, and are the same, exactly if their active registers are.
    4. A search compares a successor whose fingerprint it knows with the state it stores under it, and has
       counted a collision for each that differs from it in the active registers, and no other. -/
theorem registers_represented :
    ((∀ width, Bare.zeros width = (State.zeros width).map State.bare) ∧
      (∀ values, Bare.ofList values = (State.ofList values).map State.bare) ∧
      ∀ value, Bare.ofJson? value = (State.ofJson? value).map State.bare) ∧
    (∀ (s : State) (calls : List Call), s.bare.after calls = some (s.after calls).bare ∧
      (s.after calls).bare.width = s.width ∧ (s.after calls).bare.WellFormed) ∧
    (∀ s t : State, (s.bare = t.bare ↔ s.active = t.active) ∧ (s = t ↔ s.active = t.active)) ∧
    ∀ (system : TransitionSystem) (goal : Goal) (settings : Settings) (trail : Explorer.Trail)
      (e : Explorer), Explorer.Trailed system goal settings trail e →
      (∀ attempt ∈ trail.attempts, attempt.Compared e) ∧
      e.stats.collisions = trail.attempts.countP Explorer.Attempt.differs := by
  refine ⟨⟨Bare.zeros_eq, Bare.ofList_eq, Bare.ofJson?_eq⟩, ?_, ?_, ?_⟩
  · intro s calls
    exact ⟨Bare.after_bare s calls, s.width_after calls, State.wellFormed_bare _⟩
  · intro s t
    exact ⟨s.wellFormed_bare.eq_iff t.wellFormed_bare, congrArg State.active, State.ext_active⟩
  · intro system goal settings trail e h
    exact ⟨h.compared, h.collisions_eq_countP⟩

/-- Two registers that can be set to contents of one fingerprint, and a third that counts to two. -/
def colliding : Puzzle where
  name := "colliding"
  registers := [{ name := "high", initial := 0 }, { name := "low", initial := 0 },
    { name := "count", initial := 0 }]
  actions :=
    [{ name := "First",
        instructions := [.assign 0 2073202302234155118, .assign 1 5849824808168395104] },
      { name := "Second",
        instructions := [.assign 0 4067450386220341358, .assign 1 6643862612660324397] },
      { name := "Up", instructions := [.lessThan 2 2, .add 2 1] }]
  target := [.equal 2 3]

/-- An action that a file of two registers refuses when it has already written one. -/
def misfitting : Action where
  name := "Misfit"
  instructions := [.assign 0 9, .add 5 1]
  name_ne := by decide
  length_le := by decide
  inBounds := (firstMisfit_eq_none_iff registerCapacity 0 _).mp rfl

/-- Calls that ask for registers far out of range, on a file of two registers; and a search that takes
    contents of one fingerprint for each other. -/
theorem colliding_represented :
    (∃ (s : State) (f : Bare), s.active = [1, 2] ∧
      s.bare.after [.execute (.assign 200 9), .execute (.boundedTransfer 0 1 9), .apply misfitting,
        .execute (.boundedTransfer 7 0 9)] = some f ∧
      f.WellFormed ∧ f.active = [3, 0]) ∧
    ∃ (system : TransitionSystem) (goal : Goal) (trail : Explorer.Trail) (e : Explorer),
      colliding.build = .ok (system, goal) ∧
      Explorer.Trailed system goal Settings.default trail e ∧ e.stats.collisions = 6 ∧
      ∃ next t : State, .known next (some t) ∈ trail.attempts ∧
        e.store[next.fingerprint]? = some t ∧ t.active ≠ next.active := by
  obtain ⟨-, hcalls, -, hsearches⟩ := registers_represented
  constructor
  · let s : State := ⟨2, #v[1, 2, 0, 0, 0, 0, 0, 0], by decide, by decide, by decide⟩
    obtain ⟨hafter, -, hwell⟩ := hcalls s [.execute (.assign 200 9), .execute (.boundedTransfer 0 1 9),
      .apply misfitting, .execute (.boundedTransfer 7 0 9)]
    exact ⟨s, _, by decide, hafter, hwell, by decide⟩
  · have hquery : (colliding.finish Settings.default).any
        (fun finished => finished.explorer.stats.collisions == 6) = true := by decide +kernel
    obtain ⟨finished, hfinish, hcount⟩ := (Option.any_eq_true ..).mp hquery
    obtain ⟨system, goal, e, hbuild, hstart, hrun⟩ := Puzzle.exists_of_finish hfinish
    obtain ⟨trail, htrail⟩ := ((Explorer.Arises.start hstart).run hrun).trailed
    obtain ⟨hcompared, hcollisions⟩ := hsearches system goal _ trail _ htrail
    have hsix : finished.explorer.stats.collisions = 6 := beq_iff_eq.mp hcount
    have hpos : 0 < trail.attempts.countP Explorer.Attempt.differs := by omega
    -- look at one of the attempts counted
    obtain ⟨attempt, hm, hdiffers⟩ := List.countP_pos_iff.mp hpos
    obtain ⟨next, t, rfl, hne⟩ := Explorer.Attempt.differs_iff.mp hdiffers
    obtain ⟨u, hu, hstored⟩ := hcompared _ hm next (some t) rfl
    obtain rfl := Option.some.inj hu
    exact ⟨system, goal, trail, finished.explorer, hbuild, htrail, hsix, next, t, hm, hstored, hne⟩

end GuardedReach
