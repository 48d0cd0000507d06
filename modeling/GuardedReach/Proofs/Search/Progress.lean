/-
  Progress — a search never fails, so it can be followed for any number of steps.

  1. **One step** — a search that has ended stays as it is (`step_of_terminal`), one with an empty
     frontier ends (`step_of_empty`), and what a step makes of a state it takes from the frontier is
     found or expanded (`Visits.stepped_found`, `Visits.stepped_expanded`).  What is queued is
     recorded, so a step that takes a state finds all it looks up (`Tree.exists_visits`), and no step
     fails (`Tree.exists_step`).

  2. **Many steps** — `steps n` takes `n` steps.  Every search that is trailed is `steps n` of its
     start for some `n` (`Trailed.exists_steps`), and once it has ended for every greater `n` too.
-/
import GuardedReach.Proofs.Search.Tree

namespace GuardedReach

namespace Explorer

variable {e f : Explorer}

/-! ## One step

    A step can fail for want of a state or of a link, and never does on a search that has come about. -/

theorem step_of_terminal (h : e.status.isTerminal = true) : e.step = .ok (e, []) := by
  unfold step
  rw [if_pos h]

theorem Stepped.eq_of_terminal {next : Explorer} {events : List Event} {leg : Trail}
    (h : Stepped e events leg next) (ht : e.status.isTerminal = true) : next = e := by
  have hne : e.status ≠ .running := by
    intro hr
    exact absurd (hr ▸ ht) (by simp [Status.isTerminal])
  cases h with
  | rested ht => rfl
  | ended hr hq => exact absurd hr hne
  | found hv hg => exact absurd hv.running hne
  | expanded hv hg => exact absurd hv.running hne

/-- With nothing queued a search ends. -/
theorem step_of_empty (hr : e.status = .running) (hq : e.frontier.toList = []) :
    e.step = .ok (e.ended, []) := by
  unfold step
  rw [if_neg (by simp [hr, Status.isTerminal]), (Frontier.pop?_eq_none_iff _).mpr hq]
  rfl

namespace Visits

variable {current : Fingerprint} {frontier : Frontier} {s : State} {link : Link}

/-- A step that takes a state from the frontier visits it. -/
theorem step_eq (h : e.Visits current frontier s link) :
    e.step = .ok (({ e with frontier } : Explorer).visit current s link.depth) := by
  unfold step
  rw [if_neg (by simp [h.running, Status.isTerminal])]
  simp only [h.popped, h.stored, h.linked]

/-- A step finds one state only. -/
theorem unique {current' : Fingerprint} {frontier' : Frontier} {s' : State} {link' : Link}
    (h : e.Visits current frontier s link) (h' : e.Visits current' frontier' s' link') :
    current' = current ∧ frontier' = frontier ∧ s' = s ∧ link' = link := by
  obtain ⟨rfl, rfl⟩ := Prod.mk.inj (Option.some.inj (h'.popped.symm.trans h.popped))
  exact ⟨rfl, rfl, Option.some.inj (h'.stored.symm.trans h.stored),
    Option.some.inj (h'.linked.symm.trans h.linked)⟩

theorem toList_ne_nil (h : e.Visits current frontier s link) : e.frontier.toList ≠ [] := by
  rw [Frontier.toList_eq_cons_of_pop? h.popped]
  exact List.cons_ne_nil _ _

variable {events : List Event} {leg : Trail} {next : Explorer}

/-- A step that takes a goal ends there. -/
theorem stepped_found (h : e.Visits current frontier s link) (hg : e.goal.holds s = true)
    (hs : Stepped e events leg next) : next = e.foundAt frontier link.depth current := by
  cases hs with
  | rested ht => exact absurd (h.running ▸ ht) (by simp [Status.isTerminal])
  | ended hr hq => exact absurd hq h.toList_ne_nil
  | found hv hg' =>
    obtain ⟨rfl, rfl, rfl, rfl⟩ := h.unique hv
    rfl
  | expanded hv hg' =>
    obtain ⟨rfl, rfl, rfl, rfl⟩ := h.unique hv
    exact absurd (hg.symm.trans hg') (by simp)

/-- A step that takes any other state expands it. -/
theorem stepped_expanded (h : e.Visits current frontier s link) (hg : e.goal.holds s = false)
    (hs : Stepped e events leg next) :
    next = ((e.opened frontier link.depth).expand current s link.depth 0 e.system.actions).1 ∧
      leg.expanded = [current] := by
  cases hs with
  | rested ht => exact absurd (h.running ▸ ht) (by simp [Status.isTerminal])
  | ended hr hq => exact absurd hq h.toList_ne_nil
  | found hv hg' =>
    obtain ⟨rfl, rfl, rfl, rfl⟩ := h.unique hv
    exact absurd (hg.symm.trans hg') (by simp)
  | expanded hv hg' =>
    obtain ⟨rfl, rfl, rfl, rfl⟩ := h.unique hv
    exact ⟨rfl, rfl⟩

end Visits

/-- What is queued is recorded. -/
theorem Tree.exists_visits {expanded rest : List Fingerprint} {current : Fingerprint}
    (h : Tree e expanded) (hr : e.status = .running)
    (hq : e.frontier.toList = current :: rest) :
    ∃ (frontier : Frontier) (s : State) (link : Link), e.Visits current frontier s link ∧
      frontier.toList = rest := by
  cases hp : e.frontier.pop? with
  | none =>
    rw [(Frontier.pop?_eq_none_iff _).mp hp] at hq
    exact absurd hq (by simp)
  | some pair =>
    obtain ⟨fp, frontier⟩ := pair
    rw [Frontier.toList_eq_cons_of_pop? hp] at hq
    obtain ⟨rfl, hrest⟩ := List.cons.inj hq
    have hm : fp ∈ expanded ++ e.pending := by
      rw [pending_of_running hr, Frontier.toList_eq_cons_of_pop? hp]
      simp
    obtain ⟨s, hs⟩ := Fingerprint.mem_iff_exists.mp ((h.mem_store fp).mpr hm)
    obtain ⟨link, hl⟩ := Fingerprint.mem_iff_exists.mp ((h.mem_parents fp).mpr hm)
    exact ⟨frontier, s, link, ⟨hr, hp, hs, hl⟩, hrest⟩

/-- **No step fails.** -/
theorem Tree.exists_step {expanded : List Fingerprint} (h : Tree e expanded) :
    ∃ next events, e.step = .ok (next, events) := by
  cases ht : e.status.isTerminal with
  | true => exact ⟨e, [], step_of_terminal ht⟩
  | false =>
    have hr := isTerminal_eq_false_iff.mp ht
    cases hq : e.frontier.toList with
    | nil => exact ⟨e.ended, [], step_of_empty hr hq⟩
    | cons current rest =>
      obtain ⟨frontier, s, link, hv, -⟩ := h.exists_visits hr hq
      exact ⟨_, _, hv.step_eq⟩

/-! ## Many steps

    Steps are counted by `steps`, so that something can be said of a search at any number of them. -/

/-- The explorer after `n` steps. -/
def steps (e : Explorer) : Nat → Except SearchError Explorer
  | 0 => .ok e
  | n + 1 =>
    match e.steps n with
    | .error reason => .error reason
    | .ok f => f.step.map Prod.fst

/-- The last of `n + 1` steps is taken where the others have led. -/
theorem steps_succ_eq_ok_iff {n : Nat} {g : Explorer} :
    e.steps (n + 1) = .ok g ↔ ∃ f events, e.steps n = .ok f ∧ f.step = .ok (g, events) := by
  rw [steps]
  cases e.steps n with
  | error reason => simp
  | ok f =>
    simp only
    constructor
    · intro h
      cases hs : f.step with
      | error reason =>
        rw [hs] at h
        exact absurd h (by simp [Except.map])
      | ok pair =>
        rw [hs] at h
        obtain rfl := Except.ok.inj h
        exact ⟨f, pair.2, rfl, hs⟩
    · rintro ⟨_, events, hf, hs⟩
      obtain rfl := Except.ok.inj hf
      simp only [hs]
      rfl

variable {system : TransitionSystem} {goal : Goal} {settings : Settings}

/-- Where steps lead, the search has a trail. -/
theorem Trailed.of_steps {trail : Trail} (h : Trailed system goal settings trail e) {n : Nat}
    (hf : e.steps n = .ok f) : ∃ trail', Trailed system goal settings trail' f := by
  induction n generalizing f with
  | zero =>
    obtain rfl := Except.ok.inj hf
    exact ⟨trail, h⟩
  | succ n ih =>
    obtain ⟨g, events, hg, hstep⟩ := steps_succ_eq_ok_iff.mp hf
    obtain ⟨trail', htrail⟩ := ih hg
    exact ⟨_, htrail.step hstep⟩

/-- Steps from the start leave a trail. -/
theorem trailed_of_steps (h : Explorer.start system goal settings = .ok e) {n : Nat}
    (hf : e.steps n = .ok f) : ∃ trail, Trailed system goal settings trail f :=
  (Trailed.start h).of_steps hf

/-- **Any number of steps can be taken.** -/
theorem exists_steps (h : Explorer.start system goal settings = .ok e) (n : Nat) :
    ∃ f, e.steps n = .ok f := by
  induction n with
  | zero => exact ⟨e, rfl⟩
  | succ n ih =>
    obtain ⟨f, hf⟩ := ih
    obtain ⟨trail, htrail⟩ := trailed_of_steps h hf
    obtain ⟨next, events, hstep⟩ := htrail.tree.exists_step
    exact ⟨next, steps_succ_eq_ok_iff.mpr ⟨f, events, hf, hstep⟩⟩

/-- Every search has come to where it is by some number of steps. -/
theorem Trailed.exists_steps {trail : Trail} (h : Trailed system goal settings trail f) :
    ∃ e n, Explorer.start system goal settings = .ok e ∧ e.steps n = .ok f := by
  induction h with
  | @start e h => exact ⟨e, 0, h, rfl⟩
  | step he h ih =>
    obtain ⟨e, n, hstart, hn⟩ := ih
    exact ⟨e, n + 1, hstart, steps_succ_eq_ok_iff.mpr ⟨_, _, hn, h⟩⟩

/-- A search that has ended stays as it is. -/
theorem steps_of_terminal {n m : Nat} (h : e.steps n = .ok f) (ht : f.status.isTerminal = true)
    (hle : n ≤ m) : e.steps m = .ok f := by
  induction hle with
  | refl => exact h
  | step hm ih => exact steps_succ_eq_ok_iff.mpr ⟨f, [], ih, step_of_terminal ht⟩

end Explorer

end GuardedReach
