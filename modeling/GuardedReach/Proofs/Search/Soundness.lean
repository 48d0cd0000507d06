/-
  Soundness — a trace that a search returns runs the system, whatever the hash does.

  1. **Specification** — `Witness.Sound system goal w`: the trace starts at the initial state, each
     step is led to by the one action of its name from the step before, the last state is a goal and
     none before it is, and no state occurs twice.

  2. **Lineages** — the trace is the lineage of the goal (`Lineage.reconstruct_eq_ok`), and the tree
     says of each link of a lineage what soundness asks of two steps in a row (`Tree.chain`).  All
     steps but the last stand at fingerprints that have been expanded, and were tested before that
     (`Tree.expanded_of_lineage`).

  3. **Statement** — `Arises.witness_sound`.
-/
import GuardedReach.Proofs.Puzzle.Search
import GuardedReach.Proofs.Search.Tree
import Mathlib.Data.List.Chain

namespace GuardedReach

/-! ## Sound traces

    Nothing is said here of fingerprints, and nothing of how a trace was found. -/

/-- One action of the system, and no other, has the name that the later step carries, and it leads
    from the state of the earlier step to that of the later. -/
def Step.Leads (system : TransitionSystem) (before after : Step) : Prop :=
  ∃ (index : Nat) (a : Action), system.actions[index]? = some a ∧ after.action = some a.name ∧
    (∀ (other : Nat) (b : Action), system.actions[other]? = some b → after.action = some b.name →
      other = index) ∧
    a.apply before.state = some after.state

/-- A trace of the system that ends at its first goal and repeats nothing. -/
structure Witness.Sound (system : TransitionSystem) (goal : Goal) (w : Witness) : Prop where
  starts : w.steps.head? = some
    { action := none, state := system.initial, fingerprint := system.initial.fingerprint }
  leads : w.steps.IsChain (Step.Leads system)
  filed : ∀ step ∈ w.steps, step.fingerprint = step.state.fingerprint
  ends : ∃ (front : List Step) (last : Step), w.steps = front ++ [last] ∧
    goal.holds last.state = true ∧ ∀ step ∈ front, goal.holds step.state = false
  fingerprints_nodup : (w.steps.map Step.fingerprint).Nodup
  states_nodup : w.states.Nodup

/-- The names of a system tell its actions apart. -/
theorem TransitionSystem.index_unique (system : TransitionSystem) {i j : Nat} {a b : Action}
    (ha : system.actions[i]? = some a) (hb : system.actions[j]? = some b) (hname : a.name = b.name) :
    i = j := by
  have hi : (system.actions.map Action.name)[i]? = some a.name := by rw [List.getElem?_map, ha]; rfl
  have hj : (system.actions.map Action.name)[j]? = some b.name := by rw [List.getElem?_map, hb]; rfl
  obtain ⟨hlen, -⟩ := List.getElem?_eq_some_iff.mp hi
  refine (List.getElem?_inj hlen system.distinct).mp ?_
  rw [hi, hj, hname]

/-! ## Lineages in a tree

    What the tree says of each link, said of the whole way from the root. -/

namespace Explorer

namespace Tree

variable {e : Explorer} {expanded : List Fingerprint} {fp : Fingerprint} {steps : List Step}

/-- A lineage begins at the root. -/
theorem head?_lineage (h : Tree e expanded)
    (hl : Lineage e.parents e.store e.system.actions fp steps) :
    steps.head? = some { action := none, state := e.system.initial, fingerprint := e.root } := by
  induction hl with
  | @root fp link step hv hp =>
    obtain ⟨s, name, hlink, hs, hname, rfl⟩ := Witness.visit_eq_ok_iff.mp hv
    obtain rfl := h.eq_root_of_visit hv hp
    obtain rfl := Option.some.inj (h.root_linked.symm.trans hlink)
    obtain rfl := Option.some.inj (h.root_stored.symm.trans hs)
    obtain rfl := Except.ok.inj hname
    rfl
  | child hv hp hl ih => rw [List.head?_append, ih]; rfl

/-- Each step of a lineage leads to the next. -/
theorem chain (h : Tree e expanded) (hl : Lineage e.parents e.store e.system.actions fp steps) :
    steps.IsChain (Step.Leads e.system) := by
  induction hl with
  | root hv hp => exact .singleton _
  | @child fp link step steps hv hp hl ih =>
    obtain ⟨index, a, s, t', hindex, ha, hs, ht', hat⟩ := (h.branch_of_visit hv hp).edge
    obtain ⟨t, name, hlink, ht, hname, rfl⟩ := Witness.visit_eq_ok_iff.mp hv
    obtain rfl := Option.some.inj (ht.symm.trans ht')
    have hname' : name = some a.name := by
      simp only [Witness.actionName, hindex, ha] at hname
      exact (Except.ok.inj hname).symm
    -- the parent's lineage ends with the state that the action was taken on
    obtain ⟨front, before, rfl, hbefore⟩ := hl.eq_concat
    have hstate : e.store[before.fingerprint]? = some before.state :=
      hl.stored before (List.mem_append_right _ (List.mem_singleton_self _))
    rw [hbefore, hs] at hstate
    refine List.isChain_append.mpr ⟨ih, .singleton _, ?_⟩
    rintro x hx y hy
    rw [List.getLast?_concat, Option.mem_some_iff] at hx
    rw [List.head?_cons, Option.mem_some_iff] at hy
    subst hx hy
    refine ⟨index, a, ha, hname', ?_, ?_⟩
    · intro other b hb hother
      exact e.system.index_unique hb ha (Option.some.inj (hother.symm.trans hname'))
    · rw [← Option.some.inj hstate]
      exact hat

/-- All but the last step of a lineage have been expanded. -/
theorem expanded_of_lineage (h : Tree e expanded)
    (hl : Lineage e.parents e.store e.system.actions fp steps) {front : List Step} {last : Step}
    (heq : steps = front ++ [last]) : ∀ step ∈ front, step.fingerprint ∈ expanded := by
  induction hl generalizing front last with
  | root hv hp =>
    intro step hm
    have hlen := congrArg List.length heq
    rw [List.length_append, List.length_singleton, List.length_singleton] at hlen
    rw [List.eq_nil_of_length_eq_zero (l := front) (by omega)] at hm
    exact absurd hm (by simp)
  | @child fp link step steps hv hp hl ih =>
    have hbranch := h.branch_of_visit hv hp
    obtain ⟨rfl, -⟩ := List.append_inj' heq rfl
    obtain ⟨earlier, parent, rfl, hparent⟩ := hl.eq_concat
    intro step hm
    rcases List.mem_append.mp hm with hm | hm
    · exact ih rfl step hm
    · rw [List.mem_singleton.mp hm, hparent]
      exact hbranch.parent_mem

/-- The lineage of a goal is a sound trace. -/
theorem sound (h : Tree e expanded) (hl : Lineage e.parents e.store e.system.actions fp steps)
    {s : State} (hs : e.store[fp]? = some s) (hg : e.goal.holds s = true) :
    Witness.Sound e.system e.goal { steps } := by
  have hfiled : ∀ step ∈ steps, step.fingerprint = step.state.fingerprint := by
    intro step hm
    exact (h.filed _ _ (hl.stored step hm)).1.symm
  have hnodup := hl.nodup
  constructor
  case starts => exact h.head?_lineage hl
  case leads => exact h.chain hl
  case filed => exact hfiled
  case ends =>
    obtain ⟨front, last, rfl, hlast⟩ := hl.eq_concat
    refine ⟨front, last, rfl, ?_, ?_⟩
    · have hstored := hl.stored last (List.mem_append_right _ (List.mem_singleton_self _))
      rw [hlast, hs] at hstored
      rw [← Option.some.inj hstored]
      exact hg
    · intro step hm
      exact h.not_goal _ (h.expanded_of_lineage hl rfl step hm) _
        (hl.stored step (List.mem_append_left _ hm))
  case fingerprints_nodup => exact hnodup
  case states_nodup =>
    -- states are told apart at least as well as their fingerprints
    have hmap : steps.map Step.fingerprint = (steps.map Step.state).map State.fingerprint := by
      rw [List.map_map]
      exact List.map_congr_left hfiled
    rw [hmap] at hnodup
    exact List.Pairwise.of_map State.fingerprint
      (fun _ _ hne heq => hne (congrArg State.fingerprint heq)) hnodup

end Tree

/-! ## Statement

    A trace that is returned is sound. -/

/-- **Soundness.**  A search that ends with a trace, with or without collisions and whatever its
    budget has dropped, ends with a sound one. -/
theorem Arises.witness_sound {system : TransitionSystem} {goal : Goal} {settings : Settings} {e : Explorer}
    {wanted : Event → Bool} {finished : Finished} {w : Witness}
    (h : Arises system goal settings e) (hrun : e.run wanted = .ok finished)
    (hw : finished.outcome = .found w) : w.Sound system goal := by
  obtain ⟨trail, fp, s, htrail, -, hs, hg, hl⟩ := h.lineage_of_run hrun hw
  have hsound := htrail.tree.sound hl hs hg
  obtain ⟨hsystem, hgoal, -⟩ := htrail.frame
  rw [hsystem, hgoal] at hsound
  exact hsound

/-- The trace to four units in the big one of two jugs. -/
theorem jugs_sound :
    ∃ (system : TransitionSystem) (goal : Goal) (e : Explorer) (finished : Finished) (w : Witness),
      (waterJugs 3 5 4).build = .ok (system, goal) ∧
      Explorer.start system goal Settings.default = .ok e ∧
      e.run (fun _ => false) = .ok finished ∧ finished.outcome = .found w ∧
      w.Sound system goal := by
  have hquery : ((waterJugs 3 5 4).finish Settings.default).any
      (fun finished => finished.outcome.witness?.isSome) = true := by decide +kernel
  obtain ⟨finished, hfinish, hfound⟩ := (Option.any_eq_true ..).mp hquery
  obtain ⟨system, goal, e, hbuild, hstart, hrun⟩ := Puzzle.exists_of_finish hfinish
  obtain ⟨w, hsome⟩ := Option.isSome_iff_exists.mp hfound
  have hw := eq_found_of_witness? hsome
  exact ⟨system, goal, e, finished, w, hbuild, hstart, hrun, hw,
    Arises.witness_sound (.start hstart) hrun hw⟩

end Explorer

end GuardedReach
