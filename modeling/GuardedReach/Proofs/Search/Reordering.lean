/-
  Reordering — the order of the actions only selects the trace.

  Under another order the queues, the links and the order of discovery differ from the first expansion
  on, so the two searches are never compared step by step.  Each is compared with what does not depend
  on an order at all.

  1. **Reachability** — which states are reached, and in how many actions (`Reordered.reachableIn`).

  2. **Branching** — how many actions are not refused on a state.  The actions that a search has applied
     are counted state by state (`Trailed.applied_eq_sum`), and such a sum does not depend on the order
     in which the states were expanded.

  3. **Exhausted searches** — what is stored is what can be reached (`Trailed.stored_iff`), at its
     distance (`Trailed.isDistance`), so two searches end with the same space (`SameSpace`).

  4. **Traces** — a trace to a goal is as short as a trace can be (`Trailed.actionCount_le`).

  5. **Statement** — `Arises.reordered`.
-/
import GuardedReach.Proofs.Report.Verdict
import GuardedReach.Proofs.Search.Accounting
import GuardedReach.Proofs.Search.Distance

namespace GuardedReach

/-! ## Reachability

    Positions change under another order, and with them the words.  That a state is reached by some word of
    a length does not. -/

namespace TransitionSystem

variable {system other : TransitionSystem}

/-- The other system has the same actions in any order. -/
structure Reordered (system other : TransitionSystem) : Prop where
  initial : other.initial = system.initial
  actions : other.actions.Perm system.actions

/-- In whatever order the actions are put, they make a system. -/
def reorder (system : TransitionSystem) (actions : List Action) (h : actions.Perm system.actions) :
    TransitionSystem :=
  { system with
    actions
    fits := fun a ha => system.fits a (h.mem_iff.mp ha)
    distinct := (h.map Action.name).nodup_iff.mpr system.distinct }

/-- The system with its actions in another order is a reordering of it. -/
theorem reordered_reorder (system : TransitionSystem) {actions : List Action}
    (h : actions.Perm system.actions) : system.Reordered (system.reorder actions h) :=
  ⟨rfl, h⟩

/-- The system with its actions in reverse. -/
def backward (system : TransitionSystem) : TransitionSystem :=
  system.reorder system.actions.reverse (List.reverse_perm system.actions)

theorem IsDistance.unique {m n : Nat} {s : State} (hm : system.IsDistance m s)
    (hn : system.IsDistance n s) : m = n :=
  Nat.le_antisymm (hm.2 n hn.1) (hn.2 m hm.1)

/-- How many actions are not refused on a state. -/
def branching (system : TransitionSystem) (s : State) : Nat :=
  system.actions.countP fun a => (a.apply s).isSome

namespace Reordered

theorem symm (h : system.Reordered other) : other.Reordered system :=
  ⟨h.initial.symm, h.actions.symm⟩

/-- An action stands at some position in either order. -/
theorem reachableIn (h : system.Reordered other) {n : Nat} {s : State}
    (hs : system.ReachableIn n s) : other.ReachableIn n s := by
  induction n generalizing s with
  | zero =>
    rw [reachableIn_zero_iff, h.initial]
    exact reachableIn_zero_iff.mp hs
  | succ n ih =>
    obtain ⟨r, index, a, hr, ha, hat⟩ := reachableIn_succ_iff.mp hs
    have hmem : a ∈ other.actions := h.actions.mem_iff.mpr (List.mem_of_getElem? ha)
    obtain ⟨position, hposition⟩ := List.mem_iff_getElem?.mp hmem
    exact reachableIn_succ_iff.mpr ⟨r, position, a, ih hr, hposition, hat⟩

/-- The same states are reachable, -/
theorem reachable_iff (h : system.Reordered other) {s : State} :
    other.Reachable s ↔ system.Reachable s := by
  rw [reachable_iff_exists, reachable_iff_exists]
  exact exists_congr fun n => ⟨h.symm.reachableIn, h.reachableIn⟩

/-- at the same distance, -/
theorem isDistance (h : system.Reordered other) {n : Nat} {s : State}
    (hd : system.IsDistance n s) : other.IsDistance n s :=
  ⟨h.reachableIn hd.1, fun m hm => hd.2 m (h.symm.reachableIn hm)⟩

/-- and as many actions can be taken on each. -/
theorem branching_eq (h : system.Reordered other) (s : State) :
    other.branching s = system.branching s :=
  h.actions.countP_eq _

end Reordered

end TransitionSystem

namespace Explorer

variable {system other : TransitionSystem} {goal : Goal} {settings : Settings} {trail : Trail}
  {e f : Explorer}

/-! ## Branching

    A count that depends on the state alone, so that the counts of two searches can be added up in any
    order. -/

/-- How many actions are not refused on the state filed under a fingerprint. -/
def branching (e : Explorer) (fp : Fingerprint) : Nat :=
  e.store[fp]?.elim 0 e.system.branching

/-- What is stored branches as it did, whatever is added. -/
theorem Extends.branching_eq (h : Extends e f) {fp : Fingerprint} (hm : fp ∈ e.store) :
    f.branching fp = e.branching fp := by
  obtain ⟨s, hs⟩ := Fingerprint.mem_iff_exists.mp hm
  unfold branching
  rw [hs, h.store fp s hs, h.system]

/-- An attempt is counted as applied if its action was not refused. -/
theorem isApplied_attempt (e : Explorer) (a : Action) (s : State) :
    (e.attempt a s).isApplied = (a.apply s).isSome := by
  have ht := tried_attempt e a s
  generalize e.attempt a s = attempt at ht
  cases ht with
  | refused ha => rw [ha]; rfl
  | known ha hk => rw [ha]; rfl
  | dropped ha hk hb hd => rw [ha]; rfl
  | fresh ha hk hroom => rw [ha]; rfl

/-- So an expansion applies as many as the state branches to. -/
theorem countP_attempts (e : Explorer) (current : Fingerprint) (s : State) (depth : UInt32)
    (index : Nat) (actions : List Action) :
    (e.attempts current s depth index actions).countP Attempt.isApplied =
      actions.countP fun a => (a.apply s).isSome := by
  induction actions generalizing e index with
  | nil => rfl
  | cons a rest ih => rw [attempts, List.countP_cons, List.countP_cons, ih, isApplied_attempt]

/-- A step applies as many actions as there are for what it expands, and that was stored before. -/
theorem Stepped.applied {next : Explorer} {events : List Event} {leg : Trail}
    (h : Stepped e events leg next) :
    leg.attempts.countP Attempt.isApplied = (leg.expanded.map e.branching).sum ∧
      ∀ fp ∈ leg.expanded, fp ∈ e.store := by
  cases h with
  | rested ht => exact ⟨rfl, fun fp hm => absurd hm (List.not_mem_nil)⟩
  | ended hr hq => exact ⟨rfl, fun fp hm => absurd hm (List.not_mem_nil)⟩
  | found hv hg => exact ⟨rfl, fun fp hm => absurd hm (List.not_mem_nil)⟩
  | @expanded current frontier s link hv hg =>
    refine ⟨?_, ?_⟩
    · have hbranching : e.branching current = e.system.branching s := by
        unfold branching
        rw [hv.stored]
        rfl
      show List.countP _ _ = e.branching current + 0
      rw [countP_attempts, hbranching]
      rfl
    · intro fp hm
      rw [List.mem_singleton.mp hm]
      exact Fingerprint.mem_of_getElem? hv.stored

/-- The actions applied are counted state by state. -/
theorem Trailed.applied_eq_sum (h : Trailed system goal settings trail e) :
    e.stats.applied = (trail.expanded.map e.branching).sum := by
  rw [h.counted.applied]
  induction h with
  | start h => rfl
  | @step trail e next events he h ih =>
    have hs := stepped_of_step h
    obtain ⟨happlied, hstored⟩ := hs.applied
    have hx := he.tree.extends_stepped hs
    -- what has been expanded was stored before the step, so it branches as before
    have hsame : (trail.expanded ++ (e.leg events).expanded).map next.branching =
        (trail.expanded ++ (e.leg events).expanded).map e.branching := by
      refine List.map_congr_left fun fp hm => hx.branching_eq ?_
      rcases List.mem_append.mp hm with hm | hm
      · exact (he.tree.mem_store fp).mpr (List.mem_append_left _ hm)
      · exact hstored fp hm
    show (trail.attempts ++ (e.leg events).attempts).countP _ =
      ((trail.expanded ++ (e.leg events).expanded).map next.branching).sum
    rw [hsame, List.countP_append, List.map_append, List.sum_append, ih, happlied]

/-! ## Exhausted searches

    Of a search that ended without a goal all is known: its store, its depths and its counters. -/

/-- Two searches have the same states in their stores, at the same depths, and have counted the same
    but for the lengths of their queues. -/
structure SameSpace (e f : Explorer) : Prop where
  store : ∀ fp : Fingerprint, f.store[fp]? = e.store[fp]?
  depth : ∀ fp : Fingerprint, f.parents[fp]?.map Link.depth = e.parents[fp]?.map Link.depth
  discovered : f.stats.discovered = e.stats.discovered
  expanded : f.stats.expanded = e.stats.expanded
  tried : f.stats.tried = e.stats.tried
  applied : f.stats.applied = e.stats.applied
  duplicates : f.stats.duplicates = e.stats.duplicates
  maxDepth : f.stats.maxDepth = e.stats.maxDepth

namespace Trailed

/-- Which depth is filed under a fingerprint. -/
theorem depth_eq_some_iff (h : Trailed system goal settings trail e)
    (hsmall : e.stats.discovered ≤ UInt32.size) (hcollisions : e.stats.collisions = 0)
    {fp : Fingerprint} {depth : UInt32} :
    e.parents[fp]?.map Link.depth = some depth ↔
      ∃ s, e.store[fp]? = some s ∧ system.IsDistance depth.toNat s := by
  have hkeys := h.tree.mem_parents_iff_mem_store fp
  constructor
  · intro hd
    obtain ⟨link, hl, rfl⟩ := Option.map_eq_some_iff.mp hd
    obtain ⟨s, hs⟩ := Fingerprint.mem_iff_exists.mp (hkeys.mp (Fingerprint.mem_of_getElem? hl))
    exact ⟨s, hs, h.isDistance hsmall hcollisions hs hl⟩
  · rintro ⟨s, hs, hd⟩
    obtain ⟨link, hl⟩ := Fingerprint.mem_iff_exists.mp (hkeys.mpr (Fingerprint.mem_of_getElem? hs))
    have hsame := (h.isDistance hsmall hcollisions hs hl).unique hd
    rw [hl, Option.map_some, UInt32.toNat_inj.mp hsame]

/-- What an exhausted search without collisions has stored is what can be reached. -/
theorem stored_iff (h : Trailed system goal settings trail e) (hstatus : e.status = .exhausted)
    (hcollisions : e.stats.collisions = 0) {fp : Fingerprint} {s : State} :
    e.store[fp]? = some s ↔ s.fingerprint = fp ∧ system.Reachable s := by
  have ht := h.tree
  have hpending := pending_of_ended h.verdict (Or.inl hstatus)
  have hverdict := h.verdict
  rw [Verdict, hstatus] at hverdict
  obtain ⟨rfl, -, -⟩ := h.frame
  constructor
  · intro hs
    exact ⟨(ht.filed fp s hs).1, ht.reachable hs⟩
  · rintro ⟨rfl, hs⟩
    exact h.closed.stored_of_reachable ht hpending hverdict.2 hcollisions hs

/-- An exhausted search has expanded what it has stored, and nothing twice. -/
theorem mem_expanded_iff (h : Trailed system goal settings trail e)
    (hstatus : e.status = .exhausted) (fp : Fingerprint) :
    fp ∈ trail.expanded ↔ fp ∈ e.store := by
  rw [h.tree.mem_store, pending_of_ended h.verdict (Or.inl hstatus), List.append_nil]

/-- Of what an exhausted search has applied, all but the duplicates was recorded. -/
theorem applied_succ_eq_of_exhausted (h : Trailed system goal settings trail e)
    (hstatus : e.status = .exhausted) :
    e.stats.applied + 1 = e.stats.duplicates + e.stats.discovered := by
  have hverdict := h.verdict
  rw [Verdict, hstatus] at hverdict
  have hdropped : trail.dropped = 0 := by
    by_contra hne
    have hhit := h.budgetHit_iff.mpr (Nat.pos_of_ne_zero hne)
    exact absurd (hverdict.2.symm.trans hhit) (by simp)
  have happlied := h.applied_succ_eq
  omega

end Trailed

/-- The deepest level is read off the depths alone. -/
theorem Deepest.le_of_depth (h : Deepest e) (h' : Deepest f)
    (hdepth : ∀ fp : Fingerprint, f.parents[fp]?.map Link.depth = e.parents[fp]?.map Link.depth) :
    f.stats.maxDepth ≤ e.stats.maxDepth := by
  obtain ⟨fp, link, hl, hmax⟩ := h'.attained
  have hsame := hdepth fp
  rw [hl] at hsame
  obtain ⟨other, hother, hequal⟩ := Option.map_eq_some_iff.mp hsame.symm
  rw [← hmax, ← hequal]
  exact h.depth_le fp other hother

/-- Exhausted searches with the same store have expanded the same keys, in whatever order. -/
theorem Trailed.perm_expanded {goal' : Goal} {settings' : Settings} {trail' : Trail}
    (h : Trailed system goal settings trail e) (h' : Trailed other goal' settings' trail' f)
    (hstatus : e.status = .exhausted) (hstatus' : f.status = .exhausted)
    (hstore : ∀ fp : Fingerprint, f.store[fp]? = e.store[fp]?) :
    trail'.expanded.Perm trail.expanded := by
  rw [List.perm_ext_iff_of_nodup (List.nodup_append.mp h'.tree.nodup).1
    (List.nodup_append.mp h.tree.nodup).1]
  intro fp
  rw [h.mem_expanded_iff hstatus, h'.mem_expanded_iff hstatus', Fingerprint.mem_iff_exists,
    Fingerprint.mem_iff_exists, hstore fp]

/-- They have then applied as many actions, since every key branches alike in both. -/
theorem Trailed.applied_eq {goal' : Goal} {settings' : Settings} {trail' : Trail}
    (hreordered : system.Reordered other) (h : Trailed system goal settings trail e)
    (h' : Trailed other goal' settings' trail' f)
    (hstore : ∀ fp : Fingerprint, f.store[fp]? = e.store[fp]?)
    (hperm : trail'.expanded.Perm trail.expanded) : f.stats.applied = e.stats.applied := by
  have hbranching : f.branching = e.branching := by
    funext fp
    unfold branching
    rw [hstore fp, h.frame.1, h'.frame.1]
    exact congrArg _ (funext hreordered.branching_eq)
  rw [h.applied_eq_sum, h'.applied_eq_sum, hbranching]
  exact (hperm.map _).sum_nat

/-- **Exhausted searches of the same actions cover the same space.** -/
theorem Trailed.sameSpace {goal' : Goal} {settings' : Settings} {trail' : Trail}
    (hreordered : system.Reordered other) (h : Trailed system goal settings trail e)
    (h' : Trailed other goal' settings' trail' f) (hstatus : e.status = .exhausted)
    (hstatus' : f.status = .exhausted) (hsmall : e.stats.discovered ≤ UInt32.size)
    (hsmall' : f.stats.discovered ≤ UInt32.size) (hcollisions : e.stats.collisions = 0)
    (hcollisions' : f.stats.collisions = 0) : SameSpace e f := by
  have ht := h.tree
  have ht' := h'.tree
  have hstore : ∀ fp : Fingerprint, f.store[fp]? = e.store[fp]? := by
    intro fp
    refine Option.ext fun s => ?_
    rw [h.stored_iff hstatus hcollisions, h'.stored_iff hstatus' hcollisions',
      hreordered.reachable_iff]
  have hdepth : ∀ fp : Fingerprint,
      f.parents[fp]?.map Link.depth = e.parents[fp]?.map Link.depth := by
    intro fp
    refine Option.ext fun depth => ?_
    rw [h.depth_eq_some_iff hsmall hcollisions, h'.depth_eq_some_iff hsmall' hcollisions', hstore fp]
    exact exists_congr fun s =>
      and_congr_right fun _ => ⟨hreordered.symm.isDistance, hreordered.isDistance⟩
  have hperm := h.perm_expanded h' hstatus hstatus' hstore
  have hdiscovered : f.stats.discovered = e.stats.discovered := by
    rw [ht.discovered_eq_length, ht'.discovered_eq_length, hperm.length_eq,
      pending_of_ended h.verdict (Or.inl hstatus), pending_of_ended h'.verdict (Or.inl hstatus')]
  have happlied := h.applied_eq hreordered h' hstore hperm
  constructor
  case store => exact hstore
  case depth => exact hdepth
  case discovered => exact hdiscovered
  case expanded => rw [h.counted.expanded, h'.counted.expanded, hperm.length_eq]
  case tried =>
    rw [h.counted.tried, h'.counted.tried, h.length_attempts, h'.length_attempts, hperm.length_eq,
      hreordered.actions.length_eq]
  case applied => exact happlied
  case duplicates =>
    -- what was applied and not recorded was a duplicate, since nothing was dropped
    have hcount := h.applied_succ_eq_of_exhausted hstatus
    have hcount' := h'.applied_succ_eq_of_exhausted hstatus'
    omega
  case maxDepth =>
    exact UInt32.le_antisymm (h.deepest.le_of_depth h'.deepest hdepth)
      (h'.deepest.le_of_depth h.deepest fun fp => (hdepth fp).symm)

/-! ## Traces

    Of a search that found a goal the length of the trace is known, and nothing else is promised. -/

namespace Trailed

/-- A trace to a goal takes as many actions as lead to one. -/
theorem reachableIn_actionCount (h : Trailed system goal settings trail e) {fp : Fingerprint}
    {w : Witness} (hstatus : e.status = .found fp) (hw : e.witness fp = .ok w) :
    ∃ s, system.ReachableIn w.actionCount s ∧ goal.holds s = true := by
  obtain ⟨s, steps, hs, hg, hl, hsteps⟩ := h.found hstatus
  obtain rfl := Except.ok.inj (hw.symm.trans hsteps)
  obtain ⟨rfl, rfl, -⟩ := h.frame
  exact ⟨s, h.tree.reachableIn hl hs, hg⟩

/-- And no fewer lead to one, if no collision has been counted. -/
theorem actionCount_le (h : Trailed system goal settings trail e)
    (hcollisions : e.stats.collisions = 0) {fp : Fingerprint} {w : Witness}
    (hstatus : e.status = .found fp) (hw : e.witness fp = .ok w) {n : Nat} {s : State}
    (hs : system.ReachableIn n s) (hg : goal.holds s = true) : w.actionCount ≤ n := by
  obtain ⟨-, steps, -, -, hl, hsteps⟩ := h.found hstatus
  obtain rfl := Except.ok.inj (hw.symm.trans hsteps)
  obtain ⟨rfl, rfl, -⟩ := h.frame
  by_contra hlt
  have hshorter : n + 1 < steps.length := by
    have hcount : n < steps.length - 1 := Nat.lt_of_not_le hlt
    omega
  have hnot := h.closed.not_goal_of_shorter h.ordered h.tree hcollisions hstatus hl hshorter hs
  exact absurd (hnot.symm.trans hg) (by simp)

/-- Without a budget a search that has ended is not truncated. -/
theorem not_truncated (h : Trailed system goal settings trail e)
    (hunlimited : settings.maxStates = none) : e.status ≠ .truncated := by
  intro hstatus
  obtain ⟨budget, hb, -⟩ := h.budget_of_truncated hstatus
  exact absurd (hunlimited.symm.trans hb) (by simp)

/-- A goal found under one order of the actions is not missed under another. -/
theorem not_exhausted_of_found {settings' : Settings} {trail' : Trail}
    (hreordered : system.Reordered other) (h : Trailed system goal settings trail e)
    (h' : Trailed other goal settings' trail' f) {fp : Fingerprint} (hstatus : e.status = .found fp)
    (hcollisions' : f.stats.collisions = 0) : f.status ≠ .exhausted := by
  intro hstatus'
  obtain ⟨s, hs, hg⟩ := h.goal_reachable hstatus
  have hnot := h'.not_goal_of_reachable hstatus' hcollisions' (hreordered.reachable_iff.mpr hs)
  exact absurd (hnot.symm.trans hg) (by simp)

end Trailed

/-! ## Statement

    Two searches of the same actions in two orders, each ended and neither with a collision. -/

/-- **The order of the actions only selects the trace.**  Take two finished runs without a budget that
    search the same actions, in any two orders, from the same state for the same goal; neither records
    more than `2^32` states or counts a collision.  Both find a goal, with as many actions, or both are
    exhausted, and then they have stored the same states at the same depths and counted the same. -/
theorem Arises.reordered {settings' : Settings} {wanted wanted' : Event → Bool}
    {finished finished' : Finished} (hreordered : system.Reordered other)
    (h : Arises system goal settings e) (h' : Arises other goal settings' f)
    (hrun : e.run wanted = .ok finished) (hrun' : f.run wanted' = .ok finished')
    (hunlimited : settings.maxStates = none) (hunlimited' : settings'.maxStates = none)
    (hsmall : finished.explorer.stats.discovered ≤ UInt32.size)
    (hsmall' : finished'.explorer.stats.discovered ≤ UInt32.size)
    (hcollisions : finished.explorer.stats.collisions = 0)
    (hcollisions' : finished'.explorer.stats.collisions = 0) :
    (∃ w w', finished.outcome = .found w ∧ finished'.outcome = .found w' ∧
      w'.actionCount = w.actionCount) ∨
    (finished.outcome = .exhausted ∧ finished'.outcome = .exhausted ∧
      SameSpace finished.explorer finished'.explorer) := by
  obtain ⟨trail, ht⟩ := (h.run hrun).trailed
  obtain ⟨trail', ht'⟩ := (h'.run hrun').trailed
  -- one search finds a goal exactly if the other does, and without a budget neither is truncated
  rcases outcome_cases (run_eq_ok hrun).2 with
    ⟨fp, w, hstatus, hw, hout⟩ | ⟨hstatus, hout⟩ | ⟨hstatus, -⟩
  · rcases outcome_cases (run_eq_ok hrun').2 with
      ⟨fp', w', hstatus', hw', hout'⟩ | ⟨hstatus', -⟩ | ⟨hstatus', -⟩
    · -- each trace is as short as the other one can be
      refine Or.inl ⟨w, w', hout, hout', ?_⟩
      obtain ⟨s, hs, hg⟩ := ht.reachableIn_actionCount hstatus hw
      obtain ⟨s', hs', hg'⟩ := ht'.reachableIn_actionCount hstatus' hw'
      exact Nat.le_antisymm
        (ht'.actionCount_le hcollisions' hstatus' hw' (hreordered.reachableIn hs) hg)
        (ht.actionCount_le hcollisions hstatus hw (hreordered.symm.reachableIn hs') hg')
    · exact absurd hstatus' (ht.not_exhausted_of_found hreordered ht' hstatus hcollisions')
    · exact absurd hstatus' (ht'.not_truncated hunlimited')
  · rcases outcome_cases (run_eq_ok hrun').2 with
      ⟨fp', w', hstatus', -⟩ | ⟨hstatus', hout'⟩ | ⟨hstatus', -⟩
    · exact absurd hstatus (ht'.not_exhausted_of_found hreordered.symm ht hstatus' hcollisions)
    · exact Or.inr ⟨hout, hout', ht.sameSpace hreordered ht' hstatus hstatus' hsmall hsmall'
        hcollisions hcollisions'⟩
    · exact absurd hstatus' (ht'.not_truncated hunlimited')
  · exact absurd hstatus (ht.not_truncated hunlimited)

/-- Seven units cannot be had in the big one of jugs of three and five, and a search with the actions
    in reverse covers the same space. -/
theorem jugs_reordered :
    ∃ (system : TransitionSystem) (goal : Goal) (finished finished' : Finished),
      (waterJugs 3 5 7).build = .ok (system, goal) ∧
      Arises system goal Settings.default finished.explorer ∧
      Arises system.backward goal Settings.default finished'.explorer ∧
      finished.outcome = .exhausted ∧ finished'.outcome = .exhausted ∧
      SameSpace finished.explorer finished'.explorer := by
  have hquery : (waterJugs 3 5 7).build.toOption.any (fun built =>
      (Explorer.start built.1 built.2 Settings.default).toOption.any fun e =>
        (e.run fun _ => false).toOption.any fun finished =>
          (Explorer.start built.1.backward built.2 Settings.default).toOption.any fun f =>
            (f.run fun _ => false).toOption.any fun finished' =>
              decide (finished.outcome = .exhausted ∧
                finished.explorer.stats.discovered ≤ UInt32.size ∧
                finished'.explorer.stats.discovered ≤ UInt32.size ∧
                finished.explorer.stats.collisions = 0 ∧
                finished'.explorer.stats.collisions = 0)) = true := by decide +kernel
  obtain ⟨⟨system, goal⟩, hbuild, hquery⟩ := (Option.any_eq_true ..).mp hquery
  obtain ⟨e, hstart, hquery⟩ := (Option.any_eq_true ..).mp hquery
  obtain ⟨finished, hrun, hquery⟩ := (Option.any_eq_true ..).mp hquery
  obtain ⟨f, hstart', hquery⟩ := (Option.any_eq_true ..).mp hquery
  obtain ⟨finished', hrun', hquery⟩ := (Option.any_eq_true ..).mp hquery
  obtain ⟨hout, hsmall, hsmall', hcollisions, hcollisions'⟩ := of_decide_eq_true hquery
  have hrun := Puzzle.eq_ok_of_toOption hrun
  have hrun' := Puzzle.eq_ok_of_toOption hrun'
  have h : Arises system goal Settings.default e := .start (Puzzle.eq_ok_of_toOption hstart)
  have h' : Arises system.backward goal Settings.default f :=
    .start (Puzzle.eq_ok_of_toOption hstart')
  rcases Arises.reordered (system.reordered_reorder _) h h' hrun hrun' rfl rfl hsmall hsmall' hcollisions
    hcollisions' with ⟨w, w', hfound, -⟩ | ⟨-, hout', hsame⟩
  · exact absurd (hout.symm.trans hfound) (by simp)
  · exact ⟨system, goal, finished, finished', Puzzle.eq_ok_of_toOption hbuild, h.run hrun,
      h'.run hrun', hout, hout', hsame⟩

end Explorer

end GuardedReach
