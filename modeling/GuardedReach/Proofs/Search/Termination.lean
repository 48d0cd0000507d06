/-
  Termination — every search ends, and after how many steps.

  Actions may add forever and wrap around, so nothing in a system gets smaller.  What bounds a search
  is that each step it is still running after has expanded one state more, and none twice.

  1. **Progress** — a search that is running after `n` steps has expanded `n` fingerprints more than
     before (`Trailed.exists_trailed_steps`).

  2. **Bounds** — what is expanded is recorded (`Tree.length_expanded_le_discovered`), and no more
     fingerprints are recorded than there are (`Tree.discovered_le_size`), than states can be reached
     (`Tree.discovered_le_ncard`) and than the budget allows (`Trailed.discovered_le`).

  3. **Runs** — by the first bound `stepLimit` is enough for every search, so a run always comes to an
     end and has an outcome, and what it gives is where the steps lead (`Trailed.exists_run`).

  4. **Statement** — `ends_within`, from the other two bounds.
-/
import Mathlib.Data.Set.Card
import Mathlib.Data.Set.Finite.List
import GuardedReach.Proofs.Puzzle.Search
import GuardedReach.Proofs.Search.Budget
import GuardedReach.Proofs.Search.Progress

namespace GuardedReach

/-! ## There are finitely many of everything

    Fingerprints are words of 64 bits and states are eight such words and a width, so counting is possible
    at all. -/

/-- Distinct fingerprints are no more than there are words. -/
theorem Fingerprint.length_le_size {fps : List Fingerprint} (h : fps.Nodup) :
    fps.length ≤ UInt64.size := by
  let number : Fingerprint → Nat := fun fp => fp.hash.toNat
  have hinj : Function.Injective number := by
    intro a b hab
    have hhash : a.hash = b.hash := UInt64.toNat_inj.mp hab
    cases a; cases b
    exact congrArg Fingerprint.mk hhash
  have hsub : fps.map number ⊆ List.range UInt64.size := by
    intro n hn
    obtain ⟨fp, -, rfl⟩ := List.mem_map.mp hn
    exact List.mem_range.mpr fp.hash.toNat_lt_size
  have hle := (h.map hinj).length_le_of_subset hsub
  rwa [List.length_map, List.length_range] at hle

/-- There are finitely many states: a state is its active registers, and these are few words. -/
theorem State.finite_univ : (Set.univ : Set State).Finite := by
  let numbers : State → List (Fin UInt64.size) := fun s => s.active.map fun v => v.toUInt64.toFin
  have hword : Function.Injective fun v : Int64 => v.toUInt64.toFin := by
    intro v w hvw
    have hbits : v.toUInt64 = w.toUInt64 := UInt64.toFin_inj.mp hvw
    cases v; cases w
    exact congrArg Int64.ofUInt64 hbits
  have hinj : Function.Injective numbers := by
    intro s t hst
    exact State.ext_active (List.map_injective_iff.mpr hword hst)
  have hshort : numbers '' Set.univ ⊆ {l | l.length ≤ registerCapacity} := by
    rintro _ ⟨s, -, rfl⟩
    show (s.active.map _).length ≤ registerCapacity
    rw [List.length_map, State.length_active]
    exact s.width_le
  exact ((List.finite_length_le _ registerCapacity).subset hshort).of_finite_image hinj.injOn

theorem TransitionSystem.finite_reachable (system : TransitionSystem) :
    {s | system.Reachable s}.Finite :=
  State.finite_univ.subset (Set.subset_univ _)

namespace Explorer

variable {system : TransitionSystem} {goal : Goal} {settings : Settings} {trail : Trail}
  {e f : Explorer}

/-! ## Progress

    Steps are counted by what they have expanded. -/

/-- A step that leaves the search running has expanded a state. -/
theorem Stepped.length_expanded {next : Explorer} {events : List Event} {leg : Trail}
    (h : Stepped e events leg next) (hr : next.status = .running) :
    e.status = .running ∧ leg.expanded.length = 1 := by
  cases h with
  | rested ht => exact absurd (hr ▸ ht) (by simp [Status.isTerminal])
  | ended hr' hq =>
    unfold Explorer.ended at hr
    cases hb : e.budgetHit <;> simp [hb] at hr
  | found hv hg => exact absurd hr (by simp [foundAt])
  | expanded hv hg => exact ⟨hv.running, rfl⟩

/-- **Each step is progress.**  Any number of steps can be taken; a search that is still running then
    has expanded as many fingerprints as it has taken steps. -/
theorem Trailed.exists_trailed_steps (h : Trailed system goal settings trail e) (n : Nat) :
    ∃ f trail', e.steps n = .ok f ∧ Trailed system goal settings trail' f ∧
      (f.status = .running → trail'.expanded.length = trail.expanded.length + n) := by
  induction n with
  | zero => exact ⟨e, trail, rfl, h, fun _ => rfl⟩
  | succ n ih =>
    obtain ⟨f, trail', hf, htrail, hcount⟩ := ih
    obtain ⟨next, events, hstep⟩ := htrail.tree.exists_step
    refine ⟨next, _, steps_succ_eq_ok_iff.mpr ⟨f, events, hf, hstep⟩, htrail.step hstep, ?_⟩
    intro hr
    obtain ⟨hrunning, hone⟩ := (stepped_of_step hstep).length_expanded hr
    have hbefore := hcount hrunning
    show (trail'.expanded ++ (f.leg events).expanded).length = _
    rw [List.length_append, hone, hbefore]
    omega

/-! ## Bounds

    Three bounds on what can be recorded, each for its own use. -/

namespace Tree

variable {expanded : List Fingerprint}

/-- What is expanded is recorded. -/
theorem length_expanded_le_discovered (h : Tree e expanded) :
    expanded.length ≤ e.stats.discovered := by
  rw [h.discovered_eq_length]
  exact Nat.le_add_right _ _

theorem discovered_le_size (h : Tree e expanded) : e.stats.discovered ≤ UInt64.size := by
  rw [h.discovered_eq_length, ← List.length_append]
  exact Fingerprint.length_le_size h.nodup

/-- What is recorded are fingerprints of reachable states. -/
theorem discovered_le_ncard (h : Tree e expanded) :
    e.stats.discovered ≤ {s | e.system.Reachable s}.ncard := by
  have hfinite := e.system.finite_reachable
  have hsub : ((expanded ++ e.pending).toFinset : Set Fingerprint) ⊆
      State.fingerprint '' {s | e.system.Reachable s} := by
    intro fp hm
    have hkey : fp ∈ e.store := (h.mem_store fp).mpr (List.mem_toFinset.mp hm)
    obtain ⟨s, hs⟩ := Fingerprint.mem_iff_exists.mp hkey
    exact ⟨s, h.reachable hs, (h.filed fp s hs).1⟩
  calc e.stats.discovered
      = (expanded ++ e.pending).length := by rw [h.discovered_eq_length, List.length_append]
    _ = (expanded ++ e.pending).toFinset.card := (List.toFinset_card_of_nodup h.nodup).symm
    _ = ((expanded ++ e.pending).toFinset : Set Fingerprint).ncard := (Set.ncard_coe_finset _).symm
    _ ≤ (State.fingerprint '' {s | e.system.Reachable s}).ncard :=
        Set.ncard_le_ncard hsub (hfinite.image _)
    _ ≤ {s | e.system.Reachable s}.ncard := Set.ncard_image_le hfinite

end Tree

/-! ## Runs

    A run takes steps until one of them ends the search, and is given enough of them. -/

/-- The first of `n + 1` steps is taken where the search stands. -/
theorem steps_succ_eq_ok_iff_step {n : Nat} :
    e.steps (n + 1) = .ok f ↔ ∃ next events, e.step = .ok (next, events) ∧ next.steps n = .ok f := by
  induction n generalizing f with
  | zero =>
    rw [steps_succ_eq_ok_iff]
    constructor
    · rintro ⟨g, events, hg, hstep⟩
      obtain rfl := Except.ok.inj hg
      exact ⟨f, events, hstep, rfl⟩
    · rintro ⟨g, events, hstep, hg⟩
      obtain rfl := Except.ok.inj hg
      exact ⟨e, events, rfl, hstep⟩
  | succ n ih =>
    rw [steps_succ_eq_ok_iff]
    constructor
    · rintro ⟨g, events, hg, hlast⟩
      obtain ⟨next, events', hfirst, hnext⟩ := ih.mp hg
      exact ⟨next, events', hfirst, steps_succ_eq_ok_iff.mpr ⟨g, events, hnext, hlast⟩⟩
    · rintro ⟨next, events', hfirst, hnext⟩
      obtain ⟨g, events, hg, hlast⟩ := steps_succ_eq_ok_iff.mp hnext
      exact ⟨g, events, ih.mpr ⟨next, events', hfirst, hg⟩, hlast⟩

/-- A search that some number of steps brings to its end advances to that end, if it may take as many
    steps. -/
theorem advance_of_steps {limit n : Nat} {last : Explorer} (wanted : Event → Bool)
    (kept : Array Event) (h : e.steps (n + 1) = .ok last) (ht : last.status.isTerminal = true)
    (hlimit : n < limit) : ∃ kept', e.advance wanted limit kept = .ok (last, kept') := by
  induction n generalizing e limit kept with
  | zero =>
    obtain ⟨next, events, hstep, hnext⟩ := steps_succ_eq_ok_iff_step.mp h
    obtain rfl := Except.ok.inj hnext
    obtain ⟨limit, rfl⟩ := Nat.exists_eq_succ_of_ne_zero (show limit ≠ 0 by omega)
    refine ⟨kept ++ events.filter wanted, ?_⟩
    unfold Explorer.advance
    simp only [hstep, ht, if_true]
  | succ n ih =>
    obtain ⟨next, events, hstep, hnext⟩ := steps_succ_eq_ok_iff_step.mp h
    obtain ⟨limit, rfl⟩ := Nat.exists_eq_succ_of_ne_zero (show limit ≠ 0 by omega)
    unfold Explorer.advance
    simp only [hstep]
    cases hended : next.status.isTerminal with
    | true =>
      -- the steps that are left change nothing
      have hstays : next.steps (n + 1) = .ok next :=
        steps_of_terminal (n := 0) rfl hended (Nat.zero_le _)
      obtain rfl := Except.ok.inj (hnext.symm.trans hstays)
      exact ⟨_, rfl⟩
    | false => exact ih _ hnext (by omega)

/-- A search that has ended has an outcome. -/
theorem Trailed.exists_outcome (h : Trailed system goal settings trail e)
    (ht : e.status.isTerminal = true) : ∃ outcome, e.outcome = .ok outcome := by
  unfold Explorer.outcome
  cases hs : e.status with
  | running => rw [hs] at ht; exact absurd ht (by simp [Status.isTerminal])
  | exhausted => exact ⟨_, rfl⟩
  | truncated => exact ⟨_, rfl⟩
  | found fp =>
    obtain ⟨s, steps, -, -, -, hwitness⟩ := h.found hs
    simp only [hwitness]
    exact ⟨_, rfl⟩

/-- A search that some number of steps brings to its end runs to that end, if a search may take as
    many steps. -/
theorem run_of_steps {n : Nat} {last : Explorer} {outcome : Outcome} (wanted : Event → Bool)
    (h : e.steps (n + 1) = .ok last) (ht : last.status.isTerminal = true) (hlimit : n < stepLimit)
    (ho : last.outcome = .ok outcome) :
    ∃ events, e.run wanted = .ok { explorer := last, outcome, events } := by
  obtain ⟨kept, hadvance⟩ :=
    advance_of_steps wanted (e.opening.filter wanted).toArray h ht hlimit
  unfold run
  rw [hadvance]
  simp only [bind, Except.bind, ho]
  exact ⟨_, rfl⟩

/-- **Every search ends**, within the steps that a run may take. -/
theorem Trailed.exists_end (h : Trailed system goal settings trail e) :
    ∃ last trail', e.steps stepLimit = .ok last ∧ Trailed system goal settings trail' last ∧
      last.status.isTerminal = true := by
  obtain ⟨last, trail', hsteps, htrail, hcount⟩ := h.exists_trailed_steps stepLimit
  refine ⟨last, trail', hsteps, htrail, ?_⟩
  cases ht : last.status.isTerminal with
  | true => rfl
  | false =>
    -- it would have expanded more fingerprints than there are
    have hlength := hcount (isTerminal_eq_false_iff.mp ht)
    have hle := htrail.tree.length_expanded_le_discovered
    have hsize := htrail.tree.discovered_le_size
    have hlimit : stepLimit = UInt64.size + 1 := rfl
    omega

/-- **Every run comes to an end** and has an outcome.  Where it ends does not depend on the events that
    are wanted. -/
theorem Trailed.exists_run (h : Trailed system goal settings trail e) :
    ∃ last outcome, e.steps stepLimit = .ok last ∧ last.status.isTerminal = true ∧
      last.outcome = .ok outcome ∧
      ∀ wanted, ∃ events, e.run wanted = .ok { explorer := last, outcome, events } := by
  obtain ⟨last, trail', hsteps, htrail, ht⟩ := h.exists_end
  obtain ⟨outcome, houtcome⟩ := htrail.exists_outcome ht
  refine ⟨last, outcome, hsteps, ht, houtcome, ?_⟩
  intro wanted
  exact run_of_steps wanted hsteps ht (Nat.lt_succ_self _) houtcome

/-! ## Statement

    When a search has ended at the latest, and that it then stays. -/

/-- The search ends with its `n`-th step: it has ended after `n` steps and not before, at `last`. -/
structure EndsAfter (e : Explorer) (n : Nat) (last : Explorer) : Prop where
  reached : e.steps n = .ok last
  ended : last.status.isTerminal = true
  running : ∀ k < n, ∃ f, e.steps k = .ok f ∧ f.status = .running

/-- A search that some number of steps brings to its end is brought there by a least number. -/
theorem exists_endsAfter (h : Explorer.start system goal settings = .ok e) {last : Explorer}
    {limit : Nat} (hsteps : e.steps limit = .ok last) (ht : last.status.isTerminal = true) :
    ∃ n, e.EndsAfter n last := by
  classical
  have hexists : ∃ n f, e.steps n = .ok f ∧ f.status.isTerminal = true := ⟨limit, last, hsteps, ht⟩
  obtain ⟨f, hf, hended⟩ := Nat.find_spec hexists
  have hle : Nat.find hexists ≤ limit := Nat.find_min' hexists ⟨last, hsteps, ht⟩
  obtain rfl := Except.ok.inj ((steps_of_terminal hf hended hle).symm.trans hsteps)
  refine ⟨Nat.find hexists, hf, hended, ?_⟩
  intro k hk
  obtain ⟨g, hg⟩ := exists_steps h k
  refine ⟨g, hg, isTerminal_eq_false_iff.mp ?_⟩
  cases hgt : g.status.isTerminal with
  | false => rfl
  | true => exact absurd ⟨g, hg, hgt⟩ (Nat.find_min hexists hk)

/-- **Every search ends**, whatever collides: with a run, and after at most one step more than there
    are reachable states or, if the states are bounded, than the budget allows. -/
theorem ends_within (h : Explorer.start system goal settings = .ok e) :
    ∃ n last, e.EndsAfter n last ∧
      (∀ wanted, ∃ finished, e.run wanted = .ok finished ∧ finished.explorer = last) ∧
      {s | system.Reachable s}.Finite ∧ n ≤ {s | system.Reachable s}.ncard + 1 ∧
      ∀ budget, settings.maxStates = some budget → n ≤ max 1 budget + 1 := by
  have hstart := Trailed.start h
  obtain ⟨last, outcome, hsteps, ht, -, hrun⟩ := hstart.exists_run
  obtain ⟨n, hends⟩ := exists_endsAfter h hsteps ht
  have hlast : ∀ bound, (∀ trail f, Trailed system goal settings trail f →
      f.stats.discovered ≤ bound) → n ≤ bound + 1 := by
    intro bound hbound
    cases n with
    | zero => omega
    | succ n =>
      -- before its last step the search was running, and had expanded a state with each
      obtain ⟨f, trail, hf, htrail, hcount⟩ := hstart.exists_trailed_steps n
      obtain ⟨g, hg, hrunning⟩ := hends.running n (Nat.lt_succ_self n)
      obtain rfl := Except.ok.inj (hf.symm.trans hg)
      have hlength : trail.expanded.length = 0 + n := hcount hrunning
      have hle := htrail.tree.length_expanded_le_discovered
      have hdiscovered := hbound trail f htrail
      omega
  refine ⟨n, last, hends, ?_, system.finite_reachable, hlast _ ?_, ?_⟩
  · intro wanted
    obtain ⟨events, hrun⟩ := hrun wanted
    exact ⟨_, hrun, rfl⟩
  · intro trail f htrail
    have hle := htrail.tree.discovered_le_ncard
    rwa [htrail.frame.1] at hle
  · intro budget hb
    exact hlast _ fun trail f htrail => htrail.discovered_le hb

/-- With room for six states a search for four units in the big one of jugs of three and five ends
    after at most seven steps. -/
theorem jugs_ends_within :
    ∃ (system : TransitionSystem) (goal : Goal) (e : Explorer) (n : Nat) (last : Explorer),
      (waterJugs 3 5 4).build = .ok (system, goal) ∧
      Explorer.start system goal { Settings.default with maxStates := some 6 } = .ok e ∧
      e.EndsAfter n last ∧ last.status = .truncated ∧ n ≤ 7 := by
  have hquery : ((waterJugs 3 5 4).finish { Settings.default with maxStates := some 6 }).any
      (fun finished => decide (finished.explorer.status = .truncated)) = true := by decide +kernel
  obtain ⟨finished, hfinish, hstatus⟩ := (Option.any_eq_true ..).mp hquery
  obtain ⟨system, goal, e, hbuild, hstart, hrun⟩ := Puzzle.exists_of_finish hfinish
  obtain ⟨n, last, hends, hruns, -, -, hbudget⟩ := ends_within hstart
  obtain ⟨finished', hrun', rfl⟩ := hruns fun _ => false
  obtain rfl := Except.ok.inj (hrun.symm.trans hrun')
  exact ⟨system, goal, e, n, finished.explorer, hbuild, hstart, hends, of_decide_eq_true hstatus,
    hbudget 6 rfl⟩

end Explorer

end GuardedReach
