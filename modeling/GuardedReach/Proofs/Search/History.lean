/-
  History — what a search has pushed onto its frontier, and how deep what it recorded lies.

  1. **Pushes** — the root is pushed when a search starts, and the successor of every attempt that is
     fresh when the attempt is recorded (`Trail.pushed`).  They come off the frontier in the order
     they went on: `History` says that what was pushed is what was taken followed by the queue.

  2. **No revisits** — the tree orders the same fingerprints as those expanded followed by those
     pending, without duplicates (`Tree.nodup`), so nothing is pushed twice.

  3. **Depths** — a depth is a 32-bit word, which wraps around.  A lineage is no longer than the
     parent map is large, so no depth wraps while at most `2^32` states are recorded
     (`Tree.toNat_depth`).

  4. **Statement** — `Trailed.wellLinked` is what the frontier, the links and the store of every
     search have to do with each other.
-/
import GuardedReach.Proofs.Puzzle.Search
import GuardedReach.Proofs.Search.Tree

namespace GuardedReach

namespace Explorer

/-! ## Pushes

    The trail keeps what was pushed and what was taken, so the two can be compared at any moment. -/

/-- The fingerprint that the record of an attempt pushes onto the frontier. -/
def Attempt.pushed? : Attempt → Option Fingerprint
  | fresh next => some next.fingerprint
  | refused _ | known _ _ | dropped _ => none

/-- All fingerprints that a search has pushed onto its frontier, its root first. -/
def Trail.pushed (trail : Trail) (root : Fingerprint) : List Fingerprint :=
  root :: trail.attempts.filterMap Attempt.pushed?

theorem Trail.pushed_append (front back : Trail) (root : Fingerprint) :
    (front.append back).pushed root =
      front.pushed root ++ back.attempts.filterMap Attempt.pushed? := by
  rw [pushed, append, List.filterMap_append]
  rfl

/-- The record of an attempt adds what it pushes at the back of the queue, and counts it. -/
theorem frontier_record (e : Explorer) (current : Fingerprint) (depth : UInt32) (index : Nat)
    (attempt : Attempt) :
    (e.record current depth index attempt).frontier.toList =
        e.frontier.toList ++ attempt.pushed?.toList ∧
      (e.record current depth index attempt).frontier.pushed =
        e.frontier.pushed + attempt.pushed?.toList.length := by
  cases attempt with
  | refused ins => exact ⟨(List.append_nil _).symm, rfl⟩
  | known next stored => exact ⟨(List.append_nil _).symm, rfl⟩
  | dropped budget => exact ⟨(List.append_nil _).symm, rfl⟩
  | fresh next => exact ⟨Frontier.toList_push .., rfl⟩

/-- An expansion adds what its attempts push. -/
theorem frontier_expand (e : Explorer) (current : Fingerprint) (s : State) (depth : UInt32)
    (actions : List Action) :
    (e.expand current s depth 0 actions).1.frontier.toList =
        e.frontier.toList ++
          (e.attempts current s depth 0 actions).filterMap Attempt.pushed? ∧
      (e.expand current s depth 0 actions).1.frontier.pushed =
        e.frontier.pushed +
          ((e.attempts current s depth 0 actions).filterMap Attempt.pushed?).length := by
  refine expand_induction (motive := fun tries f =>
    f.frontier.toList = e.frontier.toList ++ tries.filterMap Attempt.pushed? ∧
      f.frontier.pushed = e.frontier.pushed + (tries.filterMap Attempt.pushed?).length) ?_ ?_
  · rintro tries a f - ⟨hlist, hcount⟩
    have hone : [f.attempt a s].filterMap Attempt.pushed? = (f.attempt a s).pushed?.toList := by
      cases h : (f.attempt a s).pushed? <;> simp [h]
    obtain ⟨hlist', hcount'⟩ := frontier_record f current depth tries.length (f.attempt a s)
    rw [List.filterMap_append, hone, List.length_append, hlist', hcount', hlist, hcount]
    exact ⟨List.append_assoc .., by omega⟩
  · exact ⟨(List.append_nil _).symm, rfl⟩

/-- How what a search has pushed, what it has taken and what it has expanded lie on its queue. -/
structure History (e : Explorer) (trail : Trail) : Prop where
  pushed : trail.pushed e.root = trail.taken ++ e.frontier.toList
  taken : trail.taken ++ e.frontier.toList = trail.expanded ++ e.pending
  count : e.frontier.pushed = (trail.pushed e.root).length

/-- A leg from `e` to `next` goes on with the history, if what it has pushed and what it has taken is
    the difference between their queues. -/
theorem History.append {e next : Explorer} {trail leg : Trail} (h : History e trail)
    (hroot : next.root = e.root)
    (hlist : e.frontier.toList ++ leg.attempts.filterMap Attempt.pushed? =
      leg.taken ++ next.frontier.toList)
    (hpending : e.pending ++ leg.attempts.filterMap Attempt.pushed? = leg.expanded ++ next.pending)
    (hcount : next.frontier.pushed =
      e.frontier.pushed + (leg.attempts.filterMap Attempt.pushed?).length) :
    History next (trail.append leg) where
  pushed := by
    rw [hroot, Trail.pushed_append, h.pushed, List.append_assoc, hlist]
    exact (List.append_assoc ..).symm
  taken := by
    show (trail.taken ++ leg.taken) ++ _ = (trail.expanded ++ leg.expanded) ++ _
    rw [List.append_assoc, ← hlist, ← List.append_assoc, h.taken, List.append_assoc, hpending,
      List.append_assoc]
  count := by rw [hroot, Trail.pushed_append, List.length_append, hcount, h.count]

/-- One step adds to the history what its leg has done. -/
theorem History.stepped {e next : Explorer} {events : List Event} {trail leg : Trail}
    (h : History e trail) (hs : Stepped e events leg next) : History next (trail.append leg) := by
  cases hs with
  | rested ht => exact h.append rfl (List.append_nil _) (List.append_nil _) rfl
  | ended hr hq =>
    refine h.append rfl (List.append_nil _) ?_ rfl
    rw [pending_ended hr]
    exact List.append_nil _
  | found hv hg =>
    refine h.append rfl ?_ ?_ ?_
    · rw [Frontier.toList_eq_cons_of_pop? hv.popped]
      exact List.append_nil _
    · rw [hv.pending_foundAt]
      exact List.append_nil _
    · exact (Frontier.counts_of_pop? hv.popped).1
  | @expanded current frontier s link hv hg =>
    obtain ⟨hsystem, hstatus⟩ :=
      frame_expand (e.opened frontier link.depth) current s link.depth e.system.actions
    -- an expansion only pushes, so the queue grows at its end by what the leg has pushed
    obtain ⟨hlist, hcount⟩ :=
      frontier_expand (e.opened frontier link.depth) current s link.depth e.system.actions
    have hroot := congrArg (fun system => system.initial.fingerprint) hsystem
    have hpop := Frontier.toList_eq_cons_of_pop? hv.popped
    have hpushed := (Frontier.counts_of_pop? hv.popped).1
    have hrunning : (e.opened frontier link.depth).status = .running := hv.running
    refine h.append hroot ?_ ?_ ?_
    · rw [hpop, hlist]
      rfl
    · rw [pending_of_running hv.running, pending_of_running (hstatus.trans hrunning), hpop, hlist]
      rfl
    · rw [hcount, ← hpushed]
      rfl

/-- Every search has a history. -/
theorem Trailed.history {system : TransitionSystem} {goal : Goal} {settings : Settings}
    {trail : Trail} {e : Explorer} (h : Trailed system goal settings trail e) :
    History e trail := by
  induction h with
  | @start e h =>
    have hs := started_of_start h
    refine ⟨hs.toList_frontier.symm, (pending_of_running hs.running).symm, ?_⟩
    rw [hs.frontier]
    rfl
  | step he h ih => exact ih.stepped (stepped_of_step h)

/-! ## Depths

    A depth is one more than that of the parent, and the lineage of a fingerprint is one longer. -/

/-- **No depth wraps around** while at most `2^32` states are recorded: the depth of a fingerprint is
    then the number of actions on its lineage. -/
theorem Tree.toNat_depth {e : Explorer} {expanded : List Fingerprint} (h : Tree e expanded)
    (hsmall : e.stats.discovered ≤ UInt32.size) {fp : Fingerprint} {link : Link}
    {steps : List Step} (hl : Lineage e.parents e.store e.system.actions fp steps)
    (hlink : e.parents[fp]? = some link) : link.depth.toNat + 1 = steps.length := by
  induction hl generalizing link with
  | @root fp found step hv hp =>
    obtain rfl := Option.some.inj ((Witness.link_of_visit hv).symm.trans hlink)
    rw [h.eq_root_of_visit hv hp, h.root_linked] at hlink
    obtain rfl := Option.some.inj hlink
    rfl
  | @child fp found step steps hv hp hl ih =>
    obtain rfl := Option.some.inj ((Witness.link_of_visit hv).symm.trans hlink)
    obtain ⟨above, habove, hdepth⟩ := (h.branch_of_visit hv hp).depth
    have hlen : above.depth.toNat + 1 = steps.length := ih habove
    -- the longer lineage still has no more steps than there are states recorded
    have hsize := (Lineage.child hv hp hl).length_le_size
    rw [List.length_append, List.length_singleton] at hsize ⊢
    rw [← h.discovered] at hsize
    have hroom : above.depth.toNat + 1 < UInt32.size := by omega
    have hsucc : (above.depth + 1).toNat = above.depth.toNat + 1 := by
      rw [UInt32.toNat_add]
      exact Nat.mod_eq_of_lt hroom
    rw [hdepth, hsucc, hlen]

/-! ## How a search is linked

    The invariants of the tree, as a caller sees them. -/

/-- How a fingerprint other than the root's is linked to its parent. -/
structure Edge (system : TransitionSystem) (e : Explorer) (fp : Fingerprint) (link : Link) :
    Prop where
  parent_mem : link.parent ∈ e.parents
  applies : ∃ (index : Nat) (a : Action) (s t : State), link.action = some index ∧
    system.actions[index]? = some a ∧ e.store[link.parent]? = some s ∧
    e.store[fp]? = some t ∧ a.apply s = some t
  depth : e.stats.discovered ≤ UInt32.size → ∀ above : Link, e.parents[link.parent]? = some above →
    link.depth.toNat = above.depth.toNat + 1

/-- What the frontier, the links and the store of a search have to do with each other. -/
structure WellLinked (system : TransitionSystem) (trail : Trail) (e : Explorer) : Prop where
  same_keys : ∀ fp, fp ∈ e.parents ↔ fp ∈ e.store
  filed : ∀ (fp : Fingerprint) (s : State),
    e.store[fp]? = some s → s.width = system.width ∧ s.fingerprint = fp
  root : e.parents[system.initial.fingerprint]? =
    some { parent := system.initial.fingerprint, action := none, depth := 0 }
  self_link : ∀ (fp : Fingerprint) (link : Link), e.parents[fp]? = some link →
    (link.parent = fp ↔ fp = system.initial.fingerprint)
  edge : ∀ (fp : Fingerprint) (link : Link), fp ≠ system.initial.fingerprint →
    e.parents[fp]? = some link → Edge system e fp link
  queued : ∀ fp ∈ e.frontier.toList, fp ∈ e.parents
  queue_nodup : e.frontier.toList.Nodup
  pushed_eq : trail.pushed system.initial.fingerprint = trail.taken ++ e.frontier.toList
  pushed_length : (trail.pushed system.initial.fingerprint).length = e.frontier.pushed
  pushed_nodup : (trail.pushed system.initial.fingerprint).Nodup

theorem Tree.edge {e : Explorer} {expanded : List Fingerprint} (h : Tree e expanded)
    {fp : Fingerprint} {link : Link} (hne : fp ≠ e.root) (hlink : e.parents[fp]? = some link) :
    Edge e.system e fp link := by
  have hbranch := h.branch fp link hne hlink
  have hparent := h.mem_parents_of_expanded hbranch.parent_mem
  refine ⟨hparent, hbranch.edge, ?_⟩
  intro hsmall above habove
  obtain ⟨steps, hsteps⟩ := h.lineage fp (Fingerprint.mem_of_getElem? hlink)
  have hlen := h.toNat_depth hsmall hsteps hlink
  rcases hsteps.length_cases hlink with ⟨hself, -⟩ | ⟨-, upper, hupper, hlength⟩
  · exact absurd hself hbranch.parent_ne
  · have hlen' := h.toNat_depth hsmall hupper habove
    omega

/-- **Every search is well linked**, whatever collides and whatever the budget drops. -/
theorem Trailed.wellLinked {system : TransitionSystem} {goal : Goal} {settings : Settings}
    {trail : Trail} {e : Explorer} (h : Trailed system goal settings trail e) :
    WellLinked system trail e := by
  have ht := h.tree
  have hh := h.history
  obtain ⟨rfl, -, -⟩ := h.frame
  have hpushed : (trail.pushed e.root).Nodup := by
    -- the two orders agree, and the tree keeps one of them without duplicates
    rw [hh.pushed, hh.taken]
    exact ht.nodup
  constructor
  case same_keys => exact ht.mem_parents_iff_mem_store
  case filed =>
    intro fp s hs
    exact (ht.filed fp s hs).symm
  case root => exact ht.root_linked
  case self_link =>
    intro fp link hlink
    exact ht.self_link hlink
  case edge =>
    intro fp link hne hlink
    exact ht.edge hne hlink
  case queued =>
    intro fp hm
    rw [ht.mem_parents, ← hh.taken]
    exact List.mem_append_right _ hm
  case queue_nodup =>
    rw [hh.pushed, List.nodup_append] at hpushed
    exact hpushed.2.1
  case pushed_eq => exact hh.pushed
  case pushed_length => exact hh.count.symm
  case pushed_nodup => exact hpushed

/-- The links of a search for four units that was cut short at six states. -/
theorem jugs_wellLinked :
    ∃ (system : TransitionSystem) (goal : Goal) (trail : Trail) (e : Explorer),
      (waterJugs 3 5 4).build = .ok (system, goal) ∧
      Trailed system goal { Settings.default with maxStates := some 6 } trail e ∧
      WellLinked system trail e ∧ e.stats.discovered = 6 := by
  have hquery : ((waterJugs 3 5 4).finish { Settings.default with maxStates := some 6 }).any
      (fun finished => finished.explorer.stats.discovered == 6) = true := by decide +kernel
  obtain ⟨finished, hfinish, hcount⟩ := (Option.any_eq_true ..).mp hquery
  obtain ⟨system, goal, e, hbuild, hstart, hrun⟩ := Puzzle.exists_of_finish hfinish
  obtain ⟨trail, htrail⟩ := ((Arises.start hstart).run hrun).trailed
  exact ⟨system, goal, trail, finished.explorer, hbuild, htrail, Trailed.wellLinked htrail,
    beq_iff_eq.mp hcount⟩

end Explorer

end GuardedReach
