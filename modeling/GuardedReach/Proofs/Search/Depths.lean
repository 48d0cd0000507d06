/-
  Depths — what the 32-bit levels of a search count, and that counting them does not wrap around.

  A level is written when a state is recorded, one more than that of the state it was reached from.  A
  trace is read off the links later, by a walk that never looks at the levels.

  1. **Levels and traces** — a fingerprint at level `d` has `d` others above it, so `d` is less than the
     number of states recorded (`Tree.depth_lt`), and the trace to it takes `d` actions
     (`Tree.exists_witness`).  The largest level is that of the longest trace.

  2. **The next level** — a step that records a state records more than there were
     (`Trailed.discovered_lt`), so there is a word left for the level it counts.

  3. **Statement** — `Arises.depths_exact`.
-/
import GuardedReach.Proofs.Search.Accounting

namespace GuardedReach

namespace Explorer

variable {system : TransitionSystem} {goal : Goal} {settings : Settings} {trail : Trail}
  {e next : Explorer} {expanded : List Fingerprint}

/-! ## Levels and traces

    A level is a number in a link, a trace the links themselves, and the two are compared. -/

/-- While there are no more states than levels, every level is less than the number of states. -/
theorem Tree.depth_lt (h : Tree e expanded) (hsmall : e.stats.discovered ≤ UInt32.size)
    {fp : Fingerprint} {link : Link} (hlink : e.parents[fp]? = some link) :
    link.depth.toNat < e.stats.discovered := by
  obtain ⟨steps, hsteps⟩ := h.lineage fp (Fingerprint.mem_of_getElem? hlink)
  have hdepth := h.toNat_depth hsmall hsteps hlink
  -- the states on the way to the root are all different
  have hlen := hsteps.length_le_size
  rw [← h.discovered] at hlen
  omega

/-- The trace to a fingerprint takes as many actions as its level says. -/
theorem Tree.exists_witness (h : Tree e expanded) (hsmall : e.stats.discovered ≤ UInt32.size)
    {fp : Fingerprint} {link : Link} (hlink : e.parents[fp]? = some link) :
    ∃ w, e.witness fp = .ok w ∧ w.actionCount = link.depth.toNat := by
  obtain ⟨steps, hsteps⟩ := h.lineage fp (Fingerprint.mem_of_getElem? hlink)
  have hdepth := h.toNat_depth hsmall hsteps hlink
  refine ⟨{ steps }, hsteps.reconstruct_eq_ok, ?_⟩
  show steps.length - 1 = link.depth.toNat
  omega

/-- No trace takes more actions than the deepest level says. -/
theorem Tree.actionCount_le_maxDepth (h : Tree e expanded) (hdeepest : Deepest e)
    (hsmall : e.stats.discovered ≤ UInt32.size) {fp : Fingerprint} {w : Witness}
    (hw : e.witness fp = .ok w) : w.actionCount ≤ e.stats.maxDepth.toNat := by
  have hmem := (h.lineage_of_witness hw).key_mem
  obtain ⟨link, hlink⟩ := Fingerprint.mem_iff_exists.mp hmem
  obtain ⟨w', hw', hcount⟩ := h.exists_witness hsmall hlink
  obtain rfl := Except.ok.inj (hw.symm.trans hw')
  rw [hcount]
  exact UInt32.le_iff_toNat_le.mp (hdeepest.depth_le fp link hlink)

/-! ## The next level

    The largest level at which something can be recorded, and the next word after it. -/

/-- The step from `e` to `next` records a new state, at the level after this one. -/
def RecordsAfter (e next : Explorer) (depth : UInt32) : Prop :=
  ∃ (events : List Event) (current : Fingerprint) (frontier : Frontier) (s t : State) (link : Link),
    e.step = .ok (next, events) ∧ e.Visits current frontier s link ∧ link.depth = depth ∧
      Attempt.fresh t ∈ (e.leg events).attempts

/-- A step that records a new state leaves more states recorded than there were. -/
theorem Trailed.discovered_lt (h : Trailed system goal settings trail e) {events : List Event}
    {t : State} (hstep : e.step = .ok (next, events))
    (hfresh : Attempt.fresh t ∈ (e.leg events).attempts) :
    e.stats.discovered < next.stats.discovered := by
  have hnext := h.step hstep
  have hroot : next.root = e.root := (h.tree.extends_stepped (stepped_of_step hstep)).root
  have hpushed : t.fingerprint ∈ (e.leg events).attempts.filterMap Attempt.pushed? :=
    List.mem_filterMap.mpr ⟨_, hfresh, rfl⟩
  have hpos := List.length_pos_of_mem hpushed
  rw [h.discovered_eq_length_pushed, hnext.discovered_eq_length_pushed, hroot, Trail.pushed_append,
    List.length_append]
  omega

/-- The level of a new state is a word, if there are no more states with it than there are words. -/
theorem Trailed.succ_lt_size (h : Trailed system goal settings trail e) {depth : UInt32}
    (hr : e.RecordsAfter next depth)
    (hsmall : e.stats.discovered < UInt32.size ∨ next.stats.discovered ≤ UInt32.size) :
    depth.toNat + 1 < UInt32.size := by
  obtain ⟨events, current, frontier, s, t, link, hstep, hv, rfl, hfresh⟩ := hr
  have hmore := h.discovered_lt hstep hfresh
  have hroom : e.stats.discovered < UInt32.size := by omega
  have hdepth := h.tree.depth_lt (Nat.le_of_lt hroom) hv.linked
  omega

/-! ## Statement

    Of every search, whatever its budget and its collisions. -/

/-- The levels of a search count what they are meant to count. -/
structure DepthsExact (e : Explorer) : Prop where
  depth_lt : ∀ (fp : Fingerprint) (link : Link), e.parents[fp]? = some link →
    link.depth.toNat < e.stats.discovered
  depth_succ : ∀ (fp : Fingerprint) (link above : Link), e.parents[fp]? = some link →
    link.parent ≠ fp → e.parents[link.parent]? = some above →
    link.depth.toNat = above.depth.toNat + 1
  witness : ∀ (fp : Fingerprint) (link : Link), e.parents[fp]? = some link →
    ∃ w, e.witness fp = .ok w ∧ w.actionCount = link.depth.toNat
  longest_le : ∀ fp w, e.witness fp = .ok w → w.actionCount ≤ e.stats.maxDepth.toNat
  longest_attained : ∃ fp w, e.witness fp = .ok w ∧ w.actionCount = e.stats.maxDepth.toNat

theorem Trailed.depthsExact (h : Trailed system goal settings trail e)
    (hsmall : e.stats.discovered ≤ UInt32.size) : DepthsExact e := by
  have ht := h.tree
  constructor
  case depth_lt =>
    intro fp link hlink
    exact ht.depth_lt hsmall hlink
  case depth_succ =>
    intro fp link above hlink hne habove
    have hroot : fp ≠ e.root := mt (ht.self_link hlink).mpr hne
    exact (ht.edge hroot hlink).depth hsmall above habove
  case witness =>
    intro fp link hlink
    exact ht.exists_witness hsmall hlink
  case longest_le =>
    intro fp w hw
    exact ht.actionCount_le_maxDepth h.deepest hsmall hw
  case longest_attained =>
    obtain ⟨fp, link, hlink, hmax⟩ := h.deepest.attained
    obtain ⟨w, hw, hcount⟩ := ht.exists_witness hsmall hlink
    exact ⟨fp, w, hw, by rw [hcount, hmax]⟩

/-- **Levels are exact up to `2^32` states**, whatever collides and whatever the budget drops.

    1. A budget of at most `2^32` states keeps the search to as many.
    2. So far every level has been counted without wrapping around, is less than the number of states,
       and is the number of actions on the trace; the deepest is that of the longest trace.
    3. So will be the level of the states that the next step records, if there are no more than `2^32`
       states after it, or less than `2^32` before. -/
theorem Arises.depths_exact (h : Arises system goal settings e) :
    (∀ budget, settings.maxStates = some budget → budget ≤ UInt32.size →
      e.stats.discovered ≤ UInt32.size) ∧
    (e.stats.discovered ≤ UInt32.size → DepthsExact e) ∧
    ∀ next depth, e.RecordsAfter next depth →
      e.stats.discovered < UInt32.size ∨ next.stats.discovered ≤ UInt32.size →
      depth.toNat + 1 < UInt32.size := by
  obtain ⟨trail, htrail⟩ := h.trailed
  refine ⟨?_, htrail.depthsExact, ?_⟩
  · intro budget hbudget hle
    have hdiscovered := htrail.discovered_le hbudget
    have hone : 1 ≤ UInt32.size := by decide
    omega
  · intro next depth hr hsmall
    exact htrail.succ_lt_size hr hsmall

/-- With room for six states a search for four units comes two actions deep, and no trace is longer. -/
theorem jugs_depths_exact :
    ∃ (system : TransitionSystem) (goal : Goal) (e : Explorer),
      (waterJugs 3 5 4).build = .ok (system, goal) ∧
      Arises system goal { Settings.default with maxStates := some 6 } e ∧
      e.stats.discovered ≤ UInt32.size ∧ DepthsExact e ∧
      (∃ fp w, e.witness fp = .ok w ∧ w.actionCount = 2) ∧
      ∀ fp w, e.witness fp = .ok w → w.actionCount ≤ 2 := by
  have hquery : ((waterJugs 3 5 4).finish { Settings.default with maxStates := some 6 }).any
      (fun finished => finished.explorer.stats.maxDepth == 2) = true := by decide +kernel
  obtain ⟨finished, hfinish, hmax⟩ := (Option.any_eq_true ..).mp hquery
  obtain ⟨system, goal, e, hbuild, hstart, hrun⟩ := Puzzle.exists_of_finish hfinish
  have harises := (Arises.start hstart).run hrun
  obtain ⟨hbudget, hexact, -⟩ := Arises.depths_exact harises
  have hsmall := hbudget 6 rfl (by decide)
  have hdepths := hexact hsmall
  have hlongest := hdepths.longest_attained
  have hle := hdepths.longest_le
  rw [beq_iff_eq.mp hmax] at hlongest hle
  exact ⟨system, goal, finished.explorer, hbuild, harises, hsmall, hdepths, hlongest, hle⟩

end Explorer

end GuardedReach
