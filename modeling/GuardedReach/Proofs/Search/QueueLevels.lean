/-
  The levels of the queue — at every moment it holds at most two, the nearer one in front.

  While a state is expanded the queue holds what is left of its level and, behind that, what the level
  has led to so far.  So this is said of the moments between the attempts of an expansion as well as of
  those between the steps of a search.

  1. **Amid an expansion** — `amid?` is the search when the next step has tried some of the actions.  It
     has the tree and the order of a search (`Tree.amid`), since each single attempt keeps them.

  2. **Along the order** — what has been taken and then the queue stand in the order of their levels
     (`Ordered.pairwise_depths`), and what is recorded lies at most one level below whatever has been
     expanded (`Tree.toNat_depth_le`).  The rest follows from these two (`Ordered.levelOrdered`).

  3. **Statement** — `Trailed.level_order`.
-/
import GuardedReach.Proofs.Search.LevelOrder
import GuardedReach.Proofs.Search.Progress

namespace GuardedReach

namespace Explorer

variable {system : TransitionSystem} {goal : Goal} {settings : Settings} {trail : Trail}
  {e f : Explorer} {expanded taken : List Fingerprint} {current : Fingerprint} {frontier : Frontier}
  {s : State} {link : Link}

/-! ## Amid an expansion

    The program has no name for these moments, so they are named here, by how many actions have been tried.
    -/

/-- What the next step takes from the frontier, and the explorer when that step has tried the first
    `tried` actions; nothing if the next step expands no state. -/
def amid? (e : Explorer) (tried : Nat) : Option (Fingerprint × Explorer) := do
  let (current, frontier, s, link) ← e.upcoming?
  if e.goal.holds s then none
  else
    some (current, ((e.opened frontier link.depth).expand current s link.depth 0
      (e.system.actions.take tried)).1)

/-- What is coming up is what the next step visits. -/
theorem visits_of_upcoming? (h : e.upcoming? = some (current, frontier, s, link)) :
    e.Visits current frontier s link := by
  unfold upcoming? at h
  split at h
  · exact absurd h (by simp)
  · next ht =>
    obtain ⟨⟨fp, rest⟩, hpopped, h⟩ := Option.bind_eq_some_iff.mp h
    obtain ⟨t, hstored, h⟩ := Option.bind_eq_some_iff.mp h
    obtain ⟨l, hlinked, h⟩ := Option.bind_eq_some_iff.mp h
    cases h
    exact ⟨isTerminal_eq_false_iff.mp (by simpa using ht), hpopped, hstored, hlinked⟩

/-- Amid an expansion, a state is being expanded. -/
theorem exists_of_amid? {tried : Nat} (h : e.amid? tried = some (current, f)) :
    ∃ frontier s link, e.Visits current frontier s link ∧ e.goal.holds s = false ∧
      f = ((e.opened frontier link.depth).expand current s link.depth 0
        (e.system.actions.take tried)).1 := by
  obtain ⟨⟨fp, frontier, s, link⟩, hupcoming, h⟩ := Option.bind_eq_some_iff.mp h
  simp only at h
  split at h
  · exact absurd h (by simp)
  · next hg =>
    obtain ⟨rfl, rfl⟩ := Prod.mk.inj (Option.some.inj h)
    exact ⟨frontier, s, link, visits_of_upcoming? hupcoming, by simpa using hg, rfl⟩

/-- To try one action more is to record one attempt more. -/
theorem expand_concat (e : Explorer) (current : Fingerprint) (s : State) (depth : UInt32) (index : Nat)
    (actions : List Action) (a : Action) :
    (e.expand current s depth index (actions ++ [a])).1 =
      (e.expand current s depth index actions).1.record current depth (index + actions.length)
        ((e.expand current s depth index actions).1.attempt a s) := by
  rw [expand_eq_foldl, List.zipIdx_append, List.foldl_append, expand_eq_foldl e]
  rfl

/-- **Each single attempt keeps the tree and the order**, so they hold when any number of actions have
    been tried. -/
theorem Tree.amid (ht : Tree e expanded) (ho : Ordered e expanded)
    (hv : e.Visits current frontier s link) (hg : e.goal.holds s = false) {tried : Nat}
    (hle : tried ≤ e.system.actions.length) :
    Expanding ((e.opened frontier link.depth).expand current s link.depth 0
        (e.system.actions.take tried)).1 expanded current s link tried ∧
      Ordered ((e.opened frontier link.depth).expand current s link.depth 0
        (e.system.actions.take tried)).1 (expanded ++ [current]) := by
  induction tried with
  | zero => exact ⟨ht.opened hv hg, ho.opened ht hv⟩
  | succ tried ih =>
    obtain ⟨hexpanding, hordered⟩ := ih (by omega)
    -- one more action is tried behind those that were
    have htake : e.system.actions.take (tried + 1) =
        e.system.actions.take tried ++ [e.system.actions[tried]] := by
      rw [List.take_add_one, List.getElem?_eq_getElem hle]
      rfl
    have hlength : 0 + (e.system.actions.take tried).length = tried := by
      rw [List.length_take]
      omega
    have hsystem := (frame_expand (e.opened frontier link.depth) current s link.depth
      (e.system.actions.take tried)).1
    rw [htake, expand_concat, hlength]
    refine ⟨hexpanding.record ?_ (tried_attempt ..), hexpanding.ordered_record hordered
      (tried_attempt ..)⟩
    rw [hsystem]
    exact List.getElem?_eq_getElem hle

/-! ## Along the order

    Everything taken and everything queued stand in one order, in which depths never decrease. -/

theorem depths_append (e : Explorer) (front back : List Fingerprint) :
    e.depths (front ++ back) = e.depths front ++ e.depths back :=
  List.filterMap_append

/-- What a search has recorded lies the deeper, the later it stands in the order. -/
theorem Ordered.pairwise_depths (h : Ordered e expanded) (ht : Tree e expanded)
    (hsmall : e.stats.discovered ≤ UInt32.size) :
    (e.depths (expanded ++ e.pending)).Pairwise (· ≤ ·) := by
  refine List.pairwise_filterMap.mpr (List.pairwise_iff_getElem.mpr ?_)
  intro i j hi hj hlt upper hupper lower hlower
  obtain ⟨above, habove, rfl⟩ := Option.map_eq_some_iff.mp hupper
  obtain ⟨below, hbelow, rfl⟩ := Option.map_eq_some_iff.mp hlower
  have hsplit : expanded ++ e.pending = (expanded ++ e.pending).take j ++
      (expanded ++ e.pending)[j] :: (expanded ++ e.pending).drop (j + 1) := by
    rw [List.getElem_cons_drop, List.take_append_drop]
  have hmem : (expanded ++ e.pending)[i] ∈ (expanded ++ e.pending).take j :=
    List.mem_take_iff_getElem.mpr ⟨i, by omega, rfl⟩
  exact UInt32.le_iff_toNat_le.mp (h.depth_le ht hsmall hsplit hmem habove hbelow)

/-- The last of a list that never decreases is its greatest. -/
theorem le_of_getLast? {depths : List Nat} {last : Nat} (h : depths.Pairwise (· ≤ ·))
    (hlast : depths.getLast? = some last) {depth : Nat} (hm : depth ∈ depths) : depth ≤ last := by
  obtain ⟨front, rfl⟩ := List.getLast?_eq_some_iff.mp hlast
  rcases List.mem_append.mp hm with hm | hm
  · exact (List.pairwise_append.mp h).2.2 depth hm last (List.mem_singleton_self last)
  · exact Nat.le_of_eq (List.mem_singleton.mp hm)

/-- What a search has taken from its queue, and what is left there, come in the order of their
    levels. -/
structure LevelOrdered (e : Explorer) (taken : List Fingerprint) : Prop where
  /-- All of it has a level. -/
  recorded : ∀ fp ∈ taken ++ e.frontier.toList, fp ∈ e.parents
  /-- From front to back the levels of the queue never decrease. -/
  queue_sorted : (e.depths e.frontier.toList).Pairwise (· ≤ ·)
  /-- The queue ends at most one level below its front. -/
  queue_spread : ∀ first ∈ (e.depths e.frontier.toList).head?,
    ∀ last ∈ (e.depths e.frontier.toList).getLast?, last ≤ first + 1
  /-- It lies on the level of the state taken last, or on the one below. -/
  queue_near : ∀ latest ∈ (e.depths taken).getLast?, ∀ depth ∈ e.depths e.frontier.toList,
    latest ≤ depth ∧ depth ≤ latest + 1
  /-- The levels of the states taken never decrease. -/
  taken_sorted : (e.depths taken).Pairwise (· ≤ ·)
  /-- Every state of a level is taken before any state of a deeper one. -/
  level_by_level : ∀ (front : List Fingerprint) (other : Fingerprint) (back : List Fingerprint),
    taken = front ++ other :: back → ∀ upper : Link, e.parents[other]? = some upper →
    ∀ (fp : Fingerprint) (link : Link), e.parents[fp]? = some link → link.depth < upper.depth →
      fp ∈ front

/-- **Two levels at most.**  What has been expanded has been taken, so whatever is queued lies at most
    one level below what was taken last, and below the front of the queue. -/
theorem Ordered.levelOrdered (h : Ordered e expanded) (ht : Tree e expanded)
    (hsmall : e.stats.discovered ≤ UInt32.size)
    (horder : taken ++ e.frontier.toList = expanded ++ e.pending)
    (hsub : ∀ fp ∈ expanded, fp ∈ taken) : LevelOrdered e taken := by
  have hsorted := h.pairwise_depths ht hsmall
  rw [← horder, depths_append, List.pairwise_append] at hsorted
  obtain ⟨htaken, hqueue, hacross⟩ := hsorted
  -- whatever bounds the levels of all that was taken bounds those of the queue, but for one level
  have hnear : ∀ bound, (∀ depth ∈ e.depths taken, depth ≤ bound) →
      ∀ depth ∈ e.depths e.frontier.toList, depth ≤ bound + 1 := by
    intro bound hbound depth hdepth
    obtain ⟨fp, -, link, hlink, rfl⟩ := mem_depths_iff.mp hdepth
    refine ht.toNat_depth_le hsmall ?_ hlink
    intro other hm upper hupper
    exact hbound _ (mem_depths_iff.mpr ⟨other, hsub other hm, upper, hupper, rfl⟩)
  constructor
  case recorded =>
    intro fp hm
    rw [horder] at hm
    exact (ht.mem_parents fp).mpr hm
  case queue_sorted => exact hqueue
  case queue_spread =>
    intro first hfirst last hlast
    have hfirst := List.mem_of_head? hfirst
    exact hnear first (fun depth hdepth => hacross depth hdepth first hfirst) last
      (List.mem_of_getLast? hlast)
  case queue_near =>
    intro latest hlatest depth hdepth
    refine ⟨hacross latest (List.mem_of_getLast? hlatest) depth hdepth, ?_⟩
    exact hnear latest (fun _ hm => le_of_getLast? htaken hlatest hm) depth hdepth
  case taken_sorted => exact htaken
  case level_by_level =>
    intro front other back hsplit upper hupper fp link hlink hless
    have hm := (ht.mem_parents fp).mp (Fingerprint.mem_of_getElem? hlink)
    have horder' := split_append hsplit e.frontier.toList
    rw [horder] at horder'
    rw [horder'] at hm
    rcases List.mem_append.mp hm with hm | hm
    · exact hm
    · rcases List.mem_cons.mp hm with rfl | hm
      · obtain rfl := Option.some.inj (hupper.symm.trans hlink)
        exact absurd hless (UInt32.lt_irrefl _)
      · -- one that stood behind would lie no higher
        obtain ⟨between, rest, hback⟩ := List.append_of_mem hm
        have hlater : expanded ++ e.pending = (front ++ other :: between) ++ fp :: rest := by
          rw [horder', hback, List.append_assoc]
          rfl
        have hle := h.depth_le ht hsmall hlater List.mem_append_cons_self hupper hlink
        exact absurd hless (UInt32.not_lt.mpr hle)

/-! ## Statement

    At every moment, between steps and amid them. -/

/-- What has been expanded has been taken. -/
theorem Trailed.mem_taken_of_mem_expanded (h : Trailed system goal settings trail e)
    {fp : Fingerprint} (hm : fp ∈ trail.expanded) : fp ∈ trail.taken := by
  have horder := h.history.taken
  cases hstatus : e.status with
  | found goal =>
    have hpending : e.pending = [goal] ++ e.frontier.toList := by
      unfold pending
      rw [hstatus]
      rfl
    rw [hpending, ← List.append_assoc] at horder
    rw [List.append_cancel_right horder]
    exact List.mem_append_left _ hm
  | running | exhausted | truncated =>
    have hpending : e.pending = e.frontier.toList := by
      unfold pending
      rw [hstatus]
    rw [hpending] at horder
    rw [List.append_cancel_right horder]
    exact hm

/-- **A search goes level by level**, whatever collides and whatever the budget drops, while at most
    `2^32` states are recorded.  From front to back the levels of its queue never decrease, and the last
    is at most one more than the first; each is that of the state taken last or one more; the levels of
    the states taken never decrease, and every state of a level is taken before any state of a deeper
    one.  All this holds between the steps of the search, and between the attempts of each step. -/
theorem Trailed.level_order (h : Trailed system goal settings trail e) :
    (e.stats.discovered ≤ UInt32.size → LevelOrdered e trail.taken) ∧
    ∀ (tried : Nat) (current : Fingerprint) (f : Explorer), tried ≤ e.system.actions.length →
      e.amid? tried = some (current, f) → f.stats.discovered ≤ UInt32.size →
      LevelOrdered f (trail.taken ++ [current]) := by
  constructor
  · intro hsmall
    exact h.ordered.levelOrdered h.tree hsmall h.history.taken fun fp => h.mem_taken_of_mem_expanded
  · intro tried current f hle hamid hsmall
    obtain ⟨frontier, s, link, hv, hg, rfl⟩ := exists_of_amid? hamid
    obtain ⟨hexpanding, hordered⟩ := h.tree.amid h.ordered hv hg hle
    rw [h.taken_eq_expanded hv.running]
    refine hordered.levelOrdered hexpanding.tree hsmall ?_ fun fp hm => hm
    rw [pending_of_running hexpanding.running]

/-- Towards four units in the big one of jugs of three and five: when the small jug has been filled and
    the first two actions have been tried on that, the queue holds two levels. -/
theorem jugs_level_order :
    ∃ (system : TransitionSystem) (goal : Goal) (trail : Trail) (e f : Explorer)
      (current : Fingerprint),
      (waterJugs 3 5 4).build = .ok (system, goal) ∧
      Trailed system goal Settings.default trail e ∧ e.amid? 2 = some (current, f) ∧
      e.depths e.frontier.toList = [1, 1] ∧ f.depths f.frontier.toList = [1, 2] ∧
      LevelOrdered e trail.taken ∧ LevelOrdered f (trail.taken ++ [current]) := by
  have hquery : (waterJugs 3 5 4).build.toOption.any (fun pair =>
      (Explorer.start pair.1 pair.2 Settings.default).toOption.any fun start =>
        (start.steps 1).toOption.any fun e => (e.amid? 2).any fun midst =>
          decide (e.stats.discovered = 3 ∧ midst.2.stats.discovered = 4 ∧
            2 ≤ e.system.actions.length ∧ e.depths e.frontier.toList = [1, 1] ∧
            midst.2.depths midst.2.frontier.toList = [1, 2])) = true := by decide +kernel
  obtain ⟨pair, hbuild, hquery⟩ := (Option.any_eq_true ..).mp hquery
  obtain ⟨start, hstart, hquery⟩ := (Option.any_eq_true ..).mp hquery
  obtain ⟨e, hsteps, hquery⟩ := (Option.any_eq_true ..).mp hquery
  obtain ⟨⟨current, f⟩, hamid, hquery⟩ := (Option.any_eq_true ..).mp hquery
  obtain ⟨hcount, hcount', hlength, hqueue, hqueue'⟩ := of_decide_eq_true hquery
  obtain ⟨trail, htrail⟩ :=
    trailed_of_steps (Puzzle.eq_ok_of_toOption hstart) (Puzzle.eq_ok_of_toOption hsteps)
  obtain ⟨hbetween, hamidst⟩ := Trailed.level_order htrail
  exact ⟨pair.1, pair.2, trail, e, f, current, Puzzle.eq_ok_of_toOption hbuild, htrail, hamid, hqueue,
    hqueue', hbetween (by rw [hcount]; decide),
    hamidst 2 current f hlength hamid (by rw [hcount']; decide)⟩

end Explorer

end GuardedReach
