/-
  Level order — the states come off the frontier level by level.

  Levels are 32-bit words that wrap around, and states are told apart by a hash.  While at most `2^32`
  states are recorded no level wraps, and then the levels of the states that a search takes never
  decrease, and never jump.

  1. **Along the order** — what stands earlier in the order of discovery has no longer a lineage, so it lies
     no deeper (`Ordered.depth_le`).  What is recorded hangs from what has been expanded, so it lies at most
     one level below it (`Tree.toNat_depth_le`).

  2. **The level of a search** — it is that of the deepest state taken so far (`Levelled`,
     `Levelled.deepest_eq`), whatever wraps.

  3. **The next level** — hence the next state taken lies on the level of the search or on the one below it
     (`Trailed.next_level`).
-/
import GuardedReach.Proofs.Search.History
import GuardedReach.Proofs.Search.Order

namespace GuardedReach

namespace Explorer

variable {system : TransitionSystem} {goal : Goal} {settings : Settings} {trail : Trail}
  {e next : Explorer} {expanded taken : List Fingerprint}

/-! ## Along the order

    The order of discovery is the order of the levels. -/

/-- What was discovered earlier lies no deeper. -/
theorem Ordered.depth_le (h : Ordered e expanded) (ht : Tree e expanded)
    (hsmall : e.stats.discovered ≤ UInt32.size) {front back : List Fingerprint} {fp other : Fingerprint}
    {link upper : Link} (horder : expanded ++ e.pending = front ++ fp :: back) (hm : other ∈ front)
    (hother : e.parents[other]? = some upper) (hlink : e.parents[fp]? = some link) :
    upper.depth ≤ link.depth := by
  obtain ⟨others, hothers⟩ := ht.lineage other (Fingerprint.mem_of_getElem? hother)
  obtain ⟨steps, hsteps⟩ := ht.lineage fp (Fingerprint.mem_of_getElem? hlink)
  have hle := h.length_le ht horder hm hsteps hothers
  have hupper := ht.toNat_depth hsmall hothers hother
  have hlower := ht.toNat_depth hsmall hsteps hlink
  exact UInt32.le_iff_toNat_le.mpr (by omega)

/-- If nothing expanded lies deeper than some bound, nothing recorded lies deeper than the level below it.
    -/
theorem Tree.toNat_depth_le (h : Tree e expanded) (hsmall : e.stats.discovered ≤ UInt32.size)
    {bound : Nat} (hbound : ∀ fp ∈ expanded, ∀ link : Link,
      e.parents[fp]? = some link → link.depth.toNat ≤ bound)
    {fp : Fingerprint} {link : Link} (hlink : e.parents[fp]? = some link) :
    link.depth.toNat ≤ bound + 1 := by
  by_cases hroot : fp = e.root
  · rw [hroot, h.root_linked] at hlink
    obtain rfl := Option.some.inj hlink
    exact Nat.zero_le _
  · have hbranch := h.branch fp link hroot hlink
    obtain ⟨above, habove, -⟩ := hbranch.depth
    rw [(h.edge hroot hlink).depth hsmall above habove]
    exact Nat.succ_le_succ (hbound _ hbranch.parent_mem above habove)

/-! ## The level of a search

    The search keeps a level of its own, which it raises as it takes states.  It is compared with what the
    links say of the states taken. -/

/-- The level of a search is that of the deepest of the states it has taken, and the first if it has taken
    none. -/
structure Levelled (e : Explorer) (taken : List Fingerprint) : Prop where
  depth_le : ∀ fp ∈ taken, ∃ link : Link, e.parents[fp]? = some link ∧ link.depth ≤ e.level
  attained : (taken = [] ∧ e.level = 0) ∨
    ∃ fp ∈ taken, ∃ link : Link, e.parents[fp]? = some link ∧ link.depth = e.level

/-- An expansion leaves the level of the search as it is. -/
theorem level_expand (e : Explorer) (current : Fingerprint) (s : State) (depth : UInt32) (index : Nat)
    (actions : List Action) : (e.expand current s depth index actions).1.level = e.level := by
  induction actions generalizing e index with
  | nil => rfl
  | cons a rest ih =>
    have hrecord : (e.record current depth index (e.attempt a s)).level = e.level := by
      cases e.attempt a s <;> rfl
    exact (ih _ _).trans hrecord

namespace Levelled

/-- Nothing that is added changes the levels of what was taken. -/
theorem mono (h : Levelled e taken) (hx : Extends e next) (hlevel : next.level = e.level) :
    Levelled next taken where
  depth_le fp hm := by
    obtain ⟨link, hlink, hle⟩ := h.depth_le fp hm
    rw [hlevel]
    exact ⟨link, hx.parents _ _ hlink, hle⟩
  attained := by
    rw [hlevel]
    refine h.attained.imp_right ?_
    rintro ⟨fp, hm, link, hlink, heq⟩
    exact ⟨fp, hm, link, hx.parents _ _ hlink, heq⟩

/-- To take a state moves the search to its level, if that is deeper. -/
theorem take (h : Levelled e taken) (hx : Extends e next) {current : Fingerprint} {link : Link}
    (hlink : e.parents[current]? = some link)
    (hlevel : next.level = if e.level < link.depth then link.depth else e.level) :
    Levelled next (taken ++ [current]) := by
  -- a state on the level of the search or above it leaves the level where it is
  by_cases hdeeper : e.level < link.depth
  · rw [if_pos hdeeper] at hlevel
    refine ⟨?_, Or.inr ⟨current, by simp, link, hx.parents _ _ hlink, hlevel.symm⟩⟩
    intro fp hm
    rw [hlevel]
    rcases List.mem_append.mp hm with hm | hm
    · obtain ⟨held, hheld, hle⟩ := h.depth_le fp hm
      exact ⟨held, hx.parents _ _ hheld, UInt32.le_trans hle (UInt32.le_of_lt hdeeper)⟩
    · rw [List.mem_singleton.mp hm]
      exact ⟨link, hx.parents _ _ hlink, UInt32.le_refl _⟩
  · rw [if_neg hdeeper] at hlevel
    have hle : link.depth ≤ e.level := UInt32.not_lt.mp hdeeper
    have hmono := h.mono hx hlevel
    refine ⟨?_, Or.inr ?_⟩
    · intro fp hm
      rcases List.mem_append.mp hm with hm | hm
      · exact hmono.depth_le fp hm
      · rw [List.mem_singleton.mp hm, hlevel]
        exact ⟨link, hx.parents _ _ hlink, hle⟩
    · rcases hmono.attained with ⟨-, hzero⟩ | ⟨fp, hm, held⟩
      · -- nothing was taken before, and the first level is the only one that is not deeper
        rw [← hlevel, hzero] at hle
        exact ⟨current, by simp, link, hx.parents _ _ hlink,
          (UInt32.le_antisymm hle (UInt32.zero_le)).trans hzero.symm⟩
      · exact ⟨fp, List.mem_append_left _ hm, held⟩

/-- One step keeps up with the level. -/
theorem stepped (h : Levelled e taken) (ht : Tree e expanded) {events : List Event} {leg : Trail}
    (hs : Stepped e events leg next) : Levelled next (taken ++ leg.taken) := by
  have hx := ht.extends_stepped hs
  cases hs with
  | rested hterminal =>
    rw [Trail.empty, List.append_nil]
    exact h
  | ended hr hq =>
    rw [Trail.empty, List.append_nil]
    exact h.mono hx rfl
  | found hv hg => exact h.take hx hv.linked rfl
  | expanded hv hg => exact h.take hx hv.linked (level_expand ..)

end Levelled

theorem level_of_start (h : Explorer.start system goal settings = .ok e) : e.level = 0 := by
  obtain rfl := eq_of_start h
  rfl

/-- The level of a search is always that of what it has taken. -/
theorem Trailed.levelled (h : Trailed system goal settings trail e) : Levelled e trail.taken := by
  induction h with
  | start h => exact ⟨fun fp hm => absurd hm List.not_mem_nil, Or.inl ⟨rfl, level_of_start h⟩⟩
  | step he h ih => exact ih.stepped he.tree (stepped_of_step h)

/-- The levels at which the fingerprints are recorded, in their order. -/
def depths (e : Explorer) (fps : List Fingerprint) : List Nat :=
  fps.filterMap fun fp => e.parents[fp]?.map fun link => link.depth.toNat

/-- The level of the deepest state that a search has taken from its frontier. -/
def Trail.deepest (trail : Trail) (e : Explorer) : Nat :=
  (e.depths trail.taken).max?.getD 0

theorem mem_depths_iff {fps : List Fingerprint} {depth : Nat} :
    depth ∈ e.depths fps ↔
      ∃ fp ∈ fps, ∃ link : Link, e.parents[fp]? = some link ∧ link.depth.toNat = depth := by
  simp [depths]

/-- The deepest state taken lies on the level of the search. -/
theorem Levelled.deepest_eq (h : Levelled e trail.taken) : trail.deepest e = e.level.toNat := by
  unfold Trail.deepest
  rcases h.attained with ⟨hnone, hzero⟩ | ⟨fp, hm, link, hlink, heq⟩
  · rw [hnone, hzero]
    rfl
  · have hmax : (e.depths trail.taken).max? = some e.level.toNat := by
      refine List.max?_eq_some_iff.mpr ⟨mem_depths_iff.mpr ⟨fp, hm, link, hlink, by rw [heq]⟩, ?_⟩
      intro depth hdepth
      obtain ⟨fp, hm, held, hheld, rfl⟩ := mem_depths_iff.mp hdepth
      obtain ⟨link, hlink, hle⟩ := h.depth_le fp hm
      obtain rfl := Option.some.inj (hheld.symm.trans hlink)
      exact UInt32.le_iff_toNat_le.mp hle
    rw [hmax, Option.getD_some]

/-! ## The next level

    Put together, a search goes down one level at a time. -/

/-- While a search is running it has expanded all that it has taken. -/
theorem Trailed.taken_eq_expanded (h : Trailed system goal settings trail e)
    (hr : e.status = .running) : trail.taken = trail.expanded := by
  have horder := h.history.taken
  rw [pending_of_running hr] at horder
  exact List.append_cancel_right horder

/-- **The next state lies no higher than any before it, and at most one level deeper.** -/
theorem Trailed.next_level (h : Trailed system goal settings trail e)
    (hsmall : e.stats.discovered ≤ UInt32.size) {current : Fingerprint} {frontier : Frontier} {s : State}
    {link : Link} (hv : e.Visits current frontier s link) :
    e.level ≤ link.depth ∧ link.depth.toNat ≤ e.level.toNat + 1 := by
  have hlevelled := h.levelled
  rw [h.taken_eq_expanded hv.running] at hlevelled
  constructor
  · rcases hlevelled.attained with ⟨-, hzero⟩ | ⟨fp, hm, upper, hupper, heq⟩
    · rw [hzero]
      exact UInt32.zero_le
    · have horder : trail.expanded ++ e.pending = trail.expanded ++ current :: frontier.toList := by
        rw [pending_of_running hv.running, Frontier.toList_eq_cons_of_pop? hv.popped]
      rw [← heq]
      exact h.ordered.depth_le h.tree hsmall horder hm hupper hv.linked
  · refine h.tree.toNat_depth_le hsmall ?_ hv.linked
    intro fp hm held hheld
    obtain ⟨link, hlink, hle⟩ := hlevelled.depth_le fp hm
    obtain rfl := Option.some.inj (hheld.symm.trans hlink)
    exact UInt32.le_iff_toNat_le.mp hle

end Explorer

end GuardedReach
