/-
  The levels of two jugs — what every reachable state of the puzzle keeps, and how many states that leaves.

  1. **Invariant** — `WithinJugs`: each jug holds at least nothing and at most its capacity, and one of
     them is empty or full.  Reachable levels are those that can be poured, and these are such
     (`withinJugs_of_poured`).

  2. **Exactness** — the only arithmetic is that of the two pourings, and on levels within the capacities
     it does not wrap around (`runsExactly_pourJug`).

  3. **States** — a state is the pair of its levels (`levels_injOn`), so there are no more reachable
     states than pairs, and no search records more.

  4. **Statement** — `waterJugs_levels`.
-/
import Mathlib.Data.Finset.Prod
import GuardedReach.Proofs.Puzzle.Jugs
import GuardedReach.Proofs.Search.Termination

namespace GuardedReach

section

variable {small big goal : Int64} {system : TransitionSystem} {g : Goal} {s : State}

/-! ## Invariant

    Of the levels that can be poured only two things are needed: they lie within the jugs, and one of the
    jugs is empty or full. -/

/-- Two registers that hold what jugs of these capacities can hold, and one of them nothing or all it
    can. -/
def WithinJugs (small big : Int64) (s : State) : Prop :=
  ∃ u v : Int64, s.active = [u, v] ∧ (0 ≤ u ∧ u ≤ small) ∧ (0 ≤ v ∧ v ≤ big) ∧
    (u = 0 ∨ u = small ∨ v = 0 ∨ v = big)

/-- A capacity that is not negative is a natural number. -/
theorem toInt_jugCapacity {capacity : Int64} (h : 0 ≤ capacity) :
    (jugCapacity capacity : Int) = capacity.toInt :=
  Int.toNat_of_nonneg (Int64.le_iff_toInt_le.mp h)

/-- Levels that can be poured are within the jugs. -/
theorem withinJugs_of_poured (hsmall : 0 ≤ small) (hbig : 0 ≤ big) {x y : Nat} (hs : Holds s x y)
    (h : Poured (jugCapacity small) (jugCapacity big) x y) : WithinJugs small big s := by
  obtain ⟨u, v, hactive, hu, hv⟩ := hs
  obtain ⟨hx, hy⟩ := h.le
  have hextreme := h.extreme
  have hcapSmall := toInt_jugCapacity hsmall
  have hcapBig := toInt_jugCapacity hbig
  have hzero : (0 : Int64).toInt = 0 := rfl
  refine ⟨u, v, hactive, ?_, ?_, ?_⟩
  · rw [Int64.le_iff_toInt_le, Int64.le_iff_toInt_le]
    omega
  · rw [Int64.le_iff_toInt_le, Int64.le_iff_toInt_le]
    omega
  · rw [← Int64.toInt_inj, ← Int64.toInt_inj, ← Int64.toInt_inj, ← Int64.toInt_inj]
    omega

/-- **Every reachable state is within the jugs.** -/
theorem withinJugs_of_reachable (hdescribes : (waterJugs small big goal).Describes system g)
    (hsmall : 0 ≤ small) (hbig : 0 ≤ big) (h : system.Reachable s) : WithinJugs small big s := by
  obtain ⟨x, y, hs, hpoured⟩ := poured_of_reachable hdescribes h
  exact withinJugs_of_poured hsmall hbig hs hpoured

/-! ## Exactness

    Filling and emptying assign, so only the pourings compute anything. -/

section

variable {name : String} {into jug : UInt8} {u v capacity : Int64}

theorem runsExactly_fillJug : RunsExactly (fillJug name jug capacity).instructions s :=
  runsExactly_cons_of_isGuard rfl (runsExactly_singleton trivial)

theorem runsExactly_emptyJug : RunsExactly (emptyJug name jug).instructions s :=
  runsExactly_cons_of_isGuard rfl (runsExactly_singleton trivial)

/-- Pouring within the capacities computes nothing that does not fit a word. -/
theorem runsExactly_pourJug (hu : s.get? into.toNat = some u) (hv : s.get? jug.toNat = some v)
    (hinto : 0 ≤ u ∧ u ≤ capacity) (hjug : 0 ≤ v) :
    RunsExactly (pourJug name into jug capacity).instructions s := by
  refine runsExactly_cons_of_isGuard rfl (runsExactly_cons_of_isGuard rfl (runsExactly_singleton ?_))
  rintro - u' v' hu' hv'
  obtain rfl := Option.some.inj (hu.symm.trans hu')
  obtain rfl := Option.some.inj (hv.symm.trans hv')
  exact Transfer.exact_of_le (Int64.le_iff_toInt_le.mp hinto.1) (Int64.le_iff_toInt_le.mp hinto.2)
    (Int64.le_iff_toInt_le.mp hjug)

end

/-- **No action wraps around** on a state within the jugs. -/
theorem runsExactly_of_withinJugs (hdescribes : (waterJugs small big goal).Describes system g)
    (h : WithinJugs small big s) {a : Action} (ha : a ∈ system.actions) :
    RunsExactly a.instructions s := by
  obtain ⟨u, v, hactive, hu, hv, -⟩ := h
  obtain ⟨hget, hget'⟩ := get?_of_active hactive
  have hdecl : a.decl ∈ (waterJugs small big goal).actions := by
    rw [← hdescribes.actions]
    exact List.mem_map_of_mem ha
  simp only [waterJugs, List.mem_cons, List.not_mem_nil, or_false] at hdecl
  rcases hdecl with hdecl | hdecl | hdecl | hdecl | hdecl | hdecl <;>
    rw [Action.instructions_of_decl hdecl]
  · exact runsExactly_fillJug
  · exact runsExactly_fillJug
  · exact runsExactly_emptyJug
  · exact runsExactly_emptyJug
  · exact runsExactly_pourJug hget' hget hv hu.1
  · exact runsExactly_pourJug hget hget' hu hv.1

/-! ## States

    Pairs of levels can be counted, and states are told by theirs. -/

/-- The levels of the first two registers of a state. -/
def levels (s : State) : Nat × Nat :=
  ((s.active.getD 0 0).toInt.toNat, (s.active.getD 1 0).toInt.toNat)

theorem Holds.levels_eq {x y : Nat} (h : Holds s x y) : levels s = (x, y) := by
  obtain ⟨u, v, hactive, hu, hv⟩ := h
  unfold levels
  rw [hactive]
  show (u.toInt.toNat, v.toInt.toNat) = (x, y)
  rw [hu, hv, Int.toNat_natCast, Int.toNat_natCast]

/-- The levels of two jugs are all there is to a state. -/
theorem Holds.unique {t : State} {x y : Nat} (h : Holds s x y) (h' : Holds t x y) : s = t := by
  obtain ⟨u, v, hactive, hu, hv⟩ := h
  obtain ⟨u', v', hactive', hu', hv'⟩ := h'
  have hfirst : u = u' := Int64.toInt_inj.mp (hu.trans hu'.symm)
  have hsecond : v = v' := Int64.toInt_inj.mp (hv.trans hv'.symm)
  exact State.ext_active (by rw [hactive, hactive', hfirst, hsecond])

/-- There are no more reachable states than pairs of levels. -/
theorem ncard_reachable_le (hdescribes : (waterJugs small big goal).Describes system g) :
    {s | system.Reachable s}.ncard ≤ (jugCapacity small + 1) * (jugCapacity big + 1) := by
  let pairs := Finset.range (jugCapacity small + 1) ×ˢ Finset.range (jugCapacity big + 1)
  have hmem : ∀ s ∈ {s | system.Reachable s}, levels s ∈ (pairs : Set (Nat × Nat)) := by
    intro s hs
    obtain ⟨x, y, hlevels, hpoured⟩ := poured_of_reachable hdescribes hs
    obtain ⟨hx, hy⟩ := hpoured.le
    rw [hlevels.levels_eq, Finset.mem_coe, Finset.mem_product, Finset.mem_range, Finset.mem_range]
    exact ⟨Nat.lt_succ_of_le hx, Nat.lt_succ_of_le hy⟩
  have hinj : Set.InjOn levels {s | system.Reachable s} := by
    intro s hs t ht heq
    obtain ⟨x, y, hlevels, -⟩ := poured_of_reachable hdescribes hs
    obtain ⟨x', y', hlevels', -⟩ := poured_of_reachable hdescribes ht
    rw [hlevels.levels_eq, hlevels'.levels_eq] at heq
    obtain ⟨rfl, rfl⟩ := Prod.mk.inj heq
    exact hlevels.unique hlevels'
  calc {s | system.Reachable s}.ncard
      ≤ (pairs : Set (Nat × Nat)).ncard :=
        Set.ncard_le_ncard_of_injOn levels hmem hinj (Finset.finite_toSet pairs)
    _ = pairs.card := Set.ncard_coe_finset pairs
    _ = (jugCapacity small + 1) * (jugCapacity big + 1) := by
        rw [Finset.card_product, Finset.card_range, Finset.card_range]

/-- No search records more states than there are pairs of levels. -/
theorem discovered_le_of_arises (hdescribes : (waterJugs small big goal).Describes system g)
    {settings : Settings} {e : Explorer} (h : Explorer.Arises system g settings e) :
    e.stats.discovered ≤ (jugCapacity small + 1) * (jugCapacity big + 1) := by
  obtain ⟨trail, htrail⟩ := h.trailed
  have hle := htrail.tree.discovered_le_ncard
  rw [htrail.frame.1] at hle
  exact hle.trans (ncard_reachable_le hdescribes)

end

/-! ## Statement

    The three together, for every search of the puzzle. -/

/-- **What the two-jug puzzle keeps.**  Of capacities that are not negative the puzzle can be built for
    any goal.  In every state that can be reached each jug holds at least nothing and at most its
    capacity, and one of them is empty or full; no action that is tried there wraps around; and no search,
    whatever its budget, records more states than there are pairs of levels. -/
theorem waterJugs_levels {small big : Int64} (goal : Int64) (hsmall : 0 ≤ small) (hbig : 0 ≤ big) :
    ∃ (system : TransitionSystem) (g : Goal), (waterJugs small big goal).build = .ok (system, g) ∧
      (∀ s, system.Reachable s → WithinJugs small big s) ∧
      (∀ s, system.Reachable s → ∀ a ∈ system.actions, RunsExactly a.instructions s) ∧
      ∀ (settings : Settings) (e : Explorer), Explorer.Arises system g settings e →
        (e.stats.discovered : Int) ≤ (small.toInt + 1) * (big.toInt + 1) := by
  obtain ⟨system, hbuild, hdescribes⟩ :=
    Puzzle.exists_build_of_wellFormed (waterJugs_wellFormed small big goal)
  refine ⟨system, _, hbuild, ?_, ?_, ?_⟩
  · intro s hs
    exact withinJugs_of_reachable hdescribes hsmall hbig hs
  · intro s hs a ha
    exact runsExactly_of_withinJugs hdescribes (withinJugs_of_reachable hdescribes hsmall hbig hs) ha
  · intro settings e he
    rw [← toInt_jugCapacity hsmall, ← toInt_jugCapacity hbig]
    exact_mod_cast discovered_le_of_arises hdescribes he

/-- A search with jugs of three and five for six units, which neither can hold, records sixteen of the
    twenty-four pairs. -/
theorem jugs_levels :
    ∃ (system : TransitionSystem) (g : Goal) (e : Explorer),
      (waterJugs 3 5 6).build = .ok (system, g) ∧ Explorer.Arises system g Settings.default e ∧
      (∀ s, system.Reachable s → WithinJugs 3 5 s) ∧
      (∀ s, system.Reachable s → ∀ a ∈ system.actions, RunsExactly a.instructions s) ∧
      e.status = .exhausted ∧ e.stats.discovered = 16 ∧ (e.stats.discovered : Int) ≤ 24 := by
  have hquery : ((waterJugs 3 5 6).finish Settings.default).any (fun finished =>
      decide (finished.explorer.status = .exhausted ∧ finished.explorer.stats.discovered = 16)) =
        true := by decide +kernel
  obtain ⟨finished, hfinish, hends⟩ := (Option.any_eq_true ..).mp hquery
  obtain ⟨hstatus, hdiscovered⟩ := of_decide_eq_true hends
  obtain ⟨system, goal, e, hbuild, hstart, hrun⟩ := Puzzle.exists_of_finish hfinish
  have harises := (Explorer.Arises.start hstart).run hrun
  obtain ⟨system', goal', hbuild', hwithin, hexact, hbound⟩ :=
    @waterJugs_levels 3 5 6 (by decide) (by decide)
  obtain ⟨rfl, rfl⟩ := Prod.mk.inj (Except.ok.inj (hbuild.symm.trans hbuild'))
  exact ⟨system, goal, finished.explorer, hbuild, harises, hwithin, hexact, hstatus, hdiscovered,
    hbound _ _ harises⟩

end GuardedReach
