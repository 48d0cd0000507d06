/-
  The two-jug puzzle, solved — which goals can be measured, and that a search tells.

  1. **Actions** — each kind of action has one lemma for the registers after it has been tried: a
     refused action leaves them as they are (`active_fillJug`, `active_emptyJug`, `active_pourJug`).

  2. **Levels** — words are read as levels of the jugs (`Holds`).  Within the capacities nothing
     wraps, and trying an action has the same outcome as the pouring of the same name: where the
     action is refused the pouring makes no difference.  A negative capacity counts as none.

  3. **Reachability** — so the levels of the reachable states are exactly those that can be poured
     (`poured_of_reachable`, `exists_reachable_of_poured`).

  4. **Statement** — `waterJugs_solvable_iff`.
-/
import GuardedReach.Proofs.Machine.Execution
import GuardedReach.Proofs.Puzzle.Pouring
import GuardedReach.Proofs.Puzzle.Validation
import GuardedReach.Proofs.Report.Verdict

namespace GuardedReach

/-! ## Actions

    The jug named is the register named.  What an action leaves is the list of registers with one or two
    items replaced, whether it was refused or not. -/

/-- What a jug that holds `u` holds after a try to fill it. -/
def tryFill (u capacity : Int64) : Int64 :=
  if u < capacity then capacity else u

/-- What jugs that hold `u` and `v` hold after a try to pour the second into the first. -/
def tryPour (u v capacity : Int64) : Int64 × Int64 :=
  if v ≠ 0 ∧ u < capacity then Transfer.pour u v capacity else (u, v)

namespace Action

variable {a : Action} {s : State} {name : String} {jug into : UInt8} {u v capacity : Int64}

/-- The instructions are those of the declaration. -/
theorem instructions_of_decl {decl : ActionDecl} (h : a.decl = decl) :
    a.instructions = decl.instructions :=
  congrArg ActionDecl.instructions h

/-- Filling replaces the content of the jug, or the jug was full. -/
theorem active_fillJug (h : a.decl = fillJug name jug capacity) (hu : s.get? jug.toNat = some u) :
    ((a.apply s).getD s).active = s.active.set jug.toNat (tryFill u capacity) := by
  obtain ⟨t, ht, hactive⟩ := Instruction.execute_assign capacity hu
  have hself := State.set_active_self hu
  unfold apply run tryFill
  rw [instructions_of_decl h, fillJug]
  by_cases hroom : u < capacity <;>
    simp [runAll, Instruction.execute_lessThan capacity hu, hroom, ht, hactive, hself,
      Except.toOption]

/-- Emptying leaves nothing in the jug, or there was nothing. -/
theorem active_emptyJug (h : a.decl = emptyJug name jug) (hu : s.get? jug.toNat = some u) :
    ((a.apply s).getD s).active = s.active.set jug.toNat 0 := by
  obtain ⟨t, ht, hactive⟩ := Instruction.execute_assign 0 hu
  have hself := State.set_active_self hu
  unfold apply run
  rw [instructions_of_decl h, emptyJug]
  by_cases hempty : u = 0
  · rw [hempty] at hself
    simp [runAll, Instruction.execute_notEqual 0 hu, hempty, hself, Except.toOption]
  · simp [runAll, Instruction.execute_notEqual 0 hu, hempty, ht, hactive, Except.toOption]

/-- Pouring replaces the contents of both jugs, or nothing could be poured. -/
theorem active_pourJug (h : a.decl = pourJug name into jug capacity) (hne : into ≠ jug)
    (hu : s.get? into.toNat = some u) (hv : s.get? jug.toNat = some v) :
    ((a.apply s).getD s).active =
      (s.active.set jug.toNat (tryPour u v capacity).2).set into.toNat (tryPour u v capacity).1 := by
  obtain ⟨t, ht, hactive⟩ := Instruction.execute_boundedTransfer capacity hne hu hv
  have hself : (s.active.set jug.toNat v).set into.toNat u = s.active := by
    rw [State.set_active_self hv, State.set_active_self hu]
  unfold apply run tryPour
  rw [instructions_of_decl h, pourJug]
  have hempty := Instruction.execute_notEqual 0 hv
  have hroom := Instruction.execute_lessThan capacity hu
  by_cases hguards : v ≠ 0 ∧ u < capacity
  · rw [if_pos hguards, ← hactive]
    simp [runAll, hempty, hroom, hguards.1, hguards.2, ht, Except.toOption]
  · rw [if_neg hguards, hself]
    by_cases hv0 : v = 0
    · simp [runAll, hempty, hv0, Except.toOption]
    · have hfull : ¬ u < capacity := fun h => hguards ⟨hv0, h⟩
      simp [runAll, hempty, hroom, hv0, hfull, Except.toOption]

end Action

/-! ## Levels

    The registers of a reachable state are levels within the capacities, and there the arithmetic of words
    is that of numbers.  So each action does to the levels what the pouring of its name does. -/

/-- The state has two registers, which hold these levels. -/
def Holds (s : State) (x y : Nat) : Prop :=
  ∃ u v : Int64, s.active = [u, v] ∧ u.toInt = x ∧ v.toInt = y

/-- What a jug of this capacity can hold. -/
def jugCapacity (capacity : Int64) : Nat :=
  capacity.toInt.toNat

section

variable {u v capacity : Int64} {x y : Nat}

/-- A jug that is filled holds its capacity. -/
theorem toInt_tryFill (hu : u.toInt = x) (hx : x ≤ jugCapacity capacity) :
    (tryFill u capacity).toInt = jugCapacity capacity := by
  unfold jugCapacity at *
  unfold tryFill
  split
  · next hroom =>
    have hlt := Int64.lt_iff_toInt_lt.mp hroom
    omega
  · next hroom =>
    have hle := mt Int64.lt_iff_toInt_lt.mpr hroom
    omega

/-- What is poured is what is there, or what there is room for. -/
theorem toInt_tryPour (hu : u.toInt = x) (hv : v.toInt = y) (hx : x ≤ jugCapacity capacity) :
    (tryPour u v capacity).1.toInt = (x + min y (jugCapacity capacity - x) : Nat) ∧
      (tryPour u v capacity).2.toInt = (y - min y (jugCapacity capacity - x) : Nat) := by
  unfold jugCapacity at *
  unfold tryPour
  split
  · next h =>
    have hlt := Int64.lt_iff_toInt_lt.mp h.2
    have hpour := Transfer.toInt_pour (show 0 ≤ u.toInt by omega) (Int.le_of_lt hlt)
      (show 0 ≤ v.toInt by omega)
    rw [hpour.1, hpour.2]
    omega
  · next h =>
    have hnothing : y = 0 ∨ capacity.toInt ≤ x := by
      rcases Decidable.not_and_iff_not_or_not.mp h with hempty | hfull
      · rw [Decidable.not_not.mp hempty] at hv
        exact .inl (Int.ofNat.inj hv.symm)
      · have hle := mt Int64.lt_iff_toInt_lt.mpr hfull
        omega
    show u.toInt = _ ∧ v.toInt = _
    omega

end

section

variable {a : Action} {s : State} {name : String} {x y : Nat} {capacity : Int64}

/-- Two registers have two contents. -/
theorem get?_of_active {u v : Int64} (h : s.active = [u, v]) :
    s.get? (0 : UInt8).toNat = some u ∧ s.get? (1 : UInt8).toNat = some v := by
  rw [← State.getElem?_active, ← State.getElem?_active, h]
  exact ⟨rfl, rfl⟩

/-- Levels are contents, read as numbers. -/
theorem Holds.get? (h : Holds s x y) :
    ∃ u v : Int64, s.active = [u, v] ∧ u.toInt = x ∧ v.toInt = y ∧
      s.get? (0 : UInt8).toNat = some u ∧ s.get? (1 : UInt8).toNat = some v := by
  obtain ⟨u, v, hactive, hu, hv⟩ := h
  exact ⟨u, v, hactive, hu, hv, get?_of_active hactive⟩

/-- Filling the small jug brings it to its capacity, -/
theorem Holds.fillSmall (h : Holds s x y) (ha : a.decl = fillJug name 0 capacity)
    (hx : x ≤ jugCapacity capacity) : Holds ((a.apply s).getD s) (jugCapacity capacity) y := by
  obtain ⟨u, v, hactive, hu, hv, hsmall, -⟩ := h.get?
  refine ⟨tryFill u capacity, v, ?_, toInt_tryFill hu hx, hv⟩
  rw [Action.active_fillJug ha hsmall, hactive]
  rfl

/-- and filling the big one brings that to its own. -/
theorem Holds.fillBig (h : Holds s x y) (ha : a.decl = fillJug name 1 capacity)
    (hy : y ≤ jugCapacity capacity) : Holds ((a.apply s).getD s) x (jugCapacity capacity) := by
  obtain ⟨u, v, hactive, hu, hv, -, hbig⟩ := h.get?
  refine ⟨u, tryFill v capacity, ?_, hu, toInt_tryFill hv hy⟩
  rw [Action.active_fillJug ha hbig, hactive]
  rfl

/-- Emptying the small jug leaves nothing there, -/
theorem Holds.emptySmall (h : Holds s x y) (ha : a.decl = emptyJug name 0) :
    Holds ((a.apply s).getD s) 0 y := by
  obtain ⟨u, v, hactive, hu, hv, hsmall, -⟩ := h.get?
  refine ⟨0, v, ?_, rfl, hv⟩
  rw [Action.active_emptyJug ha hsmall, hactive]
  rfl

/-- and so with the big one. -/
theorem Holds.emptyBig (h : Holds s x y) (ha : a.decl = emptyJug name 1) :
    Holds ((a.apply s).getD s) x 0 := by
  obtain ⟨u, v, hactive, hu, hv, -, hbig⟩ := h.get?
  refine ⟨u, 0, ?_, hu, rfl⟩
  rw [Action.active_emptyJug ha hbig, hactive]
  rfl

/-- Pouring into the big jug moves what is in the small one, up to the room. -/
theorem Holds.smallToBig (h : Holds s x y) (ha : a.decl = pourJug name 1 0 capacity)
    (hy : y ≤ jugCapacity capacity) :
    Holds ((a.apply s).getD s) (x - min x (jugCapacity capacity - y))
      (y + min x (jugCapacity capacity - y)) := by
  obtain ⟨u, v, hactive, hu, hv, hsmall, hbig⟩ := h.get?
  have hpoured := toInt_tryPour hv hu hy
  refine ⟨(tryPour v u capacity).2, (tryPour v u capacity).1, ?_, hpoured.2, hpoured.1⟩
  rw [Action.active_pourJug ha (by decide) hbig hsmall, hactive]
  rfl

/-- Pouring back likewise. -/
theorem Holds.bigToSmall (h : Holds s x y) (ha : a.decl = pourJug name 0 1 capacity)
    (hx : x ≤ jugCapacity capacity) :
    Holds ((a.apply s).getD s) (x + min y (jugCapacity capacity - x))
      (y - min y (jugCapacity capacity - x)) := by
  obtain ⟨u, v, hactive, hu, hv, hsmall, hbig⟩ := h.get?
  have hpoured := toInt_tryPour hu hv hx
  refine ⟨(tryPour u v capacity).1, (tryPour u v capacity).2, ?_, hpoured.1, hpoured.2⟩
  rw [Action.active_pourJug ha (by decide) hsmall hbig, hactive]
  rfl

end

/-! ## Reachability

    Each action of the puzzle is a pouring, and each pouring is an action of the puzzle; the two inductions
    run along the reachable states and along the pourings. -/

section

variable {small big goal : Int64} {system : TransitionSystem} {g : Goal} {s : State} {x y : Nat}

/-- Both jugs are empty at first. -/
theorem holds_initial (hdescribes : (waterJugs small big goal).Describes system g) :
    Holds system.initial 0 0 :=
  ⟨0, 0, hdescribes.initial, rfl, rfl⟩

/-- What trying an action leads to can be poured as well. -/
theorem poured_of_action {a : Action} (ha : a.decl ∈ (waterJugs small big goal).actions)
    (hs : Holds s x y) (h : Poured (jugCapacity small) (jugCapacity big) x y) :
    ∃ x' y', Holds ((a.apply s).getD s) x' y' ∧
      Poured (jugCapacity small) (jugCapacity big) x' y' := by
  obtain ⟨hx, hy⟩ := h.le
  simp only [waterJugs, List.mem_cons, List.not_mem_nil, or_false] at ha
  rcases ha with ha | ha | ha | ha | ha | ha
  · exact ⟨_, _, hs.fillSmall ha hx, h.fillSmall⟩
  · exact ⟨_, _, hs.fillBig ha hy, h.fillBig⟩
  · exact ⟨_, _, hs.emptySmall ha, h.emptySmall⟩
  · exact ⟨_, _, hs.emptyBig ha, h.emptyBig⟩
  · exact ⟨_, _, hs.smallToBig ha hy, h.smallToBig⟩
  · exact ⟨_, _, hs.bigToSmall ha hx, h.bigToSmall⟩

/-- **Every reachable state holds levels that can be poured.** -/
theorem poured_of_reachable (hdescribes : (waterJugs small big goal).Describes system g)
    (h : system.Reachable s) :
    ∃ x y, Holds s x y ∧ Poured (jugCapacity small) (jugCapacity big) x y := by
  refine TransitionSystem.Reachable.induction (P := fun s => ∃ x y, Holds s x y ∧
    Poured (jugCapacity small) (jugCapacity big) x y) ⟨0, 0, holds_initial hdescribes, .empty⟩ ?_ h
  rintro s t index a ⟨x, y, hs, hpoured⟩ hindex hat
  have ha : a.decl ∈ (waterJugs small big goal).actions := by
    rw [← hdescribes.actions]
    exact List.mem_map_of_mem (List.mem_of_getElem? hindex)
  have hafter := poured_of_action ha hs hpoured
  rwa [hat, Option.getD_some] at hafter

/-- If trying a declared action changes levels that can be reached, what it changes them to can be
    reached. -/
theorem exists_reachable_of_decl (hdescribes : (waterJugs small big goal).Describes system g)
    {x' y' : Nat} (decl : ActionDecl) (hdecl : decl ∈ (waterJugs small big goal).actions)
    (h : ∃ s, system.Reachable s ∧ Holds s x y)
    (htry : ∀ (a : Action) (s : State), a.decl = decl → Holds s x y →
      Holds ((a.apply s).getD s) x' y') :
    ∃ s, system.Reachable s ∧ Holds s x' y' := by
  rw [← hdescribes.actions] at hdecl
  obtain ⟨a, ha, rfl⟩ := List.mem_map.mp hdecl
  obtain ⟨index, hindex⟩ := List.getElem?_of_mem ha
  obtain ⟨s, hs, hlevels⟩ := h
  refine ⟨_, ?_, htry a s rfl hlevels⟩
  cases hat : a.apply s with
  | none => exact hs
  | some t => exact hs.step hindex hat

/-- Each pouring has its action. -/
theorem exists_reachable_of_poured (hdescribes : (waterJugs small big goal).Describes system g)
    (h : Poured (jugCapacity small) (jugCapacity big) x y) :
    ∃ s, system.Reachable s ∧ Holds s x y := by
  induction h with
  | empty => exact ⟨_, TransitionSystem.reachable_initial, holds_initial hdescribes⟩
  | fillSmall h ih =>
    exact exists_reachable_of_decl hdescribes (fillJug "FillSmall" 0 small) (by simp [waterJugs]) ih
      fun _ _ ha hs => hs.fillSmall ha h.le.1
  | fillBig h ih =>
    exact exists_reachable_of_decl hdescribes (fillJug "FillBig" 1 big) (by simp [waterJugs]) ih
      fun _ _ ha hs => hs.fillBig ha h.le.2
  | emptySmall h ih =>
    exact exists_reachable_of_decl hdescribes (emptyJug "EmptySmall" 0) (by simp [waterJugs]) ih
      fun _ _ ha hs => hs.emptySmall ha
  | emptyBig h ih =>
    exact exists_reachable_of_decl hdescribes (emptyJug "EmptyBig" 1) (by simp [waterJugs]) ih
      fun _ _ ha hs => hs.emptyBig ha
  | smallToBig h ih =>
    exact exists_reachable_of_decl hdescribes (pourJug "SmallToBig" 1 0 big) (by simp [waterJugs])
      ih fun _ _ ha hs => hs.smallToBig ha h.le.2
  | bigToSmall h ih =>
    exact exists_reachable_of_decl hdescribes (pourJug "BigToSmall" 0 1 small) (by simp [waterJugs])
      ih fun _ _ ha hs => hs.bigToSmall ha h.le.1

end

/-! ## Statement

    Which levels can be poured has been settled by arithmetic, and a search without a budget finds what is
    reachable. -/

/-- The goal is an amount that the big jug can hold, and a multiple of the greatest common divisor of
    the capacities.  Negative capacities count as zero. -/
def CanMeasure (small big goal : Int64) : Prop :=
  0 ≤ goal.toInt ∧ goal.toInt ≤ max 0 big.toInt ∧
    (Int.gcd (max 0 small.toInt) (max 0 big.toInt) : Int) ∣ goal.toInt

/-- A goal can be measured exactly if it is a level of the big jug that can be poured. -/
theorem canMeasure_iff {small big goal : Int64} :
    CanMeasure small big goal ↔
      ∃ x y, Poured (jugCapacity small) (jugCapacity big) x y ∧ goal.toInt = y := by
  have hsmall : max 0 small.toInt = (jugCapacity small : Int) := by
    unfold jugCapacity
    omega
  have hbig : max 0 big.toInt = (jugCapacity big : Int) := by
    unfold jugCapacity
    omega
  unfold CanMeasure
  rw [hsmall, hbig, Int.gcd_natCast_natCast]
  constructor
  · rintro ⟨hpos, hle, hdvd⟩
    obtain ⟨y, hy⟩ := Int.eq_ofNat_of_zero_le hpos
    rw [hy] at hle hdvd
    obtain ⟨x, h⟩ := exists_poured_iff.mpr ⟨Int.ofNat_le.mp hle, Int.natCast_dvd_natCast.mp hdvd⟩
    exact ⟨x, y, h, hy⟩
  · rintro ⟨x, y, h, hy⟩
    obtain ⟨hle, hdvd⟩ := exists_poured_iff.mp ⟨x, h⟩
    rw [hy]
    exact ⟨Int.natCast_nonneg y, Int.ofNat_le.mpr hle, Int.natCast_dvd_natCast.mpr hdvd⟩

/-- Hence exactly if some reachable state holds it there. -/
theorem exists_reachable_iff {small big goal : Int64} {system : TransitionSystem} {g : Goal}
    (hdescribes : (waterJugs small big goal).Describes system g) :
    (∃ s, system.Reachable s ∧ s.get? 1 = some goal) ↔ CanMeasure small big goal := by
  rw [canMeasure_iff]
  constructor
  · rintro ⟨s, hs, hgoal⟩
    obtain ⟨x, y, hlevels, hpoured⟩ := poured_of_reachable hdescribes hs
    obtain ⟨u, v, -, -, hv, -, hget⟩ := hlevels.get?
    obtain rfl := Option.some.inj (hgoal.symm.trans hget)
    exact ⟨x, y, hpoured, hv⟩
  · rintro ⟨x, y, hpoured, hy⟩
    obtain ⟨s, hs, hlevels⟩ := exists_reachable_of_poured hdescribes hpoured
    obtain ⟨u, v, -, -, hv, -, hget⟩ := hlevels.get?
    obtain rfl : v = goal := Int64.toInt_inj.mp (hv.trans hy.symm)
    exact ⟨s, hs, hget⟩

/-- On a reachable state the target asks what the big jug holds. -/
theorem holds_target_iff {small big goal : Int64} {system : TransitionSystem} {g : Goal}
    (hdescribes : (waterJugs small big goal).Describes system g) {s : State} (hs : system.Reachable s) :
    g.holds s = true ↔ s.get? 1 = some goal := by
  obtain ⟨x, y, hlevels, -⟩ := poured_of_reachable hdescribes hs
  obtain ⟨u, v, -, -, -, -, hget⟩ := hlevels.get?
  have hget' : s.get? 1 = some v := hget
  rw [hdescribes.goal, hget']
  show Goal.accepts [.equal 1 goal] s = true ↔ _
  by_cases heq : v = goal <;> simp [Goal.accepts, Instruction.execute_equal goal hget, heq]

/-- The jugs of any measures make a puzzle without faults. -/
theorem waterJugs_wellFormed (small big goal : Int64) : (waterJugs small big goal).WellFormed where
  width_pos := show 1 ≤ 2 by decide
  width_le := show 2 ≤ 8 by decide
  named := by simp [waterJugs, fillJug, emptyJug, pourJug]
  length_le := by simp [waterJugs, fillJug, emptyJug, pourJug]
  below := by
    simp [waterJugs, fillJug, emptyJug, pourJug, Puzzle.width, Instruction.Below,
      Instruction.lessThan, Instruction.notEqual, Instruction.assign, Instruction.unary,
      Instruction.boundedTransfer]
  distinct := by simp [waterJugs, fillJug, emptyJug, pourJug]
  guards := by simp [waterJugs, Instruction.equal, Instruction.unary, Instruction.isGuard,
    Opcode.isGuard]
  guards_below := by simp [waterJugs, Puzzle.width, Instruction.equal, Instruction.unary]

/-- A search without a budget that ends without a collision tells whether a goal can be reached. -/
theorem Explorer.Arises.tells {system : TransitionSystem} {goal : Goal} {settings : Settings}
    {e : Explorer} {wanted : Event → Bool} {finished : Finished}
    (h : Arises system goal settings e) (hbudget : settings.maxStates = none)
    (hrun : e.run wanted = .ok finished)
    (hcollisions : finished.explorer.stats.collisions = 0) :
    (finished.outcome.isFound = true ∧ ∃ s, system.Reachable s ∧ goal.holds s = true) ∨
      (finished.outcome = .exhausted ∧ ∀ s, system.Reachable s → goal.holds s = false) := by
  obtain ⟨trail, htrail⟩ := (h.run hrun).trailed
  rcases outcome_cases (run_eq_ok hrun).2 with
    ⟨fp, w, hstatus, -, hout⟩ | ⟨hstatus, hout⟩ | ⟨hstatus, -⟩
  · exact .inl ⟨by rw [hout]; rfl, htrail.goal_reachable hstatus⟩
  · exact .inr ⟨hout, fun s hs => htrail.not_goal_of_reachable hstatus hcollisions hs⟩
  · obtain ⟨budget, hsome, -⟩ := htrail.budget_of_truncated hstatus
    exact absurd (hbudget.symm.trans hsome) (by simp)

/-- **The two-jug puzzle is solved by arithmetic.**  Of all capacities and goals, the puzzle can be
    built, and a state in which the big jug holds the goal can be reached exactly if the goal can be
    measured.  So a search without a budget that ends without a collision has found a goal in that
    case, and exhausted the states in any other. -/
theorem waterJugs_solvable_iff (small big goal : Int64) :
    ∃ (system : TransitionSystem) (g : Goal), (waterJugs small big goal).build = .ok (system, g) ∧
      ((∃ s, system.Reachable s ∧ s.get? 1 = some goal) ↔ CanMeasure small big goal) ∧
      ∀ (settings : Settings) (e : Explorer) (wanted : Event → Bool) (finished : Finished),
        settings.maxStates = none → Explorer.Arises system g settings e →
        e.run wanted = .ok finished → finished.explorer.stats.collisions = 0 →
        (finished.outcome.isFound = true ↔ CanMeasure small big goal) ∧
        (finished.outcome = .exhausted ↔ ¬ CanMeasure small big goal) := by
  obtain ⟨system, hbuild, hdescribes⟩ :=
    Puzzle.exists_build_of_wellFormed (waterJugs_wellFormed small big goal)
  have hiff := exists_reachable_iff hdescribes
  refine ⟨system, _, hbuild, hiff, ?_⟩
  intro settings e wanted finished hbudget harises hrun hcollisions
  -- a search without a budget tells one way or the other
  rcases harises.tells hbudget hrun hcollisions with ⟨hfound, s, hs, hg⟩ | ⟨hexhausted, hnone⟩
  · have hcan := hiff.mp ⟨s, hs, (holds_target_iff hdescribes hs).mp hg⟩
    have hnot : finished.outcome ≠ .exhausted := by
      intro hexhausted
      rw [hexhausted] at hfound
      exact absurd hfound (by decide)
    exact ⟨iff_of_true hfound hcan, iff_of_false hnot (not_not_intro hcan)⟩
  · have hcannot : ¬ CanMeasure small big goal := by
      intro hcan
      obtain ⟨s, hs, hgoal⟩ := hiff.mpr hcan
      exact absurd ((hnone s hs).symm.trans ((holds_target_iff hdescribes hs).mpr hgoal)) (by simp)
    have hnot : finished.outcome.isFound ≠ true := by
      rw [hexhausted]
      decide
    exact ⟨iff_of_false hnot hcannot, iff_of_true hexhausted hcannot⟩

/-- Four units can be measured with jugs of three and five, but three units cannot with jugs of two
    and four; the searches end accordingly. -/
theorem jugs_solvable :
    ∃ found exhausted : Finished,
      (waterJugs 3 5 4).finish Settings.default = some found ∧ CanMeasure 3 5 4 ∧
      found.outcome.isFound = true ∧
      (waterJugs 2 4 3).finish Settings.default = some exhausted ∧ ¬ CanMeasure 2 4 3 ∧
      exhausted.outcome = .exhausted := by
  have hcan : CanMeasure 3 5 4 := by
    unfold CanMeasure
    decide
  have hcannot : ¬ CanMeasure 2 4 3 := by
    unfold CanMeasure
    decide
  have hquery : ((waterJugs 3 5 4).finish Settings.default).any (fun finished =>
      decide (finished.explorer.stats.collisions = 0)) = true := by decide +kernel
  have hquery' : ((waterJugs 2 4 3).finish Settings.default).any (fun finished =>
      decide (finished.explorer.stats.collisions = 0)) = true := by decide +kernel
  obtain ⟨found, hfinish, hcollisions⟩ := (Option.any_eq_true ..).mp hquery
  obtain ⟨exhausted, hfinish', hcollisions'⟩ := (Option.any_eq_true ..).mp hquery'
  obtain ⟨_, _, e, hbuild, hstart, hrun⟩ := Puzzle.exists_of_finish hfinish
  obtain ⟨_, _, e', hbuild', hstart', hrun'⟩ := Puzzle.exists_of_finish hfinish'
  obtain ⟨_, _, hbuilt, -, hends⟩ := waterJugs_solvable_iff 3 5 4
  obtain ⟨_, _, hbuilt', -, hends'⟩ := waterJugs_solvable_iff 2 4 3
  obtain ⟨rfl, rfl⟩ := Prod.mk.inj (Except.ok.inj (hbuild.symm.trans hbuilt))
  obtain ⟨rfl, rfl⟩ := Prod.mk.inj (Except.ok.inj (hbuild'.symm.trans hbuilt'))
  have hfound := hends _ e _ found rfl (.start hstart) hrun (of_decide_eq_true hcollisions)
  have hexhausted :=
    hends' _ e' _ exhausted rfl (.start hstart') hrun' (of_decide_eq_true hcollisions')
  exact ⟨found, exhausted, hfinish, hcan, hfound.1.mpr hcan, hfinish', hcannot,
    hexhausted.2.mpr hcannot⟩

end GuardedReach
