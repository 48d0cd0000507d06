/-
  Building a puzzle accepts exactly the well-formed ones, and names the first fault of any other.

  1. **Specification** — `Puzzle.WellFormed`, `Puzzle.Describes` and `Puzzle.FirstFault` speak of the
     puzzle as it is written.  The faults come in stages: in each, all that was looked at before is
     well.

  2. **Stages** — what building gives if a stage fails, and what is left to do once there is a system.

  3. **Statement** — `Puzzle.build_exact`.  `build_cases` follows the stages forward, from what
     building does to what is wrong; `build_of_firstFault` goes back.
-/
import GuardedReach.Proofs.Puzzle.Checks
import GuardedReach.Proofs.Puzzle.Search

namespace GuardedReach

/-! ## Specification

    A puzzle is judged as it is written, by fields and positions, with no word of how it is built. -/

namespace Puzzle

/-- The number of registers. -/
def width (p : Puzzle) : Nat :=
  p.registers.length

/-- The puzzle can be built. -/
structure WellFormed (p : Puzzle) : Prop where
  width_pos : 1 ≤ p.width
  width_le : p.width ≤ 8
  named : ∀ decl ∈ p.actions, decl.name ≠ ""
  length_le : ∀ decl ∈ p.actions, decl.instructions.length ≤ 16
  below : ∀ decl ∈ p.actions, ∀ ins ∈ decl.instructions, ins.Below p.width
  distinct : (p.actions.map ActionDecl.name).Nodup
  guards : ∀ ins ∈ p.target, ins.isGuard = true
  guards_below : ∀ ins ∈ p.target, ins.target.toNat < p.width

/-- The system and the goal are what the puzzle says. -/
structure Describes (p : Puzzle) (system : TransitionSystem) (goal : Goal) : Prop where
  initial : system.initial.active = p.registers.map RegisterDecl.initial
  registerNames : system.registerNames = p.registers.map RegisterDecl.name
  actions : system.actions.map Action.decl = p.actions
  goal : goal = .allOf p.target

/-- The first thing that is wrong with a puzzle: its width, then an action alone, then an action
    behind others, then a target instruction that is no guard, then one that does not fit. -/
inductive FirstFault (p : Puzzle) : SetupError → Prop where
  | width (h : ¬ (1 ≤ p.width ∧ p.width ≤ 8)) : FirstFault p (.machine (.invalidWidth p.width))
  | action {before : List ActionDecl} {decl : ActionDecl} {reason : MachineError}
      (hw : 1 ≤ p.width ∧ p.width ≤ 8) (hat : before ++ [decl] <+: p.actions)
      (hbefore : ∀ b ∈ before, b.Sound) (h : decl.FirstFault reason) :
      FirstFault p (.machine reason)
  | clash {before : List ActionDecl} {decl : ActionDecl} {reason : SetupError}
      (hw : 1 ≤ p.width ∧ p.width ≤ 8) (hs : ∀ decl ∈ p.actions, decl.Sound)
      (hat : before ++ [decl] <+: p.actions) (hbefore : ActionDecl.Together p.width before)
      (h : decl.Clash p.width (before.map ActionDecl.name) reason) : FirstFault p reason
  | effect {before : List Instruction} {ins : Instruction} (hw : 1 ≤ p.width ∧ p.width ≤ 8)
      (hs : ∀ decl ∈ p.actions, decl.Sound) (ht : ActionDecl.Together p.width p.actions)
      (hat : before ++ [ins] <+: p.target) (hbefore : ∀ b ∈ before, b.isGuard = true)
      (h : ins.isGuard = false) : FirstFault p (.goalNotGuard before.length ins)
  | guard {before : List Instruction} {ins : Instruction} (hw : 1 ≤ p.width ∧ p.width ≤ 8)
      (hs : ∀ decl ∈ p.actions, decl.Sound) (ht : ActionDecl.Together p.width p.actions)
      (hg : ∀ b ∈ p.target, b.isGuard = true) (hat : before ++ [ins] <+: p.target)
      (hbefore : ∀ b ∈ before, b.target.toNat < p.width) (h : p.width ≤ ins.target.toNat) :
      FirstFault p (.machine (.registerOutOfRange { index := ins.target, width := p.width }))

end Puzzle

/-! ## The stages of building

    If one stage refuses, the refusal is the answer.  If none does, what they have built is put together. -/

namespace TransitionSystem

variable {width : Nat} {initial : State} {actions : List Action}

/-- At a width in range only the actions can be refused together, -/
theorem make_of_error (hw : 1 ≤ width ∧ width ≤ 8) (hi : initial.width = width)
    {reason : SetupError} (h : checkActions width [] actions = .error reason) :
    make width initial actions = .error reason := by
  have hrange : ¬ (width = 0 ∨ registerCapacity < width) := by
    unfold registerCapacity
    omega
  unfold make
  rw [if_neg hrange, dif_pos hi]
  split
  · next other hother => rw [Except.error.inj (hother.symm.trans h)]
  · next hok => exact absurd (hok.symm.trans h) (by simp)

/-- and if they are not, there is a system of them. -/
theorem exists_make_of_ok (hw : 1 ≤ width ∧ width ≤ 8) (hi : initial.width = width)
    (h : checkActions width [] actions = .ok ()) :
    ∃ system : TransitionSystem, make width initial actions = .ok system ∧
      system.initial = initial ∧ system.actions = actions := by
  have hrange : ¬ (width = 0 ∨ registerCapacity < width) := by
    unfold registerCapacity
    omega
  unfold make
  rw [if_neg hrange, dif_pos hi]
  split
  · next other hother => exact absurd (hother.symm.trans h) (by simp)
  · exact ⟨_, rfl, rfl, rfl⟩

end TransitionSystem

namespace Puzzle

variable {p : Puzzle} {actions : List Action} {reason : SetupError}

/-- There is no state of a width out of range, -/
theorem buildInitial_of_width (h : ¬ (1 ≤ p.width ∧ p.width ≤ 8)) :
    buildInitial p.registers = .error (.machine (.invalidWidth p.width)) := by
  have hlength : (p.registers.map RegisterDecl.initial).length = p.width := List.length_map ..
  have hlist : State.ofList (p.registers.map RegisterDecl.initial) =
      .error (.invalidWidth p.width) := by
    rw [← hlength] at h ⊢
    exact dif_neg h
  unfold buildInitial
  rw [hlist]

/-- and one of any other width. -/
theorem exists_buildInitial (h : 1 ≤ p.width ∧ p.width ≤ 8) :
    ∃ initial : State, buildInitial p.registers = .ok initial ∧
      initial.active = p.registers.map RegisterDecl.initial ∧ initial.width = p.width := by
  have hlength : (p.registers.map RegisterDecl.initial).length = p.width := List.length_map ..
  obtain ⟨initial, hlist⟩ : ∃ s, State.ofList (p.registers.map RegisterDecl.initial) = .ok s := by
    rw [← hlength] at h
    exact ⟨_, dif_pos h⟩
  have hactive := State.active_ofList hlist
  refine ⟨initial, ?_, hactive, ?_⟩
  · unfold buildInitial
    rw [hlist]
  · rw [← initial.length_active, hactive, hlength]

/-- Actions that are sound alone can all be made, and are what they were written as. -/
theorem exists_buildActions (h : ∀ decl ∈ p.actions, decl.Sound) :
    ∃ actions, buildActions p.actions = .ok actions ∧ actions.map Action.decl = p.actions := by
  cases hmade : buildActions p.actions with
  | ok actions => exact ⟨actions, rfl, buildActions_eq_ok_iff.mp hmade⟩
  | error reason =>
    obtain ⟨before, decl, hat, -, fault, hfault, -⟩ := buildActions_eq_error_iff.mp hmade
    obtain ⟨a, ha⟩ := Action.exists_make_of_sound (h decl (hat.subset (by simp)))
    exact absurd (ha.symm.trans (Action.make_eq_error_iff.mpr hfault)) (by simp)

/-- The width is looked at first, -/
theorem build_of_width (h : ¬ (1 ≤ p.width ∧ p.width ≤ 8)) :
    p.build = .error (.machine (.invalidWidth p.width)) := by
  unfold build
  rw [buildInitial_of_width h]
  rfl

/-- then each action alone, -/
theorem build_of_actions (hw : 1 ≤ p.width ∧ p.width ≤ 8)
    (h : buildActions p.actions = .error reason) : p.build = .error reason := by
  obtain ⟨initial, hi, -⟩ := exists_buildInitial hw
  unfold build
  rw [hi, h]
  rfl

/-- and then the actions together. -/
theorem build_of_clash (hw : 1 ≤ p.width ∧ p.width ≤ 8)
    (ha : buildActions p.actions = .ok actions)
    (h : TransitionSystem.checkActions p.width [] actions = .error reason) :
    p.build = .error reason := by
  obtain ⟨initial, hi, -, hwidth⟩ := exists_buildInitial hw
  have hmake : TransitionSystem.make p.registers.length initial actions = .error reason :=
    TransitionSystem.make_of_error hw hwidth h
  unfold build
  rw [hi, ha]
  show (TransitionSystem.make p.registers.length initial actions >>= _) = _
  rw [hmake]
  rfl

/-- Once there is a system, only the target is left to be checked. -/
theorem build_of_system (hw : 1 ≤ p.width ∧ p.width ≤ 8)
    (ha : buildActions p.actions = .ok actions)
    (h : TransitionSystem.checkActions p.width [] actions = .ok ()) :
    ∃ system : TransitionSystem, p.Describes system (.allOf p.target) ∧
      p.build = (Goal.checkGuards p.target).bind fun _ =>
        (Goal.checkBounds p.width p.target).map fun _ => (system, .allOf p.target) := by
  obtain ⟨initial, hi, hactive, hwidth⟩ := exists_buildInitial hw
  obtain ⟨unnamed, hmake, hinitial, hactions⟩ := TransitionSystem.exists_make_of_ok hw hwidth h
  have hnames : (p.registers.map RegisterDecl.name).length = unnamed.width := by
    rw [List.length_map, TransitionSystem.width, hinitial, hwidth]
    rfl
  let system : TransitionSystem :=
    { unnamed with registerNames := p.registers.map RegisterDecl.name, names_length := hnames }
  have hsystem : unnamed.withRegisterNames (p.registers.map RegisterDecl.name) = .ok system :=
    dif_pos hnames
  have hsame : system.width = p.width := by
    show unnamed.initial.width = p.width
    rw [hinitial, hwidth]
  have hdecls : unnamed.actions.map Action.decl = p.actions := by
    rw [hactions]
    exact buildActions_eq_ok_iff.mp ha
  refine ⟨system, ⟨hinitial ▸ hactive, rfl, hdecls, rfl⟩, ?_⟩
  have hmake' : TransitionSystem.make p.registers.length initial actions = .ok unnamed := hmake
  unfold build Goal.ofGuards
  simp only [hi, ha, hmake', hsystem, bind, Except.bind]
  cases hg : Goal.checkGuards p.target with
  | error reason => rfl
  | ok u =>
    simp only [Except.map, Goal.check, hg, hsame, bind, Except.bind]
    cases Goal.checkBounds p.width p.target <;> rfl

/-! ## Statement

    Forward by the stages, back by the faults: every puzzle is well formed or has a first fault, and not
    both. -/

/-- The same in terms of the puzzle: if width and actions are well, the target decides. -/
theorem exists_system (hw : 1 ≤ p.width ∧ p.width ≤ 8) (hs : ∀ decl ∈ p.actions, decl.Sound)
    (ht : ActionDecl.Together p.width p.actions) :
    ∃ system : TransitionSystem, p.Describes system (.allOf p.target) ∧
      p.build = (Goal.checkGuards p.target).bind fun _ =>
        (Goal.checkBounds p.width p.target).map fun _ => (system, .allOf p.target) := by
  obtain ⟨actions, ha, hdecls⟩ := exists_buildActions hs
  rw [← hdecls] at ht
  exact build_of_system hw ha ((TransitionSystem.checkActions_eq_ok_iff_together hw.2).mpr ht)

/-- Well-formedness, sorted by the stage that looks at it. -/
theorem wellFormed_iff :
    p.WellFormed ↔ (1 ≤ p.width ∧ p.width ≤ 8) ∧ (∀ decl ∈ p.actions, decl.Sound) ∧
      ActionDecl.Together p.width p.actions ∧ (∀ ins ∈ p.target, ins.isGuard = true) ∧
      ∀ ins ∈ p.target, ins.Below p.width := by
  constructor
  · intro h
    have hsound : ∀ decl ∈ p.actions, decl.Sound := fun decl hdecl =>
      { named := h.named decl hdecl
        length_le := h.length_le decl hdecl
        below := fun ins hins => (h.below decl hdecl ins hins).mono h.width_le }
    exact ⟨⟨h.width_pos, h.width_le⟩, hsound, ⟨h.below, h.distinct⟩, h.guards,
      fun ins hins => (Instruction.below_iff_of_isGuard (h.guards ins hins)).mpr
        (h.guards_below ins hins)⟩
  · rintro ⟨hw, hs, ht, hg, hb⟩
    exact
      { width_pos := hw.1
        width_le := hw.2
        named := fun decl hdecl => (hs decl hdecl).named
        length_le := fun decl hdecl => (hs decl hdecl).length_le
        below := ht.below
        distinct := ht.distinct
        guards := hg
        guards_below := fun ins hins => (hb ins hins).1 }

/-- A well-formed puzzle is built, and described by what is built. -/
theorem exists_build_of_wellFormed (h : p.WellFormed) :
    ∃ system, p.build = .ok (system, .allOf p.target) ∧ p.Describes system (.allOf p.target) := by
  obtain ⟨hw, hs, ht, hg, hb⟩ := wellFormed_iff.mp h
  obtain ⟨system, hdescribes, hbuild⟩ := exists_system hw hs ht
  rw [hbuild, Goal.checkGuards_eq_ok_iff.mpr hg, (Goal.checkBounds_eq_ok_iff hw.2).mpr hb]
  exact ⟨system, rfl, hdescribes⟩

/-- The first fault of a puzzle is the error that building it gives. -/
theorem build_of_firstFault (h : p.FirstFault reason) : p.build = .error reason := by
  cases h with
  | width h => exact build_of_width h
  | action hw hat hbefore h =>
    exact build_of_actions hw (buildActions_eq_error_iff.mpr ⟨_, _, hat, hbefore, _, h, rfl⟩)
  | @clash before decl _ hw hs hat hbefore h =>
    obtain ⟨actions, ha, hdecls⟩ := exists_buildActions hs
    refine build_of_clash hw ha ((TransitionSystem.checkActions_eq_error_iff hw.2).mpr ?_)
    rw [hdecls]
    exact ⟨before, decl, hat, ⟨hbefore, by simp⟩, by rwa [List.append_nil]⟩
  | effect hw hs ht hat hbefore h =>
    obtain ⟨system, -, hbuild⟩ := exists_system hw hs ht
    rw [hbuild, Goal.checkGuards_eq_error_iff.mpr ⟨_, _, hat, hbefore, h, rfl⟩]
    rfl
  | @guard before ins hw hs ht hg hat hbefore h =>
    obtain ⟨system, -, hbuild⟩ := exists_system hw hs ht
    have hbelow : ∀ b ∈ before, b.Below p.width := fun b hb =>
      (Instruction.below_iff_of_isGuard (hg b (hat.subset (by simp [hb])))).mpr (hbefore b hb)
    rw [hbuild, Goal.checkGuards_eq_ok_iff.mpr hg,
      (Goal.checkBounds_eq_error_iff hw.2).mpr ⟨before, ins, hat, hbelow, _, .target h, rfl⟩]
    rfl

/-- Building follows the stages to the first that fails, or to the end. -/
theorem build_cases (p : Puzzle) :
    (∃ system, p.build = .ok (system, .allOf p.target) ∧ p.Describes system (.allOf p.target) ∧
      p.WellFormed) ∨ ∃ reason, p.build = .error reason ∧ p.FirstFault reason := by
  -- stage by stage: either one refuses, with the fault that it looks for, or the next can be looked at
  by_cases hw : 1 ≤ p.width ∧ p.width ≤ 8
  case neg => exact .inr ⟨_, build_of_width hw, .width hw⟩
  cases ha : buildActions p.actions with
  | error reason =>
    obtain ⟨before, decl, hat, hbefore, fault, hfault, rfl⟩ := buildActions_eq_error_iff.mp ha
    exact .inr ⟨_, build_of_actions hw ha, .action hw hat hbefore hfault⟩
  | ok actions =>
    have hdecls := buildActions_eq_ok_iff.mp ha
    have hs : ∀ decl ∈ p.actions, decl.Sound := by
      rw [← hdecls]
      exact List.forall_mem_map.mpr fun a _ => a.sound_decl
    cases hc : TransitionSystem.checkActions p.width [] actions with
    | error reason =>
      obtain ⟨before, decl, hat, ⟨hbefore, -⟩, hclash⟩ :=
        (TransitionSystem.checkActions_eq_error_iff hw.2).mp hc
      rw [hdecls] at hat
      rw [List.append_nil] at hclash
      exact .inr ⟨_, build_of_clash hw ha hc, .clash hw hs hat hbefore hclash⟩
    | ok u =>
      have ht := (TransitionSystem.checkActions_eq_ok_iff_together hw.2).mp hc
      rw [hdecls] at ht
      obtain ⟨system, hdescribes, hbuild⟩ := build_of_system hw ha hc
      cases hg : Goal.checkGuards p.target with
      | error reason =>
        obtain ⟨before, ins, hat, hbefore, heffect, rfl⟩ := Goal.checkGuards_eq_error_iff.mp hg
        rw [hg] at hbuild
        exact .inr ⟨_, hbuild, .effect hw hs ht hat hbefore heffect⟩
      | ok u =>
        have hguards := Goal.checkGuards_eq_ok_iff.mp hg
        cases hb : Goal.checkBounds p.width p.target with
        | error reason =>
          obtain ⟨before, ins, hat, hbefore, fault, hmisfit, rfl⟩ :=
            (Goal.checkBounds_eq_error_iff hw.2).mp hb
          obtain ⟨hout, rfl⟩ :=
            (Instruction.misfit_iff_of_isGuard (hguards ins (hat.subset (by simp)))).mp hmisfit
          rw [hg, hb] at hbuild
          exact .inr ⟨_, hbuild, .guard hw hs ht hguards hat (fun b h => (hbefore b h).1) hout⟩
        | ok u =>
          have hbelow := (Goal.checkBounds_eq_ok_iff hw.2).mp hb
          rw [hg, hb] at hbuild
          exact .inl ⟨system, hbuild, hdescribes, wellFormed_iff.mpr ⟨hw, hs, ht, hguards, hbelow⟩⟩

/-- **Building accepts exactly the well-formed puzzles**, makes of them what they say, and gives the
    first fault of all others. -/
theorem build_exact (p : Puzzle) :
    ((∃ built, p.build = .ok built) ↔ p.WellFormed) ∧
    (∀ system goal, p.build = .ok (system, goal) → p.Describes system goal) ∧
    ∀ reason, p.build = .error reason ↔ p.FirstFault reason := by
  refine ⟨⟨?_, ?_⟩, ?_, fun reason => ⟨?_, build_of_firstFault⟩⟩
  · rintro ⟨built, hok⟩
    obtain ⟨-, -, -, hwell⟩ | ⟨reason, herror, -⟩ := p.build_cases
    · exact hwell
    · exact absurd (hok.symm.trans herror) (by simp)
  · intro hwell
    obtain ⟨system, hbuild, -⟩ := exists_build_of_wellFormed hwell
    exact ⟨_, hbuild⟩
  · intro system goal hok
    obtain ⟨built, hbuild, hdescribes, -⟩ | ⟨reason, herror, -⟩ := p.build_cases
    · obtain ⟨rfl, rfl⟩ := Prod.mk.inj (Except.ok.inj (hok.symm.trans hbuild))
      exact hdescribes
    · exact absurd (hok.symm.trans herror) (by simp)
  · intro herror
    obtain ⟨system, hok, -, -⟩ | ⟨other, hother, hfault⟩ := p.build_cases
    · exact absurd (hok.symm.trans herror) (by simp)
    · rwa [Except.error.inj (hother.symm.trans herror)] at hfault

/-- Two registers, and something wrong with the second action, with the name of the third, and with
    both instructions of the target. -/
def faulty : Puzzle :=
  { name := "faulty"
    registers := [{ name := "a", initial := 0 }, { name := "b", initial := 0 }]
    actions :=
      [{ name := "A", instructions := [] },
        { name := "B", instructions := [.assign 1 0, .boundedTransfer 0 2 5] },
        { name := "A", instructions := [] }]
    target := [.assign 0 0, .equal 2 0] }

/-- Jugs of three and five are well formed, and the first fault of `faulty` is in its action B. -/
theorem faulty_build_exact :
    (waterJugs 3 5 4).WellFormed ∧
      (∃ system goal, (waterJugs 3 5 4).build = .ok (system, goal) ∧
        (waterJugs 3 5 4).Describes system goal) ∧
      faulty.FirstFault (.machine (.invalidInstruction "B" 1 { index := 2, width := 2 })) := by
  have hbuilt : (waterJugs 3 5 4).build.toOption.isSome = true := by decide +kernel
  obtain ⟨⟨system, goal⟩, hsome⟩ := Option.isSome_iff_exists.mp hbuilt
  have hbuild := eq_ok_of_toOption hsome
  obtain ⟨haccepts, hdescribes, -⟩ := build_exact (waterJugs 3 5 4)
  exact ⟨haccepts.mp ⟨_, hbuild⟩, ⟨system, goal, hbuild, hdescribes _ _ hbuild⟩,
    ((build_exact faulty).2.2 _).mp rfl⟩

end Puzzle

end GuardedReach
