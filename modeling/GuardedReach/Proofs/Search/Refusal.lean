/-
  Refusals — why an action does not happen.

  1. **Specification** — an instruction fails (`Instruction.Fails`) if it is a guard, its register is there
     and its comparison is false of what the register holds.  An action stops at an instruction
     (`Action.StopsAt`) if the instructions before it have run on a copy of the state and it fails on what
     they have left.

  2. **Sequences** — a sequence is refused at one of its instructions, after those before it have run
     (`runAll_eq_error_iff`).  One that has run to its end names no register that is not there
     (`inBounds_of_runAll`): whatever stands before a misfit, the copy that comes to it has the width it
     had.

  3. **Actions** — so the check beforehand refuses nothing that could have happened
     (`Action.apply_eq_none_of_check`), and an action that passes it stops at guards only
     (`Action.run_eq_error_iff`).

  4. **Searches** — what a step tells is what the visit of one state tells (`Explorer.events_of_step`): it
     tells of every action that it tries and that is refused, and of no other (`refused_mem_step_iff`).
     What it tries, it tries on a stored state, and that is as wide as the system.

  5. **Statement** — `Explorer.refused_by_guards_alone`.
-/
import GuardedReach.Proofs.Puzzle.Checks
import GuardedReach.Proofs.Puzzle.Search
import GuardedReach.Proofs.Search.Progress

namespace GuardedReach

/-! ## Specification

    When a guard fails, when an action stops, and what a step tries, each said of the states alone. -/

/-- A guard whose register is there and whose comparison is false. -/
def Instruction.Fails (ins : Instruction) (s : State) : Prop :=
  ins.isGuard = true ∧ ∃ held, s.get? ins.target.toNat = some held ∧ ins.passes held = false

/-- The instruction fails when those before it have run on a copy of the state. -/
def Action.StopsAt (a : Action) (s : State) (ins : Instruction) : Prop :=
  ∃ front back copy, a.instructions = front ++ ins :: back ∧ runAll front s = .ok copy ∧ ins.Fails copy

/-- The next step tries the action on the state: it expands the state, for that is no goal. -/
def Explorer.Tries (e : Explorer) (a : Action) (s : State) : Prop :=
  a ∈ e.system.actions ∧ e.goal.holds s = false ∧
    ∃ current frontier link, e.Visits current frontier s link

/-! ## Sequences

    A sequence runs on a copy, so a refusal is told by what the copy was when it came to the instruction. -/

namespace Instruction

variable {ins : Instruction} {s : State}

/-- An instruction that fits is refused exactly if it fails. -/
theorem execute_eq_none_iff_fails (h : ins.InBounds s.width) : ins.execute s = none ↔ ins.Fails s := by
  rw [execute_eq_none_iff h]
  refine and_congr_right fun _ => ⟨?_, ?_⟩
  · intro hfalse
    exact ⟨_, State.get?_eq_some_iff.mpr ⟨h.target_lt, rfl⟩, hfalse⟩
  · rintro ⟨held, hheld, hfalse⟩
    obtain ⟨_, rfl⟩ := State.get?_eq_some_iff.mp hheld
    exact hfalse

end Instruction

/-- A longer sequence goes on from what its first part has left. -/
theorem runAll_append (front back : List Instruction) (s : State) :
    runAll (front ++ back) s = (runAll front s).bind (runAll back) := by
  induction front generalizing s with
  | nil => rfl
  | cons ins front ih =>
    rw [List.cons_append, runAll, runAll]
    cases ins.execute s with
    | none => rfl
    | some next => exact ih next

/-- A sequence is refused at one of its instructions. -/
theorem runAll_eq_error_iff {instructions : List Instruction} {s : State} {ins : Instruction} :
    runAll instructions s = .error ins ↔
      ∃ front back copy, instructions = front ++ ins :: back ∧ runAll front s = .ok copy ∧
        ins.execute copy = none := by
  constructor
  · intro h
    induction instructions generalizing s with
    | nil => exact absurd h (by simp [runAll])
    | cons first rest ih =>
      rw [runAll] at h
      split at h
      · next next hnext =>
        obtain ⟨front, back, copy, rfl, hfront, hrefused⟩ := ih h
        exact ⟨first :: front, back, copy, rfl,
          runAll_cons_eq_ok_iff.mpr ⟨next, hnext, hfront⟩, hrefused⟩
      · next hrefused =>
        obtain rfl := Except.error.inj h
        exact ⟨[], rest, s, rfl, rfl, hrefused⟩
  · rintro ⟨front, back, copy, rfl, hfront, hrefused⟩
    rw [runAll_append, hfront]
    show runAll (ins :: back) copy = .error ins
    rw [runAll, hrefused]

/-- A sequence that has run names active registers only. -/
theorem inBounds_of_runAll {instructions : List Instruction} {s t : State}
    (h : runAll instructions s = .ok t) : ∀ ins ∈ instructions, ins.InBounds s.width := by
  induction instructions generalizing s with
  | nil => simp
  | cons ins rest ih =>
    obtain ⟨next, hnext, hrest⟩ := runAll_cons_eq_ok_iff.mp h
    have hbehind := ih hrest
    rw [Instruction.width_execute hnext] at hbehind
    exact List.forall_mem_cons.mpr ⟨Instruction.inBounds_of_execute hnext, hbehind⟩

/-! ## Actions

    Whether an action is checked beforehand or refused on the way, it ends the same. -/

namespace Action

variable {a : Action} {s : State} {ins : Instruction} {reason : MachineError}

/-- An action that does not fit does not happen. -/
theorem apply_eq_none_of_check (h : a.check s.width = .error reason) : a.apply s = none := by
  cases happly : a.apply s with
  | none => rfl
  | some t =>
    have hfits := (a.check_eq_ok_iff s.width).mpr (inBounds_of_runAll (apply_eq_some_iff.mp happly))
    exact absurd (h.symm.trans hfits) (by simp)

/-- Trying it with a check gives the error of the check and no other, -/
theorem tryApply_eq_error_iff : a.tryApply s = .error reason ↔ a.check s.width = .error reason := by
  unfold tryApply
  cases a.check s.width <;> simp [Except.map]

/-- and where the check passes, what there is without it. -/
theorem tryApply_of_check (h : a.check s.width = .ok ()) : a.tryApply s = .ok (a.apply s) := by
  unfold tryApply
  rw [h]
  rfl

/-- An action that fits is refused where it stops. -/
theorem run_eq_error_iff (h : a.check s.width = .ok ()) : a.run s = .error ins ↔ a.StopsAt s ins := by
  have hfits := (a.check_eq_ok_iff s.width).mp h
  refine runAll_eq_error_iff.trans (exists₃_congr fun front back copy => ?_)
  refine and_congr_right fun hsplit => and_congr_right fun hfront => ?_
  have hins : ins.InBounds copy.width := by
    rw [width_runAll hfront]
    exact hfits ins (hsplit ▸ List.mem_append_right _ (List.mem_cons_self ..))
  exact Instruction.execute_eq_none_iff_fails hins

/-- So an action that fits does not happen exactly if it stops somewhere. -/
theorem apply_eq_none_iff_stopsAt (h : a.check s.width = .ok ()) :
    a.apply s = none ↔ ∃ ins, a.StopsAt s ins :=
  apply_eq_none_iff.trans (exists_congr fun _ => run_eq_error_iff h)

end Action

/-! ## Searches

    What is told of an attempt, of an expansion, of a visit and of a step, each by the one before it. -/

namespace Explorer

variable {system : TransitionSystem} {goal : Goal} {settings : Settings} {e next : Explorer}
  {name : String} {ins : Instruction} {a : Action} {s t : State}

/-- An attempt tells of a refusal if the action is refused. -/
theorem refused_mem_attempt_iff :
    Event.refused name ins t ∈ (e.attempt a s).events e a s ↔
      a.name = name ∧ a.run s = .error ins ∧ s = t := by
  unfold attempt
  cases a.run s with
  | error refuser => simp [Attempt.events, eq_comm]
  | ok u => grind [Attempt.events]

/-- What has been recorded on the way makes no difference to what is refused. -/
theorem refused_mem_expand_iff {current : Fingerprint} {depth : UInt32} {index : Nat}
    {actions : List Action} :
    Event.refused name ins t ∈ (e.expand current s depth index actions).2 ↔
      ∃ a ∈ actions, a.name = name ∧ a.run s = .error ins ∧ s = t := by
  induction actions generalizing e index with
  | nil => simp [expand]
  | cons a rest ih =>
    rw [expand, List.mem_append, refused_mem_attempt_iff, ih]
    simp

/-- A visit tells of refusals if the state is no goal, and of those of its actions. -/
theorem refused_mem_visit_iff {current : Fingerprint} {depth : UInt32} :
    Event.refused name ins t ∈ (e.visit current s depth).2 ↔
      e.goal.holds s = false ∧
        ∃ a ∈ e.system.actions, a.name = name ∧ a.run s = .error ins ∧ s = t := by
  have hentered : Event.refused name ins t ∉ (e.enterLevel depth).2 := by
    unfold enterLevel
    split <;> simp
  have hcounted : ∀ f : Explorer, Event.refused name ins t ∉ f.countExpanded.2 := by
    intro f
    show _ ∉ ite _ _ _
    split <;> simp
  unfold visit
  cases hg : e.goal.holds s with
  | true => simp [hentered]
  | false => simp [hentered, hcounted, refused_mem_expand_iff]

/-- What a step tells, it tells of the state that it takes from the frontier. -/
theorem events_of_step {events : List Event} (h : e.step = .ok (next, events)) :
    (events = [] ∧ ∀ current frontier s link, ¬ e.Visits current frontier s link) ∨
      ∃ current frontier s link, e.Visits current frontier s link ∧
        events = (({ e with frontier } : Explorer).visit current s link.depth).2 := by
  have hs := stepped_of_step h
  generalize e.leg events = leg at hs
  cases hs with
  | rested ht =>
    have hquiet := congrArg Prod.snd (Except.ok.inj (h.symm.trans (step_of_terminal ht)))
    refine Or.inl ⟨hquiet, ?_⟩
    intro current frontier s link hv
    rw [hv.running] at ht
    exact absurd ht (by decide)
  | ended hr hq =>
    have hquiet := congrArg Prod.snd (Except.ok.inj (h.symm.trans (step_of_empty hr hq)))
    refine Or.inl ⟨hquiet, ?_⟩
    intro current frontier s link hv
    exact hv.toList_ne_nil hq
  | found hv hg =>
    have hvisit := congrArg Prod.snd (Except.ok.inj (h.symm.trans hv.step_eq))
    exact Or.inr ⟨_, _, _, _, hv, hvisit⟩
  | expanded hv hg =>
    have hvisit := congrArg Prod.snd (Except.ok.inj (h.symm.trans hv.step_eq))
    exact Or.inr ⟨_, _, _, _, hv, hvisit⟩

/-- A step tells of exactly what it tries and is refused. -/
theorem refused_mem_step_iff {events : List Event} (h : e.step = .ok (next, events)) :
    Event.refused name ins s ∈ events ↔ ∃ a, e.Tries a s ∧ a.name = name ∧ a.run s = .error ins := by
  rcases events_of_step h with ⟨rfl, hnone⟩ | ⟨current, frontier, u, link, hv, rfl⟩
  · refine iff_of_false (by simp) ?_
    rintro ⟨a, ⟨-, -, current, frontier, link, hv⟩, -⟩
    exact hnone current frontier s link hv
  · rw [refused_mem_visit_iff]
    constructor
    · rintro ⟨hgoal, a, ha, hname, hrun, rfl⟩
      exact ⟨a, ⟨ha, hgoal, current, frontier, link, hv⟩, hname, hrun⟩
    · rintro ⟨a, ⟨ha, hgoal, current', frontier', link', hv'⟩, hname, hrun⟩
      obtain ⟨-, -, rfl, -⟩ := hv.unique hv'
      exact ⟨hgoal, a, ha, hname, hrun, rfl⟩

/-- What a search tries fits, since the state is as wide as the system. -/
theorem Arises.fits (h : Arises system goal settings e) (htries : e.Tries a s) :
    a.check s.width = .ok () := by
  obtain ⟨trail, htrail⟩ := h.trailed
  obtain ⟨ha, -, current, frontier, link, hv⟩ := htries
  rw [(htrail.tree.filed current s hv.stored).2]
  exact e.system.fits a ha

/-! ## Statement

    From one instruction to a step of a search. -/

/-- **Guards alone refuse.**

    1. The two readings of "fits" are one.
    2. An action that does not fit a state is refused with the first instruction that does not, when it
       is checked beforehand, and is refused without a word when it is not.  Otherwise the check makes no
       difference.
    3. Whatever a search tries fits.  If an action that it tries is refused, that is by a guard whose
       comparison is false of what the instructions before have left; and the step tells of these refusals
       and of no others. -/
theorem refused_by_guards_alone :
    (∀ (ins : Instruction) (width : Nat), ins.InBounds width ↔ ins.check width = .ok ()) ∧
    (∀ (a : Action) (s : State),
      (∀ reason, a.tryApply s = .error reason ↔ a.check s.width = .error reason) ∧
      (∀ reason, a.check s.width = .error reason ↔
        ∃ position fault, FirstMisfit s.width a.instructions position fault ∧
          reason = .invalidInstruction a.name position fault) ∧
      (∀ reason, a.check s.width = .error reason → a.apply s = none) ∧
      (a.check s.width = .ok () → a.tryApply s = .ok (a.apply s))) ∧
    ∀ (system : TransitionSystem) (goal : Goal) (settings : Settings) (e next : Explorer)
      (events : List Event), Arises system goal settings e → e.step = .ok (next, events) →
      (∀ (a : Action) (s : State), e.Tries a s →
        a.check s.width = .ok () ∧ (a.apply s = none ↔ ∃ ins, a.StopsAt s ins)) ∧
      ∀ (name : String) (ins : Instruction) (s : State), Event.refused name ins s ∈ events ↔
        ∃ a, e.Tries a s ∧ a.name = name ∧ a.StopsAt s ins := by
  refine ⟨fun ins width => (ins.check_eq_ok_iff width).symm, ?_, ?_⟩
  · intro a s
    exact ⟨fun reason => Action.tryApply_eq_error_iff,
      fun reason => a.check_eq_error_iff s.width_le reason,
      fun reason => Action.apply_eq_none_of_check, Action.tryApply_of_check⟩
  · intro system goal settings e next events h hstep
    refine ⟨fun a s htries => ⟨h.fits htries, Action.apply_eq_none_iff_stopsAt (h.fits htries)⟩, ?_⟩
    intro name ins s
    rw [refused_mem_step_iff hstep]
    refine exists_congr fun a => and_congr_right fun htries => and_congr_right fun _ => ?_
    exact Action.run_eq_error_iff (h.fits htries)

/-- An action whose second guard fails before its last instruction, which asks for a register that a
    state of one register does not have. -/
def narrow : Action where
  name := "Narrow"
  instructions := [.add 0 1, .lessThan 0 1, .boundedTransfer 0 1 5]
  name_ne := by decide
  length_le := by decide
  inBounds := (firstMisfit_eq_none_iff registerCapacity 0 _).mp rfl

/-- A register that may be counted up if it is still zero afterwards. -/
def stuck : Puzzle where
  name := "stuck"
  registers := [{ name := "n", initial := 0 }]
  actions := [{ name := "Up", instructions := [.add 0 1, .lessThan 0 1] }]
  target := [.equal 0 1]

/-- What is tried beforehand names the register; what a search has tried stops at a guard that would have
    let the state itself pass. -/
theorem stuck_refused :
    (∃ s : State, s.active = [0] ∧ narrow.apply s = none ∧
      narrow.tryApply s = .error (.invalidInstruction "Narrow" 2 { index := 1, width := 1 })) ∧
    ∃ (system : TransitionSystem) (goal : Goal) (e next : Explorer) (events : List Event) (s : State),
      stuck.build = .ok (system, goal) ∧ Explorer.start system goal Settings.default = .ok e ∧
      e.step = .ok (next, events) ∧ (Instruction.lessThan 0 1).execute s = some s ∧
      ∃ a, e.Tries a s ∧ a.name = "Up" ∧ a.StopsAt s (.lessThan 0 1) := by
  let s : State := ⟨1, #v[0, 0, 0, 0, 0, 0, 0, 0], by decide, by decide, by decide⟩
  obtain ⟨-, hactions, hsearches⟩ := refused_by_guards_alone
  obtain ⟨hsame, -, hrefused, -⟩ := hactions narrow s
  have hmisfit : narrow.check s.width =
      .error (.invalidInstruction "Narrow" 2 { index := 1, width := 1 }) := rfl
  have hquery : stuck.build.toOption.any (fun built =>
      (Explorer.start built.1 built.2 Settings.default).toOption.any fun e =>
        e.step.toOption.any fun stepped =>
          decide (Event.refused "Up" (.lessThan 0 1) s ∈ stepped.2)) = true := by decide +kernel
  obtain ⟨⟨system, goal⟩, hbuild, hquery⟩ := (Option.any_eq_true ..).mp hquery
  obtain ⟨e, hstart, hquery⟩ := (Option.any_eq_true ..).mp hquery
  obtain ⟨⟨next, events⟩, hstep, hquery⟩ := (Option.any_eq_true ..).mp hquery
  have hstart := Puzzle.eq_ok_of_toOption hstart
  have hstep := Puzzle.eq_ok_of_toOption hstep
  obtain ⟨-, htold⟩ := hsearches system goal Settings.default e next events (.start hstart) hstep
  exact ⟨⟨s, by decide, hrefused _ hmisfit, (hsame _).mpr hmisfit⟩, system, goal, e, next, events, s,
    Puzzle.eq_ok_of_toOption hbuild, hstart, hstep, by decide,
    (htold "Up" (.lessThan 0 1) s).mp (of_decide_eq_true hquery)⟩

end Explorer

end GuardedReach
