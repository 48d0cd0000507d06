/-
  Actions — named transition rules that happen as a whole or not at all.

  An action is a non-empty name and at most `instructionCapacity` instructions, each of which fits
  a full register file; those limits are part of the type, and `Action.make` is where they are
  checked.

  1. **Program** — `run` executes the instructions in order on a copy of the state and stops at the
     first refusal, which it hands back; `apply` forgets which instruction refused.

  2. **Fitting** — `check` names the first instruction that does not fit a width; `tryApply` reports
     that as an error where `apply` would merely refuse.
-/
import GuardedReach.Machine.Instruction

namespace GuardedReach

/-! ## Instruction sequences

    What runs is a list of instructions on one state after another, up to the first refusal. -/

/-- Finds the first instruction that does not fit the width, with its position counted from
    `position`. -/
def firstMisfit (width : Nat) (position : Nat) : List Instruction → Option (Nat × OutOfRange)
  | [] => none
  | ins :: rest =>
    match ins.check width with
    | .error reason => some (position, reason)
    | .ok () => firstMisfit width (position + 1) rest

/-- No misfit is found exactly when every instruction fits. -/
theorem firstMisfit_eq_none_iff (width position : Nat) (instructions : List Instruction) :
    firstMisfit width position instructions = none ↔
      ∀ ins ∈ instructions, ins.InBounds width := by
  induction instructions generalizing position with
  | nil => simp [firstMisfit]
  | cons ins rest ih =>
    unfold firstMisfit
    have hc := ins.check_eq_ok_iff width
    cases h : ins.check width with
    | error reason => simp_all
    | ok u => simp_all

/-- Runs instructions in order; a refusal is the instruction that refused. -/
def runAll : List Instruction → State → Except Instruction State
  | [], s => .ok s
  | ins :: rest, s =>
    match ins.execute s with
    | some next => runAll rest next
    | none => .error ins

/-- Nor does any sequence of instructions. -/
theorem width_runAll {instructions : List Instruction} {s t : State}
    (h : runAll instructions s = .ok t) : t.width = s.width := by
  induction instructions generalizing s with
  | nil => cases h; rfl
  | cons ins rest ih =>
    unfold runAll at h
    split at h
    · next next hn => rw [ih h, Instruction.width_execute hn]
    · exact absurd h (by simp)

/-! ## Actions

    The list with a name, and with the proofs that it was accepted. -/

/-- A named transition rule. -/
structure Action where
  name : String
  instructions : List Instruction
  name_ne : name ≠ ""
  length_le : instructions.length ≤ instructionCapacity
  inBounds : ∀ ins ∈ instructions, ins.InBounds registerCapacity
deriving DecidableEq

namespace Action

/-- Builds an action.  The name is looked at first, then the number of instructions, then each
    instruction in order. -/
def make (name : String) (instructions : List Instruction) : Except MachineError Action :=
  if hn : name = "" then .error .emptyActionName
  else if hl : instructionCapacity < instructions.length then
    .error (.capacityExceeded name instructions.length)
  else
    match hm : firstMisfit registerCapacity 0 instructions with
    | some (position, reason) => .error (.invalidInstruction name position reason)
    | none =>
      .ok
        { name
          instructions
          name_ne := hn
          length_le := Nat.le_of_not_lt hl
          inBounds := (firstMisfit_eq_none_iff ..).mp hm }

/-- Whether the action fits a register file of the given width. -/
def check (a : Action) (width : Nat) : Except MachineError Unit :=
  match firstMisfit width 0 a.instructions with
  | some (position, reason) => .error (.invalidInstruction a.name position reason)
  | none => .ok ()

/-- An action fits a width if all its instructions do. -/
theorem check_eq_ok_iff (a : Action) (width : Nat) :
    a.check width = .ok () ↔ ∀ ins ∈ a.instructions, ins.InBounds width := by
  rw [← firstMisfit_eq_none_iff width 0]
  unfold check
  split <;> simp_all

/-- Runs the action on a copy of the state. -/
def run (a : Action) (s : State) : Except Instruction State :=
  runAll a.instructions s

/-- **The program**: the state after the action, or `none` if any instruction refuses. -/
def apply (a : Action) (s : State) : Option State :=
  (a.run s).toOption

/-- An action happens if it runs to its end, -/
theorem apply_eq_some_iff {a : Action} {s t : State} : a.apply s = some t ↔ a.run s = .ok t := by
  unfold apply
  cases a.run s <;> simp [Except.toOption]

/-- and does not happen if some instruction refuses. -/
theorem apply_eq_none_iff {a : Action} {s : State} :
    a.apply s = none ↔ ∃ ins, a.run s = .error ins := by
  unfold apply
  cases a.run s <;> simp [Except.toOption]

theorem width_apply {a : Action} {s t : State} (h : a.apply s = some t) : t.width = s.width :=
  width_runAll (apply_eq_some_iff.mp h)

/-- Like `apply`, but an action that does not fit the width of the state is an error. -/
def tryApply (a : Action) (s : State) : Except MachineError (Option State) :=
  (a.check s.width).map fun _ => a.apply s

/-- The name and the assembly form of each instruction. -/
def text (a : Action) : String :=
  a.name ++ ":" ++ String.join (a.instructions.map fun ins => " " ++ ins.text ++ ";")

end Action

end GuardedReach
