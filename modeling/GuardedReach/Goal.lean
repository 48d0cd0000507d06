/-
  Goals — the condition a search looks for, and the system it searches.

  A goal is a conjunction of guard instructions, which is what a puzzle file can hold, or any
  predicate on states.  `Goal.allOf` refuses effect instructions; `Goal.check` also asks that the
  guards fit a register width, and lets every predicate pass.
-/
import GuardedReach.Machine.Action

namespace GuardedReach

/-! ## What can be wrong with a system or a goal

    Everything that building a system or a goal can refuse, with the words for it. -/

/-- Why a system or a goal could not be set up. -/
inductive SetupError where
  | machine (reason : MachineError)
  | duplicateAction (name : String)
  /-- The initial state does not have the register count asked for. -/
  | widthMismatch (expected actual : Nat)
  /-- There must be one name for each register. -/
  | registerNames (expected actual : Nat)
  /-- A goal may hold guards only. -/
  | goalNotGuard (position : Nat) (instruction : Instruction)
deriving DecidableEq

namespace SetupError

def message : SetupError → String
  | machine _ => "invalid machine configuration"
  | duplicateAction name => "duplicate action name '" ++ name ++ "'"
  | widthMismatch expected actual =>
    "initial state has " ++ actual.repr ++ " registers, expected " ++ expected.repr
  | registerNames expected actual =>
    "expected " ++ expected.repr ++ " register names, got " ++ actual.repr
  | goalNotGuard position instruction =>
    "target instruction " ++ position.repr ++ " (" ++ instruction.text ++ ") is not a guard"

/-- The messages of what lies behind the error, outermost first. -/
def causes : SetupError → List String
  | machine reason => reason.message :: reason.causes
  | _ => []

end SetupError

/-! ## Goals

    Guards are tested on a copy of the state, and a goal holds if none of them refuses. -/

/-- The condition a search looks for. -/
inductive Goal where
  | predicate (holds : State → Bool)
  /-- Every guard must hold; with no guards, every state is a goal. -/
  | allOf (guards : List Instruction)

namespace Goal

/-- Finds the first instruction that is no guard, with its position counted from `position`. -/
def firstEffect (position : Nat) : List Instruction → Option (Nat × Instruction)
  | [] => none
  | ins :: rest => if ins.isGuard then firstEffect (position + 1) rest else some (position, ins)

theorem firstEffect_eq_none_iff (position : Nat) (instructions : List Instruction) :
    firstEffect position instructions = none ↔ ∀ ins ∈ instructions, ins.isGuard = true := by
  induction instructions generalizing position with
  | nil => simp [firstEffect]
  | cons ins rest ih => by_cases h : ins.isGuard <;> simp [firstEffect, h, ih]

/-- Refuses a list that holds an effect. -/
def checkGuards (guards : List Instruction) : Except SetupError Unit :=
  match firstEffect 0 guards with
  | some (position, ins) => .error (.goalNotGuard position ins)
  | none => .ok ()

/-- A conjunction of guards. -/
def ofGuards (guards : List Instruction) : Except SetupError Goal :=
  (checkGuards guards).map fun _ => .allOf guards

/-- The goal that one register holds one value. -/
def registerEquals (index : UInt8) (value : Int64) : Goal :=
  .allOf [.equal index value]

/-- Refuses the first guard that does not fit the width. -/
def checkBounds (width : Nat) : List Instruction → Except SetupError Unit
  | [] => .ok ()
  | guard :: rest =>
    match guard.check width with
    | .error fault => .error (.machine (.registerOutOfRange fault))
    | .ok () => checkBounds width rest

/-- Whether the goal can be tested on states of a width: all its instructions are guards, and then
    all fit.  A predicate always can. -/
def check (goal : Goal) (width : Nat) : Except SetupError Unit :=
  match goal with
  | predicate _ => .ok ()
  | allOf guards => do
    checkGuards guards
    checkBounds width guards

/-- Whether a sequence of instructions, each run on the state the one before it left, is accepted
    to the end. -/
def accepts : List Instruction → State → Bool
  | [], _ => true
  | guard :: rest, s =>
    match guard.execute s with
    | some next => accepts rest next
    | none => false

/-- **The program**: whether a state satisfies the goal. -/
def holds (goal : Goal) (s : State) : Bool :=
  match goal with
  | predicate holds => holds s
  | allOf guards => accepts guards s

/-- The assembly form of the guards, joined by `&&`. -/
def text : Goal → String
  | predicate _ => "<predicate>"
  | allOf [] => "<any state>"
  | allOf guards => " && ".intercalate (guards.map Instruction.text)

end Goal

end GuardedReach
