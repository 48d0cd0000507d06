/-
  What can be wrong with a state, an instruction or an action before anything runs.

  The causes are values (`OutOfRange`, `MachineError`); their wording is one function each, and
  `MachineError.causes` lists the messages that stand behind an error, outermost first.
-/

namespace GuardedReach

/-- The number of registers in a register file. -/
def registerCapacity : Nat := 8

/-- The largest number of instructions in one action. -/
def instructionCapacity : Nat := 16

/-- A register index that does not lie below the number of registers in use. -/
structure OutOfRange where
  index : UInt8
  width : Nat
deriving DecidableEq

namespace OutOfRange

def message (fault : OutOfRange) : String :=
  "register r" ++ fault.index.toNat.repr ++ " out of range (width=" ++ fault.width.repr ++ ")"

end OutOfRange

/-- Why a state or an action could not be built, or does not fit a width. -/
inductive MachineError where
  /-- A state must have between one and `registerCapacity` registers. -/
  | invalidWidth (width : Nat)
  /-- An instruction names a register that is not there. -/
  | registerOutOfRange (fault : OutOfRange)
  /-- The action has more than `instructionCapacity` instructions. -/
  | capacityExceeded (action : String) (length : Nat)
  | emptyActionName
  /-- The instruction at this position of the action names a register that is not there. -/
  | invalidInstruction (action : String) (position : Nat) (reason : OutOfRange)
deriving DecidableEq

namespace MachineError

def message : MachineError → String
  | invalidWidth width =>
    "register width " ++ width.repr ++ " out of range (1..=" ++ registerCapacity.repr ++ ")"
  | registerOutOfRange fault => fault.message
  | capacityExceeded action length =>
    "action '" ++ action ++ "' has " ++ length.repr ++ " instructions (capacity " ++
      instructionCapacity.repr ++ ")"
  | emptyActionName => "action name must not be empty"
  | invalidInstruction action position _ =>
    "instruction " ++ position.repr ++ " of action '" ++ action ++ "' is invalid"

/-- The messages of what lies behind the error, outermost first. -/
def causes : MachineError → List String
  | invalidInstruction _ _ reason => [reason.message]
  | _ => []

end MachineError

end GuardedReach
