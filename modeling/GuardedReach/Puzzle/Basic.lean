/-
  Puzzles — search problems as they are written in puzzle files.

  A puzzle names its registers, lists its actions and states its target as guards that must all
  hold.  Nothing in it need be consistent: `Puzzle.build` makes a system and a goal of it, or gives
  the first thing that is wrong.
-/
import GuardedReach.TransitionSystem

namespace GuardedReach

/-- A named register and its initial value. -/
structure RegisterDecl where
  name : String
  initial : Int64
deriving DecidableEq

/-- A named action as it is written. -/
structure ActionDecl where
  name : String
  instructions : List Instruction
deriving DecidableEq

/-- A search problem as it is written. -/
structure Puzzle where
  name : String
  registers : List RegisterDecl
  actions : List ActionDecl
  /-- Guards that must all hold in a goal state. -/
  target : List Instruction
deriving DecidableEq

namespace Puzzle

/-- Makes the actions, in order, up to the first that cannot be made. -/
def buildActions : List ActionDecl → Except SetupError (List Action)
  | [] => .ok []
  | decl :: rest =>
    match Action.make decl.name decl.instructions with
    | .error reason => .error (.machine reason)
    | .ok a => (buildActions rest).map (a :: ·)

/-- The initial state. -/
def buildInitial (registers : List RegisterDecl) : Except SetupError State :=
  match State.ofList (registers.map RegisterDecl.initial) with
  | .error reason => .error (.machine reason)
  | .ok s => .ok s

/-- **The program**: the system and the goal.  The registers are looked at first, then each action
    on its own, then the actions together, then the target. -/
def build (p : Puzzle) : Except SetupError (TransitionSystem × Goal) := do
  let initial ← buildInitial p.registers
  let actions ← buildActions p.actions
  let unnamed ← TransitionSystem.make p.registers.length initial actions
  let system ← unnamed.withRegisterNames (p.registers.map RegisterDecl.name)
  let goal ← Goal.ofGuards p.target
  goal.check system.width
  return (system, goal)

end Puzzle

end GuardedReach
