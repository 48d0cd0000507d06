/-
  How puzzles are written as JSON: records of records, in the order of their fields.  A register's
  initial value may be left out when reading, and then is zero.
-/
import GuardedReach.Format.Machine
import GuardedReach.Puzzle.Basic

namespace GuardedReach

namespace RegisterDecl

/-- A register is written as its name and its initial value. -/
def toJson (decl : RegisterDecl) : Json :=
  .record [("name", .ofString decl.name), ("initial", .ofInt decl.initial.toInt)]

/-- The initial value is zero if it is left out. -/
def ofJson? (value : Json) : Option RegisterDecl := do
  let fields ← value.record? ["name", "initial"]
  return {
    name := ← Json.required fields "name" Json.string?
    initial := ← Json.optional fields "initial" 0 Json.int64? }

end RegisterDecl

namespace ActionDecl

/-- An action is written as its name and the list of its instructions. -/
def toJson (decl : ActionDecl) : Json :=
  .record
    [("name", .ofString decl.name),
      ("instructions", .ofList Instruction.toJson decl.instructions)]

/-- No check is made here, neither of the name nor of the instructions. -/
def ofJson? (value : Json) : Option ActionDecl := do
  let fields ← value.record? ["name", "instructions"]
  return {
    name := ← Json.required fields "name" Json.string?
    instructions := ← Json.required fields "instructions" (Json.list? Instruction.ofJson?) }

end ActionDecl

namespace Puzzle

/-- A puzzle is written field by field, the target as a list of instructions. -/
def toJson (p : Puzzle) : Json :=
  .record
    [("name", .ofString p.name), ("registers", .ofList RegisterDecl.toJson p.registers),
      ("actions", .ofList ActionDecl.toJson p.actions),
      ("target", .ofList Instruction.toJson p.target)]

/-- Decodes a puzzle, which need not be one that can be built. -/
def ofJson? (value : Json) : Option Puzzle := do
  let fields ← value.record? ["name", "registers", "actions", "target"]
  return {
    name := ← Json.required fields "name" Json.string?
    registers := ← Json.required fields "registers" (Json.list? RegisterDecl.ofJson?)
    actions := ← Json.required fields "actions" (Json.list? ActionDecl.ofJson?)
    target := ← Json.required fields "target" (Json.list? Instruction.ofJson?) }

end Puzzle

end GuardedReach
