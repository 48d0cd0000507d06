/-
  How opcodes, instructions and states are written as JSON.

  An opcode is its full name, or an object whose only member has that name and is null.  An
  instruction is a record; all four fields are always written, and source and amount may be left out
  when reading.  A state is the array of its active registers.
-/
import GuardedReach.Json.Record
import GuardedReach.Machine.Action

namespace GuardedReach

namespace Opcode

/-- An opcode is written as its full name. -/
def toJson (opcode : Opcode) : Json :=
  .ofString opcode.name

/-- It may also be read from an object with that name for its only member, holding null. -/
def ofJson? : Json → Option Opcode
  | .string (some name) => ofName? name
  | .object [(some name, .null)] => ofName? name
  | _ => none

end Opcode

namespace Instruction

/-- The fields of an instruction, in their order. -/
def fieldNames : List String :=
  ["opcode", "target", "source", "amount"]

/-- An instruction is written with all of its fields. -/
def toJson (ins : Instruction) : Json :=
  .record
    [("opcode", ins.opcode.toJson), ("target", .ofNat ins.target.toNat),
      ("source", .ofNat ins.source.toNat), ("amount", .ofInt ins.amount.toInt)]

/-- Source and amount are zero where they are left out. -/
def ofJson? (value : Json) : Option Instruction := do
  let fields ← value.record? fieldNames
  return {
    opcode := ← Json.required fields "opcode" Opcode.ofJson?
    target := ← Json.required fields "target" Json.uint8?
    source := ← Json.optional fields "source" 0 Json.uint8?
    amount := ← Json.optional fields "amount" 0 Json.int64? }

end Instruction

namespace State

/-- A state is written as its active registers. -/
def toJson (s : State) : Json :=
  .ofList (fun value => .ofInt value.toInt) s.active

/-- A list of values is a state if there is one of its width. -/
def ofJson? (value : Json) : Option State := do
  let values ← value.list? Json.int64?
  (ofList values).toOption

end State

end GuardedReach
