/-
  Listings — instructions, actions and goals written out field by field, for diagnostics.

  Where the assembly text of an instruction leaves out a source register that is not used, its
  listing names every field.  An action's name appears as quoted text.
-/
import GuardedReach.Goal
import GuardedReach.Text.Quoted

namespace GuardedReach

/-- An opcode by name, words run together. -/
def Opcode.listing : Opcode → String
  | lessThan => "LessThan"
  | equal => "Equal"
  | notEqual => "NotEqual"
  | assign => "Assign"
  | add => "Add"
  | subtract => "Subtract"
  | boundedTransfer => "BoundedTransfer"

/-- All four fields, also those that the opcode does not look at. -/
def Instruction.listing (ins : Instruction) : String :=
  "Instruction \x7b opcode: " ++ ins.opcode.listing ++ ", target: " ++ ins.target.toNat.repr ++
    ", source: " ++ ins.source.toNat.repr ++ ", amount: " ++ ins.amount.toInt.repr ++ " \x7d"

/-- The listings between square brackets. -/
def instructionsListing (instructions : List Instruction) : String :=
  "[" ++ ", ".intercalate (instructions.map Instruction.listing) ++ "]"

/-- The name, quoted, and the instructions. -/
def Action.listing (a : Action) : String :=
  "Action \x7b name: " ++ quoted a.name ++ ", instructions: " ++
    instructionsListing a.instructions ++ " \x7d"

/-- The guards of a goal; a predicate cannot be written out. -/
def Goal.listing : Goal → String
  | predicate _ => "Predicate(<closure>)"
  | allOf guards => "AllOf(" ++ instructionsListing guards ++ ")"

end GuardedReach
