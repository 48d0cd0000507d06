/-
  JSON values.

  The values keep what reading a text must be able to tell apart: numbers are exact, the members of
  an object keep their order and may repeat a name, and a string literal whose escapes leave a
  surrogate without its partner is a string without a text (`none`).
-/
import GuardedReach.Json.Numeral

namespace GuardedReach

/-- What a string literal says; `none` if an escape in it is a surrogate without its partner. -/
abbrev JsonText := Option String

/-- A JSON value. -/
inductive Json where
  | null
  | bool (value : Bool)
  | number (value : Numeral)
  | string (value : JsonText)
  | array (items : List Json)
  | object (members : List (JsonText × Json))

namespace Json

/-- An integer is a number without fraction and exponent. -/
def ofInt (value : Int) : Json :=
  .number (.integer value)

/-- So is a natural number. -/
def ofNat (value : Nat) : Json :=
  ofInt value

/-- A string that has a text. -/
def ofString (value : String) : Json :=
  .string (some value)

/-- An object with the given members. -/
def record (members : List (String × Json)) : Json :=
  .object (members.map fun member => (some member.1, member.2))

/-- An array of what a function makes of each item. -/
def ofList {α : Type} (encode : α → Json) (items : List α) : Json :=
  .array (items.map encode)

end Json

end GuardedReach
