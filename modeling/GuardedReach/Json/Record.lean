/-
  Records — reading values of known shape out of JSON.

  A record has named fields in a fixed order.  It may be written as an object, whose members may
  stand in any order, or as an array of the fields in their order, of which the last may be left
  off.  Members with other names are passed over, whatever they hold and however often they occur;
  a field named twice is refused.

  Numbers must be integer literals within the range of the field.
-/
import GuardedReach.Json.Scaled
import GuardedReach.Json.Syntax
import GuardedReach.Machine.Word

namespace GuardedReach

namespace Json

/-! ## Plain values

    Each takes the one kind of value it is written as.  A number is taken only within the range of its
    field, and a string only if it has a text. -/

/-- The text of a string that has one. -/
def string? : Json → Option String
  | .string value => value
  | _ => none

/-- The value of an integer literal. -/
def int? : Json → Option Int
  | .number (.integer value) => some value
  | _ => none

/-- The value of an integer literal that is at least zero and below `limit`. -/
def natBelow? (limit : Nat) (value : Json) : Option Nat :=
  value.int?.bind fun i => if 0 ≤ i ∧ i < limit then some i.toNat else none

/-- A word of 8 bits, -/
def uint8? (value : Json) : Option UInt8 :=
  (value.natBelow? UInt8.size).map UInt8.ofNat

/-- one of 32 bits, -/
def uint32? (value : Json) : Option UInt32 :=
  (value.natBelow? UInt32.size).map UInt32.ofNat

/-- and one of 64 bits. -/
def uint64? (value : Json) : Option UInt64 :=
  (value.natBelow? UInt64.size).map UInt64.ofNat

/-- A count, which in a text is at most 64 bits wide. -/
def count? (value : Json) : Option Nat :=
  value.natBelow? UInt64.size

/-- A signed word of 64 bits. -/
def int64? (value : Json) : Option Int64 :=
  value.int?.bind wordOfInt?

/-- The items of an array, each decoded. -/
def list? {α : Type} (decode : Json → Option α) : Json → Option (List α)
  | .array items => items.mapM decode
  | _ => none

/-- Null, or a value to decode. -/
def nullable? {α : Type} (decode : Json → Option α) : Json → Option (Option α)
  | .null => some none
  | value => (decode value).map some

/-! ## Records

    A record is decoded in two steps: its fields are told apart, and then each is looked up by its name. -/

/-- A member whose name has a text. -/
def named? (member : JsonText × Json) : Option (String × Json) :=
  member.1.map fun key => (key, member.2)

/-- The fields of a record by name.  Every member's name must have a text, also of those passed
    over. -/
def record? (names : List String) : Json → Option (List (String × Json))
  | .object members => do
    let members ← members.mapM named?
    let fields := members.filter fun member => names.contains member.1
    if (fields.map Prod.fst).Nodup then some fields else none
  | .array items => if items.length ≤ names.length then some (names.zip items) else none
  | _ => none

/-- A field that must be there. -/
def required {α : Type} (fields : List (String × Json)) (name : String)
    (decode : Json → Option α) : Option α :=
  (fields.lookup name).bind decode

/-- A field that may be left out, and then has the value `absent`. -/
def optional {α : Type} (fields : List (String × Json)) (name : String) (absent : α)
    (decode : Json → Option α) : Option α :=
  match fields.lookup name with
  | some value => decode value
  | none => some absent

/-! ## Values held whole

    A value that is passed over need not be understood, but one that is read before it is known what it
    means must be fit to be held. -/

mutual

/-- Whether a value can be held in memory before its meaning is known: no more than `levels`
    containers inside one another, every string with a text, every number within the range of
    64-bit floats. -/
def isHoldable (levels : Nat) : Json → Bool
  | .null | .bool _ => true
  | .number value => value.isFinite
  | .string value => value.isSome
  | .array items =>
    match levels with
    | 0 => false
    | levels + 1 => itemsHoldable levels items
  | .object members =>
    match levels with
    | 0 => false
    | levels + 1 => membersHoldable levels members

/-- Whether all items can be held, -/
def itemsHoldable (levels : Nat) : List Json → Bool
  | [] => true
  | item :: rest => item.isHoldable levels && itemsHoldable levels rest

/-- and all values of members. -/
def membersHoldable (levels : Nat) : List (JsonText × Json) → Bool
  | [] => true
  | (key, value) :: rest =>
    key.isSome && value.isHoldable levels && membersHoldable levels rest

end

end Json

end GuardedReach
