/-
  Numerals — the numbers of JSON texts, kept exactly.

  A literal without fraction and exponent is an integer, negative zero excepted; any other literal
  is a decimal, kept in the parts it is written in.  Nothing is rounded: an integer of any size is
  read as it stands, and a decimal is never taken for an integer.

  **Program** — `ofChars?` reads a whole literal under the strict grammar (no leading zeros, no plus
  sign in front, digits on both sides of the point); `chars` writes one that reads back.
-/

namespace GuardedReach

/-- A decimal digit. -/
abbrev Digit := Fin 10

/-- A number written with a fraction or an exponent, or negative zero. -/
structure Decimal where
  negative : Bool
  /-- What stands before the point. -/
  whole : Nat
  /-- The digits behind the point; none if there is no point. -/
  fraction : List Digit
  /-- The power of ten it is multiplied with. -/
  exponent : Int
deriving DecidableEq

/-- A number of a JSON text. -/
inductive Numeral where
  | integer (value : Int)
  | decimal (value : Decimal)
deriving DecidableEq

/-- The digit that a character is. -/
def digitOfChar (c : Char) : Digit :=
  Fin.ofNat 10 (c.toNat - 48)

namespace Numeral

/-! ## Reading -/

/-- The number that a row of decimal digits stands for. -/
def digitsValue (digits : List Char) : Nat :=
  Nat.ofDigitChars 10 digits 0

def signed (negative : Bool) (magnitude : Nat) : Int :=
  if negative then -(magnitude : Int) else magnitude

/-- Splits off the digits in front, of which there must be at least one. -/
def digits? (cs : List Char) : Option (List Char × List Char) :=
  match cs.takeWhile Char.isDigit with
  | [] => none
  | digits => some (digits, cs.dropWhile Char.isDigit)

/-- Splits off a whole part: digits, with no zero in front of others. -/
def whole? (cs : List Char) : Option (List Char × List Char) :=
  match digits? cs with
  | some ('0' :: _ :: _, _) => none
  | other => other

/-- Splits off a fraction, if a point announces one; its digits come without the point. -/
def fraction? (cs : List Char) : Option (List Char × List Char) :=
  match cs with
  | '.' :: rest => digits? rest
  | _ => some ([], cs)

/-- The value of a row of digits that leaves nothing over. -/
def allDigits? (cs : List Char) : Option Nat :=
  match digits? cs with
  | some (digits, []) => some (digitsValue digits)
  | _ => none

/-- An exponent up to the end, with its sign. -/
def signedDigits? (cs : List Char) : Option Int :=
  match cs with
  | '-' :: rest => (allDigits? rest).map (signed true)
  | '+' :: rest => (allDigits? rest).map (signed false)
  | _ => (allDigits? cs).map (signed false)

/-- What follows whole part and fraction: nothing, or an exponent. -/
def exponent? (cs : List Char) : Option (Option Int) :=
  match cs with
  | [] => some none
  | c :: rest => if c = 'e' ∨ c = 'E' then (signedDigits? rest).map some else none

/-- Reads an unsigned literal and puts the sign to it. -/
def unsigned? (negative : Bool) (cs : List Char) : Option Numeral := do
  let (whole, rest) ← whole? cs
  let (fraction, rest) ← fraction? rest
  let exponent ← exponent? rest
  if fraction = [] ∧ exponent = none ∧ ¬(negative = true ∧ digitsValue whole = 0) then
    return .integer (signed negative (digitsValue whole))
  else
    return .decimal
      { negative
        whole := digitsValue whole
        fraction := fraction.map digitOfChar
        exponent := exponent.getD 0 }

/-- **The program**: reads a whole literal. -/
def ofChars? (cs : List Char) : Option Numeral :=
  match cs with
  | '-' :: rest => unsigned? true rest
  | _ => unsigned? false cs

/-! ## Writing -/

/-- The point and the digits behind it, if there are any. -/
def fractionChars : List Digit → List Char
  | [] => []
  | digits => '.' :: digits.map fun digit => digit.val.digitChar

/-- A literal for the number. -/
def chars : Numeral → List Char
  | integer value => value.repr.toList
  | decimal value =>
    (if value.negative then ['-'] else []) ++ value.whole.repr.toList ++
      fractionChars value.fraction ++ 'e' :: value.exponent.repr.toList

/-! ## Running the program -/

example : ofChars? ['-', '1', '2'] = some (.integer (-12)) := by decide
example : ofChars? ['-', '0'] = some (.decimal ⟨true, 0, [], 0⟩) := by decide
example : ofChars? ['0', '1'] = none := by decide
example : ofChars? ['1', '.', '5', 'E', '+', '3'] = some (.decimal ⟨false, 1, [5], 3⟩) := by decide
example : ofChars? (chars (.decimal ⟨true, 1, [0, 5], -3⟩)) = some (.decimal ⟨true, 1, [0, 5], -3⟩) := by
  decide +kernel
example : ofChars? ['1', '.'] = none := by decide

end Numeral

end GuardedReach
