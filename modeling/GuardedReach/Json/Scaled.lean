/-
  Scaled numbers — whether a number can be held as a 64-bit binary float.

  A number that is held, and not merely passed over, is held in a float, and the float is made in
  two stages.

  1. **Digits** — `Numeral.scaled` keeps the digits in front as long as they make a 64-bit
     significand, and counts the others into a power of ten: `significand · 10 ^ exponent`.

  2. **Rounding** — the significand and the power of ten are each rounded to a float, and so is what
     comes of multiplying them, or of dividing where the exponent is negative.  Each rounding is to
     nearest, and of two floats as near to the one whose last bit is zero (`roundToFloat`).

  `isFinite` says whether that float is finite.  Near the largest float it may differ from the float
  that is nearest to the number itself.
-/
import GuardedReach.Json.Numeral

namespace GuardedReach

/-! ## Digits -/

/-- The number `significand · 10 ^ exponent`, its sign left out. -/
structure Scaled where
  significand : Nat
  exponent : Int
deriving DecidableEq

/-- Writes digits behind a significand, up to the first that would make it longer than 64 bits.
    Gives the significand and the number of digits it took up. -/
def appendDigits (significand : Nat) : List Digit → Nat × Nat
  | [] => (significand, 0)
  | digit :: rest =>
    if 10 * significand + digit < UInt64.size then
      let (grown, count) := appendDigits (10 * significand + digit) rest
      (grown, count + 1)
    else (significand, 0)

/-- A digit of the whole part that is left out stands for a factor of ten, one behind the point that
    is taken up for a tenth.  Digits behind the point are taken up as long as they fit, also after
    some before it were left out. -/
def Decimal.scaled (value : Decimal) : Scaled :=
  let whole := value.whole.repr.toList.map digitOfChar
  let (significand, count) := appendDigits 0 whole
  let (significand, places) := appendDigits significand value.fraction
  { significand, exponent := value.exponent + (whole.length - count : Nat) - places }

/-- The number as it is held, its sign left out. -/
def Numeral.scaled : Numeral → Scaled
  | integer value => Decimal.scaled ⟨false, value.natAbs, [], 0⟩
  | decimal value => value.scaled

/-! ## Rounding -/

/-- The nearest number of 53 significant bits, of two as near the one whose last bit is zero. -/
def roundToFloat (n : Nat) : Nat :=
  let unit := 1 <<< (n.log2 - 52)
  let below := n / unit
  let excess := n % unit
  if 2 * excess < unit ∨ 2 * excess = unit ∧ below % 2 = 0 then below * unit else (below + 1) * unit

/-- Half a step above the largest finite float.  From here on the nearest one is infinite. -/
def floatLimit : Nat := 1 <<< 1024 - 1 <<< 970

/-- The largest power of ten whose float is finite. -/
def maxExponent : Nat := 308

/-- Whether the float that holds the number is finite.  Dividing cannot take it out of range. -/
def Scaled.isFinite (number : Scaled) : Bool :=
  if number.significand = 0 ∨ number.exponent < 0 then true
  else if maxExponent < number.exponent.toNat then false
  else
    roundToFloat number.significand * roundToFloat (Nat.pow 10 number.exponent.toNat) < floatLimit

/-- Whether the number can be held. -/
def Numeral.isFinite (value : Numeral) : Bool :=
  value.scaled.isFinite

/-! ## Running the program -/

example : roundToFloat 9007199254740993 = 9007199254740992 := by decide +kernel
example : roundToFloat 9007199254740995 = 9007199254740996 := by decide +kernel
example : floatLimit + 2 ^ 970 = 2 ^ 1024 := by decide +kernel
example : Decimal.scaled ⟨false, 18446744073709551616, [5, 0], 3⟩ = ⟨18446744073709551615, 3⟩ := by
  decide +kernel
example : Scaled.isFinite ⟨17976931348623157, 292⟩ = true := by decide +kernel
example : Scaled.isFinite ⟨17976931348623158, 292⟩ = false := by decide +kernel
example : Scaled.isFinite ⟨179769313486231581, 291⟩ = true := by decide +kernel

end GuardedReach
