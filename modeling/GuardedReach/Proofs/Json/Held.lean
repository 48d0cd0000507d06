/-
  Holding integers — what is made of integers of at most 64 bits can be held before it is understood.

  1. **Digits** — all digits of such an integer go into the significand, and none is left over for the
     power of ten (`appendDigits_toDigits`).

  2. **Rounding** — a float that is nearest to a number is less than twice that number
     (`roundToFloat_le`), so one of 64 bits stays far below the largest float.

  3. **Containers** — an array or an object can be held if there is a level for it and what is in it
     can be held one level down.
-/
import GuardedReach.Json.Record
import GuardedReach.Proofs.Json.Numeral

namespace GuardedReach

/-! ## Digits

    What the digits of an integer are taken to be is what they were written for. -/

/-- The number that digits behind a number make with it. -/
def withDigits (n : Nat) (digits : List Digit) : Nat :=
  digits.foldl (fun (m : Nat) (digit : Digit) => 10 * m + digit.val) n

/-- More digits never make a number smaller. -/
theorem le_withDigits (n : Nat) (digits : List Digit) : n ≤ withDigits n digits := by
  induction digits generalizing n with
  | nil => exact Nat.le_refl n
  | cons digit rest ih =>
    calc
      n ≤ 10 * n + digit := by omega
      _ ≤ withDigits (10 * n + digit) rest := ih _

/-- Digits are taken up as long as they fit. -/
theorem appendDigits_of_lt {n : Nat} {digits : List Digit} (h : withDigits n digits < UInt64.size) :
    appendDigits n digits = (withDigits n digits, digits.length) := by
  induction digits generalizing n with
  | nil => rfl
  | cons digit rest ih =>
    have hfirst : 10 * n + digit < UInt64.size := Nat.lt_of_le_of_lt (le_withDigits _ rest) h
    rw [appendDigits, if_pos hfirst, ih h]
    rfl

/-- A digit's value is where it stands after the zero. -/
theorem val_digitOfChar {c : Char} (h : c.isDigit = true) : (digitOfChar c).val = c.toNat - 48 := by
  have hrange : 48 ≤ c.toNat ∧ c.toNat ≤ 57 := by
    simpa [Char.isDigit, UInt32.le_iff_toNat_le] using h
  show (c.toNat - 48) % 10 = c.toNat - 48
  omega

/-- Digits are folded up as the standard library folds them, -/
theorem withDigits_map {cs : List Char} (h : ∀ c ∈ cs, c.isDigit = true) (n : Nat) :
    withDigits n (cs.map digitOfChar) = Nat.ofDigitChars 10 cs n := by
  induction cs generalizing n with
  | nil => exact Nat.ofDigitChars_nil.symm
  | cons c cs ih =>
    have hrest := ih (fun d hd => h d (List.mem_cons_of_mem _ hd)) (10 * n + (digitOfChar c).val)
    rw [val_digitOfChar (h c (List.mem_cons_self ..))] at hrest
    rw [Nat.ofDigitChars_cons]
    show withDigits (10 * n + (digitOfChar c).val) (cs.map digitOfChar) = _
    rw [val_digitOfChar (h c (List.mem_cons_self ..))]
    exact hrest

/-- which is how they were taken apart. -/
theorem withDigits_toDigits (n : Nat) :
    withDigits 0 ((Nat.toDigits 10 n).map digitOfChar) = n := by
  rw [withDigits_map (fun c hc => Numeral.isDigit_of_mem_toDigits hc)]
  exact Nat.ofDigitChars_ten_toDigits

/-- An integer of at most 64 bits is its own significand. -/
theorem scaled_integer {value : Int} (h : value.natAbs < UInt64.size) :
    (Numeral.integer value).scaled = { significand := value.natAbs, exponent := 0 } := by
  have hsmall : withDigits 0 ((Nat.toDigits 10 value.natAbs).map digitOfChar) < UInt64.size := by
    rw [withDigits_toDigits]
    exact h
  have hdigits := appendDigits_of_lt hsmall
  rw [withDigits_toDigits] at hdigits
  unfold Numeral.scaled Decimal.scaled
  simp only [Nat.repr_eq_ofList_toDigits, String.toList_ofList, hdigits, appendDigits]
  simp

/-! ## Rounding

    An integer has the power of ten one, so its significand is all that rounding can change. -/

/-- The nearest float is at most twice the number.  What is rounded away is less than the unit that is kept,
    and the number has at least that one. -/
theorem roundToFloat_le {n : Nat} (h : 0 < n) : roundToFloat n ≤ 2 * n := by
  have hunit : 1 <<< (n.log2 - 52) ≤ n := by
    rw [Nat.one_shiftLeft]
    calc
      2 ^ (n.log2 - 52) ≤ 2 ^ n.log2 := Nat.pow_le_pow_right (by decide) (Nat.sub_le ..)
      _ ≤ n := Nat.log2_self_le (by omega)
  have hbelow := Nat.div_mul_le_self n (1 <<< (n.log2 - 52))
  unfold roundToFloat
  simp only []
  split
  · omega
  · rw [Nat.add_mul]
    omega

/-- An integer of at most 64 bits can be held. -/
theorem isFinite_integer {value : Int} (h : value.natAbs < UInt64.size) :
    (Numeral.integer value).isFinite = true := by
  unfold Numeral.isFinite
  rw [scaled_integer h]
  unfold Scaled.isFinite
  split
  · rfl
  · next hne =>
    have hpos : 0 < value.natAbs := by
      simp only [not_or] at hne
      omega
    have hone : roundToFloat (Nat.pow 10 (0 : Int).toNat) = 1 := by decide
    have hlimit : 2 * UInt64.size ≤ floatLimit := by decide +kernel
    have hround := roundToFloat_le hpos
    have hexp : ¬ maxExponent < (0 : Int).toNat := by decide
    rw [if_neg hexp]
    simp only [hone, Nat.mul_one]
    exact decide_eq_true (by omega)

/-! ## Containers

    Numbers can be held at any level, so all that a container asks for is a level more than its items. -/

namespace Json

/-- A signed word can be held, -/
theorem isHoldable_ofInt {value : Int} (h : value.natAbs < UInt64.size) (levels : Nat) :
    (ofInt value).isHoldable levels = true := by
  unfold ofInt
  rw [isHoldable]
  exact isFinite_integer h

/-- an unsigned one can be held, -/
theorem isHoldable_ofNat {value : Nat} (h : value < UInt64.size) (levels : Nat) :
    (ofNat value).isHoldable levels = true :=
  isHoldable_ofInt (show (value : Int).natAbs < UInt64.size from h) levels

/-- and so can a string. -/
theorem isHoldable_ofString (levels : Nat) (value : String) :
    (ofString value).isHoldable levels = true := by
  unfold ofString
  rw [isHoldable]
  rfl

/-- A list can be held if its items can, one level down, -/
theorem isHoldable_ofList {α : Type} {encode : α → Json} {items : List α} {levels : Nat}
    (h : ∀ a ∈ items, (encode a).isHoldable levels = true) :
    (ofList encode items).isHoldable (levels + 1) = true := by
  unfold ofList
  rw [isHoldable]
  induction items with
  | nil => simp [itemsHoldable]
  | cons a items ih =>
    rw [List.map_cons, itemsHoldable, h a (List.mem_cons_self ..),
      ih fun b hb => h b (List.mem_cons_of_mem _ hb)]
    rfl

/-- and a record if its fields can. -/
theorem isHoldable_record {members : List (String × Json)} {levels : Nat}
    (h : ∀ member ∈ members, member.2.isHoldable levels = true) :
    (record members).isHoldable (levels + 1) = true := by
  unfold record
  rw [isHoldable]
  induction members with
  | nil => simp [membersHoldable]
  | cons member members ih =>
    rw [List.map_cons, membersHoldable, h member (List.mem_cons_self ..),
      ih fun other hother => h other (List.mem_cons_of_mem _ hother)]
    rfl

end Json

end GuardedReach
