/-
  Numerals read back — every number is what its literal says.

  1. **Digits** — a row of decimal digits is split off whole when what follows it is no digit
     (`digits?_append`).  The digits that a natural number is written with are such a row, stand for
     that number, and have no zero in front of others (`whole?_toDigits`).

  2. **Parts** — sign, whole part, fraction and exponent are each read where they end.

  3. **Statement** — `ofChars?_chars`, for integers and decimals of any size.
-/
import GuardedReach.Json.Numeral

namespace GuardedReach

namespace Numeral

/-! ## Digits

    The digits of a number are known to the standard library.  What is left is that the reader takes them up
    whole and finds no needless zero. -/

/-- A row of digits ends where something else follows, or nothing. -/
theorem digits?_append {digits : List Char} (rest : List Char) (hne : digits ≠ [])
    (hdigits : ∀ c ∈ digits, c.isDigit = true) (hrest : ∀ c ∈ rest.head?, c.isDigit = false) :
    digits? (digits ++ rest) = some (digits, rest) := by
  have hnone : rest.takeWhile Char.isDigit = [] ∧ rest.dropWhile Char.isDigit = rest := by
    cases rest with
    | nil => exact ⟨rfl, rfl⟩
    | cons c rest =>
      have hc := hrest c rfl
      simp [hc]
  unfold digits?
  rw [List.takeWhile_append_of_pos hdigits, List.dropWhile_append_of_pos hdigits, hnone.1, hnone.2,
    List.append_nil]
  split
  · exact absurd rfl hne
  · rfl

theorem isDigit_of_mem_toDigits {n : Nat} {c : Char} (h : c ∈ Nat.toDigits 10 n) :
    c.isDigit = true :=
  Nat.isDigit_of_mem_toDigits (by decide) (by decide) h

/-- Digits begin with a digit, which is no sign. -/
theorem exists_toDigits (n : Nat) :
    ∃ c rest, Nat.toDigits 10 n = c :: rest ∧ c.isDigit = true ∧ c ≠ '-' ∧ c ≠ '+' := by
  cases h : Nat.toDigits 10 n with
  | nil => exact absurd h Nat.toDigits_ne_nil
  | cons c rest =>
    have hmem : c ∈ Nat.toDigits 10 n := by
      rw [h]
      exact List.mem_cons_self ..
    have hc : c.isDigit = true := isDigit_of_mem_toDigits hmem
    refine ⟨c, rest, rfl, hc, ?_, ?_⟩
    · rintro rfl
      exact absurd hc (by decide)
    · rintro rfl
      exact absurd hc (by decide)

/-- The digits of a number other than zero do not begin with one. -/
theorem head?_toDigits_ne {n : Nat} (h : 0 < n) : (Nat.toDigits 10 n).head? ≠ some '0' := by
  induction n using Nat.strongRecOn with
  | ind n ih =>
    rw [Nat.toDigits_eq_if (by decide)]
    split
    · rw [List.head?_cons]
      intro hzero
      have := Nat.digitChar_eq_zero.mp (Option.some.inj hzero)
      omega
    · have hfirst := ih (n / 10) (by omega) (by omega)
      obtain ⟨c, rest, hcons, -⟩ := exists_toDigits (n / 10)
      rw [hcons] at hfirst ⊢
      exact hfirst

/-- The digits of a number stand for that number. -/
theorem digitsValue_toDigits (n : Nat) : digitsValue (Nat.toDigits 10 n) = n :=
  Nat.ofDigitChars_ten_toDigits

/-- The digits of a number are a whole part. -/
theorem whole?_toDigits (n : Nat) (rest : List Char)
    (hrest : ∀ c ∈ rest.head?, c.isDigit = false) :
    whole? (Nat.toDigits 10 n ++ rest) = some (Nat.toDigits 10 n, rest) := by
  unfold whole?
  rw [digits?_append rest Nat.toDigits_ne_nil (fun c hc => isDigit_of_mem_toDigits hc) hrest]
  split
  · next second others after heq =>
    -- two digits, the first a zero: not of a number other than zero, and zero has one digit
    exfalso
    have hdigits := (Prod.mk.inj (Option.some.inj heq)).1
    rcases Nat.eq_zero_or_pos n with rfl | hpos
    · rw [Nat.toDigits_zero] at hdigits
      exact absurd hdigits (by simp)
    · exact head?_toDigits_ne hpos (by rw [hdigits, List.head?_cons])
  · rfl

/-! ## Parts

    Each part ends at a character that cannot belong to it, so the parts are read one after the other. -/

/-- An integer is written as a minus sign, if it is negative, and digits. -/
theorem toList_repr_int (value : Int) :
    value.repr.toList = (if value < 0 then ['-'] else []) ++ Nat.toDigits 10 value.natAbs := by
  rw [Int.repr_eq_if]
  split
  · next h =>
    rw [if_neg (by omega), List.nil_append, Nat.repr_eq_ofList_toDigits, String.toList_ofList,
      show value.toNat = value.natAbs by omega]
  · next h =>
    rw [if_pos (by omega), String.toList_append, Nat.repr_eq_ofList_toDigits,
      show (-value).toNat = value.natAbs by omega]
    exact congrArg (['-'] ++ ·) String.toList_ofList

/-- Digits that are read to the end of a literal are the number they were written for. -/
theorem allDigits?_toDigits (n : Nat) : allDigits? (Nat.toDigits 10 n) = some n := by
  have h := digits?_append [] Nat.toDigits_ne_nil
    (fun c (hc : c ∈ Nat.toDigits 10 n) => isDigit_of_mem_toDigits hc) (by simp)
  rw [List.append_nil] at h
  unfold allDigits?
  rw [h]
  exact congrArg some (digitsValue_toDigits n)

/-- An exponent is read with its sign. -/
theorem signedDigits?_repr (value : Int) : signedDigits? value.repr.toList = some value := by
  rw [toList_repr_int]
  split
  · next h =>
    show (allDigits? (Nat.toDigits 10 value.natAbs)).map (signed true) = some value
    rw [allDigits?_toDigits, Option.map_some, signed, if_pos rfl]
    congr 1
    omega
  · next h =>
    have hdigits := allDigits?_toDigits value.natAbs
    obtain ⟨c, rest, hcons, -, hminus, hplus⟩ := exists_toDigits value.natAbs
    rw [List.nil_append]
    unfold signedDigits?
    split
    · next heq => exact absurd (List.cons.inj (hcons.symm.trans heq)).1 hminus
    · next heq => exact absurd (List.cons.inj (hcons.symm.trans heq)).1 hplus
    · rw [hdigits, Option.map_some]
      simp only [signed, Bool.false_eq_true, if_false]
      congr 1
      omega

theorem digitOfChar_digitChar (digit : Digit) : digitOfChar digit.val.digitChar = digit := by
  revert digit
  decide

/-- A fraction is read up to the exponent behind it. -/
theorem fraction?_fractionChars (fraction : List Digit) (rest : List Char) :
    fraction? (fractionChars fraction ++ 'e' :: rest) =
      some (fraction.map fun digit => digit.val.digitChar, 'e' :: rest) := by
  cases fraction with
  | nil => rfl
  | cons digit others =>
    refine digits?_append _ (by simp) ?_ ?_
    · intro c hc
      obtain ⟨digit, -, rfl⟩ := List.mem_map.mp hc
      rw [Nat.isDigit_digitChar]
      exact decide_eq_true digit.isLt
    · intro c hc
      obtain rfl := Option.some.inj hc
      decide

/-! ## Statement

    For every number there is, however many digits it has. -/

/-- Digits alone are an integer, unless they are a zero that is to be negative. -/
theorem unsigned?_toDigits (negative : Bool) (n : Nat) (h : ¬(negative = true ∧ n = 0)) :
    unsigned? negative (Nat.toDigits 10 n) = some (.integer (signed negative n)) := by
  have hwhole := whole?_toDigits n [] (by simp)
  rw [List.append_nil] at hwhole
  unfold unsigned?
  simp only [hwhole, Option.bind_eq_bind, Option.bind_some, fraction?, exponent?,
    digitsValue_toDigits]
  rw [if_pos ⟨trivial, trivial, h⟩]
  rfl

/-- Digits, a fraction or none, and an exponent are a decimal. -/
theorem unsigned?_exponent (negative : Bool) (whole : Nat) (fraction : List Digit)
    (exponent : Int) :
    unsigned? negative
        (Nat.toDigits 10 whole ++ (fractionChars fraction ++ 'e' :: exponent.repr.toList)) =
      some (.decimal { negative, whole, fraction, exponent }) := by
  -- a point or an e follows the whole part, so its digits end there
  have hrest : ∀ c ∈ (fractionChars fraction ++ 'e' :: exponent.repr.toList).head?,
      c.isDigit = false := by
    intro c hc
    cases fraction with
    | nil =>
      obtain rfl := Option.some.inj hc
      decide
    | cons digit others =>
      obtain rfl := Option.some.inj hc
      decide
  have hwhole := whole?_toDigits whole _ hrest
  have hexponent : exponent? ('e' :: exponent.repr.toList) = some (some exponent) := by
    show (if 'e' = 'e' ∨ 'e' = 'E' then (signedDigits? exponent.repr.toList).map some else none) = _
    rw [if_pos (Or.inl rfl), signedDigits?_repr]
    rfl
  have hdigits : (fraction.map fun digit => digit.val.digitChar).map digitOfChar = fraction := by
    rw [List.map_map]
    exact (List.map_congr_left fun digit _ => digitOfChar_digitChar digit).trans (List.map_id' _)
  unfold unsigned?
  simp only [hwhole, Option.bind_eq_bind, Option.bind_some, fraction?_fractionChars, hexponent,
    digitsValue_toDigits, hdigits]
  rw [if_neg (by simp)]
  rfl

/-- A literal without a minus sign is read as it stands. -/
theorem ofChars?_toDigits (n : Nat) (rest : List Char) :
    ofChars? (Nat.toDigits 10 n ++ rest) = unsigned? false (Nat.toDigits 10 n ++ rest) := by
  obtain ⟨c, digits, hcons, -, hminus, -⟩ := exists_toDigits n
  rw [hcons, List.cons_append]
  unfold ofChars?
  split
  · next heq => exact absurd (List.cons.inj heq).1 hminus
  · rfl

/-- **Every number is what its literal says.** -/
theorem ofChars?_chars (value : Numeral) : ofChars? value.chars = some value := by
  cases value with
  | integer value =>
    show ofChars? value.repr.toList = _
    rw [toList_repr_int]
    split
    · next h =>
      show unsigned? true (Nat.toDigits 10 value.natAbs) = _
      rw [unsigned?_toDigits true value.natAbs (by omega), signed, if_pos rfl]
      congr 2
      omega
    · next h =>
      have hunsigned := unsigned?_toDigits false value.natAbs (by simp)
      have hread := ofChars?_toDigits value.natAbs []
      rw [List.append_nil] at hread
      rw [List.nil_append, hread, hunsigned]
      simp only [signed, Bool.false_eq_true, if_false]
      congr 2
      omega
  | decimal value =>
    obtain ⟨negative, whole, fraction, exponent⟩ := value
    have hread := unsigned?_exponent negative whole fraction exponent
    simp only [chars, Nat.repr_eq_ofList_toDigits, String.toList_ofList, List.append_assoc]
    cases negative with
    | true => exact hread
    | false =>
      rw [if_neg (by simp), List.nil_append, ofChars?_toDigits]
      exact hread

end Numeral

end GuardedReach
