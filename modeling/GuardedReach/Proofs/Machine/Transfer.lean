/-
  Transfers at full range — what moves, beside what would move if words had no bounds.

  The room in the target is a difference of two words, taken modulo `2^64` before the source is looked
  at.

  1. **Words** — `IsWord`: the integers that a register can hold.  A sum or a difference that is a word
     is what the machine computes.

  2. **Room** — room that is a word is exact (`toInt_room_of_isWord`).  Room that is too large for a word
     comes out negative (`toInt_room_of_large`); where a target is so far over its capacity that the room
     is too small for one, it comes out positive (`toInt_room_of_small`).

  3. **Exactness** — `Exact`: nothing wraps around in the course of a transfer, so what moves is what
     would move without bounds (`Exact.toInt_pour`).  A target within its capacity is enough for that
     (`exact_of_le`): the smaller of what the source holds and the room moves (`toInt_pour`).

  4. **Statement** — `exact_iff`: as soon as the source has something to give, the amount is exact just
     if the room is a word, and a target over its capacity is left alone just if it is.

  5. **Postconditions** — whatever wraps around, a target within its capacity stays within it and a
     source that holds something is not overdrawn (`pour_postconditions`).  The crux is that no more
     moves than there is room for (`amount_le_room`): room too large for a word comes out as none.
-/
import GuardedReach.Machine.Transfer

namespace GuardedReach

/-! ## Words

    A word stands for an integer of limited size.  Where a sum or a difference stays within the limits it is
    the integer one; where it does not, it is off by a power of two. -/

/-- The integers that a register can hold. -/
def IsWord (value : Int) : Prop :=
  Int64.minValue.toInt ≤ value ∧ value ≤ Int64.maxValue.toInt

instance (value : Int) : Decidable (IsWord value) :=
  inferInstanceAs (Decidable (_ ∧ _))

/-- The bounds written out. -/
theorem isWord_iff {value : Int} :
    IsWord value ↔ -9223372036854775808 ≤ value ∧ value ≤ 9223372036854775807 :=
  Iff.rfl

/-- Every word stands for an integer in range. -/
theorem isWord_toInt (word : Int64) : IsWord word.toInt :=
  ⟨word.minValue_le_toInt, word.toInt_le⟩

/-- A sum in range is the sum of integers, -/
theorem toInt_add_of_isWord {a b : Int64} (h : IsWord (a.toInt + b.toInt)) :
    (a + b).toInt = a.toInt + b.toInt := by
  obtain ⟨hl, hu⟩ := isWord_iff.mp h
  rw [Int64.toInt_add]
  exact Int.bmod_eq_of_le (by omega) (by omega)

/-- and a difference in range the difference. -/
theorem toInt_sub_of_isWord {a b : Int64} (h : IsWord (a.toInt - b.toInt)) :
    (a - b).toInt = a.toInt - b.toInt := by
  obtain ⟨hl, hu⟩ := isWord_iff.mp h
  rw [Int64.toInt_sub]
  exact Int.bmod_eq_of_le (by omega) (by omega)

/-- Modulo `2^64` a sum is always the sum of integers. -/
theorem toInt_add_emod (a b : Int64) :
    (a + b).toInt % 18446744073709551616 = (a.toInt + b.toInt) % 18446744073709551616 := by
  rw [Int64.toInt_add]
  exact Int.bmod_emod

namespace Transfer

variable {target source capacity : Int64}

/-- The lesser of two words stands for the lesser integer, -/
theorem toInt_min (a b : Int64) : (min a b).toInt = min a.toInt b.toInt := by
  show (if a ≤ b then a else b).toInt = _
  split
  · next h =>
    have hle := Int64.le_iff_toInt_le.mp h
    omega
  · next h =>
    have hlt := mt Int64.le_iff_toInt_le.mpr h
    omega

/-- and the greater for the greater. -/
theorem toInt_max (a b : Int64) : (max a b).toInt = max a.toInt b.toInt := by
  show (if a ≤ b then b else a).toInt = _
  split
  · next h =>
    have hle := Int64.le_iff_toInt_le.mp h
    omega
  · next h =>
    have hlt := mt Int64.le_iff_toInt_le.mpr h
    omega

/-! ## Room

    The room is a difference, so there are three cases: it is in range, too large or too small. -/

/-- In range it is what it should be. -/
theorem toInt_room_of_isWord (h : IsWord (capacity.toInt - target.toInt)) :
    (room target capacity).toInt = capacity.toInt - target.toInt :=
  toInt_sub_of_isWord h

/-- Room for more than a word wraps around to a debt. -/
theorem toInt_room_of_large (h : 9223372036854775807 < capacity.toInt - target.toInt) :
    (room target capacity).toInt = capacity.toInt - target.toInt - 18446744073709551616 := by
  obtain ⟨htarget, -⟩ := isWord_iff.mp (isWord_toInt target)
  obtain ⟨-, hcapacity⟩ := isWord_iff.mp (isWord_toInt capacity)
  rw [room, Int64.toInt_sub, Int.bmod_def]
  omega

/-- A debt of more than a word wraps around to room. -/
theorem toInt_room_of_small (h : capacity.toInt - target.toInt < -9223372036854775808) :
    (room target capacity).toInt = capacity.toInt - target.toInt + 18446744073709551616 := by
  obtain ⟨-, htarget⟩ := isWord_iff.mp (isWord_toInt target)
  obtain ⟨hcapacity, -⟩ := isWord_iff.mp (isWord_toInt capacity)
  rw [room, Int64.toInt_sub, Int.bmod_def]
  omega

/-- Room is a word, or too large for one, or too small. -/
theorem room_cases (target capacity : Int64) :
    IsWord (capacity.toInt - target.toInt) ∨
      9223372036854775807 < capacity.toInt - target.toInt ∨
      capacity.toInt - target.toInt < -9223372036854775808 := by
  rw [isWord_iff]
  omega

/-! ## Amounts

    What moves is the source, or the room where that is less, and never less than nothing. -/

/-- The amount as an integer, with the room as it was computed. -/
theorem toInt_amount (target source capacity : Int64) :
    (amount target source capacity).toInt =
      max (min source.toInt (room target capacity).toInt) 0 := by
  rw [amount, toInt_max, toInt_min]
  rfl

/-- Nothing negative moves. -/
theorem amount_nonneg (target source capacity : Int64) :
    0 ≤ (amount target source capacity).toInt := by
  rw [toInt_amount]
  exact Int.le_max_right _ _

/-- What would move if words had no bounds. -/
def exactAmount (target source capacity : Int64) : Int :=
  max 0 (min source.toInt (capacity.toInt - target.toInt))

/-- Where the room is in range, the right amount moves. -/
theorem toInt_amount_of_isWord (h : IsWord (capacity.toInt - target.toInt)) :
    (amount target source capacity).toInt = exactAmount target source capacity := by
  rw [toInt_amount, toInt_room_of_isWord h, exactAmount, Int.max_comm]

/-- Nothing moves into too much room. -/
theorem toInt_amount_of_large (h : 9223372036854775807 < capacity.toInt - target.toInt) :
    (amount target source capacity).toInt = 0 := by
  obtain ⟨htarget, -⟩ := isWord_iff.mp (isWord_toInt target)
  obtain ⟨-, hcapacity⟩ := isWord_iff.mp (isWord_toInt capacity)
  rw [toInt_amount, toInt_room_of_large h]
  omega

/-- A target that is over its capacity by too much receives what the source has to give. -/
theorem toInt_amount_pos_of_small (h : capacity.toInt - target.toInt < -9223372036854775808) :
    0 < (amount target source capacity).toInt ↔ 0 < source.toInt := by
  obtain ⟨-, htarget⟩ := isWord_iff.mp (isWord_toInt target)
  obtain ⟨hcapacity, -⟩ := isWord_iff.mp (isWord_toInt capacity)
  rw [toInt_amount, toInt_room_of_small h]
  omega

/-! ## Exactness

    The exact amount is the one that integers without bounds would give. -/

/-- Nothing wraps around in the course of the transfer: neither the room nor what the two registers hold
    afterwards. -/
structure Exact (target source capacity : Int64) : Prop where
  room_isWord : IsWord (capacity.toInt - target.toInt)
  target_isWord : IsWord (target.toInt + (amount target source capacity).toInt)
  source_isWord : IsWord (source.toInt - (amount target source capacity).toInt)

/-- Then the amount is moved as it would be if words had no bounds. -/
theorem Exact.toInt_pour (h : Exact target source capacity) :
    (pour target source capacity).1.toInt =
        target.toInt + exactAmount target source capacity ∧
      (pour target source capacity).2.toInt =
        source.toInt - exactAmount target source capacity := by
  rw [← toInt_amount_of_isWord h.room_isWord]
  exact ⟨toInt_add_of_isWord h.target_isWord, toInt_sub_of_isWord h.source_isWord⟩

/-- Within the capacity it is the lesser of the source and the room. -/
theorem exactAmount_of_le (hroom : target.toInt ≤ capacity.toInt) (hs : 0 ≤ source.toInt) :
    exactAmount target source capacity = min source.toInt (capacity.toInt - target.toInt) := by
  rw [exactAmount]
  omega

/-- There nothing wraps around. -/
theorem exact_of_le (ht : 0 ≤ target.toInt) (hroom : target.toInt ≤ capacity.toInt)
    (hs : 0 ≤ source.toInt) : Exact target source capacity := by
  have hcapacity := capacity.toInt_lt
  have hsource := source.toInt_lt
  have hword : IsWord (capacity.toInt - target.toInt) := isWord_iff.mpr (by omega)
  have hmoved := (toInt_amount_of_isWord hword).trans (exactAmount_of_le hroom hs)
  refine ⟨hword, ?_, ?_⟩
  · rw [isWord_iff]
    omega
  · rw [isWord_iff]
    omega

/-- What moves is the smaller of what the source holds and the room in the target, and none of it is
    lost. -/
theorem toInt_pour (ht : 0 ≤ target.toInt) (hroom : target.toInt ≤ capacity.toInt)
    (hs : 0 ≤ source.toInt) :
    (pour target source capacity).1.toInt =
        target.toInt + min source.toInt (capacity.toInt - target.toInt) ∧
      (pour target source capacity).2.toInt =
        source.toInt - min source.toInt (capacity.toInt - target.toInt) := by
  rw [← exactAmount_of_le hroom hs]
  exact (exact_of_le ht hroom hs).toInt_pour

/-! ## Statement

    The three cases of the room are compared with the amount that would be exact. -/

/-- A transfer leaves the registers as they are only if nothing moves. -/
theorem pour_eq_self_iff :
    pour target source capacity = (target, source) ↔ (amount target source capacity).toInt = 0 := by
  have hzero : (amount target source capacity).toInt = 0 ↔ amount target source capacity = 0 :=
    Int64.toInt_inj (x := amount target source capacity) (y := 0)
  rw [hzero, pour, Prod.mk.injEq, Int64.add_eq_left, and_iff_left_iff_imp]
  intro hamount
  rw [hamount, Int64.sub_zero]

/-- **When a transfer is exact.**  The amount is what it would be if words had no bounds exactly if the
    source has nothing to give or the room is a word.  On the same condition a target at or over its
    capacity receives nothing, and both registers stay as they are. -/
theorem exact_iff (target source capacity : Int64) :
    ((amount target source capacity).toInt = exactAmount target source capacity ↔
        source.toInt ≤ 0 ∨ IsWord (capacity.toInt - target.toInt)) ∧
      (capacity ≤ target →
        (pour target source capacity = (target, source) ↔
          source.toInt ≤ 0 ∨ IsWord (capacity.toInt - target.toInt))) := by
  obtain ⟨-, hsource⟩ := isWord_iff.mp (isWord_toInt source)
  have hexact : (amount target source capacity).toInt = exactAmount target source capacity ↔
      source.toInt ≤ 0 ∨ IsWord (capacity.toInt - target.toInt) := by
    rcases room_cases target capacity with hword | hlarge | hsmall
    · exact iff_of_true (toInt_amount_of_isWord hword) (Or.inr hword)
    · -- all of the source should move, and nothing does
      rw [toInt_amount_of_large hlarge, exactAmount, isWord_iff]
      omega
    · -- nothing should move, and something does
      have hnonneg := amount_nonneg target source capacity
      have hpos : 0 < (amount target source capacity).toInt ↔ 0 < source.toInt :=
        toInt_amount_pos_of_small hsmall
      rw [exactAmount, isWord_iff]
      omega
  refine ⟨hexact, ?_⟩
  intro hfull
  have hle := Int64.le_iff_toInt_le.mp hfull
  -- at or over the capacity there is no room, so exactly nothing should move
  have hnothing : exactAmount target source capacity = 0 := by
    rw [exactAmount]
    omega
  rw [pour_eq_self_iff, ← hexact, hnothing]

/-- A jug of five that holds seven keeps them. -/
theorem overfull_keeps :
    (5 : Int64) ≤ 7 ∧ exactAmount 7 3 5 = 0 ∧ (amount 7 3 5).toInt = 0 ∧ pour 7 3 5 = (7, 3) := by
  obtain ⟨hexact, hfull⟩ := exact_iff 7 3 5
  have hword : IsWord ((5 : Int64).toInt - (7 : Int64).toInt) := by decide
  exact ⟨by decide, by decide, hexact.mpr (Or.inr hword), (hfull (by decide)).mpr (Or.inr hword)⟩

/-- A target that holds one, over the least capacity there is by more than a word, receives all five
    units of the source. -/
theorem overfull_receives :
    (-9223372036854775808 : Int64) ≤ 1 ∧ exactAmount 1 5 (-9223372036854775808) = 0 ∧
      (amount 1 5 (-9223372036854775808)).toInt = 5 ∧ pour 1 5 (-9223372036854775808) = (6, 0) := by
  decide

/-! ## Postconditions

    These are the inequalities that the program asserts of itself after every transfer. -/

/-- A source that holds something gives no more than it holds. -/
theorem amount_le_source (target capacity : Int64) (hs : 0 ≤ source.toInt) :
    (amount target source capacity).toInt ≤ source.toInt := by
  rw [toInt_amount]
  omega

/-- A source in debt gives nothing. -/
theorem toInt_amount_of_nonpos (target capacity : Int64) (hs : source.toInt ≤ 0) :
    (amount target source capacity).toInt = 0 := by
  rw [toInt_amount]
  omega

/-- No more moves than there is room for, be it more than a word. -/
theorem amount_le_room (source : Int64) (hroom : target.toInt ≤ capacity.toInt) :
    (amount target source capacity).toInt ≤ capacity.toInt - target.toInt := by
  rcases room_cases target capacity with hword | hlarge | hsmall
  · rw [toInt_amount_of_isWord hword, exactAmount]
    omega
  · rw [toInt_amount_of_large hlarge]
    omega
  · omega

/-- A target within its capacity gains what moves. -/
theorem toInt_pour_target (source : Int64) (hroom : target.toInt ≤ capacity.toInt) :
    (pour target source capacity).1.toInt =
      target.toInt + (amount target source capacity).toInt := by
  have hnonneg := amount_nonneg target source capacity
  have hle := amount_le_room source hroom
  obtain ⟨hlow, -⟩ := isWord_iff.mp (isWord_toInt target)
  obtain ⟨-, hhigh⟩ := isWord_iff.mp (isWord_toInt capacity)
  exact toInt_add_of_isWord (isWord_iff.mpr (by omega))

/-- A source that is not in debt loses what moves. -/
theorem toInt_pour_source (target capacity : Int64) (hs : 0 ≤ source.toInt) :
    (pour target source capacity).2.toInt =
      source.toInt - (amount target source capacity).toInt := by
  have hnonneg := amount_nonneg target source capacity
  have hle := amount_le_source target capacity hs
  obtain ⟨-, hhigh⟩ := isWord_iff.mp (isWord_toInt source)
  exact toInt_sub_of_isWord (isWord_iff.mpr (by omega))

/-- What the target gains the source loses, be it modulo `2^64`. -/
theorem pour_conserves (target source capacity : Int64) :
    (pour target source capacity).1 + (pour target source capacity).2 = target + source := by
  show target + amount target source capacity + (source - amount target source capacity) = _
  grind

/-- What a transfer asserts of the amount and of its results, in the words it computes with. -/
structure Asserted (target source capacity : Int64) : Prop where
  amount_nonneg : 0 ≤ amount target source capacity
  amount_le : amount target source capacity = 0 ∨ amount target source capacity ≤ source
  conserves : (pour target source capacity).1 + (pour target source capacity).2 = target + source
  target_le : capacity < target ∨ (pour target source capacity).1 ≤ capacity
  source_nonneg : source < 0 ∨ 0 ≤ (pour target source capacity).2

/-- So the assertions hold of all words. -/
theorem asserted (target source capacity : Int64) : Asserted target source capacity := by
  have hnonneg := Transfer.amount_nonneg target source capacity
  constructor
  case amount_nonneg => exact Int64.le_iff_toInt_le.mpr hnonneg
  case amount_le =>
    rcases Int.lt_or_le 0 source.toInt with hpos | hdebt
    · exact Or.inr (Int64.le_iff_toInt_le.mpr (amount_le_source _ _ (Int.le_of_lt hpos)))
    · exact Or.inl (Int64.toInt_inj.mp (toInt_amount_of_nonpos _ _ hdebt))
  case conserves => exact pour_conserves target source capacity
  case target_le =>
    rcases Int.lt_or_le capacity.toInt target.toInt with hover | hroom
    · exact Or.inl (Int64.lt_iff_toInt_lt.mpr hover)
    · have hle := amount_le_room source hroom
      rw [Int64.le_iff_toInt_le, toInt_pour_target source hroom]
      omega
  case source_nonneg =>
    rcases Int.lt_or_le source.toInt 0 with hdebt | hs
    · exact Or.inl (Int64.lt_iff_toInt_lt.mpr hdebt)
    · have hle := amount_le_source target capacity hs
      have hzero : (0 : Int64).toInt = 0 := rfl
      rw [Int64.le_iff_toInt_le, toInt_pour_source target capacity hs]
      omega

/-- **What holds after every transfer**, whatever wraps around.

    1. The two registers hold together what they held before, modulo `2^64`.
    2. A target within its capacity loses nothing and stays within it.
    3. A source that is not in debt gains nothing and is not overdrawn.
    4. A source that has nothing to give leaves both as they are.
    5. Nothing that a transfer asserts of its results can fail.
    6. If the room is a word, the target ends full or the source ends empty. -/
theorem pour_postconditions {target source capacity t s : Int64}
    (h : pour target source capacity = (t, s)) :
    (t.toInt + s.toInt) % 18446744073709551616 =
        (target.toInt + source.toInt) % 18446744073709551616 ∧
      (target ≤ capacity → target ≤ t ∧ t ≤ capacity) ∧
      (0 ≤ source → 0 ≤ s ∧ s ≤ source) ∧
      (source ≤ 0 → t = target ∧ s = source) ∧
      Asserted target source capacity ∧
      (target ≤ capacity → 0 ≤ source → IsWord (capacity.toInt - target.toInt) →
        t = capacity ∨ s = 0) := by
  have ht : (pour target source capacity).1 = t := congrArg Prod.fst h
  have hs : (pour target source capacity).2 = s := congrArg Prod.snd h
  have hzero : (0 : Int64).toInt = 0 := rfl
  have hnonneg := amount_nonneg target source capacity
  simp only [Int64.le_iff_toInt_le, hzero, ← Int64.toInt_inj]
  refine ⟨?_, ?_, ?_, ?_, asserted target source capacity, ?_⟩
  · have hsum := pour_conserves target source capacity
    rw [ht, hs] at hsum
    rw [← toInt_add_emod, hsum, toInt_add_emod]
  · intro hroom
    have hle := amount_le_room source hroom
    have hgain := toInt_pour_target source hroom
    rw [ht] at hgain
    omega
  · intro hheld
    have hle := amount_le_source target capacity hheld
    have hloss := toInt_pour_source target capacity hheld
    rw [hs] at hloss
    omega
  · intro hdebt
    have hsame := pour_eq_self_iff.mpr (toInt_amount_of_nonpos target capacity hdebt)
    obtain ⟨rfl, rfl⟩ := Prod.mk.inj (h.symm.trans hsame)
    exact ⟨rfl, rfl⟩
  · intro hroom hheld hword
    have hgain := toInt_pour_target source hroom
    have hloss := toInt_pour_source target capacity hheld
    -- here the amount is the lesser of the room and the source, so one of the two is used up
    have hmoved := (toInt_amount_of_isWord hword).trans (exactAmount_of_le hroom hheld)
    rw [ht] at hgain
    rw [hs] at hloss
    omega

/-- A jug that holds four of its five takes one more from a jug of three.  Into room for more than a word
    nothing moves. -/
theorem four_of_five_postconditions :
    pour 4 3 5 = (5, 2) ∧ ((4 : Int64) ≤ 5 ∧ (0 : Int64) ≤ 3) ∧
      IsWord ((5 : Int64).toInt - (4 : Int64).toInt) ∧ ((5 : Int64) = 5 ∨ (2 : Int64) = 0) ∧
      pour (-1) 9 9223372036854775807 = (-1, 9) ∧
      (-1 : Int64) ≤ -1 ∧ (-1 : Int64) ≤ 9223372036854775807 := by
  have hfits : IsWord ((5 : Int64).toInt - (4 : Int64).toInt) := by decide
  have hpour : pour 4 3 5 = (5, 2) := by decide
  have hwrapped : pour (-1) 9 9223372036854775807 = (-1, 9) := by decide
  obtain ⟨-, -, -, -, -, hends⟩ := pour_postconditions hpour
  obtain ⟨-, hwithin, -⟩ := pour_postconditions hwrapped
  exact ⟨hpour, by decide, hfits, hends (by decide) (by decide) hfits, hwrapped,
    hwithin (by decide)⟩

end Transfer

end GuardedReach
