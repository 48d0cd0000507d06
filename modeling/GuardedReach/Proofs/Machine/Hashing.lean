/-
  Hashing — collisions that the fingerprint rules out.

  Fingerprints can collide.  But a step of the hash loses nothing: exclusive or with a byte can be undone,
  and so can the multiplication, whose factor is odd (`fnvPrime_mul_inverse`).

  1. **Steps** — a step tells words apart (`fnvStep_inj`), and from one word it tells bytes apart
     (`fnvStep_byte_inj`).

  2. **Byte strings** — so what follows neither makes nor breaks a collision (`fnv1a_append_inj`), by
     induction over what follows, and one byte changed changes the hash (`fnv1a_ne_of_byte`).

  3. **States** — a state is hashed register by register, out of a buffer for a full file that is cut where
     its registers end (`take_buffer`).  States that differ in one byte of one register differ in one byte of
     the string (`exists_bytes_of_differOnlyAt`), and registers appended are bytes appended
     (`bytes_append`).

  4. **Statement** — `State.fingerprint_noncollisions`.
-/
import GuardedReach.Machine.State

namespace GuardedReach

/-! ## Steps

    One byte is taken in by two operations, each of which has an inverse. -/

/-- The inverse of the multiplier modulo `2^64`. -/
def fnvInverse : UInt64 := 0xce965057aff6957b

/-- The factor is odd, so it has an inverse modulo `2^64`, -/
theorem fnvPrime_mul_inverse : fnvPrime * fnvInverse = 1 := by decide

/-- and multiplying by it loses nothing. -/
theorem mul_fnvPrime_inj {a b : UInt64} : a * fnvPrime = b * fnvPrime ↔ a = b := by
  have hundo : ∀ c : UInt64, c * fnvPrime * fnvInverse = c := by
    intro c
    rw [UInt64.mul_assoc, fnvPrime_mul_inverse, UInt64.mul_one]
  constructor
  · intro h
    calc
      a = a * fnvPrime * fnvInverse := (hundo a).symm
      _ = b * fnvPrime * fnvInverse := by rw [h]
      _ = b := hundo b
  · intro h
    rw [h]

/-- The same byte taken in keeps words apart, -/
theorem fnvStep_inj {a b : UInt64} {byte : UInt8} : fnvStep a byte = fnvStep b byte ↔ a = b := by
  unfold fnvStep
  rw [mul_fnvPrime_inj, UInt64.xor_left_inj]

/-- and two bytes taken into the same word make two words. -/
theorem fnvStep_byte_inj {hash : UInt64} {x y : UInt8} :
    fnvStep hash x = fnvStep hash y ↔ x = y := by
  unfold fnvStep
  rw [mul_fnvPrime_inj, UInt64.xor_right_inj, UInt8.toUInt64_inj]

/-! ## Byte strings

    A hash is a fold of steps, so what holds of a step holds behind any beginning and before any end. -/

/-- The same bytes taken in, however many, keep words apart. -/
theorem foldl_fnvStep_inj {a b : UInt64} (bytes : List UInt8) :
    bytes.foldl fnvStep a = bytes.foldl fnvStep b ↔ a = b := by
  induction bytes generalizing a b with
  | nil => exact Iff.rfl
  | cons byte bytes ih => rw [List.foldl_cons, List.foldl_cons, ih, fnvStep_inj]

/-- Strings collide exactly if they do when the same bytes follow. -/
theorem fnv1a_append_inj (a b c : List UInt8) :
    fnv1a (a ++ c) = fnv1a (b ++ c) ↔ fnv1a a = fnv1a b := by
  rw [fnv1a_append, fnv1a_append, foldl_fnvStep_inj]

/-- Strings that differ in one byte never collide. -/
theorem fnv1a_ne_of_byte (front back : List UInt8) {x y : UInt8} (hne : x ≠ y) :
    fnv1a (front ++ x :: back) ≠ fnv1a (front ++ y :: back) := by
  rw [fnv1a_append, fnv1a_append, List.foldl_cons, List.foldl_cons, Ne, foldl_fnvStep_inj,
    fnvStep_byte_inj]
  exact hne

/-! ## States

    The string of a state is as long as the state is wide, and its registers stand in it one behind the
    other. -/

/-- The lists differ at the position and nowhere else. -/
def DifferOnlyAt {α : Type} (xs ys : List α) (position : Nat) : Prop :=
  xs[position]? ≠ ys[position]? ∧ ∀ i, i ≠ position → xs[i]? = ys[i]?

/-- Two lists that are the same around one place differ there only. -/
theorem differOnlyAt_append {α : Type} (front back : List α) {x y : α} (hne : x ≠ y) :
    DifferOnlyAt (front ++ x :: back) (front ++ y :: back) front.length := by
  refine ⟨by simpa using hne, ?_⟩
  intro i hi
  rcases Nat.lt_or_gt_of_ne hi with hlt | hgt
  · rw [List.getElem?_append_left hlt, List.getElem?_append_left hlt]
  · obtain ⟨j, rfl⟩ := Nat.exists_eq_add_of_lt hgt
    rw [List.getElem?_append_right (by omega), List.getElem?_append_right (by omega),
      show front.length + j + 1 - front.length = j + 1 by omega, List.getElem?_cons_succ,
      List.getElem?_cons_succ]

/-- Lists of one length that differ at one position have the same before it and behind it. -/
theorem DifferOnlyAt.exists_split {α : Type} {xs ys : List α} {position : Nat}
    (h : DifferOnlyAt xs ys position) (hlen : xs.length = ys.length) :
    ∃ front x y back, xs = front ++ x :: back ∧ ys = front ++ y :: back ∧
      xs[position]? = some x ∧ ys[position]? = some y ∧ x ≠ y := by
  obtain ⟨hne, hsame⟩ := h
  -- past the end of both there is nothing that could differ
  by_cases hxs : position < xs.length
  · have hys : position < ys.length := hlen ▸ hxs
    have hfront : xs.take position = ys.take position := by
      refine List.ext_getElem? fun i => ?_
      rw [List.getElem?_take, List.getElem?_take]
      split
      · next hi => exact hsame i (Nat.ne_of_lt hi)
      · rfl
    have hback : xs.drop (position + 1) = ys.drop (position + 1) := by
      refine List.ext_getElem? fun i => ?_
      rw [List.getElem?_drop, List.getElem?_drop]
      exact hsame _ (by omega)
    refine ⟨xs.take position, xs[position], ys[position], xs.drop (position + 1), ?_, ?_, ?_, ?_, ?_⟩
    · rw [List.getElem_cons_drop, List.take_append_drop]
    · rw [hfront, hback, List.getElem_cons_drop, List.take_append_drop]
    · exact List.getElem?_eq_getElem hxs
    · exact List.getElem?_eq_getElem hys
    · rwa [List.getElem?_eq_getElem hxs, List.getElem?_eq_getElem hys, Ne, Option.some_inj] at hne
  · rw [List.getElem?_eq_none (by omega), List.getElem?_eq_none (by omega)] at hne
    exact absurd rfl hne

/-- To go through a list by its positions is to go through it. -/
theorem flatMap_range_getElem? {α β : Type} (f : α → List β) (other : List β) (xs : List α) :
    ((List.range xs.length).flatMap fun i => (xs[i]?).elim other f) = xs.flatMap f := by
  induction xs with
  | nil => rfl
  | cons x xs ih =>
    rw [List.length_cons, List.range_succ_eq_map, List.flatMap_cons, List.flatMap_map, List.flatMap_cons,
      ← ih]
    rfl

namespace State

variable {s t : State}

/-- A buffer with eight bytes for every cell of a full file: those of the active registers, and zeros for
    the others. -/
def buffer (s : State) : List UInt8 :=
  (List.range registerCapacity).flatMap fun i => (s.get? i).elim (List.replicate 8 0) littleEndian

theorem length_bytes (s : State) : s.bytes.length = 8 * s.width := by
  have hword : ∀ v ∈ s.active, (littleEndian v).length = 8 := fun _ _ => rfl
  rw [bytes, List.length_flatMap, List.map_congr_left hword, List.map_const', List.sum_replicate_nat,
    length_active, Nat.mul_comm]

/-- The buffer begins with the bytes of the active registers. -/
theorem take_buffer (s : State) : s.buffer.take (8 * s.width) = s.bytes := by
  have hrange : List.range registerCapacity =
      List.range s.width ++ (List.range (registerCapacity - s.width)).map (s.width + ·) := by
    rw [← List.range_add, Nat.add_sub_cancel' s.width_le]
  have hactive : ((List.range s.width).flatMap fun i =>
      (s.get? i).elim (List.replicate 8 0) littleEndian) = s.bytes := by
    simp only [← getElem?_active]
    rw [← length_active]
    exact flatMap_range_getElem? littleEndian _ s.active
  rw [buffer, hrange, List.flatMap_append, hactive, List.take_left' s.length_bytes]

/-- What is appended to the registers is appended to the bytes. -/
theorem bytes_append {more : List Int64} (h : t.active = s.active ++ more) :
    t.bytes = s.bytes ++ more.flatMap littleEndian := by
  unfold bytes
  rw [h, List.flatMap_append]

/-- States that differ in one byte of one register differ in one byte of their strings. -/
theorem exists_bytes_of_differOnlyAt {i k : Nat} {u v : Int64} (hw : s.width = t.width)
    (hregister : DifferOnlyAt s.active t.active i) (hs : s.get? i = some u) (ht : t.get? i = some v)
    (hbyte : DifferOnlyAt (littleEndian u) (littleEndian v) k) :
    ∃ front x y back, s.bytes = front ++ x :: back ∧ t.bytes = front ++ y :: back ∧ x ≠ y := by
  obtain ⟨before, u', v', after, hactive, hactive', hu, hv, -⟩ := hregister.exists_split (by simp [hw])
  rw [getElem?_active] at hu hv
  obtain rfl := Option.some.inj (hs.symm.trans hu)
  obtain rfl := Option.some.inj (ht.symm.trans hv)
  obtain ⟨low, x, y, high, hlow, hlow', -, -, hne⟩ := hbyte.exists_split rfl
  refine ⟨before.flatMap littleEndian ++ low, x, y, high ++ after.flatMap littleEndian, ?_, ?_, hne⟩
  · unfold bytes
    rw [hactive, List.flatMap_append, List.flatMap_cons, hlow]
    simp only [List.append_assoc, List.cons_append]
  · unfold bytes
    rw [hactive', List.flatMap_append, List.flatMap_cons, hlow']
    simp only [List.append_assoc, List.cons_append]

/-- Two states collide exactly if their strings do. -/
theorem fingerprint_eq_iff : s.fingerprint = t.fingerprint ↔ fnv1a s.bytes = fnv1a t.bytes := by
  unfold fingerprint
  rw [Fingerprint.mk.injEq]

/-! ## Statement

    What is known never to collide.  Of states that differ in more than a byte nothing is said, for they
    may. -/

/-- **Collisions that there are not.**

    1. Byte strings that differ in a single byte have different hashes.
    2. When the same bytes follow, two strings collide exactly if they did.
    3. The fingerprint of a state is the hash of its buffer, as far as the active registers go.
    4. States of one width that differ in one register, and there in one byte, have different
       fingerprints.
    5. When the same registers are appended, two states collide exactly if they did, whatever their
       widths. -/
theorem fingerprint_noncollisions :
    (∀ (front back : List UInt8) (x y : UInt8), x ≠ y →
      fnv1a (front ++ x :: back) ≠ fnv1a (front ++ y :: back)) ∧
    (∀ a b c : List UInt8, fnv1a (a ++ c) = fnv1a (b ++ c) ↔ fnv1a a = fnv1a b) ∧
    (∀ s : State, s.fingerprint = ⟨fnv1a (s.buffer.take (8 * s.width))⟩) ∧
    (∀ (s t : State) (i k : Nat) (u v : Int64), s.width = t.width →
      DifferOnlyAt s.active t.active i → s.get? i = some u → t.get? i = some v →
      DifferOnlyAt (littleEndian u) (littleEndian v) k → s.fingerprint ≠ t.fingerprint) ∧
    ∀ (s t s' t' : State) (more : List Int64), s'.active = s.active ++ more →
      t'.active = t.active ++ more →
      (s'.fingerprint = t'.fingerprint ↔ s.fingerprint = t.fingerprint) := by
  refine ⟨fun front back x y hne => fnv1a_ne_of_byte front back hne, fnv1a_append_inj, ?_, ?_, ?_⟩
  · intro s
    rw [take_buffer, fingerprint]
  · intro s t i k u v hw hregister hs ht hbyte
    obtain ⟨front, x, y, back, hbytes, hbytes', hne⟩ :=
      exists_bytes_of_differOnlyAt hw hregister hs ht hbyte
    rw [Ne, fingerprint_eq_iff, hbytes, hbytes']
    exact fnv1a_ne_of_byte front back hne
  · intro s t s' t' more hs ht
    rw [fingerprint_eq_iff, fingerprint_eq_iff, bytes_append hs, bytes_append ht, fnv1a_append_inj]

/-- Four and two hundred and sixty differ in their second byte, and so do the fingerprints of states that
    hold them.  Two states that do collide still do when a register is appended to both. -/
theorem colliding_noncollisions :
    ∃ s t u v u' v' : State, s.active = [3, 4] ∧ t.active = [3, 260] ∧
      s.fingerprint ≠ t.fingerprint ∧
      u.active = [2073202302234155118, 5849824808168395104] ∧
      v.active = [4067450386220341358, 6643862612660324397] ∧ u.fingerprint = v.fingerprint ∧
      u'.active = u.active ++ [7] ∧ v'.active = v.active ++ [7] ∧ u'.fingerprint = v'.fingerprint ∧
      fnv1a [1, 0, 9] ≠ fnv1a [1, 128, 9] := by
  let s : State := ⟨2, #v[3, 4, 0, 0, 0, 0, 0, 0], by decide, by decide, by decide⟩
  let t : State := ⟨2, #v[3, 260, 0, 0, 0, 0, 0, 0], by decide, by decide, by decide⟩
  let u : State := ⟨2, #v[2073202302234155118, 5849824808168395104, 0, 0, 0, 0, 0, 0], by decide,
    by decide, by decide⟩
  let v : State := ⟨2, #v[4067450386220341358, 6643862612660324397, 0, 0, 0, 0, 0, 0], by decide,
    by decide, by decide⟩
  let u' : State := ⟨3, #v[2073202302234155118, 5849824808168395104, 7, 0, 0, 0, 0, 0], by decide,
    by decide, by decide⟩
  let v' : State := ⟨3, #v[4067450386220341358, 6643862612660324397, 7, 0, 0, 0, 0, 0], by decide,
    by decide, by decide⟩
  obtain ⟨hbytes, -, -, hregisters, happended⟩ := fingerprint_noncollisions
  have hcollide : u.fingerprint = v.fingerprint := by decide +kernel
  have hregister : DifferOnlyAt s.active t.active 1 := differOnlyAt_append [3] [] (by decide)
  have hbyte : DifferOnlyAt (littleEndian 4) (littleEndian 260) 1 :=
    differOnlyAt_append [4] [0, 0, 0, 0, 0, 0] (by decide)
  exact ⟨s, t, u, v, u', v', by decide, by decide,
    hregisters s t 1 1 4 260 rfl hregister (by decide) (by decide) hbyte, by decide, by decide,
    hcollide, by decide, by decide,
    (happended u v u' v' [7] (by decide) (by decide)).mpr hcollide,
    hbytes [1] [9] 0 128 (by decide)⟩

end State

end GuardedReach
