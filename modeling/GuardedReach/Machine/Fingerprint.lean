/-
  Fingerprints — the 64-bit content hash under which a search files the states it has seen.

  1. **Program** — `fnv1a bytes` folds a byte string into a 64-bit word, starting from
     `fnvBasis`: each byte is exclusive-ored into the word, which is then multiplied by the odd
     constant `fnvPrime` modulo `2^64`.  The order of the two operations is what tells FNV-1a from
     FNV-1.

  2. **Order** — `Fingerprint` is ordered as the unsigned word it wraps, and that order is lawful
     (`TransOrd`, `LawfulEqOrd`), so fingerprints can key an ordered map whose listing is
     increasing.

  3. **Text** — a fingerprint is shown as exactly 16 lower-case hexadecimal digits, most
     significant first.
-/
import Std.Data.TreeMap

namespace GuardedReach

/-! ## The byte hash

    FNV-1a with the constants for 64 bits. -/

/-- The word every hash starts from. -/
def fnvBasis : UInt64 := 0xcbf29ce484222325

/-- The odd multiplier, `2^40 + 2^8 + 0xb3`.  Being odd it is invertible modulo `2^64`. -/
def fnvPrime : UInt64 := 0x100000001b3

/-- One byte is exclusive-ored in, then the word is multiplied. -/
def fnvStep (hash : UInt64) (byte : UInt8) : UInt64 :=
  (hash ^^^ byte.toUInt64) * fnvPrime

/-- **The program**: the 64-bit FNV-1a hash of a byte string. -/
def fnv1a (bytes : List UInt8) : UInt64 :=
  bytes.foldl fnvStep fnvBasis

/-- Hashing a longer string continues from the hash of its first part. -/
theorem fnv1a_append (front back : List UInt8) :
    fnv1a (front ++ back) = back.foldl fnvStep (fnv1a front) := by
  simp [fnv1a]

/-! ## Fingerprints and their order

    A fingerprint is a hash that is no longer computed with, only compared. -/

/-- A 64-bit content hash that stands for a state.  Equal states have equal fingerprints; distinct
    states may share one. -/
structure Fingerprint where
  hash : UInt64
deriving DecidableEq

namespace Fingerprint

/-- Fingerprints are ordered as unsigned words. -/
instance : Ord Fingerprint := ⟨fun a b => compare a.hash b.hash⟩

theorem compare_eq (a b : Fingerprint) : compare a b = compare a.hash b.hash := rfl

instance : Std.TransOrd Fingerprint where
  eq_swap {a b} := Std.OrientedOrd.eq_swap (a := a.hash) (b := b.hash)
  isLE_trans {a b c} := Std.TransOrd.isLE_trans (a := a.hash) (b := b.hash) (c := c.hash)

instance : Std.LawfulEqOrd Fingerprint where
  compare_self {a} := Std.ReflOrd.compare_self (a := a.hash)
  eq_of_compare {a b} h := by
    rw [compare_eq] at h
    cases a; cases b
    simpa using Std.LawfulEqOrd.eq_of_compare h

/-! ## Text

    Sixteen digits, so that fingerprints line up. -/

/-- The hexadecimal digit at place `place` of a word, place 0 being the least significant. -/
def hexDigitAt (word : UInt64) (place : Nat) : Char :=
  (word.toNat >>> (4 * place) % 16).digitChar

/-- Sixteen lower-case hexadecimal digits, most significant first. -/
def text (fp : Fingerprint) : String :=
  String.ofList ((List.range 16).reverse.map (hexDigitAt fp.hash))

end Fingerprint

/-! ## Running the program

    The hash of nothing, of one letter and of a longer text. -/

example : fnv1a [] = fnvBasis := rfl
example : fnv1a [0x61] = 0xaf63dc4c8601ec8c := by decide
example : (Fingerprint.mk 0xab).text = "00000000000000ab" := by decide

end GuardedReach
