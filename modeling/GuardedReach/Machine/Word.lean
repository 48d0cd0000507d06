/-
  Words — the integers that a register can hold.

  A register holds a signed 64-bit word.  Where an integer of any size is read, from a file or from
  the command line, `wordOfInt?` takes those in range and refuses the others; what was a word before
  comes back unchanged (`wordOfInt?_toInt`).
-/

namespace GuardedReach

/-- The word with a given value, if it is in range. -/
def wordOfInt? (value : Int) : Option Int64 :=
  if Int64.minValue.toInt ≤ value ∧ value ≤ Int64.maxValue.toInt then some (Int64.ofInt value)
  else none

/-- Every word is in range and is told by its value. -/
theorem wordOfInt?_toInt (word : Int64) : wordOfInt? word.toInt = some word := by
  have hl : Int64.minValue.toInt ≤ word.toInt := Int64.le_iff_toInt_le.mp (Int64.minValue_le word)
  have hu : word.toInt ≤ Int64.maxValue.toInt := Int64.le_iff_toInt_le.mp (Int64.le_maxValue word)
  rw [wordOfInt?, if_pos ⟨hl, hu⟩, Int64.ofInt_toInt]

end GuardedReach
