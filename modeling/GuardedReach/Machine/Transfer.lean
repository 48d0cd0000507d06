/-
  Bounded transfers — pouring one register into another that has a capacity.

  The amount that moves is the smaller of what the source holds and the room left in the target,
  and never less than nothing.  All arithmetic is modulo `2^64`, the room included: a capacity and
  a target of opposite signs may be so far apart that the room wraps.
-/

namespace GuardedReach

namespace Transfer

/-- The room left under `capacity`, modulo `2^64`. -/
def room (target capacity : Int64) : Int64 :=
  capacity - target

/-- How much flows from `source` into `target` when `target` may hold at most `capacity`. -/
def amount (target source capacity : Int64) : Int64 :=
  max (min source (room target capacity)) 0

/-- **The program**: the new target and the new source. -/
def pour (target source capacity : Int64) : Int64 × Int64 :=
  let moved := amount target source capacity
  (target + moved, source - moved)

/-! ## Running the program -/

example : pour 4 3 5 = (5, 2) := by decide
example : pour 7 3 5 = (7, 3) := by decide
example : amount (-1) 9 9223372036854775807 = 0 := by decide

end Transfer

end GuardedReach
