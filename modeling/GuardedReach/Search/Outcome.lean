/-
  How a search stands and what it has counted.

  `Status` is where a search is in its life, `Outcome` what it gives when it has ended, and `Stats`
  the counters it keeps.  Counts are exact natural numbers; a level is a 32-bit word, as it is in
  the links.
-/
import GuardedReach.Search.Witness

namespace GuardedReach

/-- Where a search is in its life. -/
inductive Status where
  | running
  /-- The goal holds at this fingerprint. -/
  | found (goal : Fingerprint)
  /-- Every state reached was expanded and none satisfies the goal. -/
  | exhausted
  /-- The state budget dropped successors, and no state queued satisfies the goal. -/
  | truncated
deriving DecidableEq

/-- Whether the search has ended. -/
def Status.isTerminal : Status → Bool
  | running => false
  | found _ | exhausted | truncated => true

/-- What an ended search gives. -/
inductive Outcome where
  | found (witness : Witness)
  | exhausted
  | truncated
deriving DecidableEq

def Outcome.witness? : Outcome → Option Witness
  | found witness => some witness
  | exhausted | truncated => none

def Outcome.isFound : Outcome → Bool
  | found _ => true
  | exhausted | truncated => false

/-- What a search has counted. -/
structure Stats where
  /-- Distinct fingerprints recorded, the initial one included. -/
  discovered : Nat
  /-- States taken from the frontier, found not to be goals, and expanded. -/
  expanded : Nat
  /-- Actions tried on states. -/
  tried : Nat
  /-- Actions tried that were not refused. -/
  applied : Nat
  /-- Successors whose fingerprint was known already. -/
  duplicates : Nat
  /-- Those of them that differ from the state stored under that fingerprint. -/
  collisions : Nat
  /-- The deepest level recorded. -/
  maxDepth : UInt32
  /-- The largest length of the frontier. -/
  frontierPeak : Nat
deriving DecidableEq

/-- The counters before anything has been counted. -/
def Stats.zero : Stats :=
  { discovered := 0, expanded := 0, tried := 0, applied := 0, duplicates := 0, collisions := 0,
    maxDepth := 0, frontierPeak := 0 }

end GuardedReach
