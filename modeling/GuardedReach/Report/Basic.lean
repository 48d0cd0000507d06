/-
  Reports — what is kept of an ended search: its outcome and counters, with the names to show them.
-/
import GuardedReach.Search.Run

namespace GuardedReach

/-- What is kept of an ended search. -/
structure Report where
  /-- The name of the puzzle. -/
  puzzle : String
  registerNames : List String
  /-- The goal in words. -/
  target : String
  outcome : Outcome
  stats : Stats
deriving DecidableEq

/-- A report on a search with the counters as they stand. -/
def Explorer.report (e : Explorer) (puzzle : String) (outcome : Outcome) : Report :=
  { puzzle
    registerNames := e.system.registerNames
    target := e.goal.text
    outcome
    stats := e.stats }

end GuardedReach
