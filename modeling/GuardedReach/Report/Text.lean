/-
  Reports for people.

  A text is a list of lines, each of which is ended by a line feed (`unlines`).  A witness takes one
  line for each of its states; a report frames it with a heading, the verdict and the counters.

  ```text
     0. (initial)        small=0 big=0
     1. FillBig          small=0 big=5
  ```
-/
import GuardedReach.Report.Basic

namespace GuardedReach

/-! ## Lines

    A report is a list of lines until it is printed, and only printing ends them. -/

/-- The lines one after another, each with a line feed at its end. -/
def unlines (lines : List String) : String :=
  String.join (lines.map fun line => line ++ "\n")

/-- Blanks put in front make the text at least `width` characters long. -/
def padLeft (width : Nat) (text : String) : String :=
  String.ofList (List.replicate (width - text.length) ' ') ++ text

/-- Blanks put behind make the text at least `width` characters long. -/
def padRight (width : Nat) (text : String) : String :=
  text ++ String.ofList (List.replicate (width - text.length) ' ')

/-! ## Witnesses

    One line for each state, with the action that led to it and the registers by name. -/

/-- A register's name, or its number where there is no name for it, and its value. -/
def registerText (names : List String) (index : Nat) (value : Int64) : String :=
  names.getD index ("r" ++ index.repr) ++ "=" ++ value.toInt.repr

/-- The active registers of a state. -/
def registersText (names : List String) (s : State) : String :=
  " ".intercalate (s.active.mapIdx (registerText names))

/-- The line for the state at a position. -/
def Step.line (names : List String) (position : Nat) (step : Step) : String :=
  "  " ++ padLeft 2 position.repr ++ ". " ++ padRight 16 (step.action.getD "(initial)") ++ " " ++
    registersText names step.state

/-- One line for each state. -/
def Witness.lines (names : List String) (w : Witness) : List String :=
  w.steps.mapIdx (Step.line names)

/-- The text of a witness. -/
def Witness.text (names : List String) (w : Witness) : String :=
  unlines (w.lines names)

/-! ## Reports

    A frame of fixed lines, with the texts of the puzzle and the counters in between. -/

namespace Report

/-- The line that frames the title, and that a report ends with. -/
def rule : String :=
  "═══════════════════════════════════════════════════════════════════════"

/-- The heading over the counters, -/
def statsHeading : String :=
  "─── Search Statistics ─────────────────────────────────────────────────"

/-- the heading over a witness, -/
def witnessHeading : String :=
  "─── Witness ───────────────────────────────────────────────────────────"

/-- and the one that stands there if there is none. -/
def noWitnessHeading : String :=
  "─── No Witness ────────────────────────────────────────────────────────"

/-- The sentence of a report without a witness. -/
def noWitnessSentence : String :=
  "No reachable state satisfies the target."

/-- The verdict in words. -/
def verdict : Outcome → String
  | .found witness => "found in " ++ witness.actionCount.repr ++ " actions"
  | .exhausted => "unreachable (space exhausted)"
  | .truncated => "unknown (state budget reached)"

/-- What was searched, and what came of it. -/
def headerLines (report : Report) : List String :=
  [ rule,
    "  Register Search Report: " ++ report.puzzle,
    rule,
    "",
    "Registers:              " ++ ", ".intercalate report.registerNames,
    "Target:                 " ++ report.target,
    "Result:                 " ++ verdict report.outcome,
    "" ]

/-- The counters; collisions are mentioned only if there were any. -/
def statsLines (stats : Stats) : List String :=
  [ statsHeading,
    "States discovered:      " ++ stats.discovered.repr,
    "States expanded:        " ++ stats.expanded.repr,
    "Actions applied:        " ++ stats.applied.repr ++ " / " ++ stats.tried.repr ++ " tried",
    "Duplicates skipped:     " ++ stats.duplicates.repr,
    "Max depth:              " ++ stats.maxDepth.toNat.repr,
    "Frontier peak:          " ++ stats.frontierPeak.repr ] ++
  (if 0 < stats.collisions then ["Hash collisions:        " ++ stats.collisions.repr] else []) ++
  [""]

/-- The witness under its heading, or that there is none. -/
def witnessLines (report : Report) : List String :=
  match report.outcome with
  | .found witness => witnessHeading :: witness.lines report.registerNames ++ [""]
  | .exhausted | .truncated => [noWitnessHeading, noWitnessSentence, ""]

/-- All lines of a report, from the header to the witness. -/
def lines (report : Report) : List String :=
  report.headerLines ++ statsLines report.stats ++ report.witnessLines ++ [rule]

/-- The text of a report. -/
def text (report : Report) : String :=
  unlines report.lines

end Report

end GuardedReach
