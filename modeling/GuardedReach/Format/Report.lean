/-
  How witnesses, outcomes and reports are written as JSON.

  An outcome is an object whose member `status` names it; a witness found adds its fields to the
  same object.  Because the status may stand anywhere among the members, an outcome is read whole
  before it is understood, and everything in it must be fit to be held (`Json.isHoldable`), also
  what is then passed over.  It may be written as an array as well, the status first.
-/
import GuardedReach.Format.Machine
import GuardedReach.Json.Printer
import GuardedReach.Json.Reader
import GuardedReach.Report.Basic

namespace GuardedReach

namespace Fingerprint

/-- A fingerprint is written as its hash, an unsigned integer. -/
def toJson (fp : Fingerprint) : Json :=
  .ofNat fp.hash.toNat

/-- It is decoded from any number of 64 bits. -/
def ofJson? (value : Json) : Option Fingerprint :=
  value.uint64?.map Fingerprint.mk

end Fingerprint

namespace Step

/-- A step is written with its action, null where none led to it. -/
def toJson (step : Step) : Json :=
  .record
    [("action", step.action.elim .null .ofString), ("state", step.state.toJson),
      ("fingerprint", step.fingerprint.toJson)]

/-- The action may be left out when reading, and then there is none. -/
def ofJson? (value : Json) : Option Step := do
  let fields ← value.record? ["action", "state", "fingerprint"]
  return {
    action := ← Json.optional fields "action" none (Json.nullable? Json.string?)
    state := ← Json.required fields "state" State.ofJson?
    fingerprint := ← Json.required fields "fingerprint" Fingerprint.ofJson? }

end Step

namespace Witness

/-- A witness is a record of one field, its steps. -/
def toJson (w : Witness) : Json :=
  .record [("steps", .ofList Step.toJson w.steps)]

/-- Reads a witness, alone or as what is left of an outcome. -/
def ofJson? (value : Json) : Option Witness := do
  let fields ← value.record? ["steps"]
  return { steps := ← Json.required fields "steps" (Json.list? Step.ofJson?) }

end Witness

namespace Outcome

/-- The name that tells one outcome from another. -/
def statusName : Outcome → String
  | found _ => "found"
  | exhausted => "exhausted"
  | truncated => "truncated"

/-- An outcome is written with its status first, and a witness with the same members that it has alone. -/
def toJson (outcome : Outcome) : Json :=
  let status := ("status", Json.ofString outcome.statusName)
  match outcome with
  | found w => .record [status, ("steps", .ofList Step.toJson w.steps)]
  | exhausted | truncated => .record [status]

/-- Whether a member of an outcome is its status. -/
def isStatus (member : JsonText × Json) : Bool :=
  member.1 = some "status"

/-- Reads an outcome around which `levels` containers may be nested, itself included. -/
def ofJson? (levels : Nat) (value : Json) : Option Outcome :=
  if value.isHoldable levels then
    match value with
    | .object members =>
      match members.filter isStatus with
      | [(_, .string (some "found"))] =>
        (Witness.ofJson? (.object (members.filter fun member => !isStatus member))).map found
      | [(_, .string (some "exhausted"))] => some exhausted
      | [(_, .string (some "truncated"))] => some truncated
      | _ => none
    | .array (.string (some "found") :: rest) => (Witness.ofJson? (.array rest)).map found
    | .array [.string (some "exhausted")] => some exhausted
    | .array [.string (some "truncated")] => some truncated
    | _ => none
  else none

end Outcome

namespace Stats

/-- All counters are written, also those that are zero. -/
def toJson (stats : Stats) : Json :=
  .record
    [("states_discovered", .ofNat stats.discovered), ("states_expanded", .ofNat stats.expanded),
      ("actions_tried", .ofNat stats.tried), ("actions_applied", .ofNat stats.applied),
      ("duplicates_skipped", .ofNat stats.duplicates), ("collisions", .ofNat stats.collisions),
      ("max_depth", .ofNat stats.maxDepth.toNat), ("frontier_peak", .ofNat stats.frontierPeak)]

/-- Every counter has to be there, and within its range. -/
def ofJson? (value : Json) : Option Stats := do
  let fields ← value.record?
    ["states_discovered", "states_expanded", "actions_tried", "actions_applied",
      "duplicates_skipped", "collisions", "max_depth", "frontier_peak"]
  return {
    discovered := ← Json.required fields "states_discovered" Json.count?
    expanded := ← Json.required fields "states_expanded" Json.count?
    tried := ← Json.required fields "actions_tried" Json.count?
    applied := ← Json.required fields "actions_applied" Json.count?
    duplicates := ← Json.required fields "duplicates_skipped" Json.count?
    collisions := ← Json.required fields "collisions" Json.count?
    maxDepth := ← Json.required fields "max_depth" Json.uint32?
    frontierPeak := ← Json.required fields "frontier_peak" Json.count? }

end Stats

namespace Report

/-- How deep the containers of a text may be nested where its values have to be held. -/
def levelLimit : Nat := 127

/-- A report, with its outcome and its counters nested in it. -/
def toJson (report : Report) : Json :=
  .record
    [("puzzle", .ofString report.puzzle),
      ("register_names", .ofList Json.ofString report.registerNames),
      ("target", .ofString report.target), ("outcome", report.outcome.toJson),
      ("stats", report.stats.toJson)]

/-- Reads a report.  Its outcome lies one level down. -/
def ofJson? (value : Json) : Option Report := do
  let fields ← value.record? ["puzzle", "register_names", "target", "outcome", "stats"]
  return {
    puzzle := ← Json.required fields "puzzle" Json.string?
    registerNames := ← Json.required fields "register_names" (Json.list? Json.string?)
    target := ← Json.required fields "target" Json.string?
    outcome := ← Json.required fields "outcome" (Outcome.ofJson? (levelLimit - 1))
    stats := ← Json.required fields "stats" Stats.ofJson? }

end Report

end GuardedReach
