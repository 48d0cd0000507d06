/-
  Reports read back — a report is decoded from its text as it was written, however long its witness.

  1. **Witnesses** — fingerprints are written as unsigned integers and registers as signed ones, both in
     full; a step that no action led to is written with null for an action.

  2. **Outcomes** — an outcome is held whole before its status is looked at.  Its containers are nested
     four deep at most, and its numbers have at most 64 bits, so it always can be held
     (`Outcome.isHoldable_toJson`).  Without its status an outcome found is the record of its witness.

  3. **Statement** — `Report.reads_back`, for reports whose counters fit into 64 bits, and for all
     outcomes and witnesses.
-/
import GuardedReach.Format.Report
import GuardedReach.Proofs.Format.Fields
import GuardedReach.Proofs.Json.Held
import GuardedReach.Proofs.Json.RoundTrip

namespace GuardedReach

/-! ## Witnesses

    Nothing is held in between here: fingerprints, steps and witnesses are decoded straight from their
    fields. -/

/-- Fingerprints read back in full, the largest included. -/
theorem Fingerprint.ofJson?_toJson (fp : Fingerprint) : ofJson? fp.toJson = some fp := by
  unfold ofJson? toJson
  rw [Json.uint64?_ofNat, Option.map_some]

/-- So does a step, with an action or without. -/
theorem Step.ofJson?_toJson (step : Step) : ofJson? step.toJson = some step := by
  have haction : Json.nullable? Json.string? (step.action.elim .null .ofString) =
      some step.action := by
    cases step.action <;> rfl
  unfold ofJson? toJson
  rw [Json.record?_record ["action", "state", "fingerprint"] rfl (by decide)]
  simp [haction, State.ofJson?_toJson, Fingerprint.ofJson?_toJson]

/-- A witness is the list of its steps. -/
theorem Witness.ofJson?_toJson (w : Witness) : ofJson? w.toJson = some w := by
  have hsteps : (Json.ofList Step.toJson w.steps).list? Step.ofJson? = some w.steps :=
    Json.list?_ofList fun step _ => step.ofJson?_toJson
  unfold ofJson? toJson
  rw [Json.record?_record ["steps"] rfl (by decide)]
  simp [hsteps]

/-! ## Outcomes

    That an outcome can be held is counted from the inside: a state needs one level, a step two, the list of
    steps three and the outcome four. -/

/-- A state is a list of numbers, one level deep. -/
theorem State.isHoldable_toJson (s : State) (levels : Nat) :
    s.toJson.isHoldable (levels + 1) = true := by
  refine Json.isHoldable_ofList fun value _ => Json.isHoldable_ofInt ?_ levels
  have hlow := value.le_toInt
  have hhigh := value.toInt_lt
  show value.toInt.natAbs < 18446744073709551616
  omega

theorem Fingerprint.isHoldable_toJson (fp : Fingerprint) (levels : Nat) :
    fp.toJson.isHoldable levels = true :=
  Json.isHoldable_ofNat fp.hash.toNat_lt_size levels

/-- A step holds a state, and is a level deeper than it. -/
theorem Step.isHoldable_toJson (step : Step) (levels : Nat) :
    step.toJson.isHoldable (levels + 2) = true := by
  have haction : (step.action.elim Json.null Json.ofString).isHoldable (levels + 1) = true := by
    cases step.action with
    | none => rw [Option.elim_none, Json.isHoldable]
    | some name => exact Json.isHoldable_ofString _ name
  refine Json.isHoldable_record fun member hmember => ?_
  simp only [List.mem_cons, List.not_mem_nil, or_false] at hmember
  rcases hmember with rfl | rfl | rfl
  · exact haction
  · exact step.state.isHoldable_toJson levels
  · exact step.fingerprint.isHoldable_toJson _

namespace Outcome

/-- An outcome is four levels deep at most: itself, its steps, a step and a state. -/
theorem isHoldable_toJson (outcome : Outcome) (levels : Nat) :
    outcome.toJson.isHoldable (levels + 4) = true := by
  have hstatus : (Json.ofString outcome.statusName).isHoldable (levels + 3) = true :=
    Json.isHoldable_ofString _ _
  cases outcome with
  | found w =>
    have hsteps : (Json.ofList Step.toJson w.steps).isHoldable (levels + 3) = true :=
      Json.isHoldable_ofList fun step _ => step.isHoldable_toJson levels
    refine Json.isHoldable_record fun member hmember => ?_
    simp only [List.mem_cons, List.not_mem_nil, or_false] at hmember
    rcases hmember with rfl | rfl
    · exact hstatus
    · exact hsteps
  | exhausted | truncated =>
    refine Json.isHoldable_record fun member hmember => ?_
    obtain rfl := List.mem_singleton.mp hmember
    exact hstatus

/-- An outcome is decoded wherever four levels are left.  Where a witness was found, what is left of
    the object without its status is the witness as it is written alone. -/
theorem ofJson?_toJson (outcome : Outcome) (levels : Nat) :
    ofJson? (levels + 4) outcome.toJson = some outcome := by
  unfold ofJson?
  rw [if_pos (outcome.isHoldable_toJson levels)]
  cases outcome with
  | found w =>
    show (Witness.ofJson? w.toJson).map found = _
    rw [Witness.ofJson?_toJson]
    rfl
  | exhausted => rfl
  | truncated => rfl

end Outcome

/-! ## Statement

    Only a report has numbers that may be too large to be read back, its counters. -/

/-- No counter needs more than 64 bits. -/
structure Stats.InRange (stats : Stats) : Prop where
  discovered_lt : stats.discovered < UInt64.size
  expanded_lt : stats.expanded < UInt64.size
  tried_lt : stats.tried < UInt64.size
  applied_lt : stats.applied < UInt64.size
  duplicates_lt : stats.duplicates < UInt64.size
  collisions_lt : stats.collisions < UInt64.size
  frontierPeak_lt : stats.frontierPeak < UInt64.size

/-- Counters in range read back, and the depth always does. -/
theorem Stats.ofJson?_toJson {stats : Stats} (h : stats.InRange) :
    ofJson? stats.toJson = some stats := by
  unfold ofJson? toJson
  rw [Json.record?_record ["states_discovered", "states_expanded", "actions_tried",
    "actions_applied", "duplicates_skipped", "collisions", "max_depth", "frontier_peak"] rfl
    (by decide)]
  -- The proof of each step is kept: found by unfolding, it would count to the limit of a counter.
  simp -implicitDefEqProofs [Json.count?_ofNat h.discovered_lt, Json.count?_ofNat h.expanded_lt,
    Json.count?_ofNat h.tried_lt, Json.count?_ofNat h.applied_lt, Json.count?_ofNat h.duplicates_lt,
    Json.count?_ofNat h.collisions_lt, Json.uint32?_ofNat, Json.count?_ofNat h.frontierPeak_lt]

namespace Report

/-- One level of the 127 is the report's, so its outcome finds as many as it needs. -/
theorem ofJson?_toJson {report : Report} (h : report.stats.InRange) :
    ofJson? report.toJson = some report := by
  have hnames : (Json.ofList Json.ofString report.registerNames).list? Json.string? =
      some report.registerNames := Json.list?_ofList fun _ _ => rfl
  have houtcome : Outcome.ofJson? (levelLimit - 1) report.outcome.toJson = some report.outcome :=
    report.outcome.ofJson?_toJson 122
  unfold ofJson? toJson
  rw [Json.record?_record ["puzzle", "register_names", "target", "outcome", "stats"] rfl (by decide)]
  simp [hnames, houtcome, Stats.ofJson?_toJson h]

/-- **Reports, outcomes and witnesses read back**, from compact and from pretty text: a report if its
    counters fit into 64 bits, an outcome and a witness always. -/
theorem reads_back :
    (∀ report : Report, report.stats.InRange → Json.ReadsBack toJson ofJson? report) ∧
    (∀ outcome : Outcome,
      Json.ReadsBack Outcome.toJson (Outcome.ofJson? levelLimit) outcome) ∧
    ∀ w : Witness, Json.ReadsBack Witness.toJson Witness.ofJson? w := by
  refine ⟨?_, ?_, ?_⟩
  · intro report h
    exact Json.readsBack_of_decode (ofJson?_toJson h)
  · intro outcome
    exact Json.readsBack_of_decode (outcome.ofJson?_toJson 123)
  · intro w
    exact Json.readsBack_of_decode w.ofJson?_toJson

/-- A report with the largest counters, on a trace through the extreme registers that ends in a step
    without an action, under fingerprints that signed words could not hold. -/
def extreme : Report :=
  let state : State :=
    { width := 2, cells := #v[Int64.minValue, Int64.maxValue, 0, 0, 0, 0, 0, 0]
      width_pos := by decide, width_le := by decide, rest_zero := by decide }
  let largest := UInt64.size - 1
  { puzzle := "\x00\"\\"
    registerNames := ["", "é"]
    target := "/"
    outcome := .found
      { steps := [{ action := some "", state, fingerprint := ⟨0x8000000000000001⟩ },
          { action := none, state, fingerprint := ⟨0xffffffffffffffff⟩ }] }
    stats :=
      { discovered := largest, expanded := largest, tried := largest, applied := largest
        duplicates := largest, collisions := largest, maxDepth := 0xffffffff
        frontierPeak := largest } }

/-- It reads back like any other. -/
theorem extreme_reads_back :
    extreme.stats.InRange ∧ Json.ReadsBack toJson ofJson? extreme ∧
      Json.ReadsBack Outcome.toJson (Outcome.ofJson? levelLimit) extreme.outcome := by
  have hrange : extreme.stats.InRange := by
    constructor <;> decide
  exact ⟨hrange, reads_back.1 extreme hrange, reads_back.2.1 extreme.outcome⟩

end Report

end GuardedReach
