/-
  The verdict of a report — what its last section says, and when that is so.

  1. **Text** — `Report.Concludes lines`: between the counters and the rule at its end, the text of
     the report has these lines and nothing else.  A report has the section without a witness exactly
     if no goal was found (`concludes_noWitness_iff`), for the headings of the two sections differ.

  2. **Endings** — what a search that has ended says of goals: it has stored none unless it found one
     (`Trailed.not_goal_of_stored`), and if it is exhausted and counts no collision then there is none
     to be reached (`Trailed.not_goal_of_reachable`).  Only a budget truncates a search
     (`Trailed.budget_of_truncated`).

  3. **Statement** — `Arises.report_truthful`.  The section is right of every search but a truncated
     one.  That search gets the same section, though it may have dropped the way to a goal
     (`jugs_report_untruthful`), and the result line of the same report calls it unknown.
-/
import GuardedReach.Proofs.Search.Closure
import GuardedReach.Report.Text

namespace GuardedReach

/-! ## Text

    A section is found in a text by the lines that frame it. -/

theorem unlines_append (front back : List String) :
    unlines (front ++ back) = unlines front ++ unlines back := by
  rw [unlines, List.map_append, String.join_append]
  rfl

/-- Texts differ whose first lines differ at some byte. -/
theorem unlines_cons_ne {line line' : String} (place : Nat) (h : place < line.toByteArray.data.size)
    (h' : place < line'.toByteArray.data.size)
    (hne : line.toByteArray.data[place]? ≠ line'.toByteArray.data[place]?)
    (rest rest' : List String) : unlines (line :: rest) ≠ unlines (line' :: rest') := by
  intro heq
  have hat := congrArg (fun text => text.toByteArray.data[place]?) heq
  simp only [unlines, List.map_cons, String.join_cons, String.toByteArray_append,
    ByteArray.data_append, Array.append_assoc] at hat
  rw [Array.getElem?_append_left h, Array.getElem?_append_left h'] at hat
  exact hne hat

namespace Report

/-- The section of a report without a witness. -/
def noWitnessLines : List String :=
  [noWitnessHeading, noWitnessSentence, ""]

/-- Between the counters and the rule at its end the report has the given lines and nothing else. -/
def Concludes (report : Report) (lines : List String) : Prop :=
  report.text = unlines (report.headerLines ++ statsLines report.stats ++ lines ++ [rule])

theorem concludes_iff (report : Report) (lines : List String) :
    report.Concludes lines ↔ unlines report.witnessLines = unlines lines := by
  unfold Concludes text Report.lines
  simp only [unlines_append, String.append_left_inj, String.append_right_inj]

/-- The section without a witness is there exactly if no goal was found. -/
theorem concludes_noWitness_iff (report : Report) :
    report.Concludes noWitnessLines ↔
      report.outcome = .exhausted ∨ report.outcome = .truncated := by
  rw [concludes_iff]
  unfold witnessLines
  cases report.outcome with
  | exhausted => exact ⟨fun _ => Or.inl rfl, fun _ => rfl⟩
  | truncated => exact ⟨fun _ => Or.inr rfl, fun _ => rfl⟩
  | found w =>
    constructor
    · intro heq
      -- a W there and an N here, after three strokes of three bytes each and a blank
      exact absurd heq (unlines_cons_ne 10 (by decide +kernel) (by decide +kernel)
        (by decide +kernel) _ _)
    · rintro (h | h)
      · exact absurd h (by simp)
      · exact absurd h (by simp)

end Report

namespace Explorer

variable {system : TransitionSystem} {goal : Goal} {settings : Settings}

/-! ## Endings

    What is known of goals when a search has ended, by the way it has ended. -/

namespace Trailed

variable {trail : Trail} {e : Explorer}

/-- What ends without a goal has stored none. -/
theorem not_goal_of_stored (h : Trailed system goal settings trail e)
    (hended : e.status = .exhausted ∨ e.status = .truncated) {fp : Fingerprint} {s : State}
    (hs : e.store[fp]? = some s) : goal.holds s = false := by
  have ht := h.tree
  have hkey := (ht.mem_store fp).mp (Fingerprint.mem_of_getElem? hs)
  rw [pending_of_ended h.verdict hended, List.append_nil] at hkey
  rw [← h.frame.2.1]
  exact ht.not_goal fp hkey s hs

/-- What is exhausted without a collision has stored whatever can be reached. -/
theorem not_goal_of_reachable (h : Trailed system goal settings trail e)
    (hstatus : e.status = .exhausted) (hcollisions : e.stats.collisions = 0) {s : State}
    (hs : system.Reachable s) : goal.holds s = false := by
  have hpending := pending_of_ended h.verdict (Or.inl hstatus)
  have hverdict := h.verdict
  rw [Verdict, hstatus] at hverdict
  rw [← h.frame.1] at hs
  exact h.not_goal_of_stored (Or.inl hstatus)
    (h.closed.stored_of_reachable h.tree hpending hverdict.2 hcollisions hs)

/-- A goal that was found can be reached. -/
theorem goal_reachable (h : Trailed system goal settings trail e) {fp : Fingerprint}
    (hstatus : e.status = .found fp) : ∃ s, system.Reachable s ∧ goal.holds s = true := by
  obtain ⟨s, _, hs, hg, -⟩ := h.found hstatus
  obtain ⟨rfl, rfl, -⟩ := h.frame
  exact ⟨s, h.tree.reachable hs, hg⟩

/-- Only a budget truncates a search. -/
theorem budget_of_truncated (h : Trailed system goal settings trail e)
    (hstatus : e.status = .truncated) :
    ∃ budget, settings.maxStates = some budget ∧ budget ≤ e.stats.discovered := by
  have hverdict := h.verdict
  rw [Verdict, hstatus] at hverdict
  rw [← h.frame.2.2]
  exact h.closed.spent hverdict.2

end Trailed

/-! ## Statement

    The section without a witness is right of a search that is exhausted, and says too much of one that is
    truncated. -/

/-- **A report is right unless the search was truncated.**  Take the report on a finished run that
    counts no collision.  Its section without a witness is there exactly if the search is exhausted or
    truncated, and no state stored is a goal then.  If the search is not truncated, and without a
    budget it is not, then the section is there exactly if no reachable state is a goal. -/
theorem Arises.report_truthful {e : Explorer} {wanted : Event → Bool} {finished : Finished}
    (h : Arises system goal settings e) (hrun : e.run wanted = .ok finished)
    (hcollisions : finished.explorer.stats.collisions = 0) (puzzle : String) :
    ((finished.explorer.report puzzle finished.outcome).Concludes Report.noWitnessLines ↔
      finished.outcome = .exhausted ∨ finished.outcome = .truncated) ∧
    ((finished.explorer.report puzzle finished.outcome).Concludes Report.noWitnessLines →
      ∀ (fp : Fingerprint) (s : State), finished.explorer.store[fp]? = some s →
        goal.holds s = false) ∧
    (finished.outcome ≠ .truncated →
      ((finished.explorer.report puzzle finished.outcome).Concludes Report.noWitnessLines ↔
        ∀ s, system.Reachable s → goal.holds s = false)) ∧
    (settings.maxStates = none → finished.outcome ≠ .truncated) := by
  obtain ⟨trail, htrail⟩ := (h.run hrun).trailed
  have hsection := (finished.explorer.report puzzle finished.outcome).concludes_noWitness_iff
  rw [hsection]
  refine ⟨Iff.rfl, ?_⟩
  -- by the way in which the search has ended: found, exhausted, truncated
  rcases outcome_cases (run_eq_ok hrun).2 with
    ⟨fp, w, hstatus, -, hout⟩ | ⟨hstatus, hout⟩ | ⟨hstatus, hout⟩
  · obtain ⟨s, hs, hg⟩ := htrail.goal_reachable hstatus
    have hnone : ¬ (finished.outcome = .exhausted ∨ finished.outcome = .truncated) := by
      rw [hout]
      simp
    refine ⟨fun hended => absurd hended hnone, fun _ => ⟨fun hended => absurd hended hnone, ?_⟩, ?_⟩
    · intro hall
      exact absurd ((hall s hs).symm.trans hg) (by simp)
    · intro _
      rw [hout]
      simp
  · refine ⟨fun _ fp s hs => htrail.not_goal_of_stored (Or.inl hstatus) hs,
      fun _ => ⟨?_, fun _ => Or.inl hout⟩, ?_⟩
    · intro _ s hs
      exact htrail.not_goal_of_reachable hstatus hcollisions hs
    · intro _
      rw [hout]
      simp
  · refine ⟨fun _ fp s hs => htrail.not_goal_of_stored (Or.inr hstatus) hs,
      fun hne => absurd hout hne, ?_⟩
    intro hunbounded
    obtain ⟨budget, hsome, -⟩ := htrail.budget_of_truncated hstatus
    exact absurd (hunbounded.symm.trans hsome) (by simp)

/-- Of seven units in the big one of jugs of three and five, the report says rightly that they cannot
    be had. -/
theorem jugs_report_truthful :
    ∃ (system : TransitionSystem) (goal : Goal) (e : Explorer) (finished : Finished),
      (waterJugs 3 5 7).build = .ok (system, goal) ∧
      Explorer.start system goal Settings.default = .ok e ∧
      e.run (fun _ => false) = .ok finished ∧
      (finished.explorer.report "water-jugs" finished.outcome).Concludes Report.noWitnessLines ∧
      ∀ s, system.Reachable s → goal.holds s = false := by
  have hquery : ((waterJugs 3 5 7).finish Settings.default).any (fun finished =>
      decide (finished.outcome = .exhausted ∧ finished.explorer.stats.collisions = 0)) = true := by
    decide +kernel
  obtain ⟨finished, hfinish, hcounts⟩ := (Option.any_eq_true ..).mp hquery
  obtain ⟨hexhausted, hcollisions⟩ := of_decide_eq_true hcounts
  obtain ⟨system, goal, e, hbuild, hstart, hrun⟩ := Puzzle.exists_of_finish hfinish
  obtain ⟨hsection, -, hiff, hunbounded⟩ :=
    Arises.report_truthful (.start hstart) hrun hcollisions "water-jugs"
  have hconcludes := hsection.mpr (Or.inl hexhausted)
  exact ⟨system, goal, e, finished, hbuild, hstart, hrun, hconcludes,
    (hiff (hunbounded rfl)).mp hconcludes⟩

/-- Of four units in the big one, the report on a search with room for six states says the same,
    although six actions lead there. -/
theorem jugs_report_untruthful :
    ∃ (system : TransitionSystem) (goal : Goal) (e : Explorer) (finished : Finished) (s : State),
      (waterJugs 3 5 4).build = .ok (system, goal) ∧
      Explorer.start system goal { Settings.default with maxStates := some 6 } = .ok e ∧
      e.run (fun _ => false) = .ok finished ∧ finished.explorer.stats.collisions = 0 ∧
      (finished.explorer.report "water-jugs" finished.outcome).Concludes Report.noWitnessLines ∧
      system.Reachable s ∧ goal.holds s = true := by
  have hquery : ((waterJugs 3 5 4).finish { Settings.default with maxStates := some 6 }).any
      (fun finished =>
        decide (finished.outcome = .truncated ∧ finished.explorer.stats.collisions = 0)) = true := by
    decide +kernel
  have hreach : (waterJugs 3 5 4).build.toOption.any (fun pair =>
      (pair.1.follow [1, 5, 2, 5, 1, 5] pair.1.initial).any pair.2.holds) = true := by
    decide +kernel
  obtain ⟨finished, hfinish, hcounts⟩ := (Option.any_eq_true ..).mp hquery
  obtain ⟨htruncated, hcollisions⟩ := of_decide_eq_true hcounts
  obtain ⟨system, goal, e, hbuild, hstart, hrun⟩ := Puzzle.exists_of_finish hfinish
  obtain ⟨pair, hpair, hreach⟩ := (Option.any_eq_true ..).mp hreach
  obtain rfl := Except.ok.inj ((Puzzle.eq_ok_of_toOption hpair).symm.trans hbuild)
  obtain ⟨s, hs, hg⟩ := (Option.any_eq_true ..).mp hreach
  exact ⟨system, goal, e, finished, s, hbuild, hstart, hrun, hcollisions,
    (Report.concludes_noWitness_iff _).mpr (Or.inr htruncated), ⟨_, hs⟩, hg⟩

end Explorer

end GuardedReach
