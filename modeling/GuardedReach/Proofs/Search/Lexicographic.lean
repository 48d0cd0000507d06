/-
  Ties — which of several shortest traces a search returns.

  The order of the actions decides: of all words of the trace's length that lead to a goal, the trace
  spells the one that stands first in a dictionary whose letters are in the order of the actions.

  1. **Crux** — `Closed.not_goal_of_before`: whatever a word leads to that comes before what the
     goal's lineage spells was tested before the goal.  So no such word leads to a goal.

  2. **Statement** — `Arises.lexicographically_least`.
-/
import GuardedReach.Proofs.Search.Distance

namespace GuardedReach

namespace Explorer

/-- **The first of the shortest.**  A search that ends with a trace and has counted no collision ends
    with the one whose positions of actions, looked up by their names, are lexicographically least
    among all words of that length that lead from the initial state to a goal; and they do lead
    there. -/
theorem Arises.lexicographically_least {system : TransitionSystem} {goal : Goal}
    {settings : Settings} {e : Explorer} {wanted : Event → Bool} {finished : Finished} {w : Witness}
    (h : Arises system goal settings e) (hrun : e.run wanted = .ok finished)
    (hw : finished.outcome = .found w) (hcollisions : finished.explorer.stats.collisions = 0) :
    (system.spell w.steps).length = w.actionCount ∧
    (∃ s, system.follow (system.spell w.steps) system.initial = some s ∧ goal.holds s = true) ∧
    ∀ (word : List Nat) (s : State), word.length = w.actionCount →
      system.follow word system.initial = some s → goal.holds s = true →
      system.spell w.steps = word ∨ List.Lex (· < ·) (system.spell w.steps) word := by
  obtain ⟨trail, fp, s, htrail, hstatus, hs, hg, hl⟩ := h.lineage_of_run hrun hw
  obtain ⟨rfl, rfl, -⟩ := htrail.frame
  have ht := htrail.tree
  have hlen : (finished.explorer.system.spell w.steps).length = w.steps.length - 1 := by
    have hlen := ht.length_spell hl
    omega
  refine ⟨hlen, ⟨s, ht.follow_spell hl hs, hg⟩, ?_⟩
  intro word t hword hfollow hgoal
  rcases Word.before_or_noLater word (finished.explorer.system.spell w.steps) with hb | heq | hb
  · -- a word that came first would have been met first
    have hnot := htrail.closed.not_goal_of_before htrail.ordered ht hcollisions hstatus hl hb hfollow
    exact absurd (hnot.symm.trans hgoal) (by simp)
  · exact Or.inl heq
  · exact Or.inr ((List.shortlex_iff_lex (hlen.trans hword.symm)).mp hb)

/-- Two units in the big one of jugs of three and four can be had in six actions in two ways, by
    filling the small jug first or by filling the big one first.  The small one's action stands
    first. -/
theorem jugs_lexicographically_least :
    ∃ (system : TransitionSystem) (goal : Goal) (e : Explorer) (finished : Finished) (w : Witness),
      (waterJugs 3 4 2).build = .ok (system, goal) ∧
      Explorer.start system goal Settings.default = .ok e ∧
      e.run (fun _ => false) = .ok finished ∧ finished.outcome = .found w ∧
      finished.explorer.stats.collisions = 0 ∧ system.spell w.steps = [0, 4, 0, 4, 3, 4] ∧
      (∃ s, system.follow [1, 5, 2, 5, 1, 5] system.initial = some s ∧ goal.holds s = true) ∧
      ∀ (word : List Nat) (s : State), word.length = w.actionCount →
        system.follow word system.initial = some s → goal.holds s = true →
        [0, 4, 0, 4, 3, 4] = word ∨ List.Lex (· < ·) [0, 4, 0, 4, 3, 4] word := by
  have hcollisions : ((waterJugs 3 4 2).finish Settings.default).any
      (fun finished => decide (finished.explorer.stats.collisions = 0)) = true := by decide +kernel
  have hspell : ((waterJugs 3 4 2).finish Settings.default).any
      (fun finished => finished.outcome.witness?.any fun w =>
        decide (finished.explorer.system.spell w.steps = [0, 4, 0, 4, 3, 4])) = true := by
    decide +kernel
  have hother : ((waterJugs 3 4 2).finish Settings.default).any
      (fun finished =>
        (finished.explorer.system.follow [1, 5, 2, 5, 1, 5] finished.explorer.system.initial).any
          finished.explorer.goal.holds) = true := by
    decide +kernel
  obtain ⟨finished, hfinish, hspell⟩ := (Option.any_eq_true ..).mp hspell
  rw [hfinish] at hcollisions hother
  have hcollisions : finished.explorer.stats.collisions = 0 := of_decide_eq_true hcollisions
  obtain ⟨w, hsome, hspell⟩ := (Option.any_eq_true ..).mp hspell
  have hspell := of_decide_eq_true hspell
  have hother : (finished.explorer.system.follow [1, 5, 2, 5, 1, 5]
      finished.explorer.system.initial).any finished.explorer.goal.holds = true := hother
  obtain ⟨s, hfollow, hgoal⟩ := (Option.any_eq_true ..).mp hother
  obtain ⟨system, goal, e, hbuild, hstart, hrun⟩ := Puzzle.exists_of_finish hfinish
  obtain ⟨trail, htrail⟩ := ((Arises.start hstart).run hrun).trailed
  obtain ⟨rfl, rfl, -⟩ := htrail.frame
  have hw := eq_found_of_witness? hsome
  obtain ⟨-, -, hleast⟩ := Arises.lexicographically_least (.start hstart) hrun hw hcollisions
  rw [hspell] at hleast
  exact ⟨_, _, e, finished, w, hbuild, hstart, hrun, hw, hcollisions, hspell, ⟨s, hfollow, hgoal⟩,
    hleast⟩

end Explorer

end GuardedReach
