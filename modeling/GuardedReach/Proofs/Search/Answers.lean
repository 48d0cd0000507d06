/-
  Answers — no call on a search meets an internal error.

  A step fails when something queued is not recorded, a trace when the links do not lead back to the
  root, and a run when one of these does or the search has not ended.  None of it happens.

  1. **Specification** — `Answers e`: steps and runs succeed, and there is a trace to every fingerprint
     that is recorded.  A trace to any other is refused, with that fingerprint.

  2. **Searches** — every explorer that a search comes to answers (`Trailed.answers`).  The length up
     to which the links are followed is enough since every key of the tree has a lineage.

  3. **Puzzles** — the check that starts a search is the last that building a puzzle makes, so what was
     built can be searched under any settings (`Puzzle.exists_start`).

  4. **Statement** — `no_internal_errors`.
-/
import GuardedReach.Proofs.Search.Termination
import GuardedReach.Puzzle.File

namespace GuardedReach

namespace Explorer

/-! ## Searches

    One explorer at a time, and then every explorer that a search comes to. -/

/-- Every call on the explorer is answered: a step and a run succeed, and there is a trace to what is
    recorded and to nothing else. -/
structure Answers (e : Explorer) : Prop where
  step : ∃ next events, e.step = .ok (next, events)
  run : ∀ wanted, ∃ finished, e.run wanted = .ok finished
  witness_of_mem : ∀ fp ∈ e.parents, ∃ w, e.witness fp = .ok w
  witness_of_not_mem : ∀ fp, fp ∉ e.parents → e.witness fp = .error (.brokenChain fp)

/-- **Every search answers.** -/
theorem Trailed.answers {system : TransitionSystem} {goal : Goal} {settings : Settings}
    {trail : Trail} {e : Explorer} (h : Trailed system goal settings trail e) : Answers e := by
  constructor
  case step => exact h.tree.exists_step
  case run =>
    intro wanted
    obtain ⟨last, outcome, -, -, -, hrun⟩ := h.exists_run
    obtain ⟨events, hrun⟩ := hrun wanted
    exact ⟨_, hrun⟩
  case witness_of_mem =>
    intro fp hm
    obtain ⟨steps, hsteps⟩ := h.tree.lineage fp hm
    exact ⟨{ steps }, hsteps.reconstruct_eq_ok⟩
  case witness_of_not_mem =>
    intro fp hm
    exact Witness.reconstruct_of_not_mem hm

end Explorer

/-! ## Puzzles

    From a puzzle that was built to a search that can be started. -/

namespace Puzzle

variable {p : Puzzle} {system : TransitionSystem} {goal : Goal}

/-- The goal of a puzzle that was built can be tested on the states of its system. -/
theorem check_of_build (h : p.build = .ok (system, goal)) : goal.check system.width = .ok () := by
  unfold build at h
  obtain ⟨initial, -, h⟩ := exists_ok_of_bind h
  obtain ⟨actions, -, h⟩ := exists_ok_of_bind h
  obtain ⟨unnamed, -, h⟩ := exists_ok_of_bind h
  obtain ⟨named, -, h⟩ := exists_ok_of_bind h
  obtain ⟨found, -, h⟩ := exists_ok_of_bind h
  obtain ⟨passed, hcheck, h⟩ := exists_ok_of_bind h
  obtain ⟨rfl, rfl⟩ := Prod.mk.inj (Except.ok.inj h)
  exact hcheck

/-- What was built can be searched. -/
theorem exists_start (h : p.build = .ok (system, goal)) (settings : Settings) :
    ∃ e, Explorer.start system goal settings = .ok e :=
  Explorer.exists_start_iff.mpr (check_of_build h)

/-- What was read can be built. -/
theorem build_of_ofText {text : String} (h : ofText text = .ok p) :
    ∃ system goal, p.build = .ok (system, goal) := by
  unfold ofText at h
  split at h
  · exact absurd h (by simp)
  · next read hread =>
    split at h
    · exact absurd h (by simp)
    · next built hbuilt =>
      obtain rfl := Except.ok.inj h
      exact ⟨_, _, hbuilt⟩

end Puzzle

/-! ## Statement

    Calls on explorers, and puzzles from their file to an outcome. -/

namespace Explorer

/-- **No internal error occurs.**  A search that was started can be stepped any number of times and
    then answers every call; whatever puzzle was built can be searched; and a search of a puzzle that
    was read from a text runs to an end with one of the three verdicts. -/
theorem no_internal_errors :
    (∀ (system : TransitionSystem) (goal : Goal) (settings : Settings) (e : Explorer),
      Explorer.start system goal settings = .ok e → ∀ n, ∃ f, e.steps n = .ok f ∧ Answers f) ∧
    (∀ (p : Puzzle) (system : TransitionSystem) (goal : Goal) (settings : Settings),
      p.build = .ok (system, goal) → ∃ e, Explorer.start system goal settings = .ok e) ∧
    (∀ (text : String) (p : Puzzle) (settings : Settings) (wanted : Event → Bool),
      Puzzle.ofText text = .ok p → ∃ system goal e finished, p.build = .ok (system, goal) ∧
        Explorer.start system goal settings = .ok e ∧ e.run wanted = .ok finished ∧
        ((∃ fp w, finished.explorer.status = .found fp ∧ finished.outcome = .found w) ∨
          (finished.explorer.status = .exhausted ∧ finished.outcome = .exhausted) ∨
          (finished.explorer.status = .truncated ∧ finished.outcome = .truncated))) := by
  refine ⟨?_, ?_, ?_⟩
  · intro system goal settings e h n
    obtain ⟨f, trail, hf, htrail, -⟩ := (Trailed.start h).exists_trailed_steps n
    exact ⟨f, hf, htrail.answers⟩
  · intro p system goal settings h
    exact Puzzle.exists_start h settings
  · intro text p settings wanted h
    obtain ⟨system, goal, hbuild⟩ := Puzzle.build_of_ofText h
    obtain ⟨e, hstart⟩ := Puzzle.exists_start hbuild settings
    obtain ⟨finished, hrun⟩ := (Trailed.start hstart).answers.run wanted
    refine ⟨system, goal, e, finished, hbuild, hstart, hrun, ?_⟩
    rcases outcome_cases (run_eq_ok hrun).2 with
      ⟨fp, w, hstatus, -, hout⟩ | ⟨hstatus, hout⟩ | ⟨hstatus, hout⟩
    · exact Or.inl ⟨fp, w, hstatus, hout⟩
    · exact Or.inr (Or.inl ⟨hstatus, hout⟩)
    · exact Or.inr (Or.inr ⟨hstatus, hout⟩)

/-- A puzzle file: one register, which can only be counted up, and is to be two. -/
def counterText : String :=
  "\x7b\"name\":\"counter\",\"registers\":[[\"n\"]],\"actions\":[[\"Up\",[[\"add\",0,0,1]]]]," ++
    "\"target\":[[\"equal\",0,0,2]]\x7d"

/-- The counter is read, built, searched and, after two steps, asked. -/
theorem counter_answers :
    ∃ (p : Puzzle) (system : TransitionSystem) (goal : Goal) (e f : Explorer) (finished : Finished),
      Puzzle.ofText counterText = .ok p ∧ p.build = .ok (system, goal) ∧
      (∃ g, Explorer.start system goal { Settings.default with maxStates := some 1 } = .ok g) ∧
      Explorer.start system goal Settings.default = .ok e ∧ e.steps 2 = .ok f ∧ Answers f ∧
      e.run (fun _ => false) = .ok finished := by
  have hread : (Puzzle.ofText counterText).toOption.isSome = true := by decide +kernel
  obtain ⟨p, hsome⟩ := Option.isSome_iff_exists.mp hread
  have htext := Puzzle.eq_ok_of_toOption hsome
  obtain ⟨hanswers, hbuilt, hruns⟩ := no_internal_errors
  obtain ⟨system, goal, e, finished, hbuild, hstart, hrun, -⟩ :=
    hruns counterText p Settings.default (fun _ => false) htext
  obtain ⟨f, hf, hanswers⟩ := hanswers system goal Settings.default e hstart 2
  exact ⟨p, system, goal, e, f, finished, htext, hbuild, hbuilt p system goal _ hbuild, hstart, hf,
    hanswers, hrun⟩

end Explorer

end GuardedReach
