/-
  Finished searches of puzzles — a puzzle is built, a search of it started, and run to its end.

  `Puzzle.finish` is the program without its reports of errors, and `exists_of_finish` what has
  happened if it gives something.
-/
import GuardedReach.Proofs.Search.Step
import GuardedReach.Puzzle.Jugs

namespace GuardedReach

namespace Puzzle

/-- Searches a puzzle to the end; gives nothing if there was an error. -/
def finish (p : Puzzle) (settings : Settings) : Option Finished := do
  let (system, goal) ← p.build.toOption
  let e ← (Explorer.start system goal settings).toOption
  (e.run fun _ => false).toOption

theorem eq_ok_of_toOption {ε α : Type} {x : Except ε α} {a : α} (h : x.toOption = some a) :
    x = .ok a := by
  cases x with
  | error reason => exact absurd h (by simp [Except.toOption])
  | ok b => rw [Option.some.inj h]

/-- A chain of results gives a result only if each of them does. -/
theorem exists_ok_of_bind {ε α β : Type} {x : Except ε α} {f : α → Except ε β} {b : β}
    (h : (x >>= f) = .ok b) : ∃ a, x = .ok a ∧ f a = .ok b := by
  cases x with
  | error reason => exact absurd h (by simp [bind, Except.bind])
  | ok a => exact ⟨a, rfl, h⟩

theorem exists_of_finish {p : Puzzle} {settings : Settings} {finished : Finished}
    (h : p.finish settings = some finished) :
    ∃ (system : TransitionSystem) (goal : Goal) (e : Explorer), p.build = .ok (system, goal) ∧
      Explorer.start system goal settings = .ok e ∧ e.run (fun _ => false) = .ok finished := by
  obtain ⟨⟨system, goal⟩, hbuild, h⟩ := Option.bind_eq_some_iff.mp h
  obtain ⟨e, hstart, hrun⟩ := Option.bind_eq_some_iff.mp h
  exact ⟨system, goal, e, eq_ok_of_toOption hbuild, eq_ok_of_toOption hstart,
    eq_ok_of_toOption hrun⟩

end Puzzle

end GuardedReach
