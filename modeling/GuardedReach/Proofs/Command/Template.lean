/-
  Printed puzzles — the puzzle that `template` prints is searched as the jugs themselves.

  1. **File** — what `template` prints is the text of the puzzle and the end of its last line.  A file
     of these bytes holds the puzzle (`heldAt_template`).

  2. **Statement** — `run_template`.  The jugs of any measures can be built, so both commands come to
     search the same puzzle in the same way, and there is nothing in which the answers could differ.
-/
import GuardedReach.Proofs.Command.Arguments
import GuardedReach.Proofs.Command.Status
import GuardedReach.Proofs.Format.Puzzle

namespace GuardedReach

/-! ## File

    The file is never built up in a proof; that it reads back is known of every puzzle. -/

theorem Puzzle.decode?_unlines_fileText (p : Puzzle) : decode? (unlines [p.fileText]) = some p := by
  have hlines : unlines [p.fileText] = p.toJson.prettyText ++ "\n" := by
    simp [unlines, String.join, fileText]
  have hblank : ∀ c ∈ "\n".toList, isBlank c = true := by simp [isBlank]
  unfold decode?
  rw [hlines, Json.ofText?_prettyText_append _ _ hblank]
  exact p.ofJson?_toJson

namespace Command

/-- A file of what `template` prints holds the puzzle of the jugs. -/
theorem heldAt_template {read before : String → Except ReadFault ByteArray} {path : String}
    {arguments : List String} {measures : JugOptions}
    (hc : ofArguments? arguments = some (.template measures))
    (hr : read path = .ok (answer before arguments).output.toUTF8) :
    (waterJugs measures.small measures.big measures.goal).HeldAt read path := by
  have houtput : (answer before arguments).output =
      unlines [(waterJugs measures.small measures.big measures.goal).fileText] := by
    simp only [answer_of_command hc, respond]
  rw [houtput] at hr
  exact ⟨_, _, hr, Puzzle.fromUTF8?_toUTF8 _, Puzzle.decode?_unlines_fileText _⟩

/-! ## Statement

    Three vectors of arguments with one set of measures: to print the puzzle, to search the file it is printed
    to, and to search it at once. -/

/-- **The printed jugs are searched as the jugs themselves.**  All measures, budgets and paths can be
    given, and a puzzle is printed for all measures.  Where the file at the path is what `template` has
    printed, running it and asking for the jugs run the same search, and the answers are the same to the
    last character, in whatever form the arguments are written. -/
theorem run_template (measures : JugOptions) (options : SearchOptions) (path : String) :
    (ofArguments? ("template" :: measures.arguments) = some (.template measures) ∧
      ((∀ budget ∈ options.maxStates, budget < UInt64.size) →
        ofArguments? ("jugs" :: (measures.arguments ++ options.arguments)) =
          some (.jugs measures options) ∧
        (path ≠ "" → ofArguments? ("run" :: written "puzzle" path :: options.arguments) =
          some (.run path options)))) ∧
    ∀ (printing running asking : List String)
      (before read other : String → Except ReadFault ByteArray),
      ofArguments? printing = some (.template measures) →
      ofArguments? running = some (.run path options) →
      ofArguments? asking = some (.jugs measures options) →
      read path = .ok (answer before printing).output.toUTF8 →
        (answer before printing).status = 0 ∧
        answer read running = answer other asking ∧
        ∃ finished, Ran read running finished ∧ Ran other asking finished := by
  refine ⟨⟨ofArguments?_template measures, fun hmax =>
    ⟨ofArguments?_jugs measures hmax, fun hpath => ofArguments?_run hpath hmax⟩⟩, ?_⟩
  intro printing running asking before read other hp hr ha hread
  -- both commands pose the puzzle of the jugs
  have hrun : Poses read (.run path options)
      (waterJugs measures.small measures.big measures.goal) options :=
    .run options (heldAt_template hp hread)
  have hjugs : Poses other (.jugs measures options)
      (waterJugs measures.small measures.big measures.goal) options := .jugs measures options
  obtain ⟨system, hb, -⟩ := Puzzle.exists_build_of_wellFormed
    (waterJugs_wellFormed measures.small measures.big measures.goal)
  refine ⟨?_, ?_, ?_⟩
  · simp only [answer_of_command hp, respond]
  · simp only [answer_of_command hr, answer_of_command ha, respond_of_poses hrun hb,
      respond_of_poses hjugs hb]
  · obtain ⟨e, hs⟩ := Puzzle.exists_start hb
      { Settings.default with maxStates := options.maxStates }
    obtain ⟨finished, hfinished⟩ := (Explorer.Trailed.start hs).answers.run fun _ => false
    exact ⟨finished, .intro hr hrun hb hs hfinished, .intro ha hjugs hb hs hfinished⟩

/-- Jugs of two and of minus three, printed and run with a budget of ten. -/
theorem jugs_run_template :
    answer (fun _ => .ok (answer (fun _ => .error .notFound)
        ["template", "--small", "2", "--big=-3"]).output.toUTF8)
      ["run", "-p", "jugs.json", "--max-states", "10", "--json"] =
    answer (fun _ => .error .notFound)
      ["jugs", "--json", "--big=-3", "--max-states=10", "--small=2"] := by
  obtain ⟨-, hall⟩ := run_template { small := 2, big := -3, goal := 4 }
    { maxStates := some 10, json := true } "jugs.json"
  exact (hall _ _ _ _ _ _ (by decide +kernel) (by decide +kernel) (by decide +kernel) rfl).2.1

end Command

end GuardedReach
