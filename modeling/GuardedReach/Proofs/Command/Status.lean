/-
  Exit statuses — what the status of an answer says of what has happened.

  1. **Specification** — `Command.Ran`: the arguments pose a puzzle, which is built and searched to an
     end.  `Puzzle.Unusable`: there is no puzzle to be had from a file, for one of four reasons.
     `AsksForHelp`: one of the arguments asks for help, and all that stands before it is understood.

  2. **Answers** — a search answers with the status of its outcome (`Ran.status`), a file of no use
     with 1, a request for help with 0, and arguments that cannot be understood with 2.

  3. **Cases** — one of the four happens (`searching_cases`): the jugs of any measures can be built,
     a file can be loaded or is of no use, and whatever was built is searched to an end.

  4. **Statement** — `exit_status`, of all arguments of the two commands that search.  A request for help
     is granted and no search is run.  Two things that have nothing to do with each other share a status
     besides: a search that has found nothing, and arguments that are invalid (`misread_goal_status`),
     though every other invalid input has a status of its own.
-/
import GuardedReach.Command.Response
import GuardedReach.Proofs.Command.Arguments
import GuardedReach.Proofs.Puzzle.Jugs
import GuardedReach.Proofs.Search.Answers

namespace GuardedReach

/-! ## Puzzle files

    Whether a file is of use is said of its bytes and of what they decode to, with no word of how it is
    loaded. -/

namespace Puzzle

/-- The file at the path is a text of the puzzle. -/
def HeldAt (read : String → Except ReadFault ByteArray) (path : String) (p : Puzzle) : Prop :=
  ∃ bytes text, read path = .ok bytes ∧ String.fromUTF8? bytes = some text ∧ decode? text = some p

/-- Why there is no puzzle to be searched at a path. -/
inductive Unusable (read : String → Except ReadFault ByteArray) (path : String) : Prop
  | unreadable {fault : ReadFault} (h : read path = .error fault)
  | notText {bytes : ByteArray} (h : read path = .ok bytes) (ht : String.fromUTF8? bytes = none)
  | malformed {bytes : ByteArray} {text : String} (h : read path = .ok bytes)
      (ht : String.fromUTF8? bytes = some text) (hd : decode? text = none)
  | invalid {p : Puzzle} {reason : SetupError} (h : p.HeldAt read path)
      (hb : p.build = .error reason)

variable {read : String → Except ReadFault ByteArray} {path : String} {p : Puzzle}

/-- A file that holds a puzzle which can be built is loaded, -/
theorem load_of_heldAt {built : TransitionSystem × Goal} (h : p.HeldAt read path)
    (hb : p.build = .ok built) : load read path = .ok p := by
  obtain ⟨bytes, text, hr, ht, hd⟩ := h
  simp only [load, hr, ht, ofText, hd, hb]

/-- and one that is of no use is not. -/
theorem load_of_unusable (h : Unusable read path) : ∃ reason, load read path = .error reason := by
  cases h with
  | @unreadable fault hr => exact ⟨.io path fault, by simp only [load, hr]⟩
  | notText hr ht => exact ⟨.io path .notText, by simp only [load, hr, ht]⟩
  | malformed hr ht hd => exact ⟨.json, by simp only [load, hr, ht, ofText, hd]⟩
  | @invalid p reason h hb =>
    obtain ⟨bytes, text, hr, ht, hd⟩ := h
    exact ⟨.invalid p.name reason, by simp only [load, hr, ht, ofText, hd, hb]⟩

/-- A file holds a puzzle that can be built, or is of no use. -/
theorem heldAt_or_unusable (read : String → Except ReadFault ByteArray) (path : String) :
    (∃ (p : Puzzle) (system : TransitionSystem) (goal : Goal),
      p.HeldAt read path ∧ p.build = .ok (system, goal)) ∨ Unusable read path := by
  cases hr : read path with
  | error fault => exact Or.inr (.unreadable hr)
  | ok bytes =>
    cases ht : String.fromUTF8? bytes with
    | none => exact Or.inr (.notText hr ht)
    | some text =>
      cases hd : decode? text with
      | none => exact Or.inr (.malformed hr ht hd)
      | some p =>
        have hheld : p.HeldAt read path := ⟨bytes, text, hr, ht, hd⟩
        cases hb : p.build with
        | error reason => exact Or.inr (.invalid hheld hb)
        | ok built => exact Or.inl ⟨p, built.1, built.2, hheld, hb⟩

end Puzzle

namespace Command

/-! ## Answers

    What each command answers, given what the arguments are read as. -/

/-- The puzzle that a command wants searched, and how. -/
inductive Poses (read : String → Except ReadFault ByteArray) :
    Command → Puzzle → SearchOptions → Prop
  | jugs (measures : JugOptions) (options : SearchOptions) :
      Poses read (.jugs measures options)
        (waterJugs measures.small measures.big measures.goal) options
  | run {path : String} {p : Puzzle} (options : SearchOptions) (h : p.HeldAt read path) :
      Poses read (.run path options) p options

/-- The arguments have made a search run, and this is how it has ended. -/
inductive Ran (read : String → Except ReadFault ByteArray) (arguments : List String) :
    Finished → Prop
  | intro {command : Command} {p : Puzzle} {options : SearchOptions} {system : TransitionSystem}
      {goal : Goal} {e : Explorer} {finished : Finished}
      (hc : ofArguments? arguments = some command) (hp : Poses read command p options)
      (hb : p.build = .ok (system, goal))
      (hs : Explorer.start system goal { Settings.default with maxStates := options.maxStates } =
        .ok e)
      (hr : e.run (fun _ => false) = .ok finished) : Ran read arguments finished

variable {read : String → Except ReadFault ByteArray} {arguments : List String}

/-- A command whose puzzle can be built answers with its solution. -/
theorem respond_of_poses {command : Command} {p : Puzzle} {options : SearchOptions}
    {built : TransitionSystem × Goal} (hp : Poses read command p options)
    (hb : p.build = .ok built) : command.respond read = solve p options := by
  cases hp with
  | jugs measures => rfl
  | run _ hheld => simp only [respond, Puzzle.load_of_heldAt hheld hb]

/-- A command is asked for exactly if the arguments are read as one. -/
theorem ofArguments?_eq_some_iff {command : Command} :
    ofArguments? arguments = some command ↔ ofArguments arguments = .read command := by
  unfold ofArguments?
  cases ofArguments arguments with
  | read other => simp [Reading.read?]
  | help => simp [Reading.read?]
  | misread => simp [Reading.read?]

/-- What is answered to a command. -/
theorem answer_of_command {command : Command} (hc : ofArguments? arguments = some command) :
    answer read arguments = command.respond read := by
  simp only [answer, ofArguments?_eq_some_iff.mp hc]

/-- A search that has run answers with the status of its outcome. -/
theorem Ran.status {finished : Finished} (h : Ran read arguments finished) :
    (answer read arguments).status = outcomeStatus finished.outcome := by
  cases h with
  | intro hc hp hb hs hr =>
    simp only [answer_of_command hc, respond_of_poses hp hb, solve, hb, hs, hr]

/-- It has run for a command. -/
theorem Ran.exists_read {finished : Finished} (h : Ran read arguments finished) :
    ∃ command, ofArguments arguments = .read command := by
  cases h with
  | intro hc hp hb hs hr => exact ⟨_, ofArguments?_eq_some_iff.mp hc⟩

/-- A file of no use has a status of its own. -/
theorem status_of_unusable {path : String} {options : SearchOptions}
    (hc : ofArguments? arguments = some (.run path options)) (hu : Puzzle.Unusable read path) :
    (answer read arguments).status = 1 := by
  obtain ⟨reason, hload⟩ := Puzzle.load_of_unusable hu
  simp only [answer_of_command hc, respond, hload]
  rfl

theorem status_of_help (hc : ofArguments arguments = .help) : (answer read arguments).status = 0 := by
  simp only [answer, hc]

/-- Arguments that are not understood end with the status of a search that found nothing. -/
theorem status_of_misread (hc : ofArguments arguments = .misread) :
    (answer read arguments).status = 2 := by
  simp only [answer, hc]

/-! ## Cases

    Every reading of the arguments of a command that searches falls under one of the four. -/

/-- The commands that search, with the options they know. -/
def searching : List (String × List OptionSpec) :=
  [("jugs", jugSpecs ++ searchSpecs), ("run", puzzleSpecs ++ searchSpecs)]

variable {subcommand : String} {specs : List OptionSpec}

/-- What the arguments of a command that searches can ask for. -/
theorem ofArguments_searching (h : (subcommand, specs) ∈ searching) {rest : List String}
    {command : Command} (hc : ofArguments (subcommand :: rest) = .read command) :
    (∃ measures options, command = .jugs measures options) ∨
      ∃ path options, command = .run path options := by
  rcases List.mem_cons.mp h with heq | h
  · obtain ⟨rfl, rfl⟩ := Prod.mk.inj heq
    obtain ⟨settings, -, hc⟩ := Reading.exists_read_of_bind hc
    exact Or.inl ⟨_, _, (Reading.read.inj hc).symm⟩
  · obtain ⟨rfl, rfl⟩ := Prod.mk.inj (List.mem_singleton.mp h)
    obtain ⟨settings, -, hc⟩ := Reading.exists_read_of_bind hc
    cases hpath : puzzlePath? settings with
    | none =>
      rw [hpath] at hc
      exact absurd hc (by simp)
    | some path =>
      rw [hpath] at hc
      exact Or.inr ⟨path, _, (Reading.read.inj hc).symm⟩

/-- They ask for help exactly if an argument does and all that stands before it is understood. -/
theorem ofArguments_eq_help_iff (h : (subcommand, specs) ∈ searching) {rest : List String} :
    ofArguments (subcommand :: rest) = .help ↔ AsksForHelp specs rest := by
  rw [← readSettings_eq_help_iff]
  rcases List.mem_cons.mp h with heq | h
  · obtain ⟨rfl, rfl⟩ := Prod.mk.inj heq
    exact Reading.bind_eq_help_iff fun settings => by simp
  · obtain ⟨rfl, rfl⟩ := Prod.mk.inj (List.mem_singleton.mp h)
    refine Reading.bind_eq_help_iff fun settings => ?_
    cases puzzlePath? settings with
    | none => simp
    | some path => simp

/-- A puzzle that is posed and can be built is searched to an end. -/
theorem exists_ran {command : Command} {p : Puzzle} {options : SearchOptions}
    {system : TransitionSystem} {goal : Goal} (hc : ofArguments? arguments = some command)
    (hp : Poses read command p options) (hb : p.build = .ok (system, goal)) :
    ∃ finished, Ran read arguments finished := by
  obtain ⟨e, hs⟩ := Puzzle.exists_start hb
    { Settings.default with maxStates := options.maxStates }
  obtain ⟨finished, hr⟩ := (Explorer.Trailed.start hs).answers.run fun _ => false
  exact ⟨finished, .intro hc hp hb hs hr⟩

/-- What becomes of the arguments of a command that searches: they make a search run, or they name a
    file of no use, or they ask for help, or they cannot be understood. -/
theorem searching_cases (h : (subcommand, specs) ∈ searching)
    (read : String → Except ReadFault ByteArray) (rest : List String) :
    (∃ finished, Ran read (subcommand :: rest) finished) ∨
    (∃ path options, ofArguments? (subcommand :: rest) = some (.run path options) ∧
      Puzzle.Unusable read path) ∨
    AsksForHelp specs rest ∨
    ofArguments (subcommand :: rest) = .misread := by
  cases hc : ofArguments (subcommand :: rest) with
  | misread => exact Or.inr (Or.inr (Or.inr rfl))
  | help => exact Or.inr (Or.inr (Or.inl ((ofArguments_eq_help_iff h).mp hc)))
  | read command =>
    have hc? := ofArguments?_eq_some_iff.mpr hc
    rcases ofArguments_searching h hc with ⟨measures, options, rfl⟩ | ⟨path, options, rfl⟩
    · obtain ⟨system, hb, -⟩ := Puzzle.exists_build_of_wellFormed
        (waterJugs_wellFormed measures.small measures.big measures.goal)
      exact Or.inl (exists_ran hc? (.jugs measures options) hb)
    · rcases Puzzle.heldAt_or_unusable read path with ⟨p, system, goal, hheld, hb⟩ | hu
      · exact Or.inl (exists_ran hc? (.run options hheld) hb)
      · exact Or.inr (Or.inl ⟨path, options, hc?, hu⟩)

/-- If each of three conditions gives its own status and one of them holds, then the status tells which. -/
theorem iff_of_cases {status : Nat} {p q r : Prop} (hp : p → status = 0) (hq : q → status = 1)
    (hr : r → status = 2) (h : p ∨ q ∨ r) :
    (status = 0 ↔ p) ∧ (status = 1 ↔ q) ∧ (status = 2 ↔ r) ∧ status ≤ 2 := by
  rcases h with h | h | h
  · have hzero := hp h
    exact ⟨⟨fun _ => h, hp⟩, ⟨fun _ => by omega, hq⟩, ⟨fun _ => by omega, hr⟩, by omega⟩
  · have hone := hq h
    exact ⟨⟨fun _ => by omega, hp⟩, ⟨fun _ => h, hq⟩, ⟨fun _ => by omega, hr⟩, by omega⟩
  · have htwo := hr h
    exact ⟨⟨fun _ => by omega, hp⟩, ⟨fun _ => by omega, hq⟩, ⟨fun _ => h, hr⟩, by omega⟩

/-! ## Statement

    Each of the cases has its status, so the status says which of them it was, up to the two that
    share 0 and the two that share 2. -/

/-- **What the exit status says**, of all arguments of the commands that search and of all files.  It
    is 0 exactly if a search has run and found a goal, or if the arguments ask for help, and then no
    search has run.  It is 1 exactly if the arguments name a file of no use.  It is 2 exactly if a search
    has run and ended without a goal, or if the arguments cannot be understood.  It is never anything
    else. -/
theorem exit_status (read : String → Except ReadFault ByteArray)
    (h : (subcommand, specs) ∈ searching) (rest : List String) :
    (AsksForHelp specs rest → ¬ ∃ finished, Ran read (subcommand :: rest) finished) ∧
    ((answer read (subcommand :: rest)).status = 0 ↔
      (∃ finished w, Ran read (subcommand :: rest) finished ∧ finished.outcome = .found w) ∨
      AsksForHelp specs rest) ∧
    ((answer read (subcommand :: rest)).status = 1 ↔
      ∃ path options, ofArguments? (subcommand :: rest) = some (.run path options) ∧
        Puzzle.Unusable read path) ∧
    ((answer read (subcommand :: rest)).status = 2 ↔
      (∃ finished, Ran read (subcommand :: rest) finished ∧
        (finished.outcome = .exhausted ∨ finished.outcome = .truncated)) ∨
      ofArguments (subcommand :: rest) = .misread) ∧
    (answer read (subcommand :: rest)).status ≤ 2 := by
  constructor
  · rintro hhelp ⟨finished, hran⟩
    obtain ⟨command, hc⟩ := hran.exists_read
    rw [(ofArguments_eq_help_iff h).mpr hhelp] at hc
    cases hc
  -- each of the three events has one status, and one of them happens
  refine iff_of_cases ?_ ?_ ?_ ?_
  · rintro (⟨finished, w, hran, hout⟩ | hhelp)
    · rw [hran.status, hout]
      rfl
    · exact status_of_help ((ofArguments_eq_help_iff h).mpr hhelp)
  · rintro ⟨path, options, hc, hu⟩
    exact status_of_unusable hc hu
  · rintro (⟨finished, hran, hout | hout⟩ | hc)
    · rw [hran.status, hout]
      rfl
    · rw [hran.status, hout]
      rfl
    · exact status_of_misread hc
  · rcases searching_cases h read rest with ⟨finished, hran⟩ | hu | hhelp | hc
    · cases hout : finished.outcome with
      | found w => exact Or.inl (Or.inl ⟨finished, w, hran, hout⟩)
      | exhausted => exact Or.inr (Or.inr (Or.inl ⟨finished, hran, Or.inl hout⟩))
      | truncated => exact Or.inr (Or.inr (Or.inl ⟨finished, hran, Or.inr hout⟩))
    · exact Or.inr (Or.inl hu)
    · exact Or.inl (Or.inr hhelp)
    · exact Or.inr (Or.inr (Or.inr hc))

/-- Searches for four units and for seven in the big one of jugs of three and five, and a file that
    breaks off, end with the three statuses; a request for help ends with the first as well. -/
theorem jugs_exit_status :
    (∃ finished w, Ran (fun _ => .ok "\x7b".toUTF8) ["jugs"] finished ∧
      finished.outcome = .found w) ∧
    (∃ path options, ofArguments? ["run", "-p", "a"] = some (.run path options) ∧
      Puzzle.Unusable (fun _ => .ok "\x7b".toUTF8) path) ∧
    (∃ finished, Ran (fun _ => .ok "\x7b".toUTF8) ["jugs", "--goal=7"] finished ∧
      (finished.outcome = .exhausted ∨ finished.outcome = .truncated)) ∧
    AsksForHelp (jugSpecs ++ searchSpecs) ["--goal=7", "-h", "four"] ∧
    ¬ ∃ finished, Ran (fun _ => .ok "\x7b".toUTF8) ["jugs", "--goal=7", "-h", "four"] finished := by
  have hjugs : ("jugs", jugSpecs ++ searchSpecs) ∈ searching := by decide
  have hrun : ("run", puzzleSpecs ++ searchSpecs) ∈ searching := by decide
  have hfound : (answer (fun _ => .ok "\x7b".toUTF8) ["jugs"]).status = 0 := by decide +kernel
  have hbroken : (answer (fun _ => .ok "\x7b".toUTF8) ["run", "-p", "a"]).status = 1 := by
    decide +kernel
  have hseven : (answer (fun _ => .ok "\x7b".toUTF8) ["jugs", "--goal=7"]).status = 2 := by
    decide +kernel
  have hunderstood : ofArguments ["jugs", "--goal=7"] ≠ .misread := by decide +kernel
  have hidle : ofArguments ["jugs"] ≠ .help := by decide +kernel
  have hhelp : ofArguments ["jugs", "--goal=7", "-h", "four"] = .help := by decide +kernel
  have hasks := (ofArguments_eq_help_iff hjugs).mp hhelp
  refine ⟨((exit_status _ hjugs _).2.1.mp hfound).resolve_right fun hasked =>
      hidle ((ofArguments_eq_help_iff hjugs).mpr hasked),
    (exit_status _ hrun _).2.2.1.mp hbroken,
    ((exit_status _ hjugs _).2.2.2.1.mp hseven).resolve_right hunderstood,
    hasks, (exit_status _ hjugs _).1 hasks⟩

/-- A goal that is no number is invalid, but the status is not that of a file of no use: it is that of
    a search that has found nothing, though none has run. -/
theorem misread_goal_status :
    ofArguments ["jugs", "--goal", "four"] = .misread ∧
    ∀ read, (answer read ["jugs", "--goal", "four"]).status = 2 ∧
      ¬ ∃ finished, Ran read ["jugs", "--goal", "four"] finished := by
  have hmisread : ofArguments ["jugs", "--goal", "four"] = .misread := by decide +kernel
  refine ⟨hmisread, fun read => ⟨status_of_misread hmisread, ?_⟩⟩
  rintro ⟨finished, hran⟩
  obtain ⟨command, hc⟩ := hran.exists_read
  cases hmisread.symm.trans hc

end Command

end GuardedReach
