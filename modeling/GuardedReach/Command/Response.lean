/-
  What the command line answers: an exit status and two texts.

  The status is 0 when a search found its goal and 2 when it ended without; a file of no use is
  answered by 1 and a message.  A search shows its configuration beside the report, unless the
  report is to be JSON.  Files are whatever a reader gives for a path.
-/
import GuardedReach.Command.Arguments
import GuardedReach.Format.Report
import GuardedReach.Puzzle.File
import GuardedReach.Puzzle.Jugs
import GuardedReach.Report.Text

namespace GuardedReach

/-- The answer to a command. -/
structure Response where
  status : Nat
  output : String
  errors : String
deriving DecidableEq

namespace Response

/-- An answer that is nothing but a message about invalid input. -/
def invalid (message : String) : Response :=
  { status := 1, output := "", errors := unlines ["Error: " ++ message] }

end Response

/-- A message with the messages of what lies behind it. -/
def chained (message : String) (causes : List String) : String :=
  ": ".intercalate (message :: causes)

namespace Command

/-- The configuration that is shown when a search begins. -/
def bannerLines (p : Puzzle) (system : TransitionSystem) (goal : Goal) (maxStates : Option Nat) :
    List String :=
  [ Report.rule,
    "  Register Search",
    Report.rule,
    "",
    "Configuration:",
    "  Puzzle:         " ++ p.name,
    "  Registers:      " ++ ", ".intercalate system.registerNames,
    "  Initial:        " ++ system.initial.text,
    "  Actions:        " ++ system.actions.length.repr,
    "  Target:         " ++ goal.text,
    "  Max states:     " ++ maxStates.elim "unlimited" Nat.repr,
    "" ]

/-- The exit status that tells how a search ended. -/
def outcomeStatus : Outcome → Nat
  | .found _ => 0
  | .exhausted | .truncated => 2

/-- A report as it is printed. -/
def reportOutput (report : Report) (json : Bool) : String :=
  if json then unlines [report.toJson.prettyText] else unlines [report.text]

/-- Searches what a puzzle describes. -/
def solve (p : Puzzle) (options : SearchOptions) : Response :=
  match p.build with
  | .error reason =>
    .invalid ("invalid puzzle '" ++ p.name ++ "': " ++ chained reason.message reason.causes)
  | .ok (system, goal) =>
    let banner :=
      if options.json then "" else unlines (bannerLines p system goal options.maxStates)
    match Explorer.start system goal { Settings.default with maxStates := options.maxStates } with
    | .error reason =>
      let failure := Response.invalid (chained reason.message reason.causes)
      { failure with errors := banner ++ failure.errors }
    | .ok explorer =>
      match explorer.run fun _ => false with
      | .error reason =>
        let failure := Response.invalid ("search failed: " ++ reason.message)
        { failure with errors := banner ++ failure.errors }
      | .ok finished =>
        { status := outcomeStatus finished.outcome
          output := reportOutput (finished.explorer.report p.name finished.outcome) options.json
          errors := banner }

/-- **The program**: the answer to a command. -/
def respond (read : String → Except ReadFault ByteArray) : Command → Response
  | jugs measures options => solve (waterJugs measures.small measures.big measures.goal) options
  | run path options =>
    match Puzzle.load read path with
    | .error reason =>
      .invalid ("failed to load puzzle: " ++ chained reason.message reason.causes)
    | .ok p => solve p options
  | template measures =>
    { status := 0
      output := unlines [(waterJugs measures.small measures.big measures.goal).fileText]
      errors := "" }

/-- What is said to who asks for help, and about arguments that cannot be understood. -/
def usageLines : List String :=
  [ "usage: jugs [--small N] [--big N] [--goal N] [--max-states N] [--json]",
    "       run --puzzle FILE [--max-states N] [--json]",
    "       template [--small N] [--big N] [--goal N]" ]

/-- The answer to arguments.  Help is given with the status 0, and nothing else is done; arguments that
    cannot be understood have the status 2. -/
def answer (read : String → Except ReadFault ByteArray) (arguments : List String) : Response :=
  match ofArguments arguments with
  | .read command => command.respond read
  | .help => { status := 0, output := unlines usageLines, errors := "" }
  | .misread => { status := 2, output := "", errors := unlines usageLines }

end Command

end GuardedReach
