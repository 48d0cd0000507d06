/-
  Events — what a search has to say while it works.

  An event is a value that names what happened; `Event.level` gives its severity and
  `Event.message` its wording.  Which events are kept is up to whoever runs the search.
-/
import GuardedReach.Machine.Action

namespace GuardedReach

/-- How severe an event is, the most severe first. -/
inductive Level where
  | error
  | warn
  | info
  | debug
  | trace
deriving DecidableEq

namespace Level

def all : List Level :=
  [error, warn, info, debug, trace]

/-- The rank of a level; the most severe has rank 0. -/
def rank : Level → Nat
  | error => 0
  | warn => 1
  | info => 2
  | debug => 3
  | trace => 4

/-- The name in lower case. -/
def name : Level → String
  | error => "error"
  | warn => "warn"
  | info => "info"
  | debug => "debug"
  | trace => "trace"

/-- The name as records show it. -/
def label : Level → String
  | error => "ERROR"
  | warn => "WARN"
  | info => "INFO"
  | debug => "DEBUG"
  | trace => "TRACE"

end Level

/-- Something that happened in a search. -/
inductive Event where
  /-- A run begins. -/
  | started (width actionCount : Nat) (initial : State)
  /-- A state of a deeper level than any before was taken from the frontier. -/
  | levelReached (depth : UInt32) (discovered queued : Nat)
  /-- A multiple of the progress interval has been expanded. -/
  | progress (expanded discovered queued : Nat)
  /-- An instruction of an action refused; the state is the one the action was tried on. -/
  | refused (action : String) (instruction : Instruction) (state : State)
  /-- A successor differs from what is stored under its fingerprint. -/
  | collision (candidate : State) (stored : Option State)
  /-- The state budget dropped a successor for the first time. -/
  | budgetReached (budget : Nat)
  | goalFound (actionCount discovered : Nat)
  | exhausted (discovered : Nat)
  | truncated (discovered : Nat)
  /-- Collisions were counted in the course of the search. -/
  | collisionTotal (collisions : Nat)
deriving DecidableEq

namespace Event

/-- How severe each kind of event is. -/
def level : Event → Level
  | started .. | goalFound .. | exhausted .. => .info
  | levelReached .. | progress .. => .debug
  | refused .. => .trace
  | collision .. | budgetReached .. | truncated .. | collisionTotal .. => .warn

/-- How a state that may be missing is written. -/
def storedText : Option State → String
  | some s => "Some(" ++ s.text ++ ")"
  | none => "None"

/-- What is said of an event. -/
def message : Event → String
  | started width actionCount initial =>
    "Starting search: " ++ width.repr ++ " registers, " ++ actionCount.repr ++
      " actions, initial " ++ initial.text
  | levelReached depth discovered queued =>
    "BFS level " ++ depth.toNat.repr ++ ": " ++ discovered.repr ++ " states discovered, " ++
      queued.repr ++ " queued"
  | progress expanded discovered queued =>
    "Expanded " ++ expanded.repr ++ " states, " ++ discovered.repr ++ " discovered, frontier " ++
      queued.repr
  | refused action instruction state =>
    action ++ ": '" ++ instruction.text ++ "' refused on " ++ state.text
  | collision candidate stored =>
    "Fingerprint collision at " ++ candidate.fingerprint.text ++ ": " ++ candidate.text ++
      " vs stored " ++ storedText stored
  | budgetReached budget =>
    "State budget of " ++ budget.repr ++ " reached; draining the frontier"
  | goalFound actionCount discovered =>
    "Found target after " ++ actionCount.repr ++ " actions (" ++ discovered.repr ++
      " states discovered)"
  | exhausted discovered =>
    "Search space exhausted: " ++ discovered.repr ++ " states, no state satisfies the target"
  | truncated discovered => "Search stopped at the " ++ discovered.repr ++ "-state budget"
  | collisionTotal collisions =>
    collisions.repr ++ " fingerprint collisions were treated as duplicates"

/-- Whether the event is at least as severe as the threshold. -/
def isWithin (event : Event) (threshold : Level) : Bool :=
  event.level.rank ≤ threshold.rank

end Event

end GuardedReach
