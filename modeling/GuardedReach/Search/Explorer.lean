/-
  The explorer — breadth-first search over the states of a system.

  An explorer owns a frontier, a parent map, a store of states and its counters.  States are told
  apart by fingerprint alone: a successor whose fingerprint is known is dropped, and if it differs
  from the state stored there it is counted as a collision.

  1. **One action** — `attempt` decides what trying an action on a state amounts to, `record` says
     what that does to the explorer, and `Attempt.events` what there is to say about it.

  2. **One state** — `expand` tries every action in order.  `step` takes the oldest state from the
     frontier, tests it against the goal and, if it is none, expands it.

  3. **Budget** — once `maxStates` states are recorded, new successors are dropped; those already
     queued are still tested and expanded, and a search that ends without a goal is then truncated
     rather than exhausted.
-/
import GuardedReach.Search.Event
import GuardedReach.Search.Frontier
import GuardedReach.Search.Outcome
import GuardedReach.TransitionSystem

namespace GuardedReach

/-! ## The state of a search

    Everything a search knows is in here, so that a step is a function of it. -/

/-- How a search is to be run. -/
structure Settings where
  /-- Record no more states than this; no bound if none. -/
  maxStates : Option Nat
  /-- Report progress each time this many more states are expanded; never if zero. -/
  progressInterval : Nat

/-- No bound on the states, and a word of progress every ten thousand. -/
def Settings.default : Settings :=
  { maxStates := none, progressInterval := 10000 }

/-- A search under way. -/
structure Explorer where
  settings : Settings
  system : TransitionSystem
  goal : Goal
  frontier : Frontier
  parents : ParentMap
  store : StateStore
  status : Status
  stats : Stats
  /-- The level of the state most recently taken from the frontier. -/
  level : UInt32
  /-- Whether the budget has dropped a successor. -/
  budgetHit : Bool

namespace Explorer

/-- A search that has recorded and queued the initial state and nothing else.  The goal must be one
    that can be tested on states of the system's width. -/
def start (system : TransitionSystem) (goal : Goal) (settings : Settings) :
    Except SetupError Explorer :=
  (goal.check system.width).map fun _ =>
    let root := system.initial.fingerprint
    let frontier := Frontier.empty.push root
    { settings
      system
      goal
      frontier
      parents := (∅ : ParentMap).insert root (Link.root root)
      store := (∅ : StateStore).insert root system.initial
      status := .running
      stats := { Stats.zero with discovered := 1, frontierPeak := frontier.peak }
      level := 0
      budgetHit := false }

/-! ## Trying one action

    First what an attempt amounts to, and then what is done about it. -/

/-- What trying an action on a state amounts to. -/
inductive Attempt where
  /-- An instruction of the action refused. -/
  | refused (instruction : Instruction)
  /-- The successor's fingerprint is known; the state stored under it comes along. -/
  | known (next : State) (stored : Option State)
  /-- The successor is new but the budget is spent. -/
  | dropped (budget : Nat)
  /-- The successor is new. -/
  | fresh (next : State)

/-- Decides what trying an action on a state amounts to. -/
def attempt (e : Explorer) (a : Action) (s : State) : Attempt :=
  match a.run s with
  | .error instruction => .refused instruction
  | .ok next =>
    if e.parents.contains next.fingerprint then .known next e.store[next.fingerprint]?
    else
      match e.settings.maxStates with
      | some budget => if budget ≤ e.stats.discovered then .dropped budget else .fresh next
      | none => .fresh next

/-- The explorer after the attempt at the action at position `index` on the state filed under
    `current`, which lies at level `depth`. -/
def record (e : Explorer) (current : Fingerprint) (depth : UInt32) (index : Nat) :
    Attempt → Explorer
  | .refused _ => { e with stats := { e.stats with tried := e.stats.tried + 1 } }
  | .known next stored =>
    { e with
      stats :=
        { e.stats with
          tried := e.stats.tried + 1
          applied := e.stats.applied + 1
          duplicates := e.stats.duplicates + 1
          collisions := e.stats.collisions + if stored = some next then 0 else 1 } }
  | .dropped _ =>
    { e with
      stats := { e.stats with tried := e.stats.tried + 1, applied := e.stats.applied + 1 }
      budgetHit := true }
  | .fresh next =>
    let fp := next.fingerprint
    let frontier := e.frontier.push fp
    { e with
      parents := e.parents.insert fp { parent := current, action := some index, depth := depth + 1 }
      store := e.store.insert fp next
      frontier
      stats :=
        { e.stats with
          tried := e.stats.tried + 1
          applied := e.stats.applied + 1
          discovered := e.stats.discovered + 1
          maxDepth := max e.stats.maxDepth (depth + 1)
          frontierPeak := frontier.peak } }

/-- What there is to say about an attempt at an action on a state. -/
def Attempt.events (e : Explorer) (a : Action) (s : State) : Attempt → List Event
  | refused instruction => [.refused a.name instruction s]
  | known next stored => if stored = some next then [] else [.collision next stored]
  | dropped budget => if e.budgetHit then [] else [.budgetReached budget]
  | fresh _ => []

/-! ## Expanding one state

    The search that one action leaves is the one that the next is tried in. -/

/-- Tries the actions in turn, the first of them being at position `index`. -/
def expand (e : Explorer) (current : Fingerprint) (s : State) (depth : UInt32) (index : Nat) :
    List Action → Explorer × List Event
  | [] => (e, [])
  | a :: rest =>
    let attempt := e.attempt a s
    let after := (e.record current depth index attempt).expand current s depth (index + 1) rest
    (after.1, attempt.events e a s ++ after.2)

/-- Notes that a state of the given level was taken from the frontier. -/
def enterLevel (e : Explorer) (depth : UInt32) : Explorer × List Event :=
  if e.level < depth then
    ({ e with level := depth }, [.levelReached depth e.stats.discovered e.frontier.length])
  else (e, [])

/-- Counts a state as expanded. -/
def countExpanded (e : Explorer) : Explorer × List Event :=
  let expanded := e.stats.expanded + 1
  let interval := e.settings.progressInterval
  ({ e with stats := { e.stats with expanded } },
    if 0 < interval ∧ expanded % interval = 0 then
      [.progress expanded e.stats.discovered e.frontier.length]
    else [])

/-- Tests a state taken from the frontier against the goal and, if it is none, expands it. -/
def visit (e : Explorer) (current : Fingerprint) (s : State) (depth : UInt32) :
    Explorer × List Event :=
  let entered := e.enterLevel depth
  if e.goal.holds s then ({ entered.1 with status := .found current }, entered.2)
  else
    let counted := entered.1.countExpanded
    let expanded := counted.1.expand current s depth 0 e.system.actions
    (expanded.1, entered.2 ++ counted.2 ++ expanded.2)

/-- **The program**: one step of the search, with what there is to say about it.  A search that has
    ended stays as it is. -/
def step (e : Explorer) : Except SearchError (Explorer × List Event) :=
  if e.status.isTerminal then .ok (e, [])
  else
    match e.frontier.pop? with
    | none => .ok ({ e with status := if e.budgetHit then .truncated else .exhausted }, [])
    | some (current, frontier) =>
      match e.store[current]? with
      | none => .error (.missingState current)
      | some s =>
        match e.parents[current]? with
        | none => .error (.brokenChain current)
        | some link => .ok (({ e with frontier }).visit current s link.depth)

/-- The trace from the initial state to the state with a fingerprint. -/
def witness (e : Explorer) (goal : Fingerprint) : Except SearchError Witness :=
  Witness.reconstruct goal e.parents e.store e.system.actions

/-- What the search gives, once it has ended. -/
def outcome (e : Explorer) : Except SearchError Outcome :=
  match e.status with
  | .running => .error .stillRunning
  | .found goal => (e.witness goal).map .found
  | .exhausted => .ok .exhausted
  | .truncated => .ok .truncated

end Explorer

end GuardedReach
