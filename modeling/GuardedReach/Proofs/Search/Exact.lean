/-
  Exact search — the breadth-first search that tells states apart by the states themselves.

  It is what a search would be without a hash: what has been discovered is looked up by the whole
  state, so nothing can collide.  It runs, but is meant to be compared with.

  1. **Program** — `tryAction` tries one action, `expand` all of them in order, and `step` takes the
     oldest state from the queue, tests it against the goal and expands it if it is none.  The order
     of the actions, the goal test and the rule for the budget are those of any search.

  2. **Traces** — `witness?` follows how states were first reached back to the initial state.

  3. **View** — `origin?` is how a state was first reached, if it was; `origin?_add` is all that
     changes it.
-/
import GuardedReach.Search.Explorer

namespace GuardedReach

/-! ## The state of an exact search

    What has been discovered is a list of states, each with how it was first reached.  It is looked through
    from the front, the latest first. -/

/-- How a state was first reached. -/
structure Origin where
  /-- The discovering state; the initial state's own. -/
  parent : State
  /-- The position of the action taken; none for the initial state. -/
  action : Option Nat
  depth : UInt32

/-- Where an exact search is in its life. -/
inductive Standing where
  | running
  | found (goal : State)
  | exhausted
  | truncated

/-- An exact search under way. -/
structure ExactSearch where
  settings : Settings
  system : TransitionSystem
  goal : Goal
  /-- What awaits expansion, the oldest first. -/
  queue : List State
  /-- What has been discovered, the latest first, and how. -/
  origins : List (State × Origin)
  standing : Standing
  /-- The counters; collisions stay at zero. -/
  stats : Stats
  /-- Whether the budget has dropped a successor. -/
  budgetHit : Bool

namespace ExactSearch

/-- A search that has discovered and queued the initial state and nothing else. -/
def start (system : TransitionSystem) (goal : Goal) (settings : Settings) : ExactSearch :=
  { settings
    system
    goal
    queue := [system.initial]
    origins := [(system.initial, { parent := system.initial, action := none, depth := 0 })]
    standing := .running
    stats := { Stats.zero with discovered := 1, frontierPeak := 1 }
    budgetHit := false }

/-- How a state was first reached. -/
def origin? (x : ExactSearch) (s : State) : Option Origin :=
  x.origins.lookup s

/-- The state has been reached. -/
def Discovered (x : ExactSearch) (s : State) : Prop :=
  (x.origin? s).isSome = true

instance (x : ExactSearch) (s : State) : Decidable (x.Discovered s) :=
  inferInstanceAs (Decidable (_ = true))

/-- The level of a state that has been discovered. -/
def depth (x : ExactSearch) (s : State) : UInt32 :=
  ((x.origin? s).map Origin.depth).getD 0

/-- Whether the budget is spent. -/
def isFull (x : ExactSearch) : Bool :=
  x.settings.maxStates.any fun budget => budget ≤ x.stats.discovered

/-! ## Searching

    Attempts, expansions and steps as the search has them, without the two maps. -/

/-- Records and queues a state. -/
def add (x : ExactSearch) (t : State) (origin : Origin) : ExactSearch :=
  { x with
    queue := x.queue ++ [t]
    origins := (t, origin) :: x.origins
    stats :=
      { x.stats with
        discovered := x.stats.discovered + 1
        maxDepth := max x.stats.maxDepth origin.depth
        frontierPeak := max x.stats.frontierPeak (x.queue.length + 1) } }

/-- Tries the action at position `index` on a state of the given level. -/
def tryAction (x : ExactSearch) (current : State) (depth : UInt32) (index : Nat) (a : Action) :
    ExactSearch :=
  match a.apply current with
  | none => { x with stats := { x.stats with tried := x.stats.tried + 1 } }
  | some t =>
    let stats := { x.stats with tried := x.stats.tried + 1, applied := x.stats.applied + 1 }
    if x.Discovered t then { x with stats := { stats with duplicates := stats.duplicates + 1 } }
    else if x.isFull then { x with stats, budgetHit := true }
    else { x with stats }.add t { parent := current, action := some index, depth := depth + 1 }

/-- Tries all actions in order. -/
def expand (x : ExactSearch) (current : State) (depth : UInt32) : ExactSearch :=
  x.system.actions.zipIdx.foldl (fun y entry => y.tryAction current depth entry.2 entry.1) x

/-- One step of the search.  A search that has ended stays as it is. -/
def step (x : ExactSearch) : ExactSearch :=
  match x.standing with
  | .running =>
    match x.queue with
    | [] => { x with standing := if x.budgetHit then .truncated else .exhausted }
    | current :: queue =>
      if x.goal.holds current then { x with queue, standing := .found current }
      else
        { x with queue, stats := { x.stats with expanded := x.stats.expanded + 1 } }.expand current
          (x.depth current)
  | .found _ | .exhausted | .truncated => x

variable {x : ExactSearch} {s : State} {queue : List State}

/-- A search that has ended stays as it is, -/
theorem step_of_ended (h : x.standing ≠ .running) : x.step = x := by
  unfold step
  cases hx : x.standing with
  | running => exact absurd hx h
  | found goal => rfl
  | exhausted => rfl
  | truncated => rfl

/-- one with nothing queued ends, -/
theorem step_of_empty (h : x.standing = .running) (hq : x.queue = []) :
    x.step = { x with standing := if x.budgetHit then .truncated else .exhausted } := by
  unfold step
  simp only [h, hq]

/-- one that takes a goal ends with it, -/
theorem step_of_goal (h : x.standing = .running) (hq : x.queue = s :: queue)
    (hg : x.goal.holds s = true) : x.step = { x with queue, standing := .found s } := by
  unfold step
  simp only [h, hq, hg, if_true]

/-- and one that takes any other state expands it. -/
theorem step_of_not_goal (h : x.standing = .running) (hq : x.queue = s :: queue)
    (hg : x.goal.holds s = false) :
    x.step =
      ({ x with queue, stats := { x.stats with expanded := x.stats.expanded + 1 } } :
        ExactSearch).expand s (x.depth s) := by
  unfold step
  simp only [h, hq, hg, Bool.false_eq_true, if_false]

/-- The search after `n` steps. -/
def steps (x : ExactSearch) : Nat → ExactSearch
  | 0 => x
  | n + 1 => (x.steps n).step

/-! ## Traces

    Traces are read off the same way, and stop after as many steps as there are states. -/

/-- The step of a trace that stands for a state reached in the given way. -/
def entry (x : ExactSearch) (s : State) (origin : Origin) : Step :=
  { action := (origin.action.bind fun index => x.system.actions[index]?).map Action.name
    state := s
    fingerprint := s.fingerprint }

/-- The trace that leads to a state; at most `more` links may be followed. -/
def trace (x : ExactSearch) (more : Nat) (s : State) : Option (List Step) :=
  match x.origin? s with
  | none => none
  | some origin =>
    if origin.parent = s then some [x.entry s origin]
    else
      match more with
      | 0 => none
      | more + 1 => (x.trace more origin.parent).map fun steps => steps ++ [x.entry s origin]

/-- The trace from the initial state to a state; it is no longer than the states are many. -/
def witness? (x : ExactSearch) (s : State) : Option Witness :=
  (x.trace x.stats.discovered s).map Witness.mk

/-- What the search gives, once it has ended. -/
def outcome? (x : ExactSearch) : Option Outcome :=
  match x.standing with
  | .running => none
  | .found goal => (x.witness? goal).map .found
  | .exhausted => some .exhausted
  | .truncated => some .truncated

/-! ## The view

    All that is asked of the list of origins is what is found in it. -/

/-- A state has been discovered if there is a way in which it was first reached. -/
theorem discovered_iff {x : ExactSearch} {s : State} :
    x.Discovered s ↔ ∃ origin, x.origin? s = some origin :=
  Option.isSome_iff_exists

/-- A state that is added is found, and nothing else changes. -/
theorem origin?_add (x : ExactSearch) (t : State) (origin : Origin) (s : State) :
    (x.add t origin).origin? s = if s = t then some origin else x.origin? s := by
  unfold origin? add
  rw [List.lookup_cons]
  by_cases h : s = t
  · rw [if_pos h, beq_iff_eq.mpr h]
  · rw [if_neg h, beq_false_of_ne h]

/-- Adding a state makes one more discovered, and no other. -/
theorem discovered_add_iff (x : ExactSearch) (t : State) (origin : Origin) (s : State) :
    (x.add t origin).Discovered s ↔ s = t ∨ x.Discovered s := by
  unfold Discovered
  rw [origin?_add]
  by_cases h : s = t
  · simp [h]
  · simp [h]

/-- Trying an action takes no discovery back. -/
theorem discovered_tryAction {x : ExactSearch} {s : State} (h : x.Discovered s) (current : State)
    (depth : UInt32) (index : Nat) (a : Action) :
    (x.tryAction current depth index a).Discovered s := by
  unfold tryAction
  cases a.apply current with
  | none => exact h
  | some t =>
    simp only
    split
    · exact h
    · split
      · exact h
      · exact (discovered_add_iff ..).mpr (Or.inr h)

/-- A state lies as deep as the way it was first reached says. -/
theorem depth_of_origin? {x : ExactSearch} {s : State} {origin : Origin}
    (h : x.origin? s = some origin) : x.depth s = origin.depth := by
  rw [depth, h]
  rfl

end ExactSearch

end GuardedReach
