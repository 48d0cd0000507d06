/-
  Witnesses — traces from the initial state to a goal, read off the links a search leaves behind.

  1. **Bookkeeping** — the parent map holds, for every fingerprint discovered, a link to the state
     that discovered it first; the store holds the states themselves.  A root is linked to itself.

  2. **Program** — `Witness.reconstruct` walks the links from a goal until it meets a self-link and
     returns the steps in the order they were taken.  The maps may be anything at all: a missing
     entry or an action index out of range breaks the chain, and a walk longer than the parent map
     must have met some fingerprint twice, so it is a cycle.
-/
import GuardedReach.Machine.Action

namespace GuardedReach

/-! ## Links and maps

    A link is what a search remembers of how a state was first reached. -/

/-- How a state was first reached. -/
structure Link where
  /-- The discovering state's fingerprint; a root's own. -/
  parent : Fingerprint
  /-- The position of the action taken in the list of actions; none for a root. -/
  action : Option Nat
  /-- The breadth-first level, the number of actions from the root. -/
  depth : UInt32
deriving DecidableEq

/-- The link of an initial state. -/
def Link.root (fp : Fingerprint) : Link :=
  { parent := fp, action := none, depth := 0 }

/-- Links by fingerprint: at once the set of states seen and the search tree. -/
abbrev ParentMap := Std.TreeMap Fingerprint Link

/-- States by fingerprint. -/
abbrev StateStore := Std.TreeMap Fingerprint State

/-! ## Witnesses

    A trace as it is returned. -/

/-- One entry of a trace. -/
structure Step where
  /-- The name of the action that led to the state; none for the initial state. -/
  action : Option String
  state : State
  fingerprint : Fingerprint
deriving DecidableEq

/-- A trace, initial state first. -/
structure Witness where
  steps : List Step
deriving DecidableEq

/-- Why a trace could not be read off. -/
inductive SearchError where
  /-- The fingerprint has no link, or its link names an action that is not there. -/
  | brokenChain (fp : Fingerprint)
  /-- The walk has come to this fingerprint along a cycle. -/
  | parentCycle (fp : Fingerprint)
  | missingState (fp : Fingerprint)
  /-- A result was asked for before the search had ended. -/
  | stillRunning
deriving DecidableEq

def SearchError.message : SearchError → String
  | brokenChain fp => "parent chain broken at " ++ fp.text
  | parentCycle fp => "parent chain loops through " ++ fp.text
  | missingState fp => "no stored state for " ++ fp.text
  | stillRunning => "search has not reached a terminal status"

namespace Witness

/-- The number of states, the initial one included. -/
def length (w : Witness) : Nat :=
  w.steps.length

/-- The number of actions taken. -/
def actionCount (w : Witness) : Nat :=
  w.steps.length - 1

/-- The names of the actions taken, in order. -/
def actionNames (w : Witness) : List String :=
  w.steps.filterMap Step.action

/-- The states visited, in order. -/
def states (w : Witness) : List State :=
  w.steps.map Step.state

/-- The last state. -/
def goal? (w : Witness) : Option State :=
  w.states.getLast?

/-! ## Reading a trace off the links

    The walk goes backwards, so what it finds first comes last. -/

/-- The name of the action a link speaks of, or an error if there is no such action. -/
def actionName (actions : List Action) (fp : Fingerprint) (link : Link) :
    Except SearchError (Option String) :=
  match link.action with
  | none => .ok none
  | some index =>
    match actions[index]? with
    | some a => .ok (some a.name)
    | none => .error (.brokenChain fp)

/-- What a walk finds at a fingerprint: its link and its step.  The link is looked for first, then
    the state, then the action. -/
def visit (parents : ParentMap) (store : StateStore) (actions : List Action) (fp : Fingerprint) :
    Except SearchError (Link × Step) :=
  match parents[fp]? with
  | none => .error (.brokenChain fp)
  | some link =>
    match store[fp]? with
    | none => .error (.missingState fp)
    | some state =>
      (actionName actions fp link).map fun action => (link, { action, state, fingerprint := fp })

/-- Walks from a fingerprint, putting each step before those already `found`; at most `more` links
    may still be followed. -/
def walk (parents : ParentMap) (store : StateStore) (actions : List Action) (more : Nat)
    (fp : Fingerprint) (found : List Step) : Except SearchError (List Step) :=
  match visit parents store actions fp with
  | .error reason => .error reason
  | .ok (link, step) =>
    if link.parent = fp then .ok (step :: found)
    else
      match more with
      | 0 => .error (.parentCycle fp)
      | more + 1 => walk parents store actions more link.parent (step :: found)

/-- **The program**: the trace from a root to `goal`.  No walk without a cycle follows more links
    than the parent map holds. -/
def reconstruct (goal : Fingerprint) (parents : ParentMap) (store : StateStore)
    (actions : List Action) : Except SearchError Witness :=
  (walk parents store actions parents.size goal []).map Witness.mk

end Witness

end GuardedReach
