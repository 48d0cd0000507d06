/-
  Runs — driving a search from where it stands to its end.

  1. **Program** — `Explorer.advance` takes steps, but none once the search has ended, and keeps the
     events that were wanted.  `Explorer.run` takes as many as a search can need and gives the
     outcome.

  2. **Bound** — a fingerprint is queued at most once and there are `2^64` of them, so every search
     has ended after `stepLimit` steps.
-/
import GuardedReach.Search.Explorer

namespace GuardedReach

/-- A run that has come to its end. -/
structure Finished where
  explorer : Explorer
  outcome : Outcome
  events : List Event

namespace Explorer

/-- One step for each fingerprint there is, and one to find the frontier empty. -/
def stepLimit : Nat := UInt64.size + 1

/-- Takes steps, at most `limit` of them, until the search has ended.  The events that are wanted
    are added to those already `kept`. -/
def advance (wanted : Event → Bool) (limit : Nat) (e : Explorer) (kept : Array Event) :
    Except SearchError (Explorer × Array Event) :=
  match limit with
  | 0 => .ok (e, kept)
  | limit + 1 =>
    match e.step with
    | .error reason => .error reason
    | .ok (next, events) =>
      let kept := kept ++ events.filter wanted
      if next.status.isTerminal then .ok (next, kept) else advance wanted limit next kept

/-- What there is to say when a run begins. -/
def opening (e : Explorer) : List Event :=
  [.started e.system.width e.system.actions.length e.system.initial]

/-- What there is to say when a run ends. -/
def closing (e : Explorer) (outcome : Outcome) : List Event :=
  let verdict : Event :=
    match outcome with
    | .found witness => .goalFound witness.actionCount e.stats.discovered
    | .exhausted => .exhausted e.stats.discovered
    | .truncated => .truncated e.stats.discovered
  verdict :: if 0 < e.stats.collisions then [.collisionTotal e.stats.collisions] else []

/-- **The program**: searches to the end.  Only events that are wanted are kept. -/
def run (wanted : Event → Bool) (e : Explorer) : Except SearchError Finished := do
  let (last, kept) ← e.advance wanted stepLimit (e.opening.filter wanted).toArray
  let outcome ← last.outcome
  return {
    explorer := last
    outcome
    events := kept.toList ++ (last.closing outcome).filter wanted }

end Explorer

/-- Searches a system for a goal with the default settings. -/
def search (system : TransitionSystem) (goal : Goal) :
    Except SetupError (Except SearchError Outcome) :=
  (Explorer.start system goal Settings.default).map fun e =>
    (e.run fun _ => false).map Finished.outcome

end GuardedReach
