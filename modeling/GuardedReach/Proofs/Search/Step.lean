/-
  Steps — all that one attempt, one expansion and one step of a search can do.

  Everything later is proved from three statements, and opens none of the functions again:

  1. **One attempt** — `tried_attempt`: what trying an action on a state amounts to, with the
     conditions under which it does.

  2. **One expansion** — `expand_induction`: what the record of one attempt preserves, a whole
     expansion preserves.  The attempts made so far come along (`attempts`), and their number is the
     position of the action that is tried next.

  3. **One step** — `stepped_of_step`: a step rests, ends the search, finds a goal or expands a
     state, and `leg` is what it did.

  `eq_of_start` says what a search starts from.  From there and from steps, `Trailed` builds whole
  searches, and `Arises` all that callers can come to hold.  `Verdict` is what the status of a search
  means for the search itself.
-/
import GuardedReach.Search.Run

namespace GuardedReach

namespace Explorer

/-! ## One attempt

    An action is refused, or else its successor is known, dropped or new.  Each of the four comes with the
    conditions under which it happens. -/

/-- What trying the action on the state can amount to, and when it does. -/
inductive Tried (e : Explorer) (a : Action) (s : State) : Attempt → Prop
  | refused {ins : Instruction} (ha : a.apply s = none) : Tried e a s (.refused ins)
  | known {t : State} (ha : a.apply s = some t) (hk : t.fingerprint ∈ e.parents) :
      Tried e a s (.known t e.store[t.fingerprint]?)
  | dropped {t : State} {budget : Nat} (ha : a.apply s = some t) (hk : t.fingerprint ∉ e.parents)
      (hb : e.settings.maxStates = some budget) (hd : budget ≤ e.stats.discovered) :
      Tried e a s (.dropped budget)
  | fresh {t : State} (ha : a.apply s = some t) (hk : t.fingerprint ∉ e.parents)
      (hroom : ∀ budget, e.settings.maxStates = some budget → e.stats.discovered < budget) :
      Tried e a s (.fresh t)

/-- **Inversion of an attempt.** -/
theorem tried_attempt (e : Explorer) (a : Action) (s : State) : Tried e a s (e.attempt a s) := by
  unfold attempt
  cases hr : a.run s with
  | error ins => exact .refused (Action.apply_eq_none_iff.mpr ⟨ins, hr⟩)
  | ok t =>
    have ha : a.apply s = some t := Action.apply_eq_some_iff.mpr hr
    simp only
    split
    · next hk => exact .known ha (Std.TreeMap.contains_iff_mem.mp hk)
    · next hk =>
      have hk : t.fingerprint ∉ e.parents := fun h => hk (Std.TreeMap.contains_iff_mem.mpr h)
      split
      · next budget hb =>
        split
        · next hd => exact .dropped ha hk hb hd
        · next hd =>
          refine .fresh ha hk fun other ho => ?_
          obtain rfl := Option.some.inj (hb.symm.trans ho)
          omega
      · next hb =>
        refine .fresh ha hk fun other ho => ?_
        rw [hb] at ho
        exact absurd ho (by simp)

/-! ## One expansion

    The list of actions is gone through with a search that changes on the way.  What is proved of it takes
    one induction, made here. -/

/-- The attempts that are made when the actions are tried in turn, the first of them being at
    position `index`. -/
def attempts (e : Explorer) (current : Fingerprint) (s : State) (depth : UInt32) (index : Nat) :
    List Action → List Attempt
  | [] => []
  | a :: rest =>
    e.attempt a s ::
      (e.record current depth index (e.attempt a s)).attempts current s depth (index + 1) rest

theorem length_attempts (e : Explorer) (current : Fingerprint) (s : State) (depth : UInt32)
    (index : Nat) (actions : List Action) :
    (e.attempts current s depth index actions).length = actions.length := by
  induction actions generalizing e index with
  | nil => rfl
  | cons a rest ih => rw [attempts, List.length_cons, List.length_cons, ih]

/-- **Induction over an expansion.**  What the record of each attempt preserves holds when all
    actions have been tried. -/
theorem expand_induction {actions : List Action} {current : Fingerprint} {s : State}
    {depth : UInt32} {motive : List Attempt → Explorer → Prop}
    (hrecord : ∀ tries a e, actions[tries.length]? = some a → motive tries e →
      motive (tries ++ [e.attempt a s])
        (e.record current depth tries.length (e.attempt a s)))
    {e : Explorer} (h : motive [] e) :
    motive (e.attempts current s depth 0 actions) (e.expand current s depth 0 actions).1 := by
  -- on the actions that are left, with the attempts made so far
  suffices hgen : ∀ rest tries e, actions.drop tries.length = rest → motive tries e →
      motive (tries ++ e.attempts current s depth tries.length rest)
        (e.expand current s depth tries.length rest).1 from hgen actions [] e rfl h
  intro rest
  induction rest with
  | nil =>
    intro tries e _ h
    rw [attempts, expand, List.append_nil]
    exact h
  | cons a rest ih =>
    intro tries e hdrop h
    have ha : actions[tries.length]? = some a := by
      rw [← List.head?_drop, hdrop]
      rfl
    have hlen : (tries ++ [e.attempt a s]).length = tries.length + 1 := by simp
    have hdrop' : actions.drop (tries ++ [e.attempt a s]).length = rest := by
      rw [hlen, ← List.drop_drop, hdrop]
      rfl
    have hrest := ih (tries ++ [e.attempt a s]) _ hdrop' (hrecord tries a e ha h)
    rw [hlen, List.append_assoc] at hrest
    exact hrest

/-- An expansion is a fold over the actions and their positions. -/
theorem expand_eq_foldl (e : Explorer) (current : Fingerprint) (s : State) (depth : UInt32)
    (index : Nat) (actions : List Action) :
    (e.expand current s depth index actions).1 =
      (actions.zipIdx index).foldl
        (fun f entry => f.record current depth entry.2 (f.attempt entry.1 s)) e := by
  induction actions generalizing e index with
  | nil => rfl
  | cons a rest ih =>
    rw [List.zipIdx_cons, List.foldl_cons, ← ih]
    rfl

/-- What the record of an attempt never touches. -/
theorem frame_record (e : Explorer) (current : Fingerprint) (depth : UInt32) (index : Nat)
    (attempt : Attempt) :
    (e.record current depth index attempt).system = e.system ∧
      (e.record current depth index attempt).goal = e.goal ∧
      (e.record current depth index attempt).settings = e.settings ∧
      (e.record current depth index attempt).status = e.status := by
  cases attempt <;> exact ⟨rfl, rfl, rfl, rfl⟩

/-- The record of an attempt never takes a collision back. -/
theorem collisions_le_record (e : Explorer) (current : Fingerprint) (depth : UInt32) (index : Nat)
    (attempt : Attempt) :
    e.stats.collisions ≤ (e.record current depth index attempt).stats.collisions := by
  cases attempt with
  | refused ins => exact Nat.le_refl _
  | known next stored => exact Nat.le_add_right _ _
  | dropped budget => exact Nat.le_refl _
  | fresh next => exact Nat.le_refl _

/-- What an expansion never touches. -/
theorem frame_expand (e : Explorer) (current : Fingerprint) (s : State) (depth : UInt32)
    (actions : List Action) :
    (e.expand current s depth 0 actions).1.system = e.system ∧
      (e.expand current s depth 0 actions).1.status = e.status := by
  refine expand_induction
    (motive := fun _ f => f.system = e.system ∧ f.status = e.status) ?_ ⟨rfl, rfl⟩
  rintro tries a f - ⟨hsystem, hstatus⟩
  obtain ⟨hsystem', -, -, hstatus'⟩ := frame_record f current depth tries.length (f.attempt a s)
  exact ⟨hsystem'.trans hsystem, hstatus'.trans hstatus⟩

/-! ## One step

    The four things a step can do, each with the search it leaves and with what it did. -/

/-- The explorer that has taken a state of the given level from its frontier, which left `frontier`
    there, and is about to try the actions on it. -/
def opened (e : Explorer) (frontier : Frontier) (depth : UInt32) : Explorer :=
  { e with
    frontier
    level := if e.level < depth then depth else e.level
    stats := { e.stats with expanded := e.stats.expanded + 1 } }

/-- The explorer that has taken a goal of the given level from its frontier. -/
def foundAt (e : Explorer) (frontier : Frontier) (depth : UInt32) (goal : Fingerprint) : Explorer :=
  { e with
    frontier
    level := if e.level < depth then depth else e.level
    status := .found goal }

/-- The explorer that has met an empty frontier. -/
def ended (e : Explorer) : Explorer :=
  { e with status := if e.budgetHit then .truncated else .exhausted }

/-- What a search has done: the fingerprints it has taken from its frontier, those of them that it
    has expanded, the attempts it has made, and the events it has told of, each in order. -/
structure Trail where
  taken : List Fingerprint
  expanded : List Fingerprint
  attempts : List Attempt
  events : List Event

/-- Nothing done yet. -/
def Trail.empty : Trail :=
  { taken := [], expanded := [], attempts := [], events := [] }

/-- One trail and then another. -/
def Trail.append (front back : Trail) : Trail :=
  { taken := front.taken ++ back.taken
    expanded := front.expanded ++ back.expanded
    attempts := front.attempts ++ back.attempts
    events := front.events ++ back.events }

/-- What the next step takes from the frontier, the frontier it leaves, and the state and the link
    that are filed under what it takes. -/
def upcoming? (e : Explorer) : Option (Fingerprint × Frontier × State × Link) :=
  if e.status.isTerminal then none
  else do
    let (current, frontier) ← e.frontier.pop?
    let s ← e.store[current]?
    let link ← e.parents[current]?
    return (current, frontier, s, link)

/-- What the next step does, if these are the events it tells of. -/
def leg (e : Explorer) (events : List Event) : Trail :=
  match e.upcoming? with
  | none => { Trail.empty with events }
  | some (current, frontier, s, link) =>
    if e.goal.holds s then { Trail.empty with taken := [current], events }
    else
      { taken := [current]
        expanded := [current]
        attempts :=
          (e.opened frontier link.depth).attempts current s link.depth 0 e.system.actions
        events }

/-- What a step that takes a state from the frontier finds. -/
structure Visits (e : Explorer) (current : Fingerprint) (frontier : Frontier) (s : State)
    (link : Link) : Prop where
  running : e.status = .running
  popped : e.frontier.pop? = some (current, frontier)
  stored : e.store[current]? = some s
  linked : e.parents[current]? = some link

/-- What a step can do, and the explorer it leads to. -/
inductive Stepped (e : Explorer) (events : List Event) : Trail → Explorer → Prop
  | rested (ht : e.status.isTerminal = true) : Stepped e events { Trail.empty with events } e
  | ended (hr : e.status = .running) (hq : e.frontier.toList = []) :
      Stepped e events { Trail.empty with events } e.ended
  | found {current : Fingerprint} {frontier : Frontier} {s : State} {link : Link}
      (hv : e.Visits current frontier s link) (hg : e.goal.holds s = true) :
      Stepped e events { Trail.empty with taken := [current], events }
        (e.foundAt frontier link.depth current)
  | expanded {current : Fingerprint} {frontier : Frontier} {s : State} {link : Link}
      (hv : e.Visits current frontier s link) (hg : e.goal.holds s = false) :
      Stepped e events
        { taken := [current]
          expanded := [current]
          attempts :=
            (e.opened frontier link.depth).attempts current s link.depth 0 e.system.actions
          events }
        ((e.opened frontier link.depth).expand current s link.depth 0 e.system.actions).1

theorem isTerminal_eq_false_iff {status : Status} :
    status.isTerminal = false ↔ status = .running := by
  cases status <;> simp [Status.isTerminal]

/-- The visit of a goal ends the search there, -/
theorem visit_fst_of_goal {e : Explorer} {frontier : Frontier} {current : Fingerprint} {s : State}
    {depth : UInt32} (hg : e.goal.holds s = true) :
    (({ e with frontier } : Explorer).visit current s depth).1 =
      e.foundAt frontier depth current := by
  unfold visit enterLevel foundAt
  simp only [hg, if_true]
  split <;> rfl

/-- and the visit of any other state expands it. -/
theorem visit_fst_of_not_goal {e : Explorer} {frontier : Frontier} {current : Fingerprint}
    {s : State} {depth : UInt32} (hg : e.goal.holds s = false) :
    (({ e with frontier } : Explorer).visit current s depth).1 =
      ((e.opened frontier depth).expand current s depth 0 e.system.actions).1 := by
  unfold visit enterLevel countExpanded opened
  simp only [hg, Bool.false_eq_true, if_false]
  split <;> rfl

/-- What is visited next is what is looked up for the trail. -/
theorem Visits.upcoming? {e : Explorer} {current : Fingerprint} {frontier : Frontier} {s : State}
    {link : Link} (h : e.Visits current frontier s link) :
    e.upcoming? = some (current, frontier, s, link) := by
  unfold Explorer.upcoming?
  rw [if_neg (by simp [h.running, Status.isTerminal])]
  exact Option.bind_eq_some_iff.mpr ⟨_, h.popped, Option.bind_eq_some_iff.mpr
    ⟨s, h.stored, Option.bind_eq_some_iff.mpr ⟨link, h.linked, rfl⟩⟩⟩

/-- **Inversion of a step.** -/
theorem stepped_of_step {e next : Explorer} {events : List Event}
    (h : e.step = .ok (next, events)) : Stepped e events (e.leg events) next := by
  unfold step at h
  split at h
  · next ht =>
    obtain ⟨rfl, rfl⟩ := Prod.mk.inj (Except.ok.inj h)
    have hleg : e.leg [] = { Trail.empty with events := [] } := by
      unfold leg upcoming?
      rw [if_pos ht]
    rw [hleg]
    exact .rested ht
  · next ht =>
    have hr : e.status = .running := isTerminal_eq_false_iff.mp (by simpa using ht)
    split at h
    · next hq =>
      obtain ⟨rfl, rfl⟩ := Prod.mk.inj (Except.ok.inj h)
      have hleg : e.leg [] = { Trail.empty with events := [] } := by
        unfold leg upcoming?
        rw [if_neg ht, hq]
        rfl
      rw [hleg]
      exact .ended hr ((Frontier.pop?_eq_none_iff _).mp hq)
    · next current frontier hp =>
      split at h
      · exact absurd h (by simp)
      · next s hs =>
        split at h
        · exact absurd h (by simp)
        · next link hl =>
          have hv : e.Visits current frontier s link := ⟨hr, hp, hs, hl⟩
          have hnext : next = (({ e with frontier } : Explorer).visit current s link.depth).1 :=
            (congrArg Prod.fst (Except.ok.inj h)).symm
          unfold leg
          simp only [hv.upcoming?]
          cases hg : e.goal.holds s with
          | true =>
            rw [hnext, visit_fst_of_goal hg]
            exact .found hv hg
          | false =>
            rw [hnext, visit_fst_of_not_goal hg]
            exact .expanded hv hg

/-! ## Searches

    A search is followed by its trail, which holds what the search itself forgets: what it has expanded,
    tried and told. -/

/-- A search can be started exactly if its goal passes the check. -/
theorem exists_start_iff {system : TransitionSystem} {goal : Goal} {settings : Settings} :
    (∃ e, Explorer.start system goal settings = .ok e) ↔ goal.check system.width = .ok () := by
  unfold Explorer.start
  cases goal.check system.width with
  | error reason => simp [Except.map]
  | ok passed => simp [Except.map]

/-- **Inversion of a start.** -/
theorem eq_of_start {system : TransitionSystem} {goal : Goal} {settings : Settings} {e : Explorer}
    (h : Explorer.start system goal settings = .ok e) :
    e =
      { settings, system, goal
        frontier := Frontier.empty.push system.initial.fingerprint
        parents :=
          (∅ : ParentMap).insert system.initial.fingerprint (Link.root system.initial.fingerprint)
        store := (∅ : StateStore).insert system.initial.fingerprint system.initial
        status := .running
        stats := { Stats.zero with discovered := 1, frontierPeak := 1 }
        level := 0
        budgetHit := false } := by
  unfold Explorer.start at h
  cases hc : goal.check system.width with
  | error reason => rw [hc] at h; exact absurd h (by simp [Except.map])
  | ok passed =>
    rw [hc] at h
    exact (Except.ok.inj h).symm

/-- What a search starts from. -/
structure Started (system : TransitionSystem) (goal : Goal) (settings : Settings) (e : Explorer) :
    Prop where
  running : e.status = .running
  discovered : e.stats.discovered = 1
  collisions : e.stats.collisions = 0
  budgetHit : e.budgetHit = false
  frontier : e.frontier = Frontier.empty.push system.initial.fingerprint
  parents : e.parents =
    (∅ : ParentMap).insert system.initial.fingerprint (Link.root system.initial.fingerprint)
  store : e.store = (∅ : StateStore).insert system.initial.fingerprint system.initial
  frame : e.system = system ∧ e.goal = goal ∧ e.settings = settings

/-- A search that could be started has its initial state queued, stored and linked to itself. -/
theorem started_of_start {system : TransitionSystem} {goal : Goal} {settings : Settings}
    {e : Explorer} (h : Explorer.start system goal settings = .ok e) :
    Started system goal settings e := by
  obtain rfl := eq_of_start h
  exact ⟨rfl, rfl, rfl, rfl, rfl, rfl, rfl, rfl, rfl, rfl⟩

/-- A search of the system for the goal that has come to `e` by steps alone, with its trail. -/
inductive Trailed (system : TransitionSystem) (goal : Goal) (settings : Settings) :
    Trail → Explorer → Prop
  | start {e : Explorer} (h : Explorer.start system goal settings = .ok e) :
      Trailed system goal settings .empty e
  | step {trail : Trail} {e next : Explorer} {events : List Event}
      (he : Trailed system goal settings trail e) (h : e.step = .ok (next, events)) :
      Trailed system goal settings (trail.append (e.leg events)) next

/-- An explorer that a caller can come to hold: one that was started on the system and the goal, and
    then stepped and run any number of times. -/
inductive Arises (system : TransitionSystem) (goal : Goal) (settings : Settings) : Explorer → Prop
  | start {e : Explorer} (h : Explorer.start system goal settings = .ok e) :
      Arises system goal settings e
  | step {e next : Explorer} {events : List Event} (he : Arises system goal settings e)
      (h : e.step = .ok (next, events)) : Arises system goal settings next
  | run {e : Explorer} {wanted : Event → Bool} {finished : Finished}
      (he : Arises system goal settings e) (h : e.run wanted = .ok finished) :
      Arises system goal settings finished.explorer

variable {system : TransitionSystem} {goal : Goal} {settings : Settings}

/-- Advancing is a matter of steps. -/
theorem Trailed.advance {wanted : Event → Bool} {limit : Nat} {trail : Trail} {e last : Explorer}
    {kept kept' : Array Event} (he : Trailed system goal settings trail e)
    (h : e.advance wanted limit kept = .ok (last, kept')) :
    ∃ trail', Trailed system goal settings trail' last := by
  induction limit generalizing trail e kept with
  | zero =>
    obtain ⟨rfl, -⟩ := Prod.mk.inj (Except.ok.inj h)
    exact ⟨trail, he⟩
  | succ limit ih =>
    unfold Explorer.advance at h
    split at h
    · exact absurd h (by simp)
    · next next events hs =>
      have hnext : Trailed system goal settings (trail.append (e.leg events)) next := he.step hs
      simp only at h
      split at h
      · obtain ⟨rfl, -⟩ := Prod.mk.inj (Except.ok.inj h)
        exact ⟨_, hnext⟩
      · exact ih hnext h

/-- A run advances and then says how the search stands. -/
theorem run_eq_ok {wanted : Event → Bool} {e : Explorer} {finished : Finished}
    (h : e.run wanted = .ok finished) :
    (∃ kept, e.advance wanted stepLimit (e.opening.filter wanted).toArray =
      .ok (finished.explorer, kept)) ∧ finished.explorer.outcome = .ok finished.outcome := by
  unfold run at h
  cases ha : e.advance wanted stepLimit (e.opening.filter wanted).toArray with
  | error reason => rw [ha] at h; exact absurd h (by simp [bind, Except.bind])
  | ok pair =>
    obtain ⟨last, kept⟩ := pair
    rw [ha] at h
    cases ho : last.outcome with
    | error reason => simp [bind, Except.bind, ho] at h
    | ok outcome =>
      simp only [bind, Except.bind, ho, pure, Except.pure, Except.ok.injEq] at h
      subst h
      exact ⟨⟨kept, rfl⟩, ho⟩

/-- An outcome is that of the status, and the trace of a search that has found a goal is the trace to
    that goal. -/
theorem outcome_cases {e : Explorer} {outcome : Outcome} (h : e.outcome = .ok outcome) :
    (∃ fp w, e.status = .found fp ∧ e.witness fp = .ok w ∧ outcome = .found w) ∨
      (e.status = .exhausted ∧ outcome = .exhausted) ∨
      (e.status = .truncated ∧ outcome = .truncated) := by
  unfold Explorer.outcome at h
  cases hs : e.status with
  | running => rw [hs] at h; exact absurd h (by simp)
  | exhausted => rw [hs] at h; exact Or.inr (Or.inl ⟨rfl, (Except.ok.inj h).symm⟩)
  | truncated => rw [hs] at h; exact Or.inr (Or.inr ⟨rfl, (Except.ok.inj h).symm⟩)
  | found fp =>
    simp only [hs] at h
    cases hw : e.witness fp with
    | error reason => rw [hw] at h; exact absurd h (by simp [Except.map])
    | ok w => rw [hw] at h; exact Or.inl ⟨fp, w, rfl, hw, (Except.ok.inj h).symm⟩

/-- Only a search that has ended has an outcome. -/
theorem isTerminal_of_outcome {e : Explorer} {outcome : Outcome} (h : e.outcome = .ok outcome) :
    e.status.isTerminal = true := by
  rcases outcome_cases h with ⟨fp, w, hstatus, -⟩ | ⟨hstatus, -⟩ | ⟨hstatus, -⟩ <;>
    rw [hstatus] <;> rfl

/-- A trace is the outcome only of a search that has found a goal, and is the trace to that goal. -/
theorem outcome_eq_found {e : Explorer} {w : Witness} (h : e.outcome = .ok (.found w)) :
    ∃ fp, e.status = .found fp ∧ e.witness fp = .ok w := by
  rcases outcome_cases h with ⟨fp, w, hstatus, hw, heq⟩ | ⟨-, heq⟩ | ⟨-, heq⟩
  · obtain rfl := Outcome.found.inj heq
    exact ⟨fp, hstatus, hw⟩
  · exact absurd heq (by simp)
  · exact absurd heq (by simp)

/-- A run that ends with a trace has found a goal, and that is the trace to it. -/
theorem found_of_run {wanted : Event → Bool} {e : Explorer} {finished : Finished} {w : Witness}
    (h : e.run wanted = .ok finished) (hw : finished.outcome = .found w) :
    ∃ fp, finished.explorer.status = .found fp ∧ finished.explorer.witness fp = .ok w := by
  have houtcome := (run_eq_ok h).2
  rw [hw] at houtcome
  exact outcome_eq_found houtcome

theorem eq_found_of_witness? {outcome : Outcome} {w : Witness} (h : outcome.witness? = some w) :
    outcome = .found w := by
  cases outcome with
  | found found => rw [Option.some.inj h]
  | exhausted => exact absurd h (by simp [Outcome.witness?])
  | truncated => exact absurd h (by simp [Outcome.witness?])

/-- Whatever arises could have been reached by steps alone. -/
theorem Arises.trailed {e : Explorer} (h : Arises system goal settings e) :
    ∃ trail, Trailed system goal settings trail e := by
  induction h with
  | start h => exact ⟨_, .start h⟩
  | step he h ih =>
    obtain ⟨trail, ht⟩ := ih
    exact ⟨_, ht.step h⟩
  | run he h ih =>
    obtain ⟨trail, ht⟩ := ih
    obtain ⟨⟨kept, ha⟩, -⟩ := run_eq_ok h
    exact ht.advance ha

/-! ## Verdicts

    The first thing that is kept by every step, and needs nothing else. -/

/-- What the status of a search says about its store, its frontier and its budget. -/
def Verdict (e : Explorer) : Prop :=
  match e.status with
  | .running => True
  | .found goal => ∃ s : State, e.store[goal]? = some s ∧ e.goal.holds s = true
  | .exhausted => e.frontier.toList = [] ∧ e.budgetHit = false
  | .truncated => e.frontier.toList = [] ∧ e.budgetHit = true

/-- While a search is running, nothing is said. -/
theorem verdict_of_running {e : Explorer} (h : e.status = .running) : Verdict e := by
  rw [Verdict, h]
  trivial

/-- One step keeps the verdict true, -/
theorem Verdict.stepped {e next : Explorer} {events : List Event} {leg : Trail} (h : Verdict e)
    (hs : Stepped e events leg next) : Verdict next := by
  cases hs with
  | rested ht => exact h
  | ended hr hq =>
    unfold Verdict Explorer.ended
    cases e.budgetHit with
    | true => exact ⟨hq, rfl⟩
    | false => exact ⟨hq, rfl⟩
  | @found current frontier s link hv hg => exact ⟨s, hv.stored, hg⟩
  | expanded hv hg => exact verdict_of_running ((frame_expand ..).2.trans hv.running)

/-- and so does any number of them. -/
theorem Trailed.verdict {trail : Trail} {e : Explorer} (h : Trailed system goal settings trail e) :
    Verdict e := by
  induction h with
  | start h => exact verdict_of_running (started_of_start h).running
  | step he h ih => exact ih.stepped (stepped_of_step h)

end Explorer

end GuardedReach
