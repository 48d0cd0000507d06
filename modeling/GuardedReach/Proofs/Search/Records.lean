/-
  Records — what is told of a search is what has happened in it.

  An event is told at one place and counted at another: a level when a state is taken, a refusal, a
  collision and the end of the budget when an action is tried.  A record is an event as a reader meets it, a
  severity and a text; which event it was can be told from how the text begins.

  1. **Texts** — the texts that begin in one of three ways, and those of the least severe records, are the
     texts of one kind of event each (`Event.opens_warn_collision` and its like).

  2. **Counts** — `Told e events`: as many collisions and refusals are told as are counted, and that the
     budget is spent is told once it has dropped a successor.  One attempt (`Told.record`) and one expansion
     (`Told.expand`) keep it.

  3. **Steps** — before it tries any action a step may tell of a level and of progress, which are not
     counted (`Prelude`).  `Tells` is all that a step can tell, so a whole search is told of
     (`Trailed.told`).

  4. **Levels** — a level is told of only if it is deeper than that of the search, and then it is the next
     one (`Trailed.next_level`).  So the levels told of are all from the first to that of the search
     (`Trailed.depths_told`), which is the deepest of a state taken (`Levelled.deepest_eq`).

  5. **Runs** — a run tells what its steps tell, with what there is to say when it begins and when it ends,
     and keeps what is wanted of that (`exists_run_kept`).

  6. **Statement** — `records_match`.
-/
import Mathlib.Data.List.Forall2
import GuardedReach.Proofs.Json.Numeral
import GuardedReach.Proofs.Search.Collisions
import GuardedReach.Proofs.Search.LevelOrder
import GuardedReach.Proofs.Search.Termination

namespace GuardedReach

/-! ## Texts

    A record is known by its severity and by the words that it opens with or mentions.  These are fixed
    words in front of what varies, so they tell the kinds of events apart. -/

namespace Event

/-- Whether an event is recorded at a severity, with a text that begins with the words. -/
def opens (event : Event) (level : Level) (words : String) : Bool :=
  event.level = level ∧ words.toList <+: event.message.toList

/-- Whether an event is recorded at a severity, with a text that has the words in it. -/
def mentions (event : Event) (level : Level) (words : String) : Bool :=
  event.level = level ∧ words.toList <:+: event.message.toList

/-- The level that an event says was reached. -/
def depth? : Event → Option Nat
  | levelReached depth _ _ => some depth.toNat
  | _ => none

/-- Two different states were found to share a fingerprint. -/
def isCollision : Event → Bool
  | collision _ _ => true
  | _ => false

/-- The budget was met with a new state to record. -/
def isBudget : Event → Bool
  | budgetReached _ => true
  | _ => false

/-- An action was refused. -/
def isRefusal : Event → Bool
  | refused _ _ _ => true
  | _ => false

/-- Whether the event is one of those that are counted. -/
def isCounted (event : Event) : Bool :=
  event.isCollision || event.isRefusal || event.isBudget

/-- How the text of an event begins. -/
def beginning : Event → String
  | started _ _ _ => "Starting search: "
  | levelReached depth _ _ => "BFS level " ++ depth.toNat.repr ++ ": "
  | progress _ _ _ => "Expanded "
  | refused action _ _ => action ++ ": '"
  | collision _ _ => "Fingerprint collision at "
  | budgetReached _ => "State budget of "
  | goalFound _ _ => "Found target after "
  | exhausted _ => "Search space exhausted: "
  | truncated _ => "Search stopped at the "
  | collisionTotal collisions => collisions.repr

variable {event : Event} {severity : Level} {words : String}

/-- A message begins with the fixed words of its kind. -/
theorem beginning_prefix (event : Event) : event.beginning.toList <+: event.message.toList := by
  unfold message beginning
  cases event <;>
    simp only [String.toList_append, List.append_assoc, List.prefix_append,
      List.prefix_append_right_inj]

/-- A record opens with words that its fixed part begins with. -/
theorem opens_eq_true (hlevel : event.level = severity) (h : words.toList <+: event.beginning.toList) :
    event.opens severity words = true :=
  decide_eq_true ⟨hlevel, h.trans event.beginning_prefix⟩

/-- It does not count under another severity. -/
theorem opens_eq_false_of_level (h : event.level ≠ severity) : event.opens severity words = false :=
  decide_eq_false fun hopens => h hopens.1

/-- A text opens with no words that part from how it begins. -/
theorem opens_eq_false (h : ¬ words.toList <+: event.beginning.toList ∧
      ¬ event.beginning.toList <+: words.toList) : event.opens severity words = false := by
  refine decide_eq_false fun hopens => ?_
  rcases List.prefix_or_prefix_of_prefix hopens.2 event.beginning_prefix with hshort | hlong
  · exact h.1 hshort
  · exact h.2 hlong

/-- Words that begin with no digit part from every number. -/
theorem not_prefix_repr {c : Char} {cs : List Char} (hc : c.isDigit = false) (n : Nat) :
    ¬ c :: cs <+: n.repr.toList ∧ ¬ n.repr.toList <+: c :: cs := by
  obtain ⟨d, ds, hdigits, hd, -⟩ := Numeral.exists_toDigits n
  have hne : c ≠ d := by
    rintro rfl
    exact absurd (hd.symm.trans hc) (by decide)
  rw [Nat.toList_repr, hdigits, List.cons_prefix_cons, List.cons_prefix_cons]
  exact ⟨fun h => hne h.1, fun h => hne h.1.symm⟩

/-- The record of a level opens with the number of that level. -/
theorem opens_debug_depth {depth : Nat} (h : event.depth? = some depth) :
    event.opens .debug ("BFS level " ++ depth.repr ++ ": ") = true := by
  cases event with
  | levelReached reached discovered queued =>
    obtain rfl := Option.some.inj h
    exact opens_eq_true rfl (List.prefix_refl _)
  | _ => exact absurd h nofun

/-- At the debug severity, level records are the only ones that open this way. -/
theorem opens_debug_level (event : Event) :
    event.opens .debug "BFS level " = event.depth?.isSome := by
  cases event with
  | levelReached depth discovered queued =>
    refine opens_eq_true rfl ?_
    rw [beginning, String.append_assoc, String.toList_append]
    exact List.prefix_append ..
  | progress expanded discovered queued =>
    exact opens_eq_false (by simp [beginning])
  | _ => exact opens_eq_false_of_level nofun

/-- At the warning severity, collisions open in their own way, -/
theorem opens_warn_collision (event : Event) :
    event.opens .warn "Fingerprint collision" = event.isCollision := by
  cases event with
  | collision candidate stored => exact opens_eq_true rfl (by simp [beginning])
  | budgetReached budget => exact opens_eq_false (by simp [beginning])
  | truncated discovered => exact opens_eq_false (by simp [beginning])
  | collisionTotal collisions => exact opens_eq_false (not_prefix_repr (c := 'F') rfl collisions)
  | _ => exact opens_eq_false_of_level nofun

/-- and so does the budget. -/
theorem opens_warn_budget (event : Event) :
    event.opens .warn "State budget" = event.isBudget := by
  cases event with
  | budgetReached budget => exact opens_eq_true rfl (by simp [beginning])
  | collision candidate stored => exact opens_eq_false (by simp [beginning])
  | truncated discovered => exact opens_eq_false (by simp [beginning])
  | collisionTotal collisions => exact opens_eq_false (not_prefix_repr (c := 'S') rfl collisions)
  | _ => exact opens_eq_false_of_level nofun

/-- At the trace severity, refusals alone mention that they are. -/
theorem mentions_trace_refused (event : Event) :
    event.mentions .trace "refused" = event.isRefusal := by
  cases event with
  | refused action instruction state =>
    have hwords : "' refused on ".toList = "' ".toList ++ ("refused".toList ++ " on ".toList) := by decide
    refine decide_eq_true ⟨rfl, (action ++ ": '" ++ instruction.text ++ "' ").toList,
      (" on " ++ state.text).toList, ?_⟩
    unfold message
    simp only [String.toList_append, List.append_assoc, hwords]
  | _ => exact decide_eq_false fun hmentions => absurd hmentions.1 nofun

end Event

namespace Explorer

variable {system : TransitionSystem} {goal : Goal} {settings : Settings} {trail : Trail}
  {e f next : Explorer} {events more : List Event}

/-! ## Counts

    What has been told is compared with what has been counted.  The two are kept in step by every attempt,
    and so by every expansion. -/

/-- What is told of an attempt is what it is counted as. -/
theorem Attempt.countP_events (e : Explorer) (a : Action) (s : State) (attempt : Attempt) :
    (attempt.events e a s).countP Event.isCollision = (if attempt.collides then 1 else 0) ∧
      (attempt.events e a s).countP Event.isRefusal + (if attempt.isApplied then 1 else 0) = 1 ∧
      (attempt.events e a s).countP Event.isBudget + e.budgetHit.toNat =
        (e.budgetHit || attempt.isDropped).toNat := by
  cases attempt with
  | refused instruction => simp [Attempt.events, collides, isApplied, isDropped, Event.isCollision,
      Event.isRefusal, Event.isBudget]
  | known next stored =>
    by_cases hsame : stored = some next
    · simp [Attempt.events, collides, isApplied, isDropped, hsame]
    · simp [Attempt.events, collides, isApplied, isDropped, hsame, Event.isCollision, Event.isRefusal,
        Event.isBudget]
  | dropped budget =>
    cases hb : e.budgetHit with
    | true => simp [Attempt.events, collides, isApplied, isDropped, hb]
    | false =>
      simp [Attempt.events, collides, isApplied, isDropped, hb, Event.isCollision, Event.isRefusal,
        Event.isBudget]
  | fresh next => simp [Attempt.events, collides, isApplied, isDropped]

/-- What has been told of a search is what its counters and the mark of its budget say. -/
structure Told (e : Explorer) (events : List Event) : Prop where
  collisions : events.countP Event.isCollision = e.stats.collisions
  refusals : events.countP Event.isRefusal + e.stats.applied = e.stats.tried
  budget : events.countP Event.isBudget = e.budgetHit.toNat

namespace Told

/-- What is not counted makes no difference. -/
theorem congr (h : Told e events) (hstats : f.stats.collisions = e.stats.collisions ∧
      f.stats.applied = e.stats.applied ∧ f.stats.tried = e.stats.tried)
    (hbudget : f.budgetHit = e.budgetHit)
    (hsame : more.filter Event.isCounted = events.filter Event.isCounted) : Told f more := by
  have hcount : ∀ p : Event → Bool, (∀ event, p event = true → event.isCounted = true) →
      more.countP p = events.countP p := by
    intro p hp
    have hfilter : ∀ l : List Event, l.countP p = (l.filter Event.isCounted).countP p := by
      intro l
      rw [List.countP_filter]
      refine List.countP_congr fun event _ => ?_
      rw [Bool.and_eq_true, and_iff_left_of_imp (hp event)]
    rw [hfilter, hsame, ← hfilter]
  obtain ⟨hcollisions, happlied, htried⟩ := hstats
  constructor
  case collisions =>
    rw [hcount _ (by simp +contextual [Event.isCounted]), hcollisions, h.collisions]
  case refusals =>
    rw [hcount _ (by simp +contextual [Event.isCounted]), happlied, htried, h.refusals]
  case budget =>
    rw [hcount _ (by simp +contextual [Event.isCounted]), hbudget, h.budget]

/-- What an attempt does to the counters, it tells. -/
theorem record (h : Told e events) (current : Fingerprint) (s : State) (depth : UInt32) (index : Nat)
    (a : Action) (attempt : Attempt) :
    Told (e.record current depth index attempt) (events ++ attempt.events e a s) := by
  obtain ⟨-, htried, happlied, -, hcollisions, hbudget⟩ := counters_record e current depth index attempt
  obtain ⟨htells, hrefuses, hwarns⟩ := attempt.countP_events e a s
  constructor
  case collisions => rw [List.countP_append, h.collisions, htells, hcollisions]
  case refusals =>
    have hbefore := h.refusals
    rw [List.countP_append, htried, happlied]
    omega
  case budget => rw [List.countP_append, h.budget, hbudget, ← hwarns, Nat.add_comm]

/-- An expansion tells one record for each thing it counts. -/
theorem expand (h : Told e events) (current : Fingerprint) (s : State) (depth : UInt32) (index : Nat)
    (actions : List Action) :
    Told (e.expand current s depth index actions).1
      (events ++ (e.expand current s depth index actions).2) := by
  -- on the actions that are left, after whatever has been told before
  induction actions generalizing e index events with
  | nil =>
    rw [Explorer.expand, List.append_nil]
    exact h
  | cons a rest ih =>
    rw [Explorer.expand, ← List.append_assoc]
    exact ih (h.record current s depth index a (e.attempt a s)) (index + 1)

end Told

/-! ## Steps

    A step tells of the level that it enters and of the progress made, before its attempts; none of these
    records is counted with the others. -/

/-- What is told when a search on the level `level` takes a state of the level `depth`, before any action is
    tried: that a deeper level was reached, and progress. -/
structure Prelude (level depth : UInt32) (before : List Event) : Prop where
  quiet : before.filter Event.isCounted = []
  depths : before.filterMap Event.depth? = if level < depth then [depth.toNat] else []

/-- Entering a level tells of it, or of nothing. -/
theorem prelude_enterLevel (e : Explorer) (depth : UInt32) :
    Prelude e.level depth (e.enterLevel depth).2 := by
  unfold enterLevel
  split
  · next h => exact ⟨rfl, (if_pos h).symm⟩
  · next h => exact ⟨rfl, (if_neg h).symm⟩

/-- A record of progress may follow. -/
theorem Prelude.countExpanded {level depth : UInt32} {before : List Event}
    (h : Prelude level depth before) (f : Explorer) :
    Prelude level depth (before ++ f.countExpanded.2) := by
  have hprogress : f.countExpanded.2.filter Event.isCounted = [] ∧
      f.countExpanded.2.filterMap Event.depth? = [] := by
    unfold Explorer.countExpanded
    simp only
    split <;> exact ⟨rfl, rfl⟩
  obtain ⟨hquiet, hdepths⟩ := hprogress
  refine ⟨?_, ?_⟩
  · rw [List.filter_append, h.quiet, hquiet]
    rfl
  · rw [List.filterMap_append, hdepths, List.append_nil, h.depths]

/-- What a step tells of, with the explorer it leads to. -/
inductive Tells (e : Explorer) : Explorer → List Event → Prop
  | rested : Tells e e []
  | ended : Tells e e.ended []
  | found {current : Fingerprint} {frontier : Frontier} {s : State} {link : Link} {before : List Event}
      (hv : e.Visits current frontier s link) (hp : Prelude e.level link.depth before) :
      Tells e (e.foundAt frontier link.depth current) before
  | expanded {current : Fingerprint} {frontier : Frontier} {s : State} {link : Link}
      {before : List Event} (hv : e.Visits current frontier s link)
      (hp : Prelude e.level link.depth before) :
      Tells e ((e.opened frontier link.depth).expand current s link.depth 0 e.system.actions).1
        (before ++ ((e.opened frontier link.depth).expand current s link.depth 0 e.system.actions).2)

/-- At a goal nothing is told but the level. -/
theorem visit_snd_of_goal {frontier : Frontier} {current : Fingerprint} {s : State} {depth : UInt32}
    (hg : e.goal.holds s = true) :
    (({ e with frontier } : Explorer).visit current s depth).2 =
      (({ e with frontier } : Explorer).enterLevel depth).2 := by
  unfold visit
  rw [if_pos hg]

/-- Elsewhere the attempts are told behind a prelude. -/
theorem visit_snd_of_not_goal (frontier : Frontier) (current : Fingerprint) {s : State} (depth : UInt32)
    (hg : e.goal.holds s = false) :
    ∃ before, Prelude e.level depth before ∧
      (({ e with frontier } : Explorer).visit current s depth).2 =
        before ++ ((e.opened frontier depth).expand current s depth 0 e.system.actions).2 := by
  have hopened : (({ e with frontier } : Explorer).enterLevel depth).1.countExpanded.1 =
      e.opened frontier depth := by
    unfold enterLevel Explorer.countExpanded opened
    split <;> rfl
  refine ⟨_, (prelude_enterLevel { e with frontier } depth).countExpanded
    (({ e with frontier } : Explorer).enterLevel depth).1, ?_⟩
  rw [← hopened]
  unfold visit
  rw [if_neg (by simp [hg])]

/-- So every step tells what it counts. -/
theorem tells_of_step (h : e.step = .ok (next, events)) : Tells e next events := by
  have hs := stepped_of_step h
  generalize e.leg events = leg at hs
  cases hs with
  | rested ht =>
    obtain rfl := congrArg Prod.snd (Except.ok.inj (h.symm.trans (step_of_terminal ht)))
    exact .rested
  | ended hr hq =>
    obtain rfl := congrArg Prod.snd (Except.ok.inj (h.symm.trans (step_of_empty hr hq)))
    exact .ended
  | @found current frontier s link hv hg =>
    obtain rfl := congrArg Prod.snd (Except.ok.inj (h.symm.trans hv.step_eq))
    rw [visit_snd_of_goal hg]
    exact .found hv (prelude_enterLevel { e with frontier } link.depth)
  | @expanded current frontier s link hv hg =>
    obtain rfl := congrArg Prod.snd (Except.ok.inj (h.symm.trans hv.step_eq))
    obtain ⟨before, hp, hvisit⟩ := visit_snd_of_not_goal frontier current link.depth hg
    rw [hvisit]
    exact .expanded hv hp

/-- One step tells what it does to the counters. -/
theorem Told.step (h : Told e events) (ht : Tells e next more) : Told next (events ++ more) := by
  have hquiet : ∀ before : List Event, before.filter Event.isCounted = [] →
      (events ++ before).filter Event.isCounted = events.filter Event.isCounted := by
    intro before hbefore
    rw [List.filter_append, hbefore, List.append_nil]
  cases ht with
  | rested => exact h.congr ⟨rfl, rfl, rfl⟩ rfl (hquiet [] rfl)
  | ended => exact h.congr ⟨rfl, rfl, rfl⟩ rfl (hquiet [] rfl)
  | found hv hp => exact h.congr ⟨rfl, rfl, rfl⟩ rfl (hquiet _ hp.quiet)
  | @expanded current frontier s link before hv hp =>
    have hopened : Told (e.opened frontier link.depth) (events ++ before) :=
      h.congr ⟨rfl, rfl, rfl⟩ rfl (hquiet before hp.quiet)
    rw [← List.append_assoc]
    exact hopened.expand current s link.depth 0 e.system.actions

/-- The events of a longer trail are those told before and those of the last step. -/
theorem Trail.events_append_leg (trail : Trail) (e : Explorer) (events : List Event) :
    (trail.append (e.leg events)).events = trail.events ++ events := by
  have hleg : (e.leg events).events = events := by
    unfold leg
    split
    · rfl
    · split <;> rfl
  rw [append, hleg]

/-- **Along a whole search**, what has been told is what has been counted. -/
theorem Trailed.told (h : Trailed system goal settings trail e) : Told e trail.events := by
  induction h with
  | @start e h =>
    have hstats := stats_of_start h
    constructor
    case budget => rw [(started_of_start h).budgetHit]; rfl
    all_goals rw [hstats]; rfl
  | step he h ih =>
    rw [Trail.events_append_leg]
    exact ih.step (tells_of_step h)

/-! ## Levels

    A level is told when the first of its states is taken, so the levels told are those entered, each of
    them once. -/

/-- An expansion enters no level. -/
theorem depths_expand (e : Explorer) (current : Fingerprint) (s : State) (depth : UInt32) (index : Nat)
    (actions : List Action) :
    (e.expand current s depth index actions).2.filterMap Event.depth? = [] := by
  induction actions generalizing e index with
  | nil => rfl
  | cons a rest ih =>
    have hattempt : ((e.attempt a s).events e a s).filterMap Event.depth? = [] := by
      cases e.attempt a s with
      | refused instruction => rfl
      | known next stored => unfold Attempt.events; simp only; split <;> rfl
      | dropped budget => unfold Attempt.events; simp only; split <;> rfl
      | fresh next => rfl
    rw [expand, List.filterMap_append, hattempt]
    exact ih _ _

/-- A step tells of the level that it moves the search to, if it moves it. -/
theorem Tells.depths (h : Tells e next more) (hnext : ∀ current frontier s link,
      e.Visits current frontier s link → link.depth.toNat ≤ e.level.toNat + 1)
    (hlevels : events.filterMap Event.depth? = List.range' 1 e.level.toNat) :
    (events ++ more).filterMap Event.depth? = List.range' 1 next.level.toNat := by
  -- a deeper level is the next one, so the levels told of stay without a gap
  have hmove : ∀ {current frontier s link before}, e.Visits current frontier s link →
      Prelude e.level link.depth before →
      events.filterMap Event.depth? ++ before.filterMap Event.depth? =
        List.range' 1 (if e.level < link.depth then link.depth else e.level).toNat := by
    intro current frontier s link before hv hp
    have hle := hnext current frontier s link hv
    rw [hlevels, hp.depths]
    split
    · next hdeeper =>
      have hsucc : link.depth.toNat = e.level.toNat + 1 := by
        have hlt := UInt32.lt_iff_toNat_lt.mp hdeeper
        omega
      rw [hsucc, List.range'_1_concat, Nat.add_comm 1]
    · exact List.append_nil _
  cases h with
  | rested => rw [List.append_nil]; exact hlevels
  | ended => rw [List.append_nil]; exact hlevels
  | found hv hp =>
    rw [List.filterMap_append]
    exact hmove hv hp
  | expanded hv hp =>
    rw [List.filterMap_append, List.filterMap_append, depths_expand, List.append_nil, level_expand]
    exact hmove hv hp

/-- **No level is left out**: those told of are all from the first to that of the search. -/
theorem Trailed.depths_told (h : Trailed system goal settings trail e)
    (hsmall : e.stats.discovered ≤ UInt32.size) :
    trail.events.filterMap Event.depth? = List.range' 1 e.level.toNat := by
  induction h with
  | start h => rw [level_of_start h]; rfl
  | @step trail e next events he h ih =>
    -- no fewer states are recorded later, so the bound held before
    have hbefore := Nat.le_trans (he.tree.extends_stepped (stepped_of_step h)).discovered hsmall
    rw [Trail.events_append_leg]
    exact (tells_of_step h).depths (fun _ _ _ _ hv => (he.next_level hbefore hv).2) (ih hbefore)

/-! ## Runs

    A run tells what its steps tell, and something besides when it begins and when it ends.  Of all
    that it keeps what is wanted. -/

/-- An advance tells what its steps tell, and keeps what is wanted of that, whatever is wanted. -/
theorem Trailed.advance_kept {wanted : Event → Bool} {limit : Nat} {last : Explorer}
    {kept kept' : Array Event} (he : Trailed system goal settings trail e)
    (h : e.advance wanted limit kept = .ok (last, kept')) :
    ∃ trail' told, Trailed system goal settings trail' last ∧ trail'.events = trail.events ++ told ∧
      ∀ (wanted : Event → Bool) (kept : Array Event),
        e.advance wanted limit kept = .ok (last, kept ++ told.filter wanted) := by
  induction limit generalizing trail e kept with
  | zero =>
    obtain ⟨rfl, -⟩ := Prod.mk.inj (Except.ok.inj h)
    exact ⟨trail, [], he, (List.append_nil _).symm, fun wanted kept => by simp [Explorer.advance]⟩
  | succ limit ih =>
    unfold Explorer.advance at h ⊢
    split at h
    · exact absurd h (by simp)
    · next next events hs =>
      simp only at h ⊢
      have hnext := he.step hs
      have hevents := Trail.events_append_leg trail e events
      split at h
      · next ht =>
        obtain ⟨rfl, -⟩ := Prod.mk.inj (Except.ok.inj h)
        exact ⟨_, events, hnext, hevents, fun wanted kept => if_pos ht⟩
      · next ht =>
        -- what is left of the advance has told the rest
        obtain ⟨trail', told, htrail, htold, hadvance⟩ := ih hnext h
        refine ⟨trail', events ++ told, htrail, ?_, ?_⟩
        · rw [htold, hevents, List.append_assoc]
        · intro wanted kept
          have hkept : kept ++ events.filter wanted ++ told.filter wanted =
              kept ++ (events ++ told).filter wanted :=
            Array.toList_inj.mp (by simp)
          rw [if_neg ht, hadvance, hkept]

/-- **Every run tells what its steps tell**, with what there is to say when it begins and ends, and keeps
    what is wanted of that. -/
theorem exists_run_kept (h : Explorer.start system goal settings = .ok e) :
    ∃ trail last outcome, Trailed system goal settings trail last ∧ last.outcome = .ok outcome ∧
      ∀ wanted, e.run wanted = .ok
        { explorer := last
          outcome
          events := (e.opening ++ trail.events ++ last.closing outcome).filter wanted } := by
  obtain ⟨last, outcome, -, -, houtcome, hrun⟩ := (Trailed.start h).exists_run
  obtain ⟨events, hrun⟩ := hrun fun _ => false
  obtain ⟨⟨kept, hadvance⟩, -⟩ := run_eq_ok hrun
  obtain ⟨trail, told, htrail, htold, hkept⟩ := (Trailed.start h).advance_kept hadvance
  refine ⟨trail, last, outcome, htrail, houtcome, ?_⟩
  intro wanted
  have hevents : trail.events = told := htold
  unfold run
  rw [hkept]
  simp only [bind, Except.bind, houtcome, hevents, List.filter_append]
  simp [pure, Except.pure]

/-! ## Statement

    Every kind of record is counted by the counter it belongs to. -/

/-- What the records of a search have to do with the search. -/
structure RecordsMatch (records : List Event) (trail : Trail) (e : Explorer) : Prop where
  levels : e.stats.discovered ≤ UInt32.size →
    List.Forall₂ (fun record depth => record.opens .debug ("BFS level " ++ depth.repr ++ ": ") = true)
      (records.filter (·.opens .debug "BFS level ")) (List.range' 1 (trail.deepest e))
  collisions : records.countP (·.opens .warn "Fingerprint collision") = e.stats.collisions
  budget : records.countP (·.opens .warn "State budget") = if 0 < trail.dropped then 1 else 0
  refusals : records.countP (·.mentions .trace "refused") + e.stats.applied = e.stats.tried

/-- The records of levels are those of the events that say a level was reached. -/
theorem forall₂_depths (events : List Event) :
    List.Forall₂ (fun record depth => record.opens .debug ("BFS level " ++ depth.repr ++ ": ") = true)
      (events.filter (·.opens .debug "BFS level ")) (events.filterMap Event.depth?) := by
  induction events with
  | nil => exact .nil
  | cons event rest ih =>
    rw [List.filter_cons, Event.opens_debug_level]
    cases hdepth : event.depth? with
    | none =>
      rw [List.filterMap_cons_none hdepth]
      exact ih
    | some depth =>
      rw [List.filterMap_cons_some hdepth]
      exact .cons (Event.opens_debug_depth hdepth) ih

/-- Records that tell what was counted, and the levels of the trail, match the search. -/
theorem Trailed.recordsMatch (h : Trailed system goal settings trail e) {records : List Event}
    (htold : Told e records)
    (hdepths : records.filterMap Event.depth? = trail.events.filterMap Event.depth?) :
    RecordsMatch records trail e where
  levels hsmall := by
    have hforall := forall₂_depths records
    rwa [hdepths, h.depths_told hsmall, ← h.levelled.deepest_eq] at hforall
  collisions := by simp only [Event.opens_warn_collision, htold.collisions]
  budget := by
    simp only [Event.opens_warn_budget, htold.budget]
    cases hb : e.budgetHit with
    | true => rw [if_pos (h.budgetHit_iff.mp hb)]; rfl
    | false =>
      rw [if_neg fun hpos => by simp [h.budgetHit_iff.mpr hpos] at hb]
      rfl
  refusals := by
    simp only [Event.mentions_trace_refused]
    exact htold.refusals

/-- **The records of a search match the search**, whatever the system, the goal, the budget and the
    interval at which progress is reported.

    1. What any number of steps tell matches what they have done.
    2. A run tells the same and more, when it begins and when it ends, and that matches too; it keeps what
       is wanted of it. -/
theorem records_match (system : TransitionSystem) (goal : Goal) (settings : Settings) :
    (∀ trail e, Trailed system goal settings trail e → RecordsMatch trail.events trail e) ∧
    ∀ e, Explorer.start system goal settings = .ok e →
      ∃ trail last outcome records, Trailed system goal settings trail last ∧
        last.outcome = .ok outcome ∧
        records = e.opening ++ trail.events ++ last.closing outcome ∧
        (∀ wanted, e.run wanted = .ok
          { explorer := last, outcome, events := records.filter wanted }) ∧
        RecordsMatch records trail last := by
  refine ⟨fun trail e h => h.recordsMatch h.told rfl, ?_⟩
  intro e h
  obtain ⟨trail, last, outcome, htrail, houtcome, hrun⟩ := exists_run_kept h
  refine ⟨trail, last, outcome, _, htrail, houtcome, rfl, hrun, ?_⟩
  have hclosing : (last.closing outcome).filter Event.isCounted = [] ∧
      (last.closing outcome).filterMap Event.depth? = [] := by
    unfold closing
    cases outcome <;> simp only <;> split <;> exact ⟨rfl, rfl⟩
  obtain ⟨hquiet, hdepths⟩ := hclosing
  refine htrail.recordsMatch (htrail.told.congr ⟨rfl, rfl, rfl⟩ rfl ?_) ?_
  · rw [List.filter_append, List.filter_append, hquiet, List.append_nil]
    rfl
  · rw [List.filterMap_append, List.filterMap_append, hdepths, List.append_nil]
    rfl

/-- The records of a search with room for five states that takes contents of one fingerprint for each
    other: it goes down two levels, four times something collides, and one action is refused. -/
theorem colliding_records_match :
    ∃ (system : TransitionSystem) (goal : Goal) (e last : Explorer) (outcome : Outcome)
      (records : List Event), colliding.build = .ok (system, goal) ∧
      Explorer.start system goal { maxStates := some 5, progressInterval := 1 } = .ok e ∧
      (e.run fun _ => true) = .ok { explorer := last, outcome, events := records } ∧
      (records.filter (·.opens .debug "BFS level ")).length = 2 ∧
      records.countP (·.opens .warn "Fingerprint collision") = 4 ∧
      records.countP (·.opens .warn "State budget") = 1 ∧
      records.countP (·.mentions .trace "refused") = 1 := by
  have hquery : (colliding.finish { maxStates := some 5, progressInterval := 1 }).any
      (fun finished => decide (finished.explorer.stats.discovered = 5 ∧
        finished.explorer.level = 2 ∧ finished.explorer.stats.collisions = 4 ∧
        finished.explorer.budgetHit = true ∧ finished.explorer.stats.tried = 15 ∧
        finished.explorer.stats.applied = 14)) = true := by decide +kernel
  obtain ⟨finished, hfinish, hcounts⟩ := (Option.any_eq_true ..).mp hquery
  obtain ⟨hdiscovered, hlevel, hcollisions, hhit, htried, happlied⟩ := of_decide_eq_true hcounts
  obtain ⟨system, goal, e, hbuild, hstart, hfinished⟩ := Puzzle.exists_of_finish hfinish
  obtain ⟨-, hruns⟩ := records_match system goal { maxStates := some 5, progressInterval := 1 }
  obtain ⟨trail, last, outcome, records, htrail, -, -, hrun, hmatch⟩ := hruns e hstart
  obtain rfl := Except.ok.inj (hfinished.symm.trans (hrun _))
  have hrecords := hrun fun _ => true
  rw [List.filter_eq_self.mpr fun _ _ => rfl] at hrecords
  have hdeepest : trail.deepest last = 2 := by
    rw [htrail.levelled.deepest_eq, hlevel]
    rfl
  have hlevels := (hmatch.levels (by rw [hdiscovered]; decide)).length_eq
  rw [List.length_range', hdeepest] at hlevels
  have hrefusals := hmatch.refusals
  rw [htried, happlied] at hrefusals
  refine ⟨system, goal, e, last, outcome, records, hbuild, hstart, hrecords, hlevels,
    hmatch.collisions.trans hcollisions, ?_, by omega⟩
  rw [hmatch.budget, if_pos (htrail.budgetHit_iff.mp hhit)]

end Explorer

end GuardedReach
