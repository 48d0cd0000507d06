/-
  Accounting — what the counters of a search count.

  The counters are moved at different points of a loop that goes on early in three ways, and some are
  copied from the frontier.  Each is said to count entries of the trail, and how they hang together is
  then a matter of counting the trail.

  1. **Attempts** — an attempt whose action was not refused met a known fingerprint, pushed a new one,
     or was dropped (`countP_isApplied`).

  2. **Counters** — `Counted e expanded attempts`: each counter is the number of what it is named for.
     One attempt (`Counted.record`), one expansion (`Counted.expand`) and one step (`Counted.stepped`)
     keep it.

  3. **Levels** — the deepest level is that of some link, and no link is deeper (`Deepest`).  Links are
     only ever added, so this needs neither their order nor a bound on their number.

  4. **Statement** — `Trailed.accounts`.
-/
import GuardedReach.Proofs.Search.Budget
import GuardedReach.Proofs.Search.History

namespace GuardedReach

/-- Whether the search has ended at a goal. -/
def Status.isFound : Status → Bool
  | found _ => true
  | running | exhausted | truncated => false

namespace Explorer

/-! ## Attempts

    Whether an attempt was applied, met something known or pushed something new, as functions of the
    attempt. -/

namespace Attempt

/-- Whether the action was not refused. -/
def isApplied : Attempt → Bool
  | refused _ => false
  | known _ _ | dropped _ | fresh _ => true

/-- Whether the successor's fingerprint was known already. -/
def isKnown : Attempt → Bool
  | known _ _ => true
  | refused _ | dropped _ | fresh _ => false

/-- Whether another state than the successor was stored under its fingerprint. -/
def collides : Attempt → Bool
  | known next stored => stored ≠ some next
  | refused _ | dropped _ | fresh _ => false

/-- Whether the budget dropped the successor. -/
def isDropped : Attempt → Bool
  | dropped _ => true
  | refused _ | known _ _ | fresh _ => false

/-- Only a known fingerprint can collide, -/
theorem isKnown_of_collides {attempt : Attempt} (h : attempt.collides = true) :
    attempt.isKnown = true := by
  cases attempt with
  | known next stored => rfl
  | refused ins => exact h
  | dropped budget => exact h
  | fresh next => exact h

/-- and only an action that was not refused can meet one. -/
theorem isApplied_of_isKnown {attempt : Attempt} (h : attempt.isKnown = true) :
    attempt.isApplied = true := by
  cases attempt with
  | known next stored => rfl
  | refused ins => exact h
  | dropped budget => rfl
  | fresh next => rfl

end Attempt

/-- An action that was not refused led to a known fingerprint, or to a new one that was pushed or
    dropped. -/
theorem countP_isApplied (attempts : List Attempt) :
    attempts.countP Attempt.isApplied =
      attempts.countP Attempt.isKnown + (attempts.filterMap Attempt.pushed?).length +
        attempts.countP Attempt.isDropped := by
  rw [List.length_filterMap_eq_countP]
  induction attempts with
  | nil => rfl
  | cons attempt rest ih =>
    have hone : (if attempt.isApplied then 1 else 0) =
        (if attempt.isKnown then 1 else 0) + (if attempt.pushed?.isSome then 1 else 0) +
          (if attempt.isDropped then 1 else 0) := by
      cases attempt <;> rfl
    simp only [List.countP_cons]
    omega

/-- How many successors the budget has dropped. -/
def Trail.dropped (trail : Trail) : Nat :=
  trail.attempts.countP Attempt.isDropped

/-! ## Counters

    Counters are compared with lists of what has happened, so that each is a count and the identities
    between them are those of counting. -/

/-- What the record of an attempt does to the counters and to the mark of the budget. -/
theorem counters_record (e : Explorer) (current : Fingerprint) (depth : UInt32) (index : Nat)
    (attempt : Attempt) :
    (e.record current depth index attempt).stats.expanded = e.stats.expanded ∧
      (e.record current depth index attempt).stats.tried = e.stats.tried + 1 ∧
      (e.record current depth index attempt).stats.applied =
        e.stats.applied + (if attempt.isApplied then 1 else 0) ∧
      (e.record current depth index attempt).stats.duplicates =
        e.stats.duplicates + (if attempt.isKnown then 1 else 0) ∧
      (e.record current depth index attempt).stats.collisions =
        e.stats.collisions + (if attempt.collides then 1 else 0) ∧
      (e.record current depth index attempt).budgetHit = (e.budgetHit || attempt.isDropped) := by
  cases attempt with
  | refused ins => exact ⟨rfl, rfl, rfl, rfl, rfl, (Bool.or_false _).symm⟩
  | known next stored =>
    refine ⟨rfl, rfl, rfl, rfl, ?_, (Bool.or_false _).symm⟩
    show e.stats.collisions + (if stored = some next then 0 else 1) =
      e.stats.collisions + (if decide (stored ≠ some next) then 1 else 0)
    by_cases hsame : stored = some next
    · simp [hsame]
    · simp [hsame]
  | dropped budget => exact ⟨rfl, rfl, rfl, rfl, rfl, (Bool.or_true _).symm⟩
  | fresh next => exact ⟨rfl, rfl, rfl, rfl, rfl, (Bool.or_false _).symm⟩

/-- The peak that is counted is the frontier's own, as it was. -/
theorem frontierPeak_record {e : Explorer} (h : e.stats.frontierPeak = e.frontier.peak)
    (current : Fingerprint) (depth : UInt32) (index : Nat) (attempt : Attempt) :
    (e.record current depth index attempt).stats.frontierPeak =
      (e.record current depth index attempt).frontier.peak := by
  cases attempt with
  | refused ins => exact h
  | known next stored => exact h
  | dropped budget => exact h
  | fresh next => rfl

/-- What each counter counts, and what the mark of the budget marks. -/
structure Counted (e : Explorer) (expanded : List Fingerprint) (attempts : List Attempt) : Prop where
  expanded : e.stats.expanded = expanded.length
  tried : e.stats.tried = attempts.length
  applied : e.stats.applied = attempts.countP Attempt.isApplied
  duplicates : e.stats.duplicates = attempts.countP Attempt.isKnown
  collisions : e.stats.collisions = attempts.countP Attempt.collides
  budgetHit : e.budgetHit = attempts.any Attempt.isDropped
  frontierPeak : e.stats.frontierPeak = e.frontier.peak

namespace Counted

variable {e : Explorer} {expanded : List Fingerprint} {attempts : List Attempt}

/-- The record of an attempt counts it. -/
theorem record (h : Counted e expanded attempts) (current : Fingerprint) (depth : UInt32)
    (index : Nat) (attempt : Attempt) :
    Counted (e.record current depth index attempt) expanded (attempts ++ [attempt]) := by
  obtain ⟨hexpanded, htried, happlied, hduplicates, hcollisions, hbudget⟩ :=
    counters_record e current depth index attempt
  have hcount : ∀ p : Attempt → Bool,
      (attempts ++ [attempt]).countP p = attempts.countP p + if p attempt then 1 else 0 := by
    intro p
    rw [List.countP_append, List.countP_singleton]
  constructor
  case expanded => rw [hexpanded, h.expanded]
  case tried => rw [htried, h.tried, List.length_append, List.length_singleton]
  case applied => rw [happlied, h.applied, hcount]
  case duplicates => rw [hduplicates, h.duplicates, hcount]
  case collisions => rw [hcollisions, h.collisions, hcount]
  case budgetHit =>
    rw [hbudget, h.budgetHit, List.any_append]
    simp only [List.any_cons, List.any_nil, Bool.or_false]
  case frontierPeak => exact frontierPeak_record h.frontierPeak ..

/-- An expansion counts its attempts. -/
theorem expand (h : Counted e expanded attempts) (current : Fingerprint) (s : State)
    (depth : UInt32) (actions : List Action) :
    Counted (e.expand current s depth 0 actions).1 expanded
      (attempts ++ e.attempts current s depth 0 actions) := by
  refine expand_induction
    (motive := fun tries f => Counted f expanded (attempts ++ tries)) ?_ ?_
  · rintro tries a f - hf
    rw [← List.append_assoc]
    exact hf.record current depth tries.length (f.attempt a s)
  · rw [List.append_nil]
    exact h

/-- A state that is about to be expanded is counted first. -/
theorem opened (h : Counted e expanded attempts) {current : Fingerprint} {frontier : Frontier}
    {s : State} {link : Link} (hv : e.Visits current frontier s link) :
    Counted (e.opened frontier link.depth) (expanded ++ [current]) attempts where
  expanded := by
    show e.stats.expanded + 1 = _
    rw [h.expanded, List.length_append, List.length_singleton]
  tried := h.tried
  applied := h.applied
  duplicates := h.duplicates
  collisions := h.collisions
  budgetHit := h.budgetHit
  frontierPeak := h.frontierPeak.trans (Frontier.counts_of_pop? hv.popped).2.symm

/-- One step counts what its leg has done. -/
theorem stepped {next : Explorer} {events : List Event} {leg : Trail}
    (h : Counted e expanded attempts) (hs : Stepped e events leg next) :
    Counted next (expanded ++ leg.expanded) (attempts ++ leg.attempts) := by
  cases hs with
  | rested ht =>
    rw [Trail.empty, List.append_nil, List.append_nil]
    exact h
  | ended hr hq =>
    rw [Trail.empty, List.append_nil, List.append_nil]
    exact { h with }
  | found hv hg =>
    rw [Trail.empty, List.append_nil, List.append_nil]
    exact { h with frontierPeak := h.frontierPeak.trans (Frontier.counts_of_pop? hv.popped).2.symm }
  | @expanded current frontier s link hv hg => exact (h.opened hv).expand current s link.depth _

end Counted

/-! ## Levels

    The deepest level is counted apart, when a state is recorded. -/

/-- The larger of two levels is one of them. -/
theorem le_max_level (a b : UInt32) :
    a ≤ max a b ∧ b ≤ max a b ∧ (max a b = a ∨ max a b = b) := by
  have hmax : max a b = if a ≤ b then b else a := rfl
  by_cases h : a ≤ b
  · rw [hmax, if_pos h]
    exact ⟨h, UInt32.le_refl b, Or.inr rfl⟩
  · rw [hmax, if_neg h]
    exact ⟨UInt32.le_refl a, UInt32.le_of_lt (UInt32.not_le.mp h), Or.inl rfl⟩

/-- The deepest level that is counted is the deepest of a link. -/
structure Deepest (e : Explorer) : Prop where
  depth_le : ∀ (fp : Fingerprint) (link : Link),
    e.parents[fp]? = some link → link.depth ≤ e.stats.maxDepth
  attained : ∃ (fp : Fingerprint) (link : Link),
    e.parents[fp]? = some link ∧ link.depth = e.stats.maxDepth

namespace Deepest

variable {e : Explorer}

/-- A new link can be the deepest. -/
theorem record (h : Deepest e) {a : Action} {s : State} {attempt : Attempt}
    (ht : Tried e a s attempt) (current : Fingerprint) (depth : UInt32) (index : Nat) :
    Deepest (e.record current depth index attempt) := by
  cases ht with
  | refused ha => exact ⟨h.depth_le, h.attained⟩
  | known ha hk => exact ⟨h.depth_le, h.attained⟩
  | dropped ha hk hb hd => exact ⟨h.depth_le, h.attained⟩
  | @fresh t ha hk hroom =>
    have hnew : (e.record current depth index (.fresh t)).parents[t.fingerprint]? =
        some { parent := current, action := some index, depth := depth + 1 } :=
      (parents_record_fresh ..).trans (if_pos rfl)
    obtain ⟨hold, hdeeper, hmax⟩ := le_max_level e.stats.maxDepth (depth + 1)
    refine ⟨?_, ?_⟩
    · intro fp link hl
      rw [parents_record_fresh] at hl
      split at hl
      · rw [← Option.some.inj hl]
        exact hdeeper
      · exact UInt32.le_trans (h.depth_le fp link hl) hold
    · rcases hmax with hmax | hmax
      · obtain ⟨fp, link, hl, hdepth⟩ := h.attained
        exact ⟨fp, link, Fingerprint.getElem?_insert_of_not_mem hk hl, hdepth.trans hmax.symm⟩
      · exact ⟨t.fingerprint, _, hnew, hmax.symm⟩

/-- One step keeps up with the deepest level. -/
theorem stepped (h : Deepest e) {next : Explorer} {events : List Event} {leg : Trail}
    (hs : Stepped e events leg next) : Deepest next := by
  cases hs with
  | rested ht => exact h
  | ended hr hq => exact ⟨h.depth_le, h.attained⟩
  | found hv hg => exact ⟨h.depth_le, h.attained⟩
  | @expanded current frontier s link hv hg =>
    refine expand_induction (motive := fun _ f => Deepest f) ?_ ⟨h.depth_le, h.attained⟩
    rintro tries a f - hf
    exact hf.record (tried_attempt f a s) current link.depth tries.length

end Deepest

/-! ## Every search

    The start counts one state that no attempt has made; everything else is a step. -/

theorem stats_of_start {system : TransitionSystem} {goal : Goal} {settings : Settings}
    {e : Explorer} (h : Explorer.start system goal settings = .ok e) :
    e.stats = { Stats.zero with discovered := 1, frontierPeak := 1 } := by
  obtain rfl := eq_of_start h
  rfl

/-- A step tries all actions on what it expands. -/
theorem Stepped.length_attempts {e next : Explorer} {events : List Event} {leg : Trail}
    (h : Stepped e events leg next) :
    leg.attempts.length = leg.expanded.length * e.system.actions.length := by
  cases h with
  | rested ht => exact (Nat.zero_mul _).symm
  | ended hr hq => exact (Nat.zero_mul _).symm
  | found hv hg => exact (Nat.zero_mul _).symm
  | expanded hv hg => exact (Explorer.length_attempts ..).trans (Nat.one_mul _).symm

/-- What is pending is queued, or the goal that was found. -/
theorem length_pending (e : Explorer) :
    e.pending.length = e.frontier.length + if e.status.isFound then 1 else 0 := by
  rw [Frontier.length_eq_length_toList]
  unfold pending
  cases e.status <;> rfl

namespace Trailed

variable {system : TransitionSystem} {goal : Goal} {settings : Settings} {trail : Trail}
  {e : Explorer}

/-- The counters of a search count its trail, -/
theorem counted (h : Trailed system goal settings trail e) :
    Counted e trail.expanded trail.attempts := by
  induction h with
  | @start e h =>
    have hstats := stats_of_start h
    have hs := started_of_start h
    constructor
    case budgetHit => exact hs.budgetHit
    case frontierPeak => rw [hstats, hs.frontier]; rfl
    all_goals rw [hstats]; rfl
  | step he h ih => exact ih.stepped (stepped_of_step h)

/-- and its deepest level is the depth of a link that no other exceeds. -/
theorem deepest (h : Trailed system goal settings trail e) : Deepest e := by
  induction h with
  | @start e h =>
    have hs := started_of_start h
    have hmax : e.stats.maxDepth = 0 := by rw [stats_of_start h]; rfl
    constructor
    case depth_le =>
      intro fp link hl
      obtain ⟨rfl, rfl⟩ := hs.parents_eq_some_iff.mp hl
      rw [hmax]
      exact UInt32.le_refl 0
    case attained =>
      exact ⟨e.root, Link.root e.root, hs.parents_eq_some_iff.mpr ⟨rfl, rfl⟩, hmax.symm⟩
  | step he h ih => exact ih.stepped (stepped_of_step h)

/-- All actions are tried on every state expanded. -/
theorem length_attempts (h : Trailed system goal settings trail e) :
    trail.attempts.length = trail.expanded.length * system.actions.length := by
  induction h with
  | start h => exact (Nat.zero_mul _).symm
  | @step trail e next events he h ih =>
    have hleg := (stepped_of_step h).length_attempts
    rw [he.frame.1] at hleg
    show (trail.attempts ++ (e.leg events).attempts).length =
      (trail.expanded ++ (e.leg events).expanded).length * _
    rw [List.length_append, List.length_append, ih, hleg, Nat.add_mul]

/-- What is recorded has been pushed onto the frontier, and once. -/
theorem discovered_eq_length_pushed (h : Trailed system goal settings trail e) :
    e.stats.discovered = (trail.pushed e.root).length := by
  have hh := h.history
  rw [h.tree.discovered_eq_length, hh.pushed, hh.taken, List.length_append]

/-- What the actions led to is recorded, unless it was known or dropped. -/
theorem applied_succ_eq (h : Trailed system goal settings trail e) :
    e.stats.applied + 1 = e.stats.duplicates + e.stats.discovered + trail.dropped := by
  have hpushed : e.stats.discovered = (trail.attempts.filterMap Attempt.pushed?).length + 1 :=
    h.discovered_eq_length_pushed
  have hcounted := h.counted
  have hsplit := countP_isApplied trail.attempts
  rw [← hcounted.applied, ← hcounted.duplicates, ← Trail.dropped] at hsplit
  omega

/-- The mark of the budget is set by the first drop. -/
theorem budgetHit_iff (h : Trailed system goal settings trail e) :
    e.budgetHit = true ↔ 0 < trail.dropped := by
  rw [h.counted.budgetHit, Trail.dropped, List.any_eq_true, List.countP_pos_iff]

/-- A search that has dropped a successor has spent its budget, and no more than that. -/
theorem discovered_of_dropped (h : Trailed system goal settings trail e)
    (hd : 0 < trail.dropped) :
    ∃ budget, settings.maxStates = some budget ∧ e.stats.discovered = max 1 budget := by
  obtain ⟨budget, hb, hspent⟩ := h.closed.spent (h.budgetHit_iff.mpr hd)
  rw [h.frame.2.2] at hb
  have hle := h.discovered_le hb
  have hroot : 1 ≤ e.stats.discovered := by
    rw [h.discovered_eq_length_pushed]
    exact Nat.le_add_left 1 _
  exact ⟨budget, hb, by omega⟩

end Trailed

/-! ## Statement

    The identities, read off the counts. -/

/-- How the counters of a search hang together. -/
structure Accounts (system : TransitionSystem) (settings : Settings) (trail : Trail)
    (e : Explorer) : Prop where
  size_parents : e.stats.discovered = e.parents.size
  size_store : e.stats.discovered = e.store.size
  pushed : e.stats.discovered = e.frontier.pushed
  discovered : e.stats.discovered =
    e.stats.expanded + e.frontier.length + if e.status.isFound then 1 else 0
  tried : e.stats.tried = e.stats.expanded * system.actions.length
  dropped : (e.stats.applied : Int) - e.stats.duplicates - (e.stats.discovered - 1) = trail.dropped
  dropped_of_exhausted : e.status = .exhausted → trail.dropped = 0
  dropped_of_truncated : e.status = .truncated → 1 ≤ trail.dropped
  collisions_le : e.stats.collisions ≤ e.stats.duplicates
  duplicates_le : e.stats.duplicates ≤ e.stats.applied
  applied_le : e.stats.applied ≤ e.stats.tried
  depth_le : ∀ (fp : Fingerprint) (link : Link),
    e.parents[fp]? = some link → link.depth ≤ e.stats.maxDepth
  depth_attained : ∃ (fp : Fingerprint) (link : Link),
    e.parents[fp]? = some link ∧ link.depth = e.stats.maxDepth
  frontierPeak : e.stats.frontierPeak = e.frontier.peak
  spent : 0 < trail.dropped →
    ∃ budget, settings.maxStates = some budget ∧ e.stats.discovered = max 1 budget

/-- **The counters of every search hang together**, whatever was refused, known, colliding or dropped,
    and whether or not a goal was found. -/
theorem Trailed.accounts {system : TransitionSystem} {goal : Goal} {settings : Settings}
    {trail : Trail} {e : Explorer} (h : Trailed system goal settings trail e) :
    Accounts system settings trail e := by
  have ht := h.tree
  have hcounted := h.counted
  have hverdict := h.verdict
  constructor
  case size_parents => exact ht.discovered
  case size_store =>
    rw [ht.discovered, Fingerprint.size_eq_length ht.nodup ht.mem_parents,
      Fingerprint.size_eq_length ht.nodup ht.mem_store]
  case pushed => rw [h.discovered_eq_length_pushed, h.history.count]
  case discovered =>
    rw [ht.discovered_eq_length, length_pending, hcounted.expanded, Nat.add_assoc]
  case tried => rw [hcounted.tried, hcounted.expanded, h.length_attempts]
  case dropped =>
    -- applied attempts were known, recorded or dropped, and only the root was recorded by none
    have happlied := h.applied_succ_eq
    omega
  case dropped_of_exhausted =>
    intro hstatus
    rw [Verdict, hstatus] at hverdict
    -- a successor that is dropped leaves its mark, and an exhausted search has none
    by_contra hne
    have hhit := h.budgetHit_iff.mpr (Nat.pos_of_ne_zero hne)
    exact absurd (hverdict.2.symm.trans hhit) (by simp)
  case dropped_of_truncated =>
    intro hstatus
    rw [Verdict, hstatus] at hverdict
    exact h.budgetHit_iff.mp hverdict.2
  case collisions_le =>
    rw [hcounted.collisions, hcounted.duplicates]
    exact List.countP_mono_left fun _ _ => Attempt.isKnown_of_collides
  case duplicates_le =>
    rw [hcounted.duplicates, hcounted.applied]
    exact List.countP_mono_left fun _ _ => Attempt.isApplied_of_isKnown
  case applied_le =>
    rw [hcounted.applied, hcounted.tried]
    exact List.countP_le_length
  case depth_le => exact h.deepest.depth_le
  case depth_attained => exact h.deepest.attained
  case frontierPeak => exact hcounted.frontierPeak
  case spent => exact h.discovered_of_dropped

/-- With room for six states a search for four units in the big one of jugs of three and five drops two
    successors: of eighteen, eleven were known and five were recorded. -/
theorem jugs_accounts :
    ∃ (system : TransitionSystem) (goal : Goal) (trail : Trail) (e : Explorer),
      (waterJugs 3 5 4).build = .ok (system, goal) ∧
      Trailed system goal { Settings.default with maxStates := some 6 } trail e ∧
      Accounts system { Settings.default with maxStates := some 6 } trail e ∧
      e.stats.applied = 18 ∧ e.stats.duplicates = 11 ∧ e.stats.discovered = 6 ∧
      trail.dropped = 2 := by
  have hquery : ((waterJugs 3 5 4).finish { Settings.default with maxStates := some 6 }).any
      (fun finished => decide (finished.explorer.stats.applied = 18 ∧
        finished.explorer.stats.duplicates = 11 ∧ finished.explorer.stats.discovered = 6)) =
      true := by decide +kernel
  obtain ⟨finished, hfinish, hcounts⟩ := (Option.any_eq_true ..).mp hquery
  obtain ⟨happlied, hduplicates, hdiscovered⟩ := of_decide_eq_true hcounts
  obtain ⟨system, goal, e, hbuild, hstart, hrun⟩ := Puzzle.exists_of_finish hfinish
  obtain ⟨trail, htrail⟩ := ((Arises.start hstart).run hrun).trailed
  have haccounts := Trailed.accounts htrail
  have hdropped := haccounts.dropped
  rw [happlied, hduplicates, hdiscovered] at hdropped
  exact ⟨system, goal, trail, finished.explorer, hbuild, htrail, haccounts, happlied, hduplicates,
    hdiscovered, by omega⟩

end Explorer

end GuardedReach
