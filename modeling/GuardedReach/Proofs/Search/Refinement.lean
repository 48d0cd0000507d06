/-
  Refinement — as long as no collision has been counted, a search is the exact search.

  Nothing is assumed of the hash.  It may well map two states to one fingerprint: what counts is that
  the search has not come upon two that do, and that its own counter says so.

  1. **Correspondence** — `Hashed x e`: the search `e` is the exact search `x` with every state put
     under its fingerprint.  On what has been discovered fingerprints are then injective, which
     follows from the two stores holding the same states.

  2. **One attempt** — the four things that trying an action can amount to are matched
     (`Hashed.record`).  A successor whose fingerprint is known is either the state stored there,
     which the exact search knows too, or a collision, which is counted.

  3. **One step, many steps** — `Hashed.expand`, `Hashed.stepped`, `Hashed.steps`.

  4. **Statement** — `steps_refine_exact`.
-/
import GuardedReach.Proofs.Puzzle.Search
import GuardedReach.Proofs.Search.Exact
import GuardedReach.Proofs.Search.Progress

namespace GuardedReach

/-! ## The correspondence

    Two maps on one side, one list on the other.  They correspond if a state is filed under its fingerprint
    exactly if it is listed. -/

/-- The link that stands for an origin. -/
def Origin.link (origin : Origin) : Link :=
  { parent := origin.parent.fingerprint, action := origin.action, depth := origin.depth }

/-- The status that stands for a standing. -/
def Standing.status : Standing → Status
  | running => .running
  | found goal => .found goal.fingerprint
  | exhausted => .exhausted
  | truncated => .truncated

/-- The map files under fingerprints what is held of states: it has an entry for every state of which
    something is held, and no other. -/
def Files {β : Type} (m : Std.TreeMap Fingerprint β) (held : State → Option β) : Prop :=
  ∀ (fp : Fingerprint) (value : β),
    m[fp]? = some value ↔ ∃ s, held s = some value ∧ s.fingerprint = fp

theorem Files.empty {β : Type} : Files (∅ : Std.TreeMap Fingerprint β) fun _ => none := by
  intro fp value
  simp

/-- Something more is held, of a state whose fingerprint is new. -/
theorem Files.insert {β : Type} {m : Std.TreeMap Fingerprint β} {held held' : State → Option β}
    {t : State} {value : β} (h : Files m held) (hk : t.fingerprint ∉ m)
    (heq : ∀ s, held' s = if s = t then some value else held s) :
    Files (m.insert t.fingerprint value) held' := by
  intro fp found
  rw [Fingerprint.getElem?_insert]
  -- the new fingerprint leads to the new state; under any other nothing has changed
  by_cases hfp : t.fingerprint = fp
  · subst hfp
    rw [if_pos rfl]
    constructor
    · intro hfound
      exact ⟨t, by rw [heq, if_pos rfl, hfound], rfl⟩
    · rintro ⟨s, hheld, hs⟩
      rw [heq] at hheld
      split at hheld
      · exact hheld
      · exact absurd (Fingerprint.mem_of_getElem? ((h _ _).mpr ⟨s, hheld, hs⟩)) hk
  · rw [if_neg hfp, h]
    have hsame : ∀ s : State, s.fingerprint = fp → held' s = held s := by
      rintro s rfl
      rw [heq, if_neg fun hst => hfp (congrArg State.fingerprint hst).symm]
    constructor
    · rintro ⟨s, hheld, hs⟩
      exact ⟨s, (hsame s hs).trans hheld, hs⟩
    · rintro ⟨s, hheld, hs⟩
      exact ⟨s, (hsame s hs).symm.trans hheld, hs⟩

/-- A state that is added to the exact search is stored, -/
theorem Files.stored_add {store : StateStore} {x : ExactSearch} {t : State}
    (h : Files store fun s => (x.origin? s).map fun _ => s) (hk : t.fingerprint ∉ store)
    (origin : Origin) :
    Files (store.insert t.fingerprint t) fun s => ((x.add t origin).origin? s).map fun _ => s := by
  refine h.insert hk fun s => ?_
  rw [ExactSearch.origin?_add]
  split
  · next hst => rw [hst]; rfl
  · rfl

/-- and linked as it was first reached. -/
theorem Files.linked_add {parents : ParentMap} {x : ExactSearch} {t : State}
    (h : Files parents fun s => (x.origin? s).map Origin.link) (hk : t.fingerprint ∉ parents)
    (origin : Origin) :
    Files (parents.insert t.fingerprint origin.link) fun s =>
      ((x.add t origin).origin? s).map Origin.link := by
  refine h.insert hk fun s => ?_
  rw [ExactSearch.origin?_add]
  split <;> rfl

/-- The search `e` is the exact search `x` with states under their fingerprints. -/
structure Hashed (x : ExactSearch) (e : Explorer) : Prop where
  system : e.system = x.system
  goal : e.goal = x.goal
  settings : e.settings = x.settings
  status : e.status = x.standing.status
  queue : e.frontier.toList = x.queue.map State.fingerprint
  stored : Files e.store fun s => (x.origin? s).map fun _ => s
  linked : Files e.parents fun s => (x.origin? s).map Origin.link
  stats : e.stats = x.stats
  pushed : e.frontier.pushed = x.stats.discovered
  peak : e.frontier.peak = x.stats.frontierPeak
  budgetHit : e.budgetHit = x.budgetHit
  /-- What is queued has been discovered. -/
  queued : ∀ s ∈ x.queue, x.Discovered s
  /-- The goal, if one was found, has been discovered. -/
  goal_discovered : ∀ s, x.standing = .found s → x.Discovered s
  /-- What discovered a state has been discovered itself. -/
  parent_discovered : ∀ s origin, x.origin? s = some origin → x.Discovered origin.parent

namespace Hashed

variable {x : ExactSearch} {e : Explorer}

/-- What is stored has been discovered, and stands under its fingerprint. -/
theorem stored_iff (h : Hashed x e) {fp : Fingerprint} {s : State} :
    e.store[fp]? = some s ↔ x.Discovered s ∧ s.fingerprint = fp := by
  rw [h.stored, ExactSearch.discovered_iff]
  constructor
  · rintro ⟨t, ht, hfp⟩
    obtain ⟨origin, horigin, rfl⟩ := Option.map_eq_some_iff.mp ht
    exact ⟨⟨origin, horigin⟩, hfp⟩
  · rintro ⟨⟨origin, horigin⟩, hfp⟩
    exact ⟨s, Option.map_eq_some_iff.mpr ⟨origin, horigin, rfl⟩, hfp⟩

/-- A discovered state is linked as it was first reached, -/
theorem linked_of_origin? (h : Hashed x e) {s : State} {origin : Origin}
    (horigin : x.origin? s = some origin) : e.parents[s.fingerprint]? = some origin.link :=
  (h.linked _ _).mpr ⟨s, Option.map_eq_some_iff.mpr ⟨origin, horigin, rfl⟩, rfl⟩

/-- so its fingerprint is known, -/
theorem mem_parents_of_discovered (h : Hashed x e) {s : State} (hs : x.Discovered s) :
    s.fingerprint ∈ e.parents := by
  obtain ⟨origin, horigin⟩ := ExactSearch.discovered_iff.mp hs
  exact Fingerprint.mem_of_getElem? (h.linked_of_origin? horigin)

/-- and a state whose fingerprint is new has not been discovered. -/
theorem not_discovered (h : Hashed x e) {s : State} (hk : s.fingerprint ∉ e.parents) :
    ¬ x.Discovered s :=
  fun hs => hk (h.mem_parents_of_discovered hs)

/-- What is stored is linked, so a fingerprint without a link has no state either. -/
theorem not_mem_store (h : Hashed x e) {fp : Fingerprint} (hk : fp ∉ e.parents) : fp ∉ e.store := by
  intro hm
  obtain ⟨s, hs⟩ := Fingerprint.mem_iff_exists.mp hm
  obtain ⟨hd, rfl⟩ := h.stored_iff.mp hs
  exact h.not_discovered hk hd

/-- As many fingerprints are queued as states. -/
theorem length_frontier (h : Hashed x e) : e.frontier.length = x.queue.length := by
  rw [Frontier.length_eq_length_toList, h.queue, List.length_map]

/-- On what has been discovered, fingerprints are injective. -/
theorem eq_of_fingerprint_eq (h : Hashed x e) {s t : State} (hs : x.Discovered s)
    (ht : x.Discovered t) (heq : s.fingerprint = t.fingerprint) : s = t := by
  have hstored := h.stored_iff.mpr ⟨hs, heq⟩
  rw [h.stored_iff.mpr ⟨ht, rfl⟩] at hstored
  exact (Option.some.inj hstored).symm

/-- The link and the state at a fingerprint stand for one entry of the exact search. -/
theorem origin_of_linked (h : Hashed x e) {fp : Fingerprint} {s : State} {link : Link}
    (hs : e.store[fp]? = some s) (hl : e.parents[fp]? = some link) :
    ∃ origin, x.origin? s = some origin ∧ origin.link = link := by
  obtain ⟨hd, rfl⟩ := h.stored_iff.mp hs
  obtain ⟨origin, horigin⟩ := ExactSearch.discovered_iff.mp hd
  have hlink := h.linked_of_origin? horigin
  exact ⟨origin, horigin, Option.some.inj (hlink.symm.trans hl)⟩

/-! ## One attempt

    Known, dropped and new mean the same on both sides, unless a collision is counted. -/

/-- A new state, recorded by both. -/
theorem record_fresh (h : Hashed x e) {current t : State} (hcurrent : x.Discovered current)
    (hk : t.fingerprint ∉ e.parents) (depth : UInt32) (index : Nat) :
    Hashed
      (({ x with
          stats := { x.stats with tried := x.stats.tried + 1, applied := x.stats.applied + 1 } } :
        ExactSearch).add t { parent := current, action := some index, depth := depth + 1 })
      (e.record current.fingerprint depth index (.fresh t)) := by
  have hpeak : (e.frontier.push t.fingerprint).peak =
      max x.stats.frontierPeak (x.queue.length + 1) := by
    rw [← h.peak, ← h.length_frontier]
    rfl
  constructor
  case system => exact h.system
  case goal => exact h.goal
  case settings => exact h.settings
  case status => exact h.status
  case budgetHit => exact h.budgetHit
  case queue =>
    show (e.frontier.push t.fingerprint).toList = (x.queue ++ [t]).map State.fingerprint
    rw [Frontier.toList_push, h.queue, List.map_append]
    rfl
  case stored => exact h.stored.stored_add (h.not_mem_store hk) _
  case linked =>
    exact h.linked.linked_add hk { parent := current, action := some index, depth := depth + 1 }
  case stats => simp only [Explorer.record, ExactSearch.add, h.stats, hpeak]
  case pushed => exact congrArg (· + 1) h.pushed
  case peak => exact hpeak
  case queued =>
    intro s hs
    rw [ExactSearch.discovered_add_iff]
    rcases List.mem_append.mp hs with hs | hs
    · exact Or.inr (h.queued s hs)
    · exact Or.inl (List.mem_singleton.mp hs)
  case goal_discovered =>
    intro s hs
    rw [ExactSearch.discovered_add_iff]
    exact Or.inr (h.goal_discovered s hs)
  case parent_discovered =>
    intro s origin horigin
    rw [ExactSearch.discovered_add_iff]
    rw [ExactSearch.origin?_add] at horigin
    split at horigin
    · obtain rfl := Option.some.inj horigin
      exact Or.inr hcurrent
    · exact Or.inr (h.parent_discovered s origin horigin)

/-- **One attempt**, if it is no collision. -/
theorem record (h : Hashed x e) {a : Action} {s : State} {attempt : Explorer.Attempt}
    (ht : Explorer.Tried e a s attempt) (hs : x.Discovered s) (depth : UInt32) (index : Nat)
    (hc : (e.record s.fingerprint depth index attempt).stats.collisions = 0) :
    Hashed (x.tryAction s depth index a) (e.record s.fingerprint depth index attempt) := by
  unfold ExactSearch.tryAction
  cases ht with
  | refused ha =>
    simp only [ha]
    exact { h with stats := by simp only [Explorer.record, h.stats] }
  | @known t ha hk =>
    simp only [ha]
    -- what is stored there is the successor, or else a collision would have been counted
    have hstored : e.store[t.fingerprint]? = some t := by
      by_cases hsame : e.store[t.fingerprint]? = some t
      · exact hsame
      · simp only [Explorer.record, if_neg hsame] at hc
        omega
    have hzero : e.stats.collisions = 0 := by
      simp only [Explorer.record, if_pos hstored] at hc
      exact hc
    rw [if_pos (h.stored_iff.mp hstored).1]
    exact { h with stats := by simp only [Explorer.record, if_pos hstored, Nat.add_zero, h.stats] }
  | @dropped t budget ha hk hb hd =>
    simp only [ha]
    have hfull : x.isFull = true := by
      rw [ExactSearch.isFull, ← h.settings, hb, ← h.stats]
      exact decide_eq_true hd
    rw [if_neg (h.not_discovered hk), if_pos hfull]
    exact { h with
      stats := by simp only [Explorer.record, h.stats]
      budgetHit := rfl }
  | @fresh t ha hk hroom =>
    simp only [ha]
    have hroom : ¬ x.isFull = true := by
      rw [ExactSearch.isFull, ← h.settings, ← h.stats, Option.any_eq_true]
      rintro ⟨budget, hb, hle⟩
      have hlt := hroom budget hb
      have hle := of_decide_eq_true hle
      omega
    rw [if_neg (h.not_discovered hk), if_neg hroom]
    exact h.record_fresh hs hk depth index

/-! ## One step

    An attempt at a time, with the counter of collisions only growing. -/

/-- **One expansion**, if no attempt is a collision. -/
theorem expand (h : Hashed x e) {s : State} (hs : x.Discovered s) (depth : UInt32)
    (hc : (e.expand s.fingerprint s depth 0 e.system.actions).1.stats.collisions = 0) :
    Hashed (x.expand s depth) (e.expand s.fingerprint s depth 0 e.system.actions).1 := by
  rw [Explorer.expand_eq_foldl] at hc ⊢
  rw [h.system] at hc ⊢
  -- the counter never goes down, so it was at zero all along
  refine (List.foldl_rel (r := fun f y => f.stats.collisions = 0 → Hashed y f ∧ y.Discovered s)
    (fun _ => ⟨h, hs⟩) ?_ hc).1
  intro entry _ f y ih hc
  have hle := Explorer.collisions_le_record f s.fingerprint depth entry.2 (f.attempt entry.1 s)
  obtain ⟨hf, hd⟩ := ih (by omega)
  exact ⟨hf.record (Explorer.tried_attempt f entry.1 s) hd depth entry.2 hc,
    ExactSearch.discovered_tryAction hd s depth entry.2 entry.1⟩

/-- While the search runs, the exact search does. -/
theorem standing_of_running (h : Hashed x e) (hr : e.status = .running) : x.standing = .running := by
  have hstatus := h.status.symm.trans hr
  cases hx : x.standing with
  | running => rfl
  | found goal => rw [hx] at hstatus; exact absurd hstatus (by simp [Standing.status])
  | exhausted => rw [hx] at hstatus; exact absurd hstatus (by simp [Standing.status])
  | truncated => rw [hx] at hstatus; exact absurd hstatus (by simp [Standing.status])

/-- A goal that was found is the fingerprint of the goal of the exact search. -/
theorem standing_of_found (h : Hashed x e) {goal : Fingerprint} (hf : e.status = .found goal) :
    ∃ s, x.standing = .found s ∧ s.fingerprint = goal := by
  have hstatus := h.status.symm.trans hf
  cases hx : x.standing with
  | running => rw [hx] at hstatus; exact absurd hstatus (by simp [Standing.status])
  | found s => rw [hx] at hstatus; exact ⟨s, rfl, Status.found.inj hstatus⟩
  | exhausted => rw [hx] at hstatus; exact absurd hstatus (by simp [Standing.status])
  | truncated => rw [hx] at hstatus; exact absurd hstatus (by simp [Standing.status])

/-- What a step takes from the frontier, the exact search takes from its queue. -/
theorem exists_queue (h : Hashed x e) {current : Fingerprint} {frontier : Frontier} {s : State}
    {link : Link} (hv : e.Visits current frontier s link) :
    x.Discovered s ∧ s.fingerprint = current ∧ x.depth s = link.depth ∧
      ∃ queue, x.queue = s :: queue ∧ frontier.toList = queue.map State.fingerprint := by
  obtain ⟨hd, hfp⟩ := h.stored_iff.mp hv.stored
  obtain ⟨origin, horigin, rfl⟩ := h.origin_of_linked hv.stored hv.linked
  refine ⟨hd, hfp, ExactSearch.depth_of_origin? horigin, ?_⟩
  have hqueue := h.queue
  rw [Frontier.toList_eq_cons_of_pop? hv.popped] at hqueue
  cases hx : x.queue with
  | nil => rw [hx] at hqueue; exact absurd hqueue (by simp)
  | cons t queue =>
    rw [hx, List.map_cons] at hqueue
    obtain ⟨ht, hrest⟩ := List.cons.inj hqueue
    have htd : x.Discovered t := h.queued t (by rw [hx]; exact List.mem_cons_self ..)
    obtain rfl := h.eq_of_fingerprint_eq hd htd (hfp.trans ht)
    exact ⟨queue, rfl, hrest⟩

/-- What a step makes of the frontier, if it takes a state from it. -/
theorem taken (h : Hashed x e) {current : Fingerprint} {frontier : Frontier} {s : State}
    {link : Link} {queue : List State} (hv : e.Visits current frontier s link)
    (hqueue : x.queue = s :: queue) (hrest : frontier.toList = queue.map State.fingerprint) :
    Hashed { x with queue } { e with frontier } := by
  obtain ⟨hpushed, hpeak⟩ := Frontier.counts_of_pop? hv.popped
  exact { h with
    queue := hrest
    pushed := hpushed.trans h.pushed
    peak := hpeak.trans h.peak
    queued := fun t ht => h.queued t (by rw [hqueue]; exact List.mem_cons_of_mem _ ht) }

/-- **One step**, if it counts no collision. -/
theorem stepped (h : Hashed x e) {next : Explorer} {events : List Event} {leg : Explorer.Trail}
    (hs : Explorer.Stepped e events leg next) (hc : next.stats.collisions = 0) :
    Hashed x.step next := by
  cases hs with
  | rested ht =>
    have hended : x.standing ≠ .running := by
      intro hx
      rw [h.status, hx] at ht
      exact absurd ht (by simp [Standing.status, Status.isTerminal])
    rw [ExactSearch.step_of_ended hended]
    exact h
  | ended hr hq =>
    have hqueue : x.queue = [] := List.map_eq_nil_iff.mp (h.queue.symm.trans hq)
    rw [ExactSearch.step_of_empty (h.standing_of_running hr) hqueue]
    refine { h with status := ?_, goal_discovered := ?_ }
    · show (if e.budgetHit then Status.truncated else Status.exhausted) = _
      rw [h.budgetHit]
      cases x.budgetHit <;> rfl
    · intro s hs
      cases hb : x.budgetHit <;> simp [hb] at hs
  | @found current frontier s link hv hg =>
    obtain ⟨hd, rfl, -, queue, hqueue, hrest⟩ := h.exists_queue hv
    rw [h.goal] at hg
    rw [ExactSearch.step_of_goal (h.standing_of_running hv.running) hqueue hg]
    refine { h.taken hv hqueue hrest with status := rfl, goal_discovered := ?_ }
    intro t ht
    obtain rfl := Standing.found.inj ht
    exact hd
  | @expanded current frontier s link hv hg =>
    obtain ⟨hd, rfl, hdepth, queue, hqueue, hrest⟩ := h.exists_queue hv
    rw [h.goal] at hg
    -- the state is counted before its actions are tried, on both sides
    have hopened :
        Hashed { x with queue, stats := { x.stats with expanded := x.stats.expanded + 1 } }
          (e.opened frontier link.depth) :=
      { h.taken hv hqueue hrest with stats := by simp only [Explorer.opened, h.stats] }
    rw [ExactSearch.step_of_not_goal (h.standing_of_running hv.running) hqueue hg, hdepth]
    exact hopened.expand hd link.depth hc

/-! ## Many steps

    If no collision has been counted at the end, none had been on the way. -/

/-- The exact search begins as the search does. -/
theorem of_start {system : TransitionSystem} {goal : Goal} {settings : Settings}
    (h : Explorer.start system goal settings = .ok e) :
    Hashed (ExactSearch.start system goal settings) e := by
  -- what the exact search starts from was added to nothing
  let blank : ExactSearch := { ExactSearch.start system goal settings with origins := [] }
  let first : Origin := { parent := system.initial, action := none, depth := 0 }
  have horigin : ∀ s, (ExactSearch.start system goal settings).origin? s =
      if s = system.initial then some first else none := blank.origin?_add system.initial first
  have hinitial : (ExactSearch.start system goal settings).Discovered system.initial := by
    rw [ExactSearch.discovered_iff, horigin, if_pos rfl]
    exact ⟨_, rfl⟩
  have hnew : ∀ {β : Type}, system.initial.fingerprint ∉ (∅ : Std.TreeMap Fingerprint β) :=
    Std.TreeMap.not_mem_emptyc
  obtain rfl := Explorer.eq_of_start h
  constructor
  case system => rfl
  case goal => rfl
  case settings => rfl
  case status => rfl
  case queue => rfl
  case stored => exact Files.stored_add (x := blank) Files.empty hnew first
  case linked => exact Files.linked_add (x := blank) Files.empty hnew first
  case stats => rfl
  case pushed => rfl
  case peak => rfl
  case budgetHit => rfl
  case queued =>
    intro s hs
    rw [List.mem_singleton.mp hs]
    exact hinitial
  case goal_discovered =>
    intro s hs
    exact absurd hs (by simp [ExactSearch.start])
  case parent_discovered =>
    intro s origin hs
    rw [horigin] at hs
    split at hs
    · obtain rfl := Option.some.inj hs
      exact hinitial
    · exact absurd hs (by simp)

/-- **Many steps**, if they count no collision. -/
theorem steps {system : TransitionSystem} {goal : Goal} {settings : Settings}
    (h : Explorer.start system goal settings = .ok e) {n : Nat} {f : Explorer}
    (hf : e.steps n = .ok f) (hc : f.stats.collisions = 0) :
    Hashed ((ExactSearch.start system goal settings).steps n) f := by
  induction n generalizing f with
  | zero =>
    obtain rfl := Except.ok.inj hf
    exact of_start h
  | succ n ih =>
    obtain ⟨g, events, hg, hstep⟩ := Explorer.steps_succ_eq_ok_iff.mp hf
    have hs := Explorer.stepped_of_step hstep
    obtain ⟨trail, htrail⟩ := Explorer.trailed_of_steps h hg
    have hle := (htrail.tree.extends_stepped hs).collisions
    exact (ih hg (by omega)).stepped hs hc

/-! ## Traces

    Links are by fingerprints and origins by states, and following either gives the same steps. -/

/-- What a walk finds at a fingerprint is what the exact search finds at the state. -/
theorem entry_of_visit (h : Hashed x e) {fp : Fingerprint} {link : Link} {step : Step} {s : State}
    (hv : Witness.visit e.parents e.store e.system.actions fp = .ok (link, step))
    (hs : e.store[fp]? = some s) :
    ∃ origin, x.origin? s = some origin ∧ origin.link = link ∧ x.entry s origin = step ∧
      (origin.parent = s ↔ link.parent = fp) := by
  obtain ⟨t, name, hlink, ht, hname, rfl⟩ := Witness.visit_eq_ok_iff.mp hv
  obtain rfl := Option.some.inj (hs.symm.trans ht)
  obtain ⟨origin, horigin, rfl⟩ := h.origin_of_linked hs hlink
  obtain ⟨hd, rfl⟩ := h.stored_iff.mp hs
  -- the name that the walk shows is the name at the index of the origin
  have hname' : (origin.action.bind fun index => x.system.actions[index]?).map Action.name =
      name := by
    rw [← h.system]
    cases ha : origin.action with
    | none =>
      simp only [Witness.actionName, Origin.link, ha] at hname
      exact Except.ok.inj hname
    | some index =>
      simp only [Witness.actionName, Origin.link, ha] at hname
      rw [Option.bind_some]
      cases hi : e.system.actions[index]? with
      | none => rw [hi] at hname; exact absurd hname (by simp)
      | some a => rw [hi] at hname; exact Except.ok.inj hname
  refine ⟨origin, horigin, rfl, ?_, ?_⟩
  · rw [ExactSearch.entry, hname']
  · constructor
    · intro hparent
      rw [Origin.link, hparent]
    · exact h.eq_of_fingerprint_eq (h.parent_discovered s origin horigin) hd

/-- **The traces are the same**: the exact search finds every lineage. -/
theorem trace_eq (h : Hashed x e) {fp : Fingerprint} {steps : List Step}
    (hl : Lineage e.parents e.store e.system.actions fp steps) :
    ∀ (more : Nat) (s : State), e.store[fp]? = some s → steps.length ≤ more + 1 →
      x.trace more s = some steps := by
  induction hl with
  | root hv hp =>
    intro more s hs hlen
    obtain ⟨origin, horigin, -, hstep, hparent⟩ := h.entry_of_visit hv hs
    unfold ExactSearch.trace
    simp only [horigin, if_pos (hparent.mpr hp), hstep]
  | @child fp link step steps hv hp hl ih =>
    intro more s hs hlen
    obtain ⟨origin, horigin, rfl, hstep, hparent⟩ := h.entry_of_visit hv hs
    have hpos := hl.length_pos
    rw [List.length_append, List.length_singleton] at hlen
    have habove : e.store[origin.link.parent]? = some origin.parent :=
      h.stored_iff.mpr ⟨h.parent_discovered s origin horigin, rfl⟩
    unfold ExactSearch.trace
    simp only [horigin, if_neg fun heq => hp (hparent.mp heq)]
    -- a step above the last is left, so at least one more may be taken
    cases more with
    | zero => omega
    | succ more =>
      simp only
      rw [ih more _ habove (by omega), hstep]
      rfl

/-- Both read off the same trace to whatever has been discovered. -/
theorem witness_eq (h : Hashed x e) {expanded : List Fingerprint} (ht : Explorer.Tree e expanded)
    {s : State} (hs : x.Discovered s) :
    ∃ w, e.witness s.fingerprint = .ok w ∧ x.witness? s = some w := by
  have hstored := h.stored_iff.mpr ⟨hs, rfl⟩
  obtain ⟨steps, hl⟩ := ht.lineage_of_stored hstored
  refine ⟨{ steps }, hl.reconstruct_eq_ok, ?_⟩
  have hlen := hl.length_le_size
  rw [← ht.discovered, h.stats] at hlen
  unfold ExactSearch.witness?
  rw [h.trace_eq hl _ s hstored (by omega)]
  rfl

/-- Both give the same outcome. -/
theorem outcome_eq (h : Hashed x e) {expanded : List Fingerprint} (ht : Explorer.Tree e expanded) :
    e.outcome.toOption = x.outcome? := by
  unfold Explorer.outcome ExactSearch.outcome?
  rw [h.status]
  cases hx : x.standing with
  | running => rfl
  | exhausted => rfl
  | truncated => rfl
  | found s =>
    obtain ⟨w, hw, hw'⟩ := h.witness_eq ht (h.goal_discovered s hx)
    simp only [Standing.status, hw, hw']
    rfl

end Hashed

/-! ## Statement

    The search and its exact search, side by side at every step. -/

namespace Explorer

/-- **Refinement.**  Any number of steps can be taken, and as long as no collision has been counted
    they lead where as many steps of the exact search lead: states under their fingerprints, all else
    the same.  Both then read off the same trace to every state discovered, and give the same
    outcome. -/
theorem steps_refine_exact {system : TransitionSystem} {goal : Goal} {settings : Settings}
    {e : Explorer} (h : Explorer.start system goal settings = .ok e) (n : Nat) :
    ∃ f, e.steps n = .ok f ∧ (f.stats.collisions = 0 →
      Hashed ((ExactSearch.start system goal settings).steps n) f ∧
      (∀ s, ((ExactSearch.start system goal settings).steps n).Discovered s →
        ∃ w, f.witness s.fingerprint = .ok w ∧
          ((ExactSearch.start system goal settings).steps n).witness? s = some w) ∧
      f.outcome.toOption = ((ExactSearch.start system goal settings).steps n).outcome?) := by
  obtain ⟨f, hf⟩ := exists_steps h n
  obtain ⟨trail, htrail⟩ := trailed_of_steps h hf
  refine ⟨f, hf, fun hc => ?_⟩
  have hhashed := Hashed.steps h hf hc
  exact ⟨hhashed, fun s hs => hhashed.witness_eq htrail.tree hs, hhashed.outcome_eq htrail.tree⟩

/-- Fourteen steps towards four units in the big one of jugs of three and five, with a budget that
    drops a state on the way. -/
theorem jugs_refine_exact :
    ∃ (system : TransitionSystem) (goal : Goal) (e f : Explorer) (w : Witness),
      (waterJugs 3 5 4).build = .ok (system, goal) ∧
      Explorer.start system goal { Settings.default with maxStates := some 14 } = .ok e ∧
      e.steps 14 = .ok f ∧ f.stats.collisions = 0 ∧ f.budgetHit = true ∧
      Hashed
        ((ExactSearch.start system goal { Settings.default with maxStates := some 14 }).steps 14)
        f ∧
      ((ExactSearch.start system goal { Settings.default with maxStates := some 14 }).steps
        14).outcome? = some (.found w) := by
  have hquery : (waterJugs 3 5 4).build.toOption.any (fun pair =>
      (Explorer.start pair.1 pair.2 { Settings.default with maxStates := some 14 }).toOption.any
        fun e => (e.steps 14).toOption.any fun f =>
          decide (f.stats.collisions = 0 ∧ f.budgetHit = true) &&
            f.outcome.toOption.any Outcome.isFound) = true := by decide +kernel
  obtain ⟨pair, hbuild, hquery⟩ := (Option.any_eq_true ..).mp hquery
  obtain ⟨e, hstart, hquery⟩ := (Option.any_eq_true ..).mp hquery
  obtain ⟨f, hsteps, hquery⟩ := (Option.any_eq_true ..).mp hquery
  obtain ⟨hcounts, hfound⟩ := (Bool.and_eq_true ..).mp hquery
  obtain ⟨hcollisions, hbudget⟩ := of_decide_eq_true hcounts
  obtain ⟨outcome, houtcome, hfound⟩ := (Option.any_eq_true ..).mp hfound
  have hstart := Puzzle.eq_ok_of_toOption hstart
  have hsteps := Puzzle.eq_ok_of_toOption hsteps
  obtain ⟨g, hg, hrefine⟩ := steps_refine_exact hstart 14
  obtain rfl := Except.ok.inj (hsteps.symm.trans hg)
  obtain ⟨hhashed, -, heq⟩ := hrefine hcollisions
  cases outcome with
  | found w =>
    exact ⟨pair.1, pair.2, e, f, w, Puzzle.eq_ok_of_toOption hbuild, hstart, hsteps, hcollisions,
      hbudget, hhashed, heq.symm.trans houtcome⟩
  | exhausted => exact absurd hfound (by simp [Outcome.isFound])
  | truncated => exact absurd hfound (by simp [Outcome.isFound])

end Explorer

end GuardedReach
