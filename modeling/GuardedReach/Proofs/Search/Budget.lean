/-
  Budgets — what a search has in common with one of the same system that may record more states.

  Until the smaller budget drops a successor the two are one search.  From then on the search with
  the smaller budget records nothing and only empties its queue, while the other goes on.  Both still
  take the same states, step by step, for what is queued in the one heads the queue of the other.

  1. **One attempt** — a budget can matter to an attempt only if the attempt is dropped
     (`attempt_under`), and a search that has dropped one stays as it is (`Spent.record_stays`).

  2. **Two running searches** — `Behind e f`: all that `e` has recorded stands in `f`, the queue of `e`
     is a prefix of that of `f`, and they differ in nothing but the settings if `e` has dropped
     nothing.  Attempts, expansions and the next state taken keep it so.

  3. **Two searches** — `Alongside` says how two searches compare that have taken as many steps: both
     run, both have found the same goal, both are exhausted, or only the smaller budget has put an
     end to its search, and all it recorded has been expanded by the other too.

  4. **Statement** — `Arises.budget_mono`.
-/
import GuardedReach.Proofs.Search.Closure
import GuardedReach.Proofs.Search.Progress

namespace GuardedReach

/-- The first budget is no larger than the second, and no budget at all is the largest. -/
def Settings.NoLarger (small large : Settings) : Prop :=
  ∀ budget, large.maxStates = some budget →
    ∃ less, small.maxStates = some less ∧ less ≤ budget

namespace Explorer

/-! ## One attempt

    An attempt looks at the settings only to ask whether there is room. -/

/-- The same search under other settings. -/
def under (e : Explorer) (settings : Settings) : Explorer :=
  { e with settings }

theorem record_under (e : Explorer) (settings : Settings) (current : Fingerprint) (depth : UInt32)
    (index : Nat) (attempt : Attempt) :
    (e.under settings).record current depth index attempt =
      (e.record current depth index attempt).under settings := by
  cases attempt <;> rfl

/-- Where there was room there is room under a larger budget. -/
theorem attempt_under {e : Explorer} {settings : Settings} (h : e.settings.NoLarger settings)
    (a : Action) (s : State) :
    (e.under settings).attempt a s = e.attempt a s ∨ ∃ budget, e.attempt a s = .dropped budget := by
  unfold attempt under
  cases a.run s with
  | error ins => exact Or.inl rfl
  | ok t =>
    simp only
    -- whether there is room is asked only of a successor whose fingerprint is new
    split
    · exact Or.inl rfl
    · cases hlarge : settings.maxStates with
      | none =>
        cases hsmall : e.settings.maxStates with
        | none => exact Or.inl rfl
        | some less =>
          simp only
          split
          · exact Or.inr ⟨less, rfl⟩
          · exact Or.inl rfl
      | some budget =>
        obtain ⟨less, hsmall, hle⟩ := h budget hlarge
        simp only [hsmall]
        split
        · next hd =>
          split
          · exact Or.inr ⟨less, rfl⟩
          · omega
        · split
          · exact Or.inr ⟨less, rfl⟩
          · exact Or.inl rfl

/-- Once an attempt was dropped, this one or an earlier one, nothing more is recorded or queued. -/
theorem Spent.record_stays {e : Explorer} {a : Action} {s : State} {attempt : Attempt}
    (h : Spent e) (ht : Tried e a s attempt) {current : Fingerprint} {depth : UInt32} {index : Nat}
    (hb : (e.record current depth index attempt).budgetHit = true) :
    (e.record current depth index attempt).parents = e.parents ∧
      (e.record current depth index attempt).store = e.store ∧
      (e.record current depth index attempt).frontier = e.frontier := by
  cases ht with
  | refused ha => exact ⟨rfl, rfl, rfl⟩
  | known ha hk => exact ⟨rfl, rfl, rfl⟩
  | dropped ha hk hb hd => exact ⟨rfl, rfl, rfl⟩
  | fresh ha hk hroom =>
    obtain ⟨budget, hsome, hle⟩ := h hb
    have hlt := hroom budget hsome
    omega

/-- As long as nothing has been dropped, the last attempt was not. -/
theorem of_budgetHit_record {e : Explorer} {current : Fingerprint} {depth : UInt32} {index : Nat}
    {attempt : Attempt} (h : (e.record current depth index attempt).budgetHit = false) :
    e.budgetHit = false ∧ ¬ ∃ budget, attempt = .dropped budget := by
  cases attempt with
  | refused ins => exact ⟨h, by simp⟩
  | known next stored => exact ⟨h, by simp⟩
  | dropped budget => exact absurd h (by simp [Explorer.record])
  | fresh next => exact ⟨h, by simp⟩

/-- No attempt takes anything out of the queue. -/
theorem prefix_record (e : Explorer) (current : Fingerprint) (depth : UInt32) (index : Nat)
    (attempt : Attempt) :
    e.frontier.toList <+: (e.record current depth index attempt).frontier.toList := by
  cases attempt with
  | refused ins => exact List.prefix_rfl
  | known next stored => exact List.prefix_rfl
  | dropped budget => exact List.prefix_rfl
  | fresh next =>
    show _ <+: (e.frontier.push _).toList
    rw [Frontier.toList_push]
    exact List.prefix_append ..

/-- What is stored is linked, before an attempt and after it. -/
theorem mem_parents_record {e : Explorer} (h : ∀ fp, fp ∈ e.store → fp ∈ e.parents)
    (current : Fingerprint) (depth : UInt32) (index : Nat) (attempt : Attempt) (fp : Fingerprint)
    (hm : fp ∈ (e.record current depth index attempt).store) :
    fp ∈ (e.record current depth index attempt).parents := by
  cases attempt with
  | refused ins => exact h fp hm
  | known next stored => exact h fp hm
  | dropped budget => exact h fp hm
  | fresh next =>
    rcases Fingerprint.mem_insert_iff.mp hm with rfl | hm
    · exact Fingerprint.mem_insert_iff.mpr (Or.inl rfl)
    · exact Fingerprint.mem_insert_iff.mpr (Or.inr (h fp hm))

/-! ## Two running searches

    One search is behind the other, or it is the other under another budget. -/

/-- All that `e` has recorded stands in `f`. -/
structure Within (e f : Explorer) : Prop where
  parents : ∀ (fp : Fingerprint) (link : Link),
    e.parents[fp]? = some link → f.parents[fp]? = some link
  store : ∀ (fp : Fingerprint) (s : State), e.store[fp]? = some s → f.store[fp]? = some s

theorem Within.extend {e f g : Explorer} (h : Within e f) (hx : Extends f g) : Within e g where
  parents fp link hl := hx.parents fp link (h.parents fp link hl)
  store fp s hs := hx.store fp s (h.store fp s hs)

/-- Both searches are running, and the one with the smaller budget has done nothing that the other
    has not done. -/
structure Behind (e f : Explorer) : Prop extends Within e f where
  system : f.system = e.system
  goal : f.goal = e.goal
  running : e.status = .running
  room : e.settings.NoLarger f.settings
  spent : Spent e
  linked : ∀ fp, fp ∈ f.store → fp ∈ f.parents
  queue : e.frontier.toList <+: f.frontier.toList
  also_running : f.status = .running
  same : e.budgetHit = false → f = e.under f.settings

namespace Behind

variable {e f : Explorer}

/-- The same search under a larger budget. -/
theorem of_under {settings : Settings} (hr : e.status = .running)
    (hroom : e.settings.NoLarger settings) (hspent : Spent e)
    (hlinked : ∀ fp, fp ∈ e.store → fp ∈ e.parents) : Behind e (e.under settings) where
  parents _ _ hl := hl
  store _ _ hs := hs
  system := rfl
  goal := rfl
  running := hr
  room := hroom
  spent := hspent
  linked := hlinked
  queue := List.prefix_rfl
  also_running := hr
  same _ := rfl

/-- **One attempt** at the same action by both. -/
theorem record (h : Behind e f) (a : Action) (s : State) (current : Fingerprint) (depth : UInt32)
    (index : Nat) :
    Behind (e.record current depth index (e.attempt a s))
      (f.record current depth index (f.attempt a s)) := by
  have ht := tried_attempt e a s
  have hspent := h.spent.record ht current depth index
  obtain ⟨hsystem, hgoal, hsettings, hstatus⟩ :=
    frame_record e current depth index (e.attempt a s)
  obtain ⟨hsystem', hgoal', hsettings', hstatus'⟩ :=
    frame_record f current depth index (f.attempt a s)
  cases hb : (e.record current depth index (e.attempt a s)).budgetHit with
  | false =>
    -- nothing has been dropped, so both attempts are the same
    obtain ⟨hbefore, hdropped⟩ := of_budgetHit_record hb
    have hsame := h.same hbefore
    have hattempt : f.attempt a s = e.attempt a s := by
      rw [hsame]
      exact (attempt_under h.room a s).resolve_right hdropped
    have hlinked : ∀ fp, fp ∈ e.store → fp ∈ e.parents := by
      intro fp hm
      have hf := h.linked fp
      rw [hsame] at hf
      exact hf hm
    rw [hattempt, hsame, record_under]
    refine of_under (hstatus.trans h.running) ?_ hspent
      (mem_parents_record hlinked current depth index _)
    rw [hsettings]
    exact h.room
  | true =>
    obtain ⟨hparents, hstore, hfrontier⟩ := h.spent.record_stays ht hb
    have hwithin := h.toWithin.extend
      (extends_record h.linked (tried_attempt f a s) current depth index)
    constructor
    case toWithin => exact ⟨hparents ▸ hwithin.parents, hstore ▸ hwithin.store⟩
    case system => rw [hsystem, hsystem', h.system]
    case goal => rw [hgoal, hgoal', h.goal]
    case running => exact hstatus.trans h.running
    case room => rw [hsettings, hsettings']; exact h.room
    case spent => exact hspent
    case linked => exact mem_parents_record h.linked current depth index _
    case queue => rw [hfrontier]; exact h.queue.trans (prefix_record ..)
    case also_running => exact hstatus'.trans h.also_running
    case same =>
      intro hfalse
      exact absurd (hb.symm.trans hfalse) (by simp)

/-- **One expansion** of the same state by both. -/
theorem expand (h : Behind e f) (current : Fingerprint) (s : State) (depth : UInt32) :
    Behind (e.expand current s depth 0 e.system.actions).1
      (f.expand current s depth 0 f.system.actions).1 := by
  rw [expand_eq_foldl, expand_eq_foldl, h.system]
  refine List.foldl_rel (r := Behind) h ?_
  intro entry _ e f ih
  exact ih.record entry.1 s current depth entry.2

variable {current : Fingerprint} {frontier : Frontier} {s : State} {link : Link}

/-- **The next state** that the one takes the other takes. -/
theorem exists_visits (h : Behind e f) {expanded : List Fingerprint} (ht : Tree f expanded)
    (hv : e.Visits current frontier s link) :
    ∃ frontier', f.Visits current frontier' s link ∧ frontier.toList <+: frontier'.toList := by
  obtain ⟨more, hqueue⟩ := h.queue
  rw [Frontier.toList_eq_cons_of_pop? hv.popped, List.cons_append] at hqueue
  obtain ⟨frontier', s', link', hv', hrest⟩ := ht.exists_visits h.also_running hqueue.symm
  obtain rfl := Option.some.inj (hv'.stored.symm.trans (h.store _ _ hv.stored))
  obtain rfl := Option.some.inj (hv'.linked.symm.trans (h.parents _ _ hv.linked))
  exact ⟨frontier', hv', hrest ▸ List.prefix_append ..⟩

/-- Both have taken the same state, and are about to expand it. -/
theorem opened (h : Behind e f) {frontier' : Frontier} (hv : e.Visits current frontier s link)
    (hv' : f.Visits current frontier' s link) (hq : frontier.toList <+: frontier'.toList) :
    Behind (e.opened frontier link.depth) (f.opened frontier' link.depth) where
  parents := h.parents
  store := h.store
  system := h.system
  goal := h.goal
  running := h.running
  room := h.room
  spent := h.spent
  linked := h.linked
  queue := hq
  also_running := h.also_running
  same := by
    intro hb
    have hsame := h.same hb
    have hpopped := hv'.popped
    rw [hsame] at hpopped
    obtain ⟨-, rfl⟩ := Prod.mk.inj (Option.some.inj (hv.popped.symm.trans hpopped))
    rw [hsame]
    rfl

end Behind

/-! ## Two searches

    Step by step, the end of either included. -/

/-- How two searches compare that have taken as many steps: `e` with the smaller budget, which has
    expanded `expanded`, and `f`, which has expanded `expanded'`. -/
inductive Alongside (e : Explorer) (expanded : List Fingerprint) (f : Explorer)
    (expanded' : List Fingerprint) : Prop
  | running (h : Behind e f) (heq : expanded' = expanded)
  | found {fp : Fingerprint} (he : e.status = .found fp) (hf : f.status = .found fp)
      (hw : Within e f)
  | exhausted (he : e.status = .exhausted) (hsame : f = e.under f.settings)
  | truncated (he : e.status = .truncated) (hw : Within e f)
      (hall : ∀ fp ∈ e.parents, fp ∈ expanded')

namespace Alongside

variable {e f next next' : Explorer} {expanded expanded' : List Fingerprint}
  {events events' : List Event} {leg leg' : Trail}

/-- **One step** of each while both are running. -/
theorem stepped_of_behind (h : Behind e f) (ht : Tree e expanded) (ht' : Tree f expanded)
    (hs : Stepped e events leg next) (hs' : Stepped f events' leg' next') :
    Alongside next (expanded ++ leg.expanded) next' (expanded ++ leg'.expanded) := by
  cases hs with
  | rested hterminal => exact absurd (h.running ▸ hterminal) (by simp [Status.isTerminal])
  | ended hr hq =>
    cases hb : e.budgetHit with
    | false =>
      -- one search so far, which ends under either budget
      have hsame := h.same hb
      have hqueue : f.frontier.toList = [] := by
        rw [hsame]
        exact hq
      refine .exhausted (by simp [Explorer.ended, hb]) ?_
      cases hs' with
      | rested hterminal => exact absurd (h.also_running ▸ hterminal) (by simp [Status.isTerminal])
      | ended hr' hq' =>
        rw [hsame]
        rfl
      | found hv hg => exact absurd hqueue hv.toList_ne_nil
      | expanded hv hg => exact absurd hqueue hv.toList_ne_nil
    | true =>
      have hwithin := h.toWithin.extend (ht'.extends_stepped hs')
      refine .truncated (by simp [Explorer.ended, hb]) ⟨hwithin.parents, hwithin.store⟩ ?_
      -- nothing is pending, so what was recorded was expanded
      intro fp hm
      have hkey := (ht.mem_parents fp).mp hm
      rw [pending_of_running hr, hq, List.append_nil] at hkey
      exact List.mem_append_left _ hkey
  | @found current frontier s link hv hg =>
    obtain ⟨frontier', hv', -⟩ := h.exists_visits ht' hv
    obtain rfl := hv'.stepped_found (h.goal ▸ hg) hs'
    exact .found rfl rfl ⟨h.parents, h.store⟩
  | @expanded current frontier s link hv hg =>
    obtain ⟨frontier', hv', hq⟩ := h.exists_visits ht' hv
    obtain ⟨rfl, hleg⟩ := hv'.stepped_expanded (h.goal ▸ hg) hs'
    refine .running ((h.opened hv hv' hq).expand current s link.depth) ?_
    rw [hleg]

/-- **One step** of each. -/
theorem stepped (h : Alongside e expanded f expanded') (ht : Tree e expanded)
    (ht' : Tree f expanded') (hs : Stepped e events leg next) (hs' : Stepped f events' leg' next') :
    Alongside next (expanded ++ leg.expanded) next' (expanded' ++ leg'.expanded) := by
  cases h with
  | running h heq =>
    subst heq
    exact stepped_of_behind h ht ht' hs hs'
  | found he hf hw =>
    obtain rfl := hs.eq_of_terminal (by rw [he]; rfl)
    obtain rfl := hs'.eq_of_terminal (by rw [hf]; rfl)
    exact .found he hf hw
  | exhausted he hsame =>
    obtain rfl := hs.eq_of_terminal (by rw [he]; rfl)
    obtain rfl := hs'.eq_of_terminal (by rw [hsame]; exact he ▸ rfl)
    exact .exhausted he hsame
  | truncated he hw hall =>
    obtain rfl := hs.eq_of_terminal (by rw [he]; rfl)
    refine .truncated he (hw.extend (ht'.extends_stepped hs')) ?_
    intro fp hm
    exact List.mem_append_left _ (hall fp hm)

/-- What the one has recorded stands in the other. -/
theorem within (h : Alongside e expanded f expanded') : Within e f := by
  cases h with
  | running h heq => exact h.toWithin
  | found he hf hw => exact hw
  | exhausted he hsame =>
    rw [hsame]
    exact ⟨fun fp link hl => hl, fun fp s hs => hs⟩
  | truncated he hw hall => exact hw

/-- A goal that the one has found the other has found. -/
theorem found_of_found (h : Alongside e expanded f expanded') {fp : Fingerprint}
    (hfp : e.status = .found fp) : f.status = .found fp := by
  cases h with
  | running h heq => exact absurd (h.running.symm.trans hfp) (by simp)
  | found he hf hw => exact hf.trans (he.symm.trans hfp)
  | exhausted he hsame => exact absurd (he.symm.trans hfp) (by simp)
  | truncated he hw hall => exact absurd (he.symm.trans hfp) (by simp)

/-- If the one is exhausted the two are the same search. -/
theorem eq_of_exhausted (h : Alongside e expanded f expanded') (he : e.status = .exhausted) :
    f = e.under f.settings := by
  cases h with
  | running h heq => exact absurd (h.running.symm.trans he) (by simp)
  | found he' hf hw => exact absurd (he'.symm.trans he) (by simp)
  | exhausted he hsame => exact hsame
  | truncated he' hw hall => exact absurd (he'.symm.trans he) (by simp)

/-- A goal that the other has found the one has found, if it has recorded it. -/
theorem found_of_mem (h : Alongside e expanded f expanded') (ht : Tree f expanded')
    {fp : Fingerprint} (hm : fp ∈ e.parents) (hfp : f.status = .found fp) :
    e.status = .found fp := by
  cases h with
  | running h heq => exact absurd (h.also_running.symm.trans hfp) (by simp)
  | found he hf hw => exact he.trans (hf.symm.trans hfp)
  | exhausted he hsame =>
    rw [hsame] at hfp
    exact hfp
  | truncated he hw hall =>
    -- the goal is pending, and no fingerprint is both expanded and pending
    have hpending : fp ∈ f.pending := by
      rw [pending, hfp]
      exact List.mem_cons_self ..
    exact absurd rfl ((List.nodup_append.mp ht.nodup).2.2 fp (hall fp hm) fp hpending)

/-- Two searches that differ in their settings alone start together. -/
theorem of_start {system : TransitionSystem} {goal : Goal} {settings settings' : Settings}
    (he : Explorer.start system goal settings = .ok e)
    (hf : Explorer.start system goal settings' = .ok f) (hle : settings.NoLarger settings') :
    Alongside e [] f [] := by
  have hstarted := started_of_start he
  have htree := Tree.of_started hstarted
  obtain ⟨-, -, rfl⟩ := hstarted.frame
  have hsame : f = e.under settings' := by
    rw [eq_of_start he, eq_of_start hf]
    rfl
  have hspent : Spent e := fun hb => absurd (hstarted.budgetHit.symm.trans hb) (by simp)
  rw [hsame]
  exact .running (.of_under hstarted.running hle hspent fun fp =>
    (htree.mem_parents_iff_mem_store fp).mpr) rfl

/-- **Many steps** of each. -/
theorem exists_steps {system : TransitionSystem} {goal : Goal} {settings settings' : Settings}
    (he : Explorer.start system goal settings = .ok e)
    (hf : Explorer.start system goal settings' = .ok f) (hle : settings.NoLarger settings')
    (n : Nat) :
    ∃ e' trail f' trail', e.steps n = .ok e' ∧ Trailed system goal settings trail e' ∧
      f.steps n = .ok f' ∧ Trailed system goal settings' trail' f' ∧
      Alongside e' trail.expanded f' trail'.expanded := by
  induction n with
  | zero => exact ⟨e, _, f, _, rfl, .start he, rfl, .start hf, of_start he hf hle⟩
  | succ n ih =>
    obtain ⟨e', trail, f', trail', hen, htrail, hfn, htrail', h⟩ := ih
    obtain ⟨next, events, hstep⟩ := htrail.tree.exists_step
    obtain ⟨next', events', hstep'⟩ := htrail'.tree.exists_step
    exact ⟨next, _, next', _, steps_succ_eq_ok_iff.mpr ⟨e', events, hen, hstep⟩,
      htrail.step hstep, steps_succ_eq_ok_iff.mpr ⟨f', events', hfn, hstep'⟩,
      htrail'.step hstep',
      h.stepped htrail.tree htrail'.tree (stepped_of_step hstep) (stepped_of_step hstep')⟩

end Alongside

/-! ## Statement

    What the smaller budget gives, the larger one gives too. -/

variable {system : TransitionSystem} {goal : Goal} {settings settings' : Settings}

/-- **One attempt** keeps to the budget. -/
theorem discovered_record_le {e : Explorer} {a : Action} {s : State} {attempt : Attempt}
    {budget : Nat} (ht : Tried e a s attempt) (hb : e.settings.maxStates = some budget)
    (hle : e.stats.discovered ≤ max 1 budget) (current : Fingerprint) (depth : UInt32)
    (index : Nat) :
    (e.record current depth index attempt).stats.discovered ≤ max 1 budget := by
  cases ht with
  | refused ha => exact hle
  | known ha hk => exact hle
  | dropped ha hk hb hd => exact hle
  | fresh ha hk hroom =>
    have hlt := hroom budget hb
    show e.stats.discovered + 1 ≤ max 1 budget
    omega

/-- **One step** keeps to the budget. -/
theorem Tree.discovered_le_of_stepped {e next : Explorer} {expanded : List Fingerprint}
    {events : List Event} {leg : Trail} {budget : Nat} (h : Tree e expanded)
    (hb : e.settings.maxStates = some budget) (hle : e.stats.discovered ≤ max 1 budget)
    (hs : Stepped e events leg next) : next.stats.discovered ≤ max 1 budget := by
  cases hs with
  | rested ht => exact hle
  | ended hr hq => exact hle
  | found hv hg => exact hle
  | @expanded current frontier s link hv hg =>
    refine ((h.opened hv hg).induction
      (P := fun _ f => f.settings = e.settings ∧ f.stats.discovered ≤ max 1 budget)
      ⟨rfl, hle⟩ ?_).2.2
    rintro tries a f hf - ⟨hsettings, hle⟩
    have ht := tried_attempt f a s
    refine ⟨(hf.extends_record ht).settings.trans hsettings, ?_⟩
    exact discovered_record_le ht (hsettings ▸ hb) hle current link.depth tries.length

/-- A search records no more states than its budget, but the initial state it always records. -/
theorem Trailed.discovered_le {trail : Trail} {e : Explorer}
    (h : Trailed system goal settings trail e) {budget : Nat}
    (hb : settings.maxStates = some budget) : e.stats.discovered ≤ max 1 budget := by
  induction h with
  | start h =>
    rw [(started_of_start h).discovered]
    exact Nat.le_max_left ..
  | step he h ih =>
    rw [← he.frame.2.2] at hb
    exact he.tree.discovered_le_of_stepped hb ih (stepped_of_step h)

/-- Two finished searches that differ in their settings alone can be brought to the same number of
    steps. -/
theorem Arises.alongside {e f : Explorer} (he : Arises system goal settings e)
    (hf : Arises system goal settings' f) (hle : settings.NoLarger settings')
    (hte : e.status.isTerminal = true) (htf : f.status.isTerminal = true) :
    ∃ trail trail', Trailed system goal settings trail e ∧
      Trailed system goal settings' trail' f ∧
      Alongside e trail.expanded f trail'.expanded := by
  obtain ⟨_, htrail⟩ := he.trailed
  obtain ⟨_, htrail'⟩ := hf.trailed
  obtain ⟨e₀, n, hstart, hn⟩ := htrail.exists_steps
  obtain ⟨f₀, m, hstart', hm⟩ := htrail'.exists_steps
  -- neither moves on once it has ended
  have hn := steps_of_terminal hn hte (Nat.le_max_left n m)
  have hm := steps_of_terminal hm htf (Nat.le_max_right n m)
  obtain ⟨e', trail, f', trail', hen, ht, hfm, ht', h⟩ :=
    Alongside.exists_steps hstart hstart' hle (max n m)
  obtain rfl := Except.ok.inj (hn.symm.trans hen)
  obtain rfl := Except.ok.inj (hm.symm.trans hfm)
  exact ⟨trail, trail', ht, ht', h⟩

/-- The trace to a goal that both have found is the same. -/
theorem Within.outcome_eq {e f : Explorer} (hw : Within e f) {trail trail' : Trail}
    (he : Trailed system goal settings trail e) (hf : Trailed system goal settings' trail' f)
    {fp : Fingerprint} (hef : e.status = .found fp) (hff : f.status = .found fp) :
    ∃ w, e.outcome = .ok (.found w) ∧ f.outcome = .ok (.found w) := by
  obtain ⟨-, steps, -, -, hlineage, hwitness⟩ := he.found hef
  obtain ⟨-, steps', -, -, hlineage', hwitness'⟩ := hf.found hff
  have hactions : f.system.actions = e.system.actions := by rw [he.frame.1, hf.frame.1]
  rw [hactions] at hlineage'
  obtain rfl := (hlineage.mono hw.parents hw.store).unique hlineage'
  refine ⟨{ steps }, ?_, ?_⟩
  · unfold outcome
    simp only [hef, hwitness]
    rfl
  · unfold outcome
    simp only [hff, hwitness']
    rfl

/-- **Budgets.**  Compare two finished searches of one system for one goal, the second with a budget
    no smaller than the first's.  A goal that the first has found the second has found, and gives the
    same trace to it; if the first was exhausted, so was the second, and it has recorded and counted
    the same; what the first has recorded stands in the second; a goal that the second has found, the
    first has found too if it has recorded it; and the first has kept to its budget. -/
theorem Arises.budget_mono {e f : Explorer} (he : Arises system goal settings e)
    (hf : Arises system goal settings' f) (hle : settings.NoLarger settings')
    (hte : e.status.isTerminal = true) (htf : f.status.isTerminal = true) :
    (∀ fp, e.status = .found fp → f.status = .found fp ∧
      ∃ w, e.outcome = .ok (.found w) ∧ f.outcome = .ok (.found w)) ∧
    (e.status = .exhausted → f.status = .exhausted ∧ f.parents = e.parents ∧ f.store = e.store ∧
      f.stats = e.stats) ∧
    (∀ (fp : Fingerprint) (link : Link), e.parents[fp]? = some link → f.parents[fp]? = some link) ∧
    (∀ (fp : Fingerprint) (s : State), e.store[fp]? = some s → f.store[fp]? = some s) ∧
    (∀ fp ∈ e.parents, f.status = .found fp → e.status = .found fp) ∧
    (∀ budget, settings.maxStates = some budget → e.stats.discovered ≤ max 1 budget) := by
  obtain ⟨trail, trail', htrail, htrail', h⟩ := he.alongside hf hle hte htf
  have hwithin := h.within
  refine ⟨?_, ?_, hwithin.parents, hwithin.store, ?_, fun budget => htrail.discovered_le⟩
  · intro fp hfp
    have hfp' := h.found_of_found hfp
    exact ⟨hfp', hwithin.outcome_eq htrail htrail' hfp hfp'⟩
  · intro hexhausted
    rw [h.eq_of_exhausted hexhausted]
    exact ⟨hexhausted, rfl, rfl, rfl⟩
  · intro fp hm hfp
    exact h.found_of_mem htrail'.tree hm hfp

/-- Four units in the big one of jugs of three and five: with room for fourteen states a state is
    dropped, with room for fifteen none is, and the trace is the same. -/
theorem jugs_budget_mono :
    ∃ (system : TransitionSystem) (goal : Goal) (e f : Explorer) (w : Witness),
      (waterJugs 3 5 4).build = .ok (system, goal) ∧
      Arises system goal { Settings.default with maxStates := some 14 } e ∧
      Arises system goal { Settings.default with maxStates := some 15 } f ∧
      e.budgetHit = true ∧ f.budgetHit = false ∧
      e.outcome = .ok (.found w) ∧ f.outcome = .ok (.found w) := by
  have hsmall : ((waterJugs 3 5 4).finish { Settings.default with maxStates := some 14 }).any
      (fun finished => finished.explorer.budgetHit && finished.outcome.witness?.isSome) =
      true := by
    decide +kernel
  have hlarge : ((waterJugs 3 5 4).finish { Settings.default with maxStates := some 15 }).any
      (fun finished => !finished.explorer.budgetHit) = true := by decide +kernel
  obtain ⟨small, hfinish, hquery⟩ := (Option.any_eq_true ..).mp hsmall
  obtain ⟨large, hfinish', hquery'⟩ := (Option.any_eq_true ..).mp hlarge
  obtain ⟨hdropped, hfound⟩ := (Bool.and_eq_true ..).mp hquery
  obtain ⟨system, goal, e, hbuild, hstart, hrun⟩ := Puzzle.exists_of_finish hfinish
  obtain ⟨system', goal', f, hbuild', hstart', hrun'⟩ := Puzzle.exists_of_finish hfinish'
  obtain ⟨rfl, rfl⟩ := Prod.mk.inj (Except.ok.inj (hbuild'.symm.trans hbuild))
  have he := (Arises.start hstart).run hrun
  have hf := (Arises.start hstart').run hrun'
  have hle : Settings.NoLarger { Settings.default with maxStates := some 14 }
      { Settings.default with maxStates := some 15 } := by
    intro budget hb
    obtain rfl := Option.some.inj hb
    exact ⟨14, rfl, by omega⟩
  have houtcome := (run_eq_ok hrun).2
  have hmono := Arises.budget_mono he hf hle (isTerminal_of_outcome houtcome)
    (isTerminal_of_outcome (run_eq_ok hrun').2)
  obtain ⟨w, hsome⟩ := Option.isSome_iff_exists.mp hfound
  obtain ⟨fp, hstatus, -⟩ := found_of_run hrun (eq_found_of_witness? hsome)
  obtain ⟨-, w, hew, hfw⟩ := hmono.1 fp hstatus
  exact ⟨system', goal', small.explorer, large.explorer, w, hbuild, he, hf, hdropped,
    by simpa using hquery', hew, hfw⟩

end Explorer

end GuardedReach
