/-
  Reconstruction — what reading off a trace answers, whatever the maps hold.

  Nothing is assumed here of the parent map, the store or the actions.

  1. **Specification** — `Recorded`: a link, a state and an action stand at a key.  `Follows goal passed
     fp`: following links from the goal passes these keys, the latest first, and comes to `fp`; every key
     passed is recorded and linked to another.  `Fault`: what is wrong with a key, and how that is
     reported.

  2. **One way to go** — a key leads to at most one other, so two walks from one goal are the same as far
     as both go (`Follows.eq_of_length`, `Follows.passes_of_lt`).

  3. **Cycles** — a walk that comes to a key twice stays on the cycle from there on, so the key it has
     come to lies on it (`Follows.nodup_or_onCycle`).  Keys that are passed are keys of the parent map: a
     walk that has passed as many as there are, and is to pass another, is past its tail
     (`Follows.onCycle_of_size_le`); one that is to pass no other has passed fewer
     (`Follows.length_le_size`).

  4. **Program** — it goes on from wherever a walk has come (`Follows.walk_eq`), so it answers what is
     read off a walk that stops (`Stops.reconstruct_eq`), and where none stops a key of a cycle
     (`stops_or_onCycle`).

  5. **Statement** — `reconstruct_exact`.
-/
import GuardedReach.Proofs.Search.Lineage
import Mathlib.Data.List.Forall2
import Mathlib.Logic.Relation

namespace GuardedReach

namespace Witness

/-! ## What stands at a key

    A key is recorded, misses something or has a link without an action.  Nothing else can stand there. -/

section

variable (parents : ParentMap) (store : StateStore) (actions : List Action)

/-- The key has this link, and the step is what a trace shows of it: the stored state, and the name of
    the action at the link's index if it has one. -/
structure Recorded (fp : Fingerprint) (link : Link) (step : Step) : Prop where
  linked : parents[fp]? = some link
  stored : store[fp]? = some step.state
  fingerprint : step.fingerprint = fp
  action : link.action = none ∧ step.action = none ∨
    ∃ index a, link.action = some index ∧ actions[index]? = some a ∧ step.action = some a.name

/-- The step is what a trace shows of the key. -/
def Shows (fp : Fingerprint) (step : Step) : Prop :=
  ∃ link, Recorded parents store actions fp link step

/-- The link and the state of the key are there, but there is no action at the link's index. -/
def Misnamed (fp : Fingerprint) : Prop :=
  ∃ link index, parents[fp]? = some link ∧ fp ∈ store ∧ link.action = some index ∧
    actions.length ≤ index

/-- What is wrong with a key, and what is reported of it. -/
inductive Fault (fp : Fingerprint) : SearchError → Prop
  | unlinked (h : fp ∉ parents) : Fault fp (.brokenChain fp)
  | unstored (h : fp ∈ parents) (hs : fp ∉ store) : Fault fp (.missingState fp)
  | misnamed (h : Misnamed parents store actions fp) : Fault fp (.brokenChain fp)

/-- A self-linked key. -/
def SelfLinked (fp : Fingerprint) : Prop :=
  ∃ link, parents[fp]? = some link ∧ link.parent = fp

/-- The key's link leads to this one, whatever else stands there. -/
def LinksTo (fp next : Fingerprint) : Prop :=
  ∃ link, parents[fp]? = some link ∧ link.parent = next

/-- The key is recorded, and its link leads on to another. -/
def Passes (fp next : Fingerprint) : Prop :=
  ∃ link step, Recorded parents store actions fp link step ∧ link.parent = next ∧ next ≠ fp

/-! ## Following links

    A walk is told by the keys it has passed, so that its length is at hand and two walks can be compared.
    -/

/-- Following links from `goal` passes these keys, the latest first, and comes to the last. -/
inductive Follows (goal : Fingerprint) : List Fingerprint → Fingerprint → Prop
  | start : Follows goal [] goal
  | next {passed : List Fingerprint} {fp next : Fingerprint} (h : Follows goal passed fp)
      (hp : Passes parents store actions fp next) : Follows goal (fp :: passed) next

/-- Following links from `goal` comes to this key. -/
def Meets (goal fp : Fingerprint) : Prop :=
  ∃ passed, Follows parents store actions goal passed fp

/-- The walk from `goal` stops, and this is read off it. -/
inductive Stops (goal : Fingerprint) : Except SearchError Witness → Prop
  | root {passed : List Fingerprint} {root : Fingerprint} {w : Witness}
      (h : Follows parents store actions goal passed root) (hself : SelfLinked parents root)
      (hshows : List.Forall₂ (Shows parents store actions) (root :: passed) w.steps) :
      Stops goal (.ok w)
  | fault {fp : Fingerprint} {reason : SearchError}
      (h : Meets parents store actions goal fp) (hf : Fault parents store actions fp reason) :
      Stops goal (.error reason)

end

variable {parents : ParentMap} {store : StateStore} {actions : List Action}

/-! ## Visits

    What the program finds at one key, in terms of what stands there. -/

/-- The name of an action is found if the link has none to be named or the action at its index is there, -/
theorem actionName_eq_ok_iff {fp : Fingerprint} {link : Link} {name : Option String} :
    actionName actions fp link = .ok name ↔
      link.action = none ∧ name = none ∨
        ∃ index a, link.action = some index ∧ actions[index]? = some a ∧ name = some a.name := by
  unfold actionName
  cases hl : link.action with
  | none => simp [eq_comm]
  | some index =>
    cases ha : actions[index]? with
    | none => simp [ha]
    | some a => simp [ha, eq_comm]

/-- and is missing if the index is past the last action. -/
theorem actionName_eq_error_iff {fp : Fingerprint} {link : Link} {reason : SearchError} :
    actionName actions fp link = .error reason ↔
      ∃ index, link.action = some index ∧ actions.length ≤ index ∧ reason = .brokenChain fp := by
  unfold actionName
  cases hl : link.action with
  | none => simp
  | some index =>
    cases ha : actions[index]? with
    | none => simp [List.getElem?_eq_none_iff.mp ha, eq_comm]
    | some a =>
      have hlt := (List.getElem?_eq_some_iff.mp ha).1
      refine iff_of_false (by simp [ha]) ?_
      rintro ⟨found, hfound, hle, -⟩
      obtain rfl := Option.some.inj hfound
      omega

/-- A visit finds what is recorded. -/
theorem visit_eq_ok_iff_recorded {fp : Fingerprint} {link : Link} {step : Step} :
    visit parents store actions fp = .ok (link, step) ↔
      Recorded parents store actions fp link step := by
  rw [visit_eq_ok_iff]
  constructor
  · rintro ⟨s, name, hl, hs, hn, rfl⟩
    exact ⟨hl, hs, rfl, actionName_eq_ok_iff.mp hn⟩
  · intro h
    refine ⟨step.state, step.action, h.linked, h.stored, actionName_eq_ok_iff.mpr h.action, ?_⟩
    rw [← h.fingerprint]

/-- A visit reports what is wrong. -/
theorem visit_eq_error_iff {fp : Fingerprint} {reason : SearchError} :
    visit parents store actions fp = .error reason ↔ Fault parents store actions fp reason := by
  constructor
  · intro h
    unfold visit at h
    split at h
    · next hl =>
      obtain rfl := Except.error.inj h
      exact .unlinked (Fingerprint.getElem?_eq_none_iff.mp hl)
    · next link hl =>
      split at h
      · next hs =>
        obtain rfl := Except.error.inj h
        exact .unstored (Fingerprint.mem_of_getElem? hl) (Fingerprint.getElem?_eq_none_iff.mp hs)
      · next s hs =>
        -- only the index is left to be wrong
        cases hn : actionName actions fp link with
        | ok name => simp [hn, Except.map] at h
        | error found =>
          obtain ⟨index, hi, hle, rfl⟩ := actionName_eq_error_iff.mp hn
          simp only [hn, Except.map, Except.error.injEq] at h
          subst h
          exact .misnamed ⟨link, index, hl, Fingerprint.mem_of_getElem? hs, hi, hle⟩
  · intro h
    unfold visit
    cases h with
    | unlinked hp => rw [Fingerprint.getElem?_eq_none_iff.mpr hp]
    | unstored hp hs =>
      obtain ⟨link, hl⟩ := Fingerprint.mem_iff_exists.mp hp
      rw [hl, Fingerprint.getElem?_eq_none_iff.mpr hs]
    | misnamed hm =>
      obtain ⟨link, index, hl, hstored, hi, hle⟩ := hm
      obtain ⟨s, hs⟩ := Fingerprint.mem_iff_exists.mp hstored
      simp only [hl, hs, actionName_eq_error_iff.mpr ⟨index, hi, hle, rfl⟩]
      rfl

/-- At a key that is recorded nothing is wrong. -/
theorem Recorded.not_fault {fp : Fingerprint} {link : Link} {step : Step} {reason : SearchError}
    (h : Recorded parents store actions fp link step) : ¬ Fault parents store actions fp reason := by
  intro hf
  have heq := (visit_eq_ok_iff_recorded.mpr h).symm.trans (visit_eq_error_iff.mpr hf)
  exact absurd heq (by simp)

/-! ## One way to go

    Links are looked up in a map, so nothing about a walk is chosen on the way. -/

/-- A key is recorded in one way only, -/
theorem Recorded.unique {fp : Fingerprint} {link link' : Link} {step step' : Step}
    (h : Recorded parents store actions fp link step)
    (h' : Recorded parents store actions fp link' step') : link = link' ∧ step = step' := by
  have heq := (visit_eq_ok_iff_recorded.mpr h).symm.trans (visit_eq_ok_iff_recorded.mpr h')
  exact Prod.mk.inj (Except.ok.inj heq)

/-- and so shows one step. -/
theorem shows_rightUnique : Relator.RightUnique (Shows parents store actions) := by
  rintro fp step step' ⟨link, hr⟩ ⟨link', hr'⟩
  exact (hr.unique hr').2

namespace Passes

variable {fp next next' : Fingerprint}

/-- A key leads to one other at most. -/
theorem unique (h : Passes parents store actions fp next)
    (h' : Passes parents store actions fp next') : next = next' := by
  obtain ⟨link, step, hr, rfl, -⟩ := h
  obtain ⟨link', step', hr', rfl, -⟩ := h'
  rw [(hr.unique hr').1]

/-- A key that is passed is a key of the parent map, -/
theorem mem_parents (h : Passes parents store actions fp next) : fp ∈ parents := by
  obtain ⟨link, step, hr, -⟩ := h
  exact Fingerprint.mem_of_getElem? hr.linked

/-- and is linked to the next. -/
theorem linksTo (h : Passes parents store actions fp next) : LinksTo parents fp next := by
  obtain ⟨link, step, hr, hnext, -⟩ := h
  exact ⟨link, hr.linked, hnext⟩

/-- No root is passed. -/
theorem not_selfLinked (h : Passes parents store actions fp next) : ¬ SelfLinked parents fp := by
  rintro ⟨found, hl, hself⟩
  obtain ⟨link, step, hr, rfl, hne⟩ := h
  obtain rfl := Option.some.inj (hr.linked.symm.trans hl)
  exact hne hself

/-- Nothing is wrong with it. -/
theorem not_fault {reason : SearchError} (h : Passes parents store actions fp next) :
    ¬ Fault parents store actions fp reason := by
  obtain ⟨link, step, hr, -⟩ := h
  exact hr.not_fault

end Passes

namespace Follows

variable {goal fp fp' : Fingerprint} {passed passed' : List Fingerprint}

/-- Two walks that have passed equally many keys have passed the same and come to the same. -/
theorem eq_of_length (h : Follows parents store actions goal passed fp)
    (h' : Follows parents store actions goal passed' fp') (hlen : passed.length = passed'.length) :
    passed = passed' ∧ fp = fp' := by
  induction h generalizing passed' fp' with
  | start =>
    cases h' with
    | start => exact ⟨rfl, rfl⟩
    | next h' hp' => exact absurd hlen (by simp)
  | next h hp ih =>
    cases h' with
    | start => exact absurd hlen (by simp)
    | next h' hp' =>
      obtain ⟨rfl, rfl⟩ := ih h' (Nat.succ.inj hlen)
      exact ⟨rfl, hp.unique hp'⟩

/-- Where another walk has gone further, the key is passed. -/
theorem passes_of_lt (h : Follows parents store actions goal passed fp)
    (h' : Follows parents store actions goal passed' fp') (hlt : passed.length < passed'.length) :
    ∃ next, Passes parents store actions fp next := by
  induction h' with
  | start => exact absurd hlt (by simp)
  | next h' hp' ih =>
    rcases Nat.lt_succ_iff_lt_or_eq.mp hlt with hlt | heq
    · exact ih hlt
    · obtain ⟨rfl, rfl⟩ := h.eq_of_length h' heq
      exact ⟨_, hp'⟩

/-- Every key that a walk has passed is one of the parent map. -/
theorem mem_parents (h : Follows parents store actions goal passed fp) :
    ∀ key ∈ passed, key ∈ parents := by
  induction h with
  | start => simp
  | next h hp ih => exact List.forall_mem_cons.mpr ⟨hp.mem_parents, ih⟩

/-! ## Cycles

    A walk that never stops comes back to a key it has passed.  It does so before it has passed more keys
    than the parent map has. -/

/-- From every key on the way the links lead to where the walk has come. -/
theorem reaches (h : Follows parents store actions goal passed fp) :
    ∀ key ∈ fp :: passed, Relation.ReflTransGen (Passes parents store actions) key fp := by
  induction h with
  | start => simp [Relation.ReflTransGen.refl]
  | next h hp ih => exact List.forall_mem_cons.mpr ⟨.refl, fun key hkey => (ih key hkey).tail hp⟩

end Follows

/-- The key lies on a cycle of keys that are all passed. -/
def OnCycle (parents : ParentMap) (store : StateStore) (actions : List Action) (fp : Fingerprint) :
    Prop :=
  Relation.TransGen (Passes parents store actions) fp fp

namespace OnCycle

variable {fp : Fingerprint}

/-- The one key that a cycle goes on to lies on it. -/
theorem of_passes {next : Fingerprint} (h : OnCycle parents store actions fp)
    (hp : Passes parents store actions fp next) : OnCycle parents store actions next := by
  obtain ⟨second, hsecond, hback⟩ := Relation.TransGen.head'_iff.mp h
  obtain rfl := hp.unique hsecond
  exact Relation.TransGen.tail' hback hp

/-- A key on a cycle is passed. -/
theorem exists_passes (h : OnCycle parents store actions fp) :
    ∃ next, Passes parents store actions fp next := by
  obtain ⟨second, hsecond, -⟩ := Relation.TransGen.head'_iff.mp h
  exact ⟨second, hsecond⟩

/-- Following links from a key on a cycle comes back to it. -/
theorem linksTo (h : OnCycle parents store actions fp) :
    Relation.TransGen (LinksTo parents) fp fp :=
  Relation.TransGen.mono (fun _ _ hp => Passes.linksTo hp) fp fp h

end OnCycle

namespace Follows

variable {goal fp fp' : Fingerprint} {passed passed' : List Fingerprint}

/-- A walk has not come to any key twice, or it has come to a key of a cycle. -/
theorem nodup_or_onCycle (h : Follows parents store actions goal passed fp) :
    (fp :: passed).Nodup ∨ OnCycle parents store actions fp := by
  induction h with
  | start => exact Or.inl (by simp)
  | @next passed fp next h hp ih =>
    rcases ih with hnodup | hcycle
    · by_cases hmem : next ∈ fp :: passed
      · exact Or.inr (Relation.TransGen.tail' (h.reaches next hmem) hp)
      · exact Or.inl (List.nodup_cons.mpr ⟨hmem, hnodup⟩)
    · exact Or.inr (OnCycle.of_passes hcycle hp)

/-- A walk that has passed as many keys as there are, and is to pass another, is on a cycle. -/
theorem onCycle_of_size_le (h : Follows parents store actions goal passed fp)
    (hp : Passes parents store actions fp fp') (hlen : parents.size ≤ passed.length) :
    OnCycle parents store actions fp := by
  rcases h.nodup_or_onCycle with hnodup | hcycle
  · have hle := Fingerprint.length_le_size_of_mem hnodup (h.next hp).mem_parents
    rw [List.length_cons] at hle
    omega
  · exact hcycle

/-- A walk that has come to a cycle passes every key it comes to, before the cycle and on it. -/
theorem exists_passes_of_onCycle (h : Follows parents store actions goal passed fp)
    (hcycle : OnCycle parents store actions fp)
    (h' : Follows parents store actions goal passed' fp') :
    ∃ next, Passes parents store actions fp' next := by
  rcases Nat.lt_or_ge passed'.length passed.length with hlt | hle
  · exact h'.passes_of_lt h hlt
  · suffices OnCycle parents store actions fp' from this.exists_passes
    -- by induction on what lies beyond `fp`
    induction h' with
    | start =>
      obtain ⟨-, rfl⟩ := h.eq_of_length .start (Nat.le_zero.mp hle)
      exact hcycle
    | next h' hp' ih =>
      rcases Nat.le_succ_iff.mp hle with hle | heq
      · exact OnCycle.of_passes (ih hle) hp'
      · obtain ⟨-, rfl⟩ := h.eq_of_length (h'.next hp') heq
        exact hcycle

/-- A walk to a key that is not passed has passed no more keys than there are. -/
theorem length_le_size (h : Follows parents store actions goal passed fp)
    (hend : ∀ next, ¬ Passes parents store actions fp next) : passed.length ≤ parents.size := by
  rcases h.nodup_or_onCycle with hnodup | hcycle
  · exact Fingerprint.length_le_size_of_mem (List.nodup_cons.mp hnodup).2 h.mem_parents
  · obtain ⟨next, hp⟩ := OnCycle.exists_passes hcycle
    exact absurd hp (hend next)

end Follows

/-! ## The program follows links

    One visit of the program is one step of a walk, with the steps it has found kept aside. -/

/-- Where something is wrong with a key, the program stops with what is wrong. -/
theorem walk_of_fault {fp : Fingerprint} {reason : SearchError}
    (h : Fault parents store actions fp reason) (more : Nat) (found : List Step) :
    walk parents store actions more fp found = .error reason := by
  unfold walk
  rw [visit_eq_error_iff.mpr h]

/-- At a root it stops with the trace. -/
theorem walk_of_root {fp : Fingerprint} {step : Step} (hself : SelfLinked parents fp)
    (hshows : Shows parents store actions fp step) (more : Nat) (found : List Step) :
    walk parents store actions more fp found = .ok (step :: found) := by
  obtain ⟨link, hr⟩ := hshows
  obtain ⟨link', hl, hparent⟩ := hself
  obtain rfl := Option.some.inj (hr.linked.symm.trans hl)
  unfold walk
  simp only [visit_eq_ok_iff_recorded.mpr hr, hparent, if_true]

/-- A key that is to be passed when no link may be followed any more is taken to lie on a cycle. -/
theorem walk_zero {fp next : Fingerprint} (h : Passes parents store actions fp next)
    (found : List Step) : walk parents store actions 0 fp found = .error (.parentCycle fp) := by
  obtain ⟨link, step, hr, rfl, hne⟩ := h
  unfold walk
  simp only [visit_eq_ok_iff_recorded.mpr hr, if_neg hne]

/-- A key that is passed adds its step to the trace, and one link less may be followed. -/
theorem walk_succ {fp next : Fingerprint} (h : Passes parents store actions fp next) (more : Nat)
    (found : List Step) :
    ∃ step, Shows parents store actions fp step ∧
      walk parents store actions (more + 1) fp found =
        walk parents store actions more next (step :: found) := by
  obtain ⟨link, step, hr, rfl, hne⟩ := h
  refine ⟨step, ⟨link, hr⟩, ?_⟩
  rw [walk]
  simp only [visit_eq_ok_iff_recorded.mpr hr, if_neg hne]

/-- With leave to follow enough links, the program goes on from where a walk has come, and has found what
    the keys passed show. -/
theorem Follows.walk_eq {goal fp : Fingerprint} {passed : List Fingerprint}
    (h : Follows parents store actions goal passed fp) (more : Nat) :
    ∃ found, List.Forall₂ (Shows parents store actions) passed found ∧
      walk parents store actions (passed.length + more) goal [] =
        walk parents store actions more fp found := by
  induction h generalizing more with
  | start => exact ⟨[], .nil, by rw [List.length_nil, Nat.zero_add]⟩
  | @next passed fp next h hp ih =>
    obtain ⟨found, hshows, hwalk⟩ := ih (more + 1)
    obtain ⟨step, hstep, hnext⟩ := walk_succ hp more found
    refine ⟨step :: found, .cons hstep hshows, ?_⟩
    rw [List.length_cons, Nat.add_assoc, Nat.add_comm 1 more, hwalk, hnext]

/-! ## Stopping

    A walk that stops does so within the bound that the program sets itself, and one that does not has come
    to a cycle by then. -/

variable {goal : Fingerprint} {result : Except SearchError Witness}

/-- **What is read off a walk that stops is what the program answers.** -/
theorem Stops.reconstruct_eq (h : Stops parents store actions goal result) :
    reconstruct goal parents store actions = result := by
  unfold reconstruct
  cases h with
  | @root passed root w h hself hshows =>
    have hlen := h.length_le_size fun next hp => hp.not_selfLinked hself
    obtain ⟨more, hmore⟩ := Nat.exists_eq_add_of_le hlen
    obtain ⟨found, hfound, hwalk⟩ := h.walk_eq more
    obtain ⟨step, steps, hstep, hsteps, heq⟩ := List.forall₂_cons_left_iff.mp hshows
    rw [hmore, hwalk, walk_of_root hself hstep]
    obtain rfl := List.right_unique_forall₂' shows_rightUnique hfound hsteps
    show Except.ok (Witness.mk (step :: found)) = Except.ok w
    rw [← heq]
  | @fault fp reason h hf =>
    obtain ⟨passed, h⟩ := h
    have hlen := h.length_le_size fun next hp => hp.not_fault hf
    obtain ⟨more, hmore⟩ := Nat.exists_eq_add_of_le hlen
    obtain ⟨found, -, hwalk⟩ := h.walk_eq more
    rw [hmore, hwalk, walk_of_fault hf]
    rfl

/-- A walk that stops has come to a key that is not passed. -/
theorem Stops.exists_end (h : Stops parents store actions goal result) :
    ∃ fp, Meets parents store actions goal fp ∧ ∀ next, ¬ Passes parents store actions fp next := by
  cases h with
  | root h hself hshows => exact ⟨_, ⟨_, h⟩, fun next hp => hp.not_selfLinked hself⟩
  | fault h hf => exact ⟨_, h, fun next hp => hp.not_fault hf⟩

/-- At the key that a walk has come to, it stops or it passes. -/
theorem Follows.stops_or_passes {fp : Fingerprint} {passed : List Fingerprint}
    (h : Follows parents store actions goal passed fp) :
    (∃ result, Stops parents store actions goal result) ∨
      ∃ next, Passes parents store actions fp next := by
  cases hv : visit parents store actions fp with
  | error reason => exact Or.inl ⟨_, .fault ⟨_, h⟩ (visit_eq_error_iff.mp hv)⟩
  | ok found =>
    obtain ⟨link, step⟩ := found
    have hr := visit_eq_ok_iff_recorded.mp hv
    by_cases hself : link.parent = fp
    · obtain ⟨steps, hsteps, -⟩ := h.walk_eq 0
      exact Or.inl ⟨.ok { steps := step :: steps },
        .root h ⟨link, hr.linked, hself⟩ (.cons ⟨link, hr⟩ hsteps)⟩
    · exact Or.inr ⟨_, link, step, hr, rfl, hself⟩

/-- A walk that does not stop passes any number of keys. -/
theorem stops_or_follows (goal : Fingerprint) (count : Nat) :
    (∃ result, Stops parents store actions goal result) ∨
      ∃ passed fp, passed.length = count ∧ Follows parents store actions goal passed fp := by
  induction count with
  | zero => exact Or.inr ⟨[], goal, rfl, .start⟩
  | succ count ih =>
    rcases ih with hstops | ⟨passed, fp, rfl, h⟩
    · exact Or.inl hstops
    · rcases h.stops_or_passes with hstops | ⟨next, hp⟩
      · exact Or.inl hstops
      · exact Or.inr ⟨fp :: passed, next, rfl, h.next hp⟩

/-- **A walk stops, or the program reports a key of a cycle.** -/
theorem stops_or_onCycle (parents : ParentMap) (store : StateStore) (actions : List Action)
    (goal : Fingerprint) :
    (∃ result, Stops parents store actions goal result) ∨
      ∃ fp, Meets parents store actions goal fp ∧ OnCycle parents store actions fp ∧
        reconstruct goal parents store actions = .error (.parentCycle fp) := by
  rcases stops_or_follows goal parents.size with hstops | ⟨passed, fp, hlen, h⟩
  · exact Or.inl hstops
  · rcases h.stops_or_passes with hstops | ⟨next, hp⟩
    · exact Or.inl hstops
    · refine Or.inr ⟨fp, ⟨passed, h⟩, h.onCycle_of_size_le hp (Nat.le_of_eq hlen.symm), ?_⟩
      obtain ⟨found, -, hwalk⟩ := h.walk_eq 0
      rw [hlen] at hwalk
      unfold reconstruct
      rw [show parents.size = parents.size + 0 from rfl, hwalk, walk_zero hp]
      rfl

/-- What is answered, other than a cycle, is read off a walk that stops. -/
theorem stops_of_reconstruct (h : reconstruct goal parents store actions = result)
    (hne : ∀ fp, result ≠ .error (.parentCycle fp)) : Stops parents store actions goal result := by
  rcases stops_or_onCycle parents store actions goal with ⟨other, hstops⟩ | ⟨fp, -, -, hcycle⟩
  · rwa [← h.symm.trans hstops.reconstruct_eq] at hstops
  · exact absurd (h.symm.trans hcycle) (hne fp)

theorem onCycle_of_reconstruct {fp : Fingerprint}
    (h : reconstruct goal parents store actions = .error (.parentCycle fp)) :
    Meets parents store actions goal fp ∧ OnCycle parents store actions fp := by
  rcases stops_or_onCycle parents store actions goal with ⟨result, hstops⟩ | ⟨found, hm, hc, hr⟩
  · obtain rfl := h.symm.trans hstops.reconstruct_eq
    -- no fault is reported as a cycle
    cases hstops with
    | fault hm hf => cases hf
  · obtain rfl := SearchError.parentCycle.inj (Except.error.inj (h.symm.trans hr))
    exact ⟨hm, hc⟩

/-! ## Statement

    Every answer, and for each of them exactly when it is given. -/

/-- **What reconstruction answers on any maps.**

    1. It is a trace just if following links from the goal comes to a self-linked key and all keys on the
       way are recorded; the trace then shows these keys, the root first.
    2. A key that is met is reported as a break of the chain just if it has no link, or has a link and a
       state and no action at the link's index.
    3. A key that is met is reported to have no state just if it has a link and no state.
    4. A cycle is reported just if every key that is met is recorded and linked to another.
    5. The key it is reported at is met, and following links from it comes back to it.
    6. There is no other answer. -/
theorem reconstruct_exact (goal : Fingerprint) (parents : ParentMap) (store : StateStore)
    (actions : List Action) :
    (∀ w, reconstruct goal parents store actions = .ok w ↔
      ∃ passed root, Follows parents store actions goal passed root ∧ SelfLinked parents root ∧
        List.Forall₂ (Shows parents store actions) (root :: passed) w.steps) ∧
    (∀ fp, reconstruct goal parents store actions = .error (.brokenChain fp) ↔
      Meets parents store actions goal fp ∧ (fp ∉ parents ∨ Misnamed parents store actions fp)) ∧
    (∀ fp, reconstruct goal parents store actions = .error (.missingState fp) ↔
      Meets parents store actions goal fp ∧ fp ∈ parents ∧ fp ∉ store) ∧
    ((∃ fp, reconstruct goal parents store actions = .error (.parentCycle fp)) ↔
      ∀ fp, Meets parents store actions goal fp → ∃ next, Passes parents store actions fp next) ∧
    (∀ fp, reconstruct goal parents store actions = .error (.parentCycle fp) →
      Meets parents store actions goal fp ∧ Relation.TransGen (LinksTo parents) fp fp) ∧
    reconstruct goal parents store actions ≠ .error .stillRunning := by
  refine ⟨fun w => ⟨?_, ?_⟩, fun fp => ⟨?_, ?_⟩, fun fp => ⟨?_, ?_⟩, ⟨?_, ?_⟩, ?_, ?_⟩
  · intro h
    cases stops_of_reconstruct h (by simp) with
    | root h hself hshows => exact ⟨_, _, h, hself, hshows⟩
  · rintro ⟨passed, root, h, hself, hshows⟩
    exact (Stops.root h hself hshows).reconstruct_eq
  · intro h
    cases stops_of_reconstruct h (by simp) with
    | fault hm hf =>
      cases hf with
      | unlinked hp => exact ⟨hm, Or.inl hp⟩
      | misnamed hn => exact ⟨hm, Or.inr hn⟩
  · rintro ⟨hm, hp | hn⟩
    · exact (Stops.fault hm (.unlinked hp)).reconstruct_eq
    · exact (Stops.fault hm (.misnamed hn)).reconstruct_eq
  · intro h
    cases stops_of_reconstruct h (by simp) with
    | fault hm hf =>
      cases hf with
      | unstored hp hs => exact ⟨hm, hp, hs⟩
  · rintro ⟨hm, hp, hs⟩
    exact (Stops.fault hm (.unstored hp hs)).reconstruct_eq
  · -- a walk that goes on for ever has no key at which it could have stopped
    rintro ⟨found, h⟩ fp ⟨passed, hfollows⟩
    obtain ⟨⟨before, hfound⟩, hcycle⟩ := onCycle_of_reconstruct h
    exact hfound.exists_passes_of_onCycle hcycle hfollows
  · -- a walk that stops, stops at a key that is not passed
    intro hall
    rcases stops_or_onCycle parents store actions goal with ⟨result, hstops⟩ | ⟨fp, -, -, hcycle⟩
    · obtain ⟨fp, hm, hend⟩ := hstops.exists_end
      obtain ⟨next, hp⟩ := hall fp hm
      exact absurd hp (hend next)
    · exact ⟨fp, hcycle⟩
  · intro fp h
    obtain ⟨hm, hcycle⟩ := onCycle_of_reconstruct h
    exact ⟨hm, OnCycle.linksTo hcycle⟩
  · intro h
    cases stops_of_reconstruct h (by simp) with
    | fault hm hf => cases hf

-- a tail of one key, and a cycle of two
example (s : State) :
    let parents := (((∅ : ParentMap).insert ⟨7⟩ ⟨⟨8⟩, none, 0⟩).insert ⟨8⟩ ⟨⟨9⟩, none, 0⟩).insert
      ⟨9⟩ ⟨⟨8⟩, none, 0⟩
    let store := (((∅ : StateStore).insert ⟨7⟩ s).insert ⟨8⟩ s).insert ⟨9⟩ s
    reconstruct ⟨7⟩ parents store [] = .error (.parentCycle ⟨8⟩) := by
  rfl

end Witness

end GuardedReach
