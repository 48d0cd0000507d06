/-
  Closure — what becomes of every successor of every state that a search has expanded.

  1. **Invariant** — `Closed e expanded`.  Each such successor is stored, or a collision has been
     counted, or the budget has dropped it (`Accounted`).  The moment it happened comes along: a
     successor that is stored was there when its action had been tried, and after one was dropped
     nothing more is recorded (`Spent`), so every fingerprint was there when it was.

  2. **Preservation** — the attempt at an action accounts for the successor by that action
     (`Expanding.accounted`); what is accounted for stays so (`Accounted.mono`).

  3. **Reachability** — a lineage spells a word that leads to its state, so what is stored is
     reachable (`Tree.reachableIn`).  If nothing is pending, nothing was dropped and nothing has
     collided, then what is stored is closed under the actions (`Closed.stored_of_reachable`).

  4. **Statement** — `Arises.negative_verdicts` is what the verdicts of a search without a goal say of the
     system.
-/
import GuardedReach.Proofs.Puzzle.Search
import GuardedReach.Proofs.Search.Words
import GuardedReach.Proofs.System.Reach

namespace GuardedReach

namespace Explorer

/-! ## Successors accounted for

    A successor can be missing from the store for two reasons, and each leaves a mark in the search. -/

/-- What the search can say of the successor `t` by the action at position `index` of the state filed
    under `current`, which was expanded when `before` had been. -/
inductive Accounted (e : Explorer) (before : List Fingerprint) (current : Fingerprint) (index : Nat)
    (t : State) : Prop
  | collided (h : 0 < e.stats.collisions)
  | stored (hs : e.store[t.fingerprint]? = some t)
      (he : Early e before current (index + 1) t.fingerprint)
  | dropped (hb : e.budgetHit = true) (he : ∀ fp ∈ e.parents, Early e before current (index + 1) fp)

/-- What was accounted for stays so, if nothing has been recorded since something was dropped. -/
theorem Accounted.mono {e f : Explorer} {before : List Fingerprint} {current : Fingerprint}
    {index : Nat} {t : State} (h : Accounted e before current index t) (hx : Extends e f)
    (hkeys : e.budgetHit = true → ∀ fp ∈ f.parents, fp ∈ e.parents) :
    Accounted f before current index t := by
  cases h with
  | collided h => exact .collided (Nat.lt_of_lt_of_le h hx.collisions)
  | stored hs he => exact .stored (hx.store _ _ hs) (he.mono hx (Nat.le_refl _))
  | dropped hb he =>
    refine .dropped (hx.budgetHit hb) ?_
    intro fp hm
    exact (he fp (hkeys hb fp hm)).mono hx (Nat.le_refl _)

/-- Once the budget has dropped a successor, there is no room for another. -/
def Spent (e : Explorer) : Prop :=
  e.budgetHit = true → ∃ budget, e.settings.maxStates = some budget ∧ budget ≤ e.stats.discovered

/-- A record makes no room, and one that drops a successor has found none. -/
theorem Spent.record {e : Explorer} {a : Action} {s : State} {attempt : Attempt} (h : Spent e)
    (ht : Tried e a s attempt) (current : Fingerprint) (depth : UInt32) (index : Nat) :
    Spent (e.record current depth index attempt) := by
  cases ht with
  | refused ha => exact h
  | known ha hk => exact h
  | dropped ha hk hb hd => exact fun _ => ⟨_, hb, hd⟩
  | fresh ha hk hroom =>
    intro hb
    obtain ⟨budget, hsome, hle⟩ := h hb
    exact ⟨budget, hsome, Nat.le_succ_of_le hle⟩

/-- After a drop nothing is recorded. -/
theorem Spent.mem_parents_record {e : Explorer} {a : Action} {s : State} {attempt : Attempt}
    (h : Spent e) (ht : Tried e a s attempt) (current : Fingerprint) (depth : UInt32) (index : Nat)
    (hb : e.budgetHit = true) :
    ∀ fp ∈ (e.record current depth index attempt).parents, fp ∈ e.parents := by
  cases ht with
  | refused ha => exact fun fp hm => hm
  | known ha hk => exact fun fp hm => hm
  | dropped ha hk hb hd => exact fun fp hm => hm
  | fresh ha hk hroom =>
    obtain ⟨budget, hsome, hle⟩ := h hb
    have hlt := hroom budget hsome
    omega

/-- The attempt at an action accounts for the successor by it. -/
theorem Expanding.accounted {e : Explorer} {before : List Fingerprint} {current : Fingerprint}
    {s t : State} {link : Link} {tried : Nat} {a : Action} {attempt : Attempt}
    (h : Expanding e before current s link tried) (ht : Tried e a s attempt)
    (hat : a.apply s = some t) :
    Accounted (e.record current link.depth tried attempt) before current tried t := by
  have hx := h.extends_record ht
  cases ht with
  | refused ha => exact absurd (ha.symm.trans hat) (by simp)
  | @known u ha hk =>
    obtain rfl := Option.some.inj (ha.symm.trans hat)
    -- under a known fingerprint stands this state or another one
    by_cases hsame : e.store[u.fingerprint]? = some u
    · exact .stored hsame ((h.early _ hk).mono hx (Nat.le_succ tried))
    · refine .collided ?_
      show 0 < e.stats.collisions + if e.store[u.fingerprint]? = some u then 0 else 1
      rw [if_neg hsame]
      omega
  | dropped ha hk hb hd =>
    exact .dropped rfl fun fp hm => (h.early fp hm).mono hx (Nat.le_succ tried)
  | @fresh u ha hk hroom =>
    obtain rfl := Option.some.inj (ha.symm.trans hat)
    have hlink : (e.record current link.depth tried (.fresh u)).parents[u.fingerprint]? =
        some { parent := current, action := some tried, depth := link.depth + 1 } :=
      (parents_record_fresh ..).trans (if_pos rfl)
    refine .stored ((store_record_fresh ..).trans (if_pos rfl)) (Or.inr ⟨_, hlink, ?_⟩)
    exact Or.inr ⟨rfl, tried, Nat.lt_succ_self tried, rfl⟩

/-! ## The invariant

    What has become of every successor of what was expanded, with the moment at which it happened. -/

/-- Every successor of every state expanded is accounted for. -/
structure Closed (e : Explorer) (expanded : List Fingerprint) : Prop where
  spent : Spent e
  accounted : ∀ (before : List Fingerprint) (current : Fingerprint) (after : List Fingerprint)
    (s t : State) (index : Nat) (a : Action), expanded = before ++ current :: after →
    e.store[current]? = some s → e.system.actions[index]? = some a → a.apply s = some t →
    Accounted e before current index t

namespace Closed

variable {e f : Explorer} {expanded : List Fingerprint}

/-- A search that has only grown is as closed as before. -/
theorem mono (h : Closed e expanded) (hstored : ∀ fp ∈ expanded, fp ∈ e.store) (hx : Extends e f)
    (hspent : Spent f) (hkeys : e.budgetHit = true → ∀ fp ∈ f.parents, fp ∈ e.parents) :
    Closed f expanded where
  spent := hspent
  accounted := by
    intro before current after s t index a heq hs ha hat
    have hm : current ∈ expanded := by
      rw [heq]
      exact List.mem_append_cons_self
    obtain ⟨r, hr⟩ := Fingerprint.mem_iff_exists.mp (hstored current hm)
    obtain rfl := Option.some.inj ((hx.store _ _ hr).symm.trans hs)
    rw [hx.system] at ha
    exact (h.accounted before current after r t index a heq hr ha hat).mono hx hkeys

/-- One state more has been expanded. -/
theorem concat (h : Closed e expanded) {current : Fingerprint} {s : State}
    (hs : e.store[current]? = some s)
    (hnew : ∀ (index : Nat) (a : Action) (t : State), e.system.actions[index]? = some a →
      a.apply s = some t → Accounted e expanded current index t) :
    Closed e (expanded ++ [current]) where
  spent := h.spent
  accounted := by
    intro before fp after r t index a heq hr ha hat
    rcases split_of_concat heq with ⟨rfl, rfl⟩ | ⟨rest, hfront⟩
    · obtain rfl := Option.some.inj (hs.symm.trans hr)
      exact hnew index a t ha hat
    · exact h.accounted before fp rest r t index a hfront hr ha hat

end Closed

/-- One expansion keeps the closure. -/
theorem Expanding.closed {e : Explorer} {before : List Fingerprint} {current : Fingerprint}
    {s : State} {link : Link} (h : Expanding e before current s link 0) (hc : Closed e before) :
    Closed (e.expand current s link.depth 0 e.system.actions).1 (before ++ [current]) := by
  let partly : List Attempt → Explorer → Prop := fun tries f =>
    Closed f before ∧ ∀ (index : Nat) (a : Action) (t : State), index < tries.length →
      f.system.actions[index]? = some a → a.apply s = some t → Accounted f before current index t
  have hrecord : ∀ tries a f, Expanding f before current s link tries.length →
      f.system.actions[tries.length]? = some a → partly tries f →
      partly (tries ++ [f.attempt a s])
        (f.record current link.depth tries.length (f.attempt a s)) := by
    rintro tries a f hf ha ⟨hclosed, hdone⟩
    have ht := tried_attempt f a s
    have hx := hf.extends_record ht
    have hkeys := hclosed.spent.mem_parents_record ht current link.depth tries.length
    have hstored : ∀ fp ∈ before, fp ∈ f.store := by
      intro fp hm
      exact (hf.tree.mem_store fp).mpr (by simp [hm])
    have hspent := hclosed.spent.record ht current link.depth tries.length
    refine ⟨hclosed.mono hstored hx hspent hkeys, ?_⟩
    intro index b t hindex hb hbt
    rw [hx.system] at hb
    rw [List.length_append, List.length_singleton] at hindex
    -- the action just tried, or one tried before it
    by_cases hlast : index = tries.length
    · subst hlast
      obtain rfl := Option.some.inj (ha.symm.trans hb)
      exact hf.accounted ht hbt
    · exact (hdone index b t (by omega) hb hbt).mono hx hkeys
  obtain ⟨hend, hclosed, hdone⟩ :=
    h.induction (P := partly) ⟨hc, fun index a t hindex => absurd hindex (by simp)⟩ hrecord
  refine hclosed.concat hend.stored ?_
  intro index a t ha hat
  refine hdone index a t ?_ ha hat
  obtain ⟨hlen, -⟩ := List.getElem?_eq_some_iff.mp ha
  rw [length_attempts]
  rwa [(frame_expand ..).1] at hlen

/-- One step keeps the closure. -/
theorem Closed.stepped {e next : Explorer} {expanded : List Fingerprint} {events : List Event}
    {leg : Trail} (h : Closed e expanded) (ht : Tree e expanded) (hs : Stepped e events leg next) :
    Closed next (expanded ++ leg.expanded) := by
  have hstored : ∀ fp ∈ expanded, fp ∈ e.store := by
    intro fp hm
    exact (ht.mem_store fp).mpr (List.mem_append_left _ hm)
  have hx := ht.extends_stepped hs
  cases hs with
  | rested hterminal => rw [Trail.empty, List.append_nil]; exact h
  | ended hr hq =>
    rw [Trail.empty, List.append_nil]
    exact h.mono hstored hx h.spent fun _ _ hm => hm
  | found hv hg =>
    rw [Trail.empty, List.append_nil]
    exact h.mono hstored hx h.spent fun _ _ hm => hm
  | @expanded current frontier s link hv hg =>
    have hopened : Closed (e.opened frontier link.depth) expanded :=
      h.mono hstored { Extends.refl e with } h.spent fun _ _ hm => hm
    exact (ht.opened hv hg).closed hopened

/-- Whatever a search has expanded, the successors are accounted for. -/
theorem Trailed.closed {system : TransitionSystem} {goal : Goal} {settings : Settings}
    {trail : Trail} {e : Explorer} (h : Trailed system goal settings trail e) :
    Closed e trail.expanded := by
  induction h with
  | @start e h =>
    refine ⟨?_, ?_⟩
    · intro hb
      exact absurd ((started_of_start h).budgetHit.symm.trans hb) (by simp)
    · intro before current after s t index a heq
      exact absurd heq (by simp [Trail.empty])
  | step he h ih => exact ih.stepped he.tree (stepped_of_step h)

/-! ## Reachability

    From the store to the system: what is stored can be reached, and if no successor is missing, what can be
    reached is stored. -/

/-- A lineage spells a word that leads to the state filed under its fingerprint. -/
theorem Tree.reachableIn {e : Explorer} {expanded : List Fingerprint} (h : Tree e expanded)
    {fp : Fingerprint} {steps : List Step}
    (hl : Lineage e.parents e.store e.system.actions fp steps) {s : State}
    (hs : e.store[fp]? = some s) : e.system.ReachableIn (steps.length - 1) s := by
  refine ⟨e.system.spell steps, ?_, h.follow_spell hl hs⟩
  have hlen := h.length_spell hl
  omega

/-- What is stored can be reached, -/
theorem Tree.reachable {e : Explorer} {expanded : List Fingerprint} (h : Tree e expanded)
    {fp : Fingerprint} {s : State} (hs : e.store[fp]? = some s) : e.system.Reachable s := by
  obtain ⟨steps, hsteps⟩ := h.lineage_of_stored hs
  exact TransitionSystem.reachable_iff_exists.mpr ⟨_, h.reachableIn hsteps hs⟩

/-- in whatever way the search was driven. -/
theorem Arises.reachable_of_stored {system : TransitionSystem} {goal : Goal} {settings : Settings}
    {e : Explorer} (h : Arises system goal settings e) {fp : Fingerprint} {s : State}
    (hs : e.store[fp]? = some s) : system.Reachable s := by
  obtain ⟨trail, htrail⟩ := h.trailed
  obtain ⟨rfl, -, -⟩ := htrail.frame
  exact htrail.tree.reachable hs

/-- The states of a trace are stored. -/
theorem Arises.reachable_of_witness {system : TransitionSystem} {goal : Goal} {settings : Settings}
    {e : Explorer} (h : Arises system goal settings e) {fp : Fingerprint} {w : Witness}
    (hw : e.witness fp = .ok w) {s : State} (hs : s ∈ w.states) : system.Reachable s := by
  obtain ⟨trail, htrail⟩ := h.trailed
  obtain ⟨step, hstep, rfl⟩ := List.mem_map.mp hs
  exact h.reachable_of_stored ((htrail.tree.lineage_of_witness hw).stored step hstep)

/-- When nothing is pending, nothing was dropped and nothing has collided, all reachable states are
    stored. -/
theorem Closed.stored_of_reachable {e : Explorer} {expanded : List Fingerprint}
    (h : Closed e expanded) (ht : Tree e expanded) (hpending : e.pending = [])
    (hbudget : e.budgetHit = false) (hcollisions : e.stats.collisions = 0) {s : State}
    (hs : e.system.Reachable s) : e.store[s.fingerprint]? = some s := by
  refine hs.induction (P := fun t => e.store[t.fingerprint]? = some t) ht.root_stored ?_
  intro r t index a hr ha hat
  -- what is stored and not pending has been expanded
  have hm : r.fingerprint ∈ expanded := by
    have hkey := (ht.mem_store _).mp (Fingerprint.mem_of_getElem? hr)
    rwa [hpending, List.append_nil] at hkey
  obtain ⟨before, after, heq⟩ := List.append_of_mem hm
  rcases h.accounted before _ after r t index a heq hr ha hat with hc | ⟨hstored, -⟩ | ⟨hb, -⟩
  · omega
  · exact hstored
  · exact absurd (hbudget.symm.trans hb) (by simp)

/-! ## Statement

    With nothing missing, that a search has found no goal is a fact about the system. -/

/-- Ended without a goal, nothing is left to expand. -/
theorem pending_of_ended {e : Explorer} (hv : Verdict e)
    (h : e.status = .exhausted ∨ e.status = .truncated) : e.pending = [] := by
  rcases h with h | h
  · rw [Verdict, h] at hv
    rw [pending, h]
    exact hv.1
  · rw [Verdict, h] at hv
    rw [pending, h]
    exact hv.1

/-- **What the negative verdicts mean.**  Every state stored is reachable.  A search that ends without
    a goal has stored none.  If it has ended because it was exhausted, and has counted no collision,
    it has stored all reachable states, and none of them is a goal. -/
theorem Arises.negative_verdicts {system : TransitionSystem} {goal : Goal} {settings : Settings}
    {e : Explorer} (h : Arises system goal settings e) :
    (∀ (fp : Fingerprint) (s : State), e.store[fp]? = some s → system.Reachable s) ∧
    (e.status = .exhausted ∨ e.status = .truncated →
      ∀ (fp : Fingerprint) (s : State), e.store[fp]? = some s → goal.holds s = false) ∧
    (e.status = .exhausted → e.stats.collisions = 0 →
      (∀ s, system.Reachable s ↔ ∃ fp : Fingerprint, e.store[fp]? = some s) ∧
      ∀ s, system.Reachable s → goal.holds s = false) := by
  obtain ⟨trail, htrail⟩ := h.trailed
  have ht := htrail.tree
  obtain ⟨rfl, rfl, -⟩ := htrail.frame
  have hnone : e.status = .exhausted ∨ e.status = .truncated →
      ∀ (fp : Fingerprint) (s : State), e.store[fp]? = some s → e.goal.holds s = false := by
    intro hended fp s hs
    -- with nothing pending, every key was expanded, and so was tested
    have hkey := (ht.mem_store fp).mp (Fingerprint.mem_of_getElem? hs)
    rw [pending_of_ended htrail.verdict hended, List.append_nil] at hkey
    exact ht.not_goal fp hkey s hs
  refine ⟨fun fp s hs => ht.reachable hs, hnone, ?_⟩
  intro hstatus hcollisions
  have hverdict := htrail.verdict
  have hpending := pending_of_ended hverdict (Or.inl hstatus)
  rw [Verdict, hstatus] at hverdict
  have hall : ∀ s, e.system.Reachable s → e.store[s.fingerprint]? = some s := by
    intro s hs
    exact htrail.closed.stored_of_reachable ht hpending hverdict.2 hcollisions hs
  refine ⟨fun s => ⟨fun hs => ⟨_, hall s hs⟩, ?_⟩, fun s hs => hnone (Or.inl hstatus) _ s (hall s hs)⟩
  rintro ⟨fp, hs⟩
  exact ht.reachable hs

/-- Seven units cannot be had in the big one of jugs of three and five. -/
theorem jugs_negative_verdicts :
    ∃ (system : TransitionSystem) (goal : Goal) (e : Explorer),
      (waterJugs 3 5 7).build = .ok (system, goal) ∧
      Arises system goal Settings.default e ∧ e.status = .exhausted ∧ e.stats.collisions = 0 ∧
      ∀ s, system.Reachable s → goal.holds s = false := by
  have hexhausted : ((waterJugs 3 5 7).finish Settings.default).any
      (fun finished => decide (finished.explorer.status = .exhausted)) = true := by decide +kernel
  have hcollisions : ((waterJugs 3 5 7).finish Settings.default).any
      (fun finished => decide (finished.explorer.stats.collisions = 0)) = true := by decide +kernel
  obtain ⟨finished, hfinish, hstatus⟩ := (Option.any_eq_true ..).mp hexhausted
  rw [hfinish] at hcollisions
  obtain ⟨system, goal, e, hbuild, hstart, hrun⟩ := Puzzle.exists_of_finish hfinish
  have harises : Arises system goal Settings.default finished.explorer := (Arises.start hstart).run hrun
  have hstatus := of_decide_eq_true hstatus
  have hcollisions : finished.explorer.stats.collisions = 0 := of_decide_eq_true hcollisions
  exact ⟨system, goal, finished.explorer, hbuild, harises, hstatus, hcollisions,
    ((Arises.negative_verdicts harises).2.2 hstatus hcollisions).2⟩

end Explorer

end GuardedReach
