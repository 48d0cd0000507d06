/-
  Distance — the depth of every state stored is its distance from the initial state, if no collision
  has been counted.

  1. **First words** — `Closed.stored_of_before`: whatever a word leads to that comes before what some
     lineage spells has been stored, with a lineage that spells no more than the word.  By induction
     on the word: what its last action is taken on stands no later than the parent of that lineage's
     fingerprint, so it was expanded; and its successor cannot have been dropped, since that
     fingerprint was recorded only later.

  2. **Statement** — `Arises.shortest`, for every explorer, however its search stands and whether or
     not its budget has dropped successors.
-/
import GuardedReach.Proofs.Search.Closure
import GuardedReach.Proofs.Search.History
import GuardedReach.Proofs.Search.Order
import Mathlib.Data.List.Induction

namespace GuardedReach

namespace Explorer

variable {e : Explorer} {expanded : List Fingerprint}

/-! ## First words

    Stated for words that come before what a lineage spells, since only for these the budget and the goal
    cannot have come in between. -/

/-- **What words that come first lead to is stored.**  If a word comes before what some lineage
    spells, then the state that the word leads to is stored, and its own lineage spells no more. -/
theorem Closed.stored_of_before (h : Closed e expanded) (ho : Ordered e expanded)
    (ht : Tree e expanded) (hcollisions : e.stats.collisions = 0) {fp : Fingerprint}
    {steps : List Step} (hl : Lineage e.parents e.store e.system.actions fp steps)
    {word : List Nat} (hb : Word.Before word (e.system.spell steps)) {t : State}
    (hw : e.system.follow word e.system.initial = some t) :
    e.store[t.fingerprint]? = some t ∧ ∃ others,
      Lineage e.parents e.store e.system.actions t.fingerprint others ∧
      Word.NoLater (e.system.spell others) word := by
  induction word using List.reverseRecOn generalizing t with
  | nil =>
    obtain rfl := Option.some.inj hw
    obtain ⟨others, hothers⟩ := ht.lineage_of_stored ht.root_stored
    exact ⟨ht.root_stored, others, hothers, Or.inl (ht.spell_root hothers)⟩
  | append_singleton word index ih =>
    obtain ⟨r, a, hr, ha, hat⟩ := TransitionSystem.follow_concat_eq_some_iff.mp hw
    obtain ⟨hrstored, between, hbetween, hle⟩ :=
      ih ((Word.before_concat word index).trans hb) hr
    -- the parent of `fp` was expanded, and `r` spells no more than it
    rcases ht.spell_cases hl with rfl | ⟨link, letter, above, hlink, -, hmem, habove, hspell⟩
    · rw [ht.spell_root hl] at hb
      exact absurd hb List.not_shortlex_nil_right
    obtain ⟨front, back, hexpanded⟩ := List.append_of_mem hmem
    rw [hspell] at hb
    have hrexpanded : r.fingerprint ∈ expanded := by
      rw [hexpanded]
      rcases ho.mem_front_or_eq ht (split_append hexpanded e.pending) habove hbetween
        (hle.trans (.of_concat hb)) with hm | heq
      · exact List.mem_append_left _ hm
      · rw [heq]
        exact List.mem_append_cons_self
    obtain ⟨earlier, later, hsplit⟩ := List.append_of_mem hrexpanded
    -- whatever was there when the action had been tried on `r` spells no more than the word
    have hbound : ∀ {other : Fingerprint} {others : List Step},
        Early e earlier r.fingerprint (index + 1) other →
          Lineage e.parents e.store e.system.actions other others →
            Word.NoLater (e.system.spell others) (word ++ [index]) := by
      intro other others he hothers
      rcases ho.spell_cases_of_early ht hsplit hbetween he hothers with hless | ⟨i, hi, heq⟩
      · exact Word.NoLater.trans (Or.inr (hless index)) (hle.concat index)
      · rw [heq]
        exact (Word.noLater_concat_of_le _ (Nat.le_of_lt_succ hi)).trans (hle.concat index)
    rcases h.accounted _ _ _ r t index a hsplit hrstored ha hat with hc | ⟨hs, he⟩ | ⟨-, he⟩
    · omega
    · obtain ⟨others, hothers⟩ := ht.lineage_of_stored hs
      exact ⟨hs, others, hothers, hbound he hothers⟩
    · -- if `t` was dropped, then `fp` had been recorded, and spells less than was supposed
      have hfp := hbound (he fp hl.key_mem) hl
      rw [hspell] at hfp
      exact absurd hb hfp.not_before

/-- The actions on a lineage are as few as can lead to its state. -/
theorem Closed.isDistance (h : Closed e expanded) (ho : Ordered e expanded) (ht : Tree e expanded)
    (hcollisions : e.stats.collisions = 0) {fp : Fingerprint} {s : State} {steps : List Step}
    (hs : e.store[fp]? = some s) (hl : Lineage e.parents e.store e.system.actions fp steps) :
    e.system.IsDistance (steps.length - 1) s := by
  refine ⟨ht.reachableIn hl hs, ?_⟩
  rintro m ⟨word, rfl, hw⟩
  rcases Word.before_or_noLater word (e.system.spell steps) with hb | hle
  · -- the state would have another lineage
    obtain ⟨-, others, hothers, hle⟩ := h.stored_of_before ho ht hcollisions hl hb hw
    rw [(ht.filed fp s hs).1] at hothers
    rw [hothers.unique hl] at hle
    exact absurd hb hle.not_before
  · have hlen := hle.length_le
    rw [← ht.length_spell hl]
    omega

/-- What a word leads to that comes before what the goal's lineage spells was tested before the goal
    and is none. -/
theorem Closed.not_goal_of_before (h : Closed e expanded) (ho : Ordered e expanded)
    (ht : Tree e expanded) (hcollisions : e.stats.collisions = 0) {fp : Fingerprint}
    {steps : List Step} (hstatus : e.status = .found fp)
    (hl : Lineage e.parents e.store e.system.actions fp steps) {word : List Nat}
    (hb : Word.Before word (e.system.spell steps)) {t : State}
    (hw : e.system.follow word e.system.initial = some t) : e.goal.holds t = false := by
  obtain ⟨hs, others, hothers, hle⟩ := h.stored_of_before ho ht hcollisions hl hb hw
  have horder : expanded ++ e.pending = expanded ++ fp :: e.frontier.toList := by
    rw [pending, hstatus]
  rcases ho.mem_front_or_eq ht horder hl hothers (hle.trans (Or.inr hb)) with hm | heq
  · exact ht.not_goal _ hm t hs
  · rw [heq] at hothers
    rw [hothers.unique hl] at hle
    exact absurd hb hle.not_before

/-- What shorter words lead to than the goal's lineage is no goal. -/
theorem Closed.not_goal_of_shorter (h : Closed e expanded) (ho : Ordered e expanded)
    (ht : Tree e expanded) (hcollisions : e.stats.collisions = 0) {fp : Fingerprint}
    {steps : List Step} (hstatus : e.status = .found fp)
    (hl : Lineage e.parents e.store e.system.actions fp steps) {n : Nat}
    (hlt : n + 1 < steps.length) {t : State} (hreach : e.system.ReachableIn n t) :
    e.goal.holds t = false := by
  obtain ⟨word, rfl, hw⟩ := hreach
  refine h.not_goal_of_before ho ht hcollisions hstatus hl (.of_length_lt ?_) hw
  rw [← ht.length_spell hl] at hlt
  omega

/-- The depth of a state stored is its distance, if no depth has wrapped around. -/
theorem Trailed.isDistance {system : TransitionSystem} {goal : Goal} {settings : Settings}
    {trail : Trail} (h : Trailed system goal settings trail e)
    (hsmall : e.stats.discovered ≤ UInt32.size) (hcollisions : e.stats.collisions = 0)
    {fp : Fingerprint} {s : State} (hs : e.store[fp]? = some s) {link : Link}
    (hl : e.parents[fp]? = some link) : system.IsDistance link.depth.toNat s := by
  have ht := h.tree
  obtain ⟨rfl, -, -⟩ := h.frame
  obtain ⟨steps, hsteps⟩ := ht.lineage_of_stored hs
  have hdepth : link.depth.toNat = steps.length - 1 := by
    have hlen := ht.toNat_depth hsmall hsteps hl
    omega
  rw [hdepth]
  exact h.closed.isDistance h.ordered ht hcollisions hs hsteps

/-! ## Statement

    Every word that leads somewhere is compared with the lineage of where it leads. -/

/-- **Shortest traces.**  While at most `2^32` states are recorded and no collision has been counted,
    the depth of every state stored is its distance from the initial state, and if a goal has been
    found, then no fewer actions than those of its trace lead to a goal. -/
theorem Arises.shortest {system : TransitionSystem} {goal : Goal} {settings : Settings}
    {e : Explorer} (h : Arises system goal settings e)
    (hsmall : e.stats.discovered ≤ UInt32.size) (hcollisions : e.stats.collisions = 0) :
    (∀ (fp : Fingerprint) (s : State), e.store[fp]? = some s →
      ∃ link : Link, e.parents[fp]? = some link ∧ system.IsDistance link.depth.toNat s) ∧
    (∀ fp, e.status = .found fp →
      ∃ w, e.witness fp = .ok w ∧
        ∀ (word : List Nat) (s : State), word.length < w.actionCount →
          system.follow word system.initial = some s → goal.holds s = false) := by
  obtain ⟨trail, htrail⟩ := h.trailed
  have ht := htrail.tree
  obtain ⟨rfl, rfl, -⟩ := htrail.frame
  refine ⟨?_, ?_⟩
  · intro fp s hs
    obtain ⟨steps, hl⟩ := ht.lineage_of_stored hs
    obtain ⟨link, hlink⟩ := Fingerprint.mem_iff_exists.mp hl.key_mem
    -- no depth has wrapped, so it counts the steps of the lineage
    have hdepth : link.depth.toNat = steps.length - 1 := by
      have hlen := ht.toNat_depth hsmall hl hlink
      omega
    refine ⟨link, hlink, ?_⟩
    rw [hdepth]
    exact htrail.closed.isDistance htrail.ordered ht hcollisions hs hl
  · intro fp hstatus
    obtain ⟨s, steps, -, -, hl, hw⟩ := htrail.found hstatus
    refine ⟨_, hw, ?_⟩
    intro word t hlt hword
    have hlen : word.length + 1 < steps.length := by
      have hcount : word.length < steps.length - 1 := hlt
      omega
    exact htrail.closed.not_goal_of_shorter htrail.ordered ht hcollisions hstatus hl hlen
      ⟨word, rfl, hword⟩

/-- Four units in the big one of jugs of three and five cannot be had in fewer than six actions. -/
theorem jugs_shortest :
    ∃ (system : TransitionSystem) (goal : Goal) (e : Explorer),
      (waterJugs 3 5 4).build = .ok (system, goal) ∧
      Arises system goal Settings.default e ∧ e.stats.discovered ≤ UInt32.size ∧
      e.stats.collisions = 0 ∧
      ∃ fp w, e.status = .found fp ∧ e.witness fp = .ok w ∧ w.actionCount = 6 ∧
        ∀ (word : List Nat) (s : State), word.length < 6 →
          system.follow word system.initial = some s → goal.holds s = false := by
  have hdiscovered : ((waterJugs 3 5 4).finish Settings.default).any
      (fun finished => decide (finished.explorer.stats.discovered = 15)) = true := by
    decide +kernel
  have hcollisions : ((waterJugs 3 5 4).finish Settings.default).any
      (fun finished => decide (finished.explorer.stats.collisions = 0)) = true := by decide +kernel
  have hactions : ((waterJugs 3 5 4).finish Settings.default).any
      (fun finished => finished.outcome.witness?.any fun w => decide (w.actionCount = 6)) = true := by
    decide +kernel
  obtain ⟨finished, hfinish, hfound⟩ := (Option.any_eq_true ..).mp hactions
  rw [hfinish] at hdiscovered hcollisions
  have hsmall : finished.explorer.stats.discovered ≤ UInt32.size := by
    have hcount : finished.explorer.stats.discovered = 15 := of_decide_eq_true hdiscovered
    rw [hcount]
    decide
  have hcollisions : finished.explorer.stats.collisions = 0 := of_decide_eq_true hcollisions
  obtain ⟨system, goal, e, hbuild, hstart, hrun⟩ := Puzzle.exists_of_finish hfinish
  have harises : Arises system goal Settings.default finished.explorer :=
    (Arises.start hstart).run hrun
  obtain ⟨w, hsome, hcount⟩ := (Option.any_eq_true ..).mp hfound
  have hcount : w.actionCount = 6 := of_decide_eq_true hcount
  obtain ⟨fp, hstatus, hwitness⟩ := found_of_run hrun (eq_found_of_witness? hsome)
  obtain ⟨found, hfound, hshortest⟩ := (Arises.shortest harises hsmall hcollisions).2 fp hstatus
  obtain rfl := Except.ok.inj (hwitness.symm.trans hfound)
  rw [hcount] at hshortest
  exact ⟨system, goal, finished.explorer, hbuild, harises, hsmall, hcollisions, fp, w, hstatus,
    hwitness, hcount, hshortest⟩

end Explorer

end GuardedReach
