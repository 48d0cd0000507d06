/-
  Order — first in, first out makes the order of discovery the order of the words that lead there.

  1. **Invariant** — `Ordered e expanded`.  The fingerprints expanded and then those pending stand in
     the order in which they were recorded: whatever stands before one was there when the attempt was
     made that recorded it (`Early`), and the root stands first.

  2. **Preservation** — a fingerprint that is recorded goes to the end, and at that moment everything
     recorded is early (`Expanding.early`).

  3. **Words** — whatever stands earlier spells a word that comes first (`Ordered.spell_before`), so
     it has no longer a lineage.  The induction goes up the two lineages at once: of two fingerprints,
     the parent of the earlier one was expanded no later than the parent of the later one, and if
     both have one parent then the action that led to the earlier one stands first.
-/
import GuardedReach.Proofs.Search.Words

namespace GuardedReach

namespace Explorer

/-! ## The invariant

    The order is that of the tree; what is added here is when each fingerprint was recorded. -/

/-- Whatever stands before a fingerprint was recorded before the attempt that recorded it. -/
structure Ordered (e : Explorer) (expanded : List Fingerprint) : Prop where
  first : ∃ rest, expanded ++ e.pending = e.root :: rest
  early : ∀ (front : List Fingerprint) (fp : Fingerprint) (back before after : List Fingerprint)
    (link : Link) (index : Nat), expanded ++ e.pending = front ++ fp :: back →
    e.parents[fp]? = some link → link.action = some index →
    expanded = before ++ link.parent :: after →
    ∀ other ∈ front, Early e before link.parent index other

namespace Ordered

variable {e f : Explorer} {expanded : List Fingerprint}

theorem congr (h : Ordered e expanded) (hx : Extends e f) (hparents : f.parents = e.parents)
    (hpending : f.pending = e.pending) : Ordered f expanded where
  first := by rw [hpending, hx.root]; exact h.first
  early := by
    rw [hpending, hparents]
    intro front fp back before after link index horder hlink haction hexpanded other hm
    exact (h.early front fp back before after link index horder hlink haction hexpanded other hm).mono
      hx (Nat.le_refl index)

/-- Taking a state from the queue to expand it leaves the order as it is. -/
theorem opened (h : Ordered e expanded) (ht : Tree e expanded) {current : Fingerprint}
    {frontier : Frontier} {s : State} {link : Link} (hv : e.Visits current frontier s link) :
    Ordered (e.opened frontier link.depth) (expanded ++ [current]) := by
  have horder := hv.order_opened expanded
  refine ⟨?_, ?_⟩
  · rw [horder]
    exact h.first
  · rw [horder]
    intro front fp back before after l index hsplit hl haction hexpanded other hm
    rcases split_of_concat hexpanded with ⟨-, hparent⟩ | ⟨rest, hexpanded⟩
    · -- nothing hangs from the state that is about to be expanded
      have hne : fp ≠ e.root := by
        rintro rfl
        obtain rfl := Option.some.inj (ht.root_linked.symm.trans hl)
        exact absurd haction (by simp [Link.root])
      have hmem := (ht.branch fp l hne hl).parent_mem
      have hnodup := ht.nodup
      rw [← hv.cons_pending_opened, List.nodup_append] at hnodup
      exact absurd hparent.symm (hnodup.2.2 _ hmem _ (List.mem_cons_self ..))
    · exact h.early front fp back before rest l index hsplit hl haction hexpanded other hm

end Ordered

/-- The record of one attempt keeps the order. -/
theorem Expanding.ordered_record {e : Explorer} {before : List Fingerprint} {current : Fingerprint}
    {s : State} {link : Link} {tried : Nat} {a : Action} {attempt : Attempt}
    (h : Expanding e before current s link tried) (ho : Ordered e (before ++ [current]))
    (ht : Tried e a s attempt) :
    Ordered (e.record current link.depth tried attempt) (before ++ [current]) := by
  have hx := h.extends_record ht
  cases ht with
  | refused hat => exact ho.congr hx rfl rfl
  | known hat hk => exact ho.congr hx rfl rfl
  | dropped hat hk hb hd => exact ho.congr hx rfl rfl
  | @fresh t hat hk hroom =>
    have hpending := pending_record_fresh h.running current link.depth tried t
    refine ⟨?_, ?_⟩
    · obtain ⟨rest, hrest⟩ := ho.first
      refine ⟨rest ++ [t.fingerprint], ?_⟩
      rw [hpending, ← List.append_assoc, hrest]
      rfl
    · rw [hpending, ← List.append_assoc]
      intro front fp back before' after l index hsplit hl haction hexpanded other hm
      rcases split_of_concat hsplit with ⟨rfl, rfl⟩ | ⟨rest, hsplit⟩
      · -- the new one: everything was there before it
        rw [parents_record_fresh, if_pos rfl] at hl
        obtain rfl := Option.some.inj hl
        obtain rfl := Option.some.inj haction
        -- nothing was expanded twice, so what was expanded before this state is settled
        have hbefore : before = before' := by
          rcases split_of_concat hexpanded with ⟨heq, -⟩ | ⟨rest, heq⟩
          · exact heq
          · have hnodup := (List.nodup_append.mp h.tree.nodup).1
            rw [List.nodup_append] at hnodup
            have hcurrent : current ∈ before := by
              rw [heq]
              exact List.mem_append_cons_self
            exact absurd rfl (hnodup.2.2 _ hcurrent _ (List.mem_singleton_self _))
        rw [← hbefore]
        exact (h.early other ((h.tree.mem_parents other).mpr hm)).mono hx (Nat.le_refl _)
      · -- an old one: as it was
        have hmem : fp ∈ e.parents := by
          rw [h.tree.mem_parents, hsplit]
          exact List.mem_append_cons_self
        obtain ⟨held, hheld⟩ := Fingerprint.mem_iff_exists.mp hmem
        obtain rfl := Option.some.inj ((hx.parents _ _ hheld).symm.trans hl)
        exact (ho.early front fp rest before' after held index hsplit hheld haction hexpanded other
          hm).mono hx (Nat.le_refl _)

/-- One step keeps the order. -/
theorem Ordered.stepped {e next : Explorer} {expanded : List Fingerprint} {events : List Event}
    {leg : Trail} (h : Ordered e expanded) (ht : Tree e expanded)
    (hs : Stepped e events leg next) : Ordered next (expanded ++ leg.expanded) := by
  have hx := ht.extends_stepped hs
  cases hs with
  | rested hterminal => rw [Trail.empty, List.append_nil]; exact h
  | ended hr hq => rw [Trail.empty, List.append_nil]; exact h.congr hx rfl (pending_ended hr)
  | found hv hg => rw [Trail.empty, List.append_nil]; exact h.congr hx rfl hv.pending_foundAt
  | @expanded current frontier s link hv hg =>
    refine ((ht.opened hv hg).induction (P := fun _ f => Ordered f (expanded ++ [current]))
      (h.opened ht hv) ?_).2
    intro tries a f hf ha ho
    exact hf.ordered_record ho (tried_attempt f a s)

theorem Trailed.ordered {system : TransitionSystem} {goal : Goal} {settings : Settings}
    {trail : Trail} {e : Explorer} (h : Trailed system goal settings trail e) :
    Ordered e trail.expanded := by
  induction h with
  | @start e h =>
    refine ⟨⟨[], (started_of_start h).pending_eq⟩, ?_⟩
    intro front fp back before after link index horder hlink haction hexpanded
    exact absurd hexpanded (by simp [Trail.empty])
  | step he h ih => exact ih.stepped he.tree (stepped_of_step h)

/-! ## Words

    From the order of expansion to the order of words, up the lineages. -/

variable {e : Explorer} {expanded : List Fingerprint}

/-- What was there when an action was tried on the state filed under `current` spells less than the
    word of `current` with any letter added, or just that with the letter of an action tried before;
    provided that what was expanded before `current` spells less than `current`. -/
theorem Early.spell_cases {before : List Fingerprint} {current fp : Fingerprint} {tried : Nat}
    {steps above : List Step} (h : Early e before current tried fp) (ht : Tree e expanded)
    (hl : Lineage e.parents e.store e.system.actions fp steps)
    (habove : Lineage e.parents e.store e.system.actions current above)
    (hbefore : ∀ other ∈ before, ∀ others,
      Lineage e.parents e.store e.system.actions other others →
        Word.Before (e.system.spell others) (e.system.spell above)) :
    (∀ letter, Word.Before (e.system.spell steps) (e.system.spell above ++ [letter])) ∨
      ∃ index < tried, e.system.spell steps = e.system.spell above ++ [index] := by
  by_cases hroot : fp = e.root
  · subst hroot
    refine Or.inl fun letter => .of_length_lt ?_
    rw [ht.spell_root hl]
    simp
  · obtain ⟨link, index, upper, hlink, hindex, -, hupper, hspell⟩ :=
      (ht.spell_cases hl).resolve_left hroot
    obtain ⟨held, hheld, hparent⟩ := h.resolve_left hroot
    obtain rfl := Option.some.inj (hlink.symm.trans hheld)
    rw [hspell]
    -- either its parent was expanded before `current`, or `current` itself is its parent
    rcases hparent with hm | ⟨rfl, other, hlt, hother⟩
    · exact Or.inl fun letter => (hbefore _ hm upper hupper).concat index letter
    · obtain rfl := Option.some.inj (hindex.symm.trans hother)
      rw [hupper.unique habove]
      exact Or.inr ⟨index, hlt, rfl⟩

/-- **Breadth first, in the order of the actions.**  Whatever stands earlier in the order of discovery
    spells a word that comes first. -/
theorem Ordered.spell_before (h : Ordered e expanded) (ht : Tree e expanded)
    {fp other : Fingerprint} {front back : List Fingerprint} {steps others : List Step}
    (horder : expanded ++ e.pending = front ++ fp :: back) (hm : other ∈ front)
    (hl : Lineage e.parents e.store e.system.actions fp steps)
    (hother : Lineage e.parents e.store e.system.actions other others) :
    Word.Before (e.system.spell others) (e.system.spell steps) := by
  -- on the lineage of the later one, which ends at the root, before which nothing stands
  induction hl generalizing front back other others with
  | @root fp link step hv hp =>
    obtain rfl := ht.eq_root_of_visit hv hp
    obtain ⟨rest, hrest⟩ := h.first
    have hnodup := ht.nodup
    cases front with
    | nil => exact absurd hm (by simp)
    | cons first front =>
      rw [hrest] at horder hnodup
      have hmem : e.root ∈ rest := by
        rw [(List.cons.inj horder).2]
        exact List.mem_append_cons_self
      exact absurd hmem (List.nodup_cons.mp hnodup).1
  | @child fp link step steps hv hp hl ih =>
    have hlink := Witness.link_of_visit hv
    have hbranch := ht.branch_of_visit hv hp
    obtain ⟨index, -, -, -, hindex, -⟩ := hbranch.edge
    obtain ⟨above, habove, hspell⟩ := ht.spell_child (.child hv hp hl) hlink hindex
    obtain ⟨before, after, hexpanded⟩ := List.append_of_mem hbranch.parent_mem
    have hparent := split_append hexpanded e.pending
    have hearly := h.early front fp back before after link index horder hlink hindex hexpanded other hm
    have hbefore : ∀ earlier ∈ before, ∀ others,
        Lineage e.parents e.store e.system.actions earlier others →
          Word.Before (e.system.spell others) (e.system.spell steps) := by
      intro earlier hmem others hearlier
      exact ih hparent hmem hearlier
    rw [hspell, habove.unique hl]
    rcases hearly.spell_cases ht hother hl hbefore with hless | ⟨letter, hlt, heq⟩
    · exact hless index
    · rw [heq]
      exact Word.before_concat_of_lt _ hlt

/-- Whatever stands earlier in the order of discovery has no longer a lineage. -/
theorem Ordered.length_le (h : Ordered e expanded) (ht : Tree e expanded) {fp other : Fingerprint}
    {front back : List Fingerprint} {steps others : List Step}
    (horder : expanded ++ e.pending = front ++ fp :: back) (hm : other ∈ front)
    (hl : Lineage e.parents e.store e.system.actions fp steps)
    (hother : Lineage e.parents e.store e.system.actions other others) :
    others.length ≤ steps.length := by
  have hle := (h.spell_before ht horder hm hl hother).length_le
  rw [← ht.length_spell hl, ← ht.length_spell hother]
  omega

/-- Whatever spells no more than something recorded does stands before it, or is it. -/
theorem Ordered.mem_front_or_eq (h : Ordered e expanded) (ht : Tree e expanded)
    {front back : List Fingerprint} {later fp : Fingerprint} {above steps : List Step}
    (horder : expanded ++ e.pending = front ++ later :: back)
    (hlater : Lineage e.parents e.store e.system.actions later above)
    (hl : Lineage e.parents e.store e.system.actions fp steps)
    (hle : Word.NoLater (e.system.spell steps) (e.system.spell above)) : fp ∈ front ∨ fp = later := by
  have hm := hl.key_mem
  rw [ht.mem_parents, horder] at hm
  rcases List.mem_append.mp hm with hm | hm
  · exact Or.inl hm
  · rcases List.mem_cons.mp hm with rfl | hm
    · exact Or.inr rfl
    · -- one that stood behind would spell more
      obtain ⟨between, rest, hback⟩ := List.append_of_mem hm
      have horder' : expanded ++ e.pending = (front ++ later :: between) ++ fp :: rest := by
        rw [horder, hback, List.append_assoc]
        rfl
      have hbefore := h.spell_before ht horder' List.mem_append_cons_self hl hlater
      exact absurd hbefore hle.not_before

/-- What was there when an action was tried on the state filed under `current`. -/
theorem Ordered.spell_cases_of_early (h : Ordered e expanded) (ht : Tree e expanded)
    {before after : List Fingerprint} {current fp : Fingerprint} {tried : Nat}
    {above steps : List Step} (hexpanded : expanded = before ++ current :: after)
    (habove : Lineage e.parents e.store e.system.actions current above)
    (he : Early e before current tried fp)
    (hl : Lineage e.parents e.store e.system.actions fp steps) :
    (∀ letter, Word.Before (e.system.spell steps) (e.system.spell above ++ [letter])) ∨
      ∃ index < tried, e.system.spell steps = e.system.spell above ++ [index] := by
  refine he.spell_cases ht hl habove ?_
  intro other hm others hother
  exact h.spell_before ht (split_append hexpanded e.pending) hm habove hother

end Explorer

end GuardedReach
