/-
  Lineages — the walk along the links from a fingerprint back to a root, as a relation on the maps.

  1. **Maps** — what is looked up by fingerprint, and how many keys there are.

  2. **Specification** — `Lineage parents store actions fp steps`: following links from `fp` ends at
     a self-link, and `steps` is what stands on the way, the root first.  The maps may be anything.

  3. **No cycle** — a fingerprint has at most one lineage (`Lineage.unique`).  One that stood twice
     on a lineage would have two of different lengths, so `Lineage.nodup`; hence a lineage has no
     more steps than the parent map has keys (`Lineage.length_le_size`).

  4. **Correctness** — the bound of `Witness.reconstruct` is therefore enough for every lineage
     (`reconstruct_eq_ok`).
-/
import GuardedReach.Search.Witness

namespace GuardedReach

/-! ## Maps keyed by fingerprints

    The maps of a search, by what is found in them and not by how they are kept. -/

namespace Fingerprint

variable {β : Type} {m : Std.TreeMap Fingerprint β}

/-- What is found after an insertion, -/
theorem getElem?_insert (key fp : Fingerprint) (value : β) :
    (m.insert key value)[fp]? = if key = fp then some value else m[fp]? := by
  rw [Std.TreeMap.getElem?_insert]
  simp only [Std.compare_eq_iff_eq]

/-- and which keys there are. -/
theorem mem_insert_iff {key fp : Fingerprint} {value : β} :
    fp ∈ m.insert key value ↔ fp = key ∨ fp ∈ m := by
  rw [Std.TreeMap.mem_insert, Std.compare_eq_iff_eq, eq_comm]

/-- A key is one under which something is found, -/
theorem mem_iff_exists {fp : Fingerprint} : fp ∈ m ↔ ∃ value, m[fp]? = some value := by
  rw [Std.TreeMap.mem_iff_isSome_getElem?, Option.isSome_iff_exists]

/-- so what has been found is under a key, -/
theorem mem_of_getElem? {fp : Fingerprint} {value : β} (h : m[fp]? = some value) : fp ∈ m :=
  mem_iff_exists.mpr ⟨value, h⟩

/-- and nothing is found where there is none. -/
theorem getElem?_eq_none_iff {fp : Fingerprint} : m[fp]? = none ↔ fp ∉ m := by
  rw [Std.TreeMap.mem_iff_isSome_getElem?, Bool.not_eq_true, Option.isSome_eq_false_iff,
    Option.isNone_iff_eq_none]

/-- A map has as many entries as a list without duplicates that names its keys. -/
theorem size_eq_length {keys : List Fingerprint} (hnodup : keys.Nodup)
    (hkeys : ∀ fp, fp ∈ m ↔ fp ∈ keys) : m.size = keys.length := by
  have hperm : m.keys.Perm keys := by
    rw [List.perm_ext_iff_of_nodup Std.TreeMap.nodup_keys hnodup]
    intro fp
    exact Std.TreeMap.mem_keys.trans (hkeys fp)
  rw [← Std.TreeMap.length_keys, hperm.length_eq]

/-- Distinct keys are no more than the map has. -/
theorem length_le_size_of_mem {keys : List Fingerprint} (hnodup : keys.Nodup)
    (hmem : ∀ key ∈ keys, key ∈ m) : keys.length ≤ m.size := by
  have hsub : keys ⊆ m.keys := fun key hkey => Std.TreeMap.mem_keys.mpr (hmem key hkey)
  have hle := hnodup.length_le_of_subset hsub
  rwa [Std.TreeMap.length_keys] at hle

/-- A map that one entry was put into has that entry and no other. -/
theorem getElem?_insert_empty_eq_some_iff {key fp : Fingerprint} {value found : β} :
    ((∅ : Std.TreeMap Fingerprint β).insert key value)[fp]? = some found ↔
      fp = key ∧ found = value := by
  rw [getElem?_insert]
  constructor
  · intro h
    split at h
    · next heq => exact ⟨heq.symm, (Option.some.inj h).symm⟩
    · exact absurd h (by simp)
  · rintro ⟨rfl, rfl⟩
    exact if_pos rfl

/-- An entry stays when another key is inserted. -/
theorem getElem?_insert_of_not_mem {key fp : Fingerprint} {value held : β} (hk : key ∉ m)
    (h : m[fp]? = some held) : (m.insert key value)[fp]? = some held := by
  have hne : key ≠ fp := by
    rintro rfl
    exact hk (mem_of_getElem? h)
  rw [getElem?_insert, if_neg hne, h]

end Fingerprint

variable {parents : ParentMap} {store : StateStore} {actions : List Action}

/-! ## What stands at one fingerprint

    A visit looks up a link, a state and perhaps the name of an action, and fails if one of them is missing.
    -/

namespace Witness

/-- A visit succeeds when there are a link and a state and, if the link names an action, that
    action. -/
theorem visit_eq_ok_iff {fp : Fingerprint} {link : Link} {step : Step} :
    visit parents store actions fp = .ok (link, step) ↔
      ∃ s name, parents[fp]? = some link ∧ store[fp]? = some s ∧
        actionName actions fp link = .ok name ∧
        step = { action := name, state := s, fingerprint := fp } := by
  constructor
  · intro h
    unfold visit at h
    split at h
    · exact absurd h (by simp)
    · next found hl =>
      split at h
      · exact absurd h (by simp)
      · next s hs =>
        cases hn : actionName actions fp found with
        | error reason => rw [hn] at h; exact absurd h (by simp [Except.map])
        | ok name =>
          rw [hn] at h
          obtain ⟨rfl, rfl⟩ := Prod.mk.inj (Except.ok.inj h)
          exact ⟨s, name, hl, hs, hn, rfl⟩
  · rintro ⟨s, name, hl, hs, hn, rfl⟩
    unfold visit
    simp only [hl, hs, hn]
    rfl

/-- The step that a visit gives shows the fingerprint visited, -/
theorem fingerprint_of_visit {fp : Fingerprint} {link : Link} {step : Step}
    (h : visit parents store actions fp = .ok (link, step)) : step.fingerprint = fp := by
  obtain ⟨s, name, -, -, -, rfl⟩ := visit_eq_ok_iff.mp h
  rfl

/-- the link is the one recorded there, -/
theorem link_of_visit {fp : Fingerprint} {link : Link} {step : Step}
    (h : visit parents store actions fp = .ok (link, step)) : parents[fp]? = some link := by
  obtain ⟨s, name, hl, -⟩ := visit_eq_ok_iff.mp h
  exact hl

/-- and the state of the step is the one stored there. -/
theorem state_of_visit {fp : Fingerprint} {link : Link} {step : Step}
    (h : visit parents store actions fp = .ok (link, step)) : store[fp]? = some step.state := by
  obtain ⟨s, name, -, hs, -, rfl⟩ := visit_eq_ok_iff.mp h
  exact hs

end Witness

/-! ## Lineages

    The links form a function, so a lineage is determined by its end, and one that came back to a
    fingerprint would have to be longer than itself. -/

/-- Following links from the fingerprint ends at a self-link, and these are the steps that stand on
    the way, the root first and the fingerprint last. -/
inductive Lineage (parents : ParentMap) (store : StateStore) (actions : List Action) :
    Fingerprint → List Step → Prop
  | root {fp : Fingerprint} {link : Link} {step : Step}
      (hv : Witness.visit parents store actions fp = .ok (link, step)) (hp : link.parent = fp) :
      Lineage parents store actions fp [step]
  | child {fp : Fingerprint} {link : Link} {step : Step} {steps : List Step}
      (hv : Witness.visit parents store actions fp = .ok (link, step)) (hp : link.parent ≠ fp)
      (hl : Lineage parents store actions link.parent steps) :
      Lineage parents store actions fp (steps ++ [step])

namespace Lineage

variable {fp : Fingerprint} {steps : List Step}

/-- The last step of a lineage stands at its fingerprint. -/
theorem eq_concat (h : Lineage parents store actions fp steps) :
    ∃ front step, steps = front ++ [step] ∧ step.fingerprint = fp := by
  cases h with
  | root hv hp => exact ⟨[], _, rfl, Witness.fingerprint_of_visit hv⟩
  | child hv hp hl => exact ⟨_, _, rfl, Witness.fingerprint_of_visit hv⟩

/-- A lineage has at least the step of its root. -/
theorem length_pos (h : Lineage parents store actions fp steps) : 0 < steps.length := by
  obtain ⟨front, step, rfl, -⟩ := h.eq_concat
  simp

/-- The end of a lineage is a key of the parent map. -/
theorem key_mem (h : Lineage parents store actions fp steps) : fp ∈ parents := by
  have hvisit : ∃ link step, Witness.visit parents store actions fp = .ok (link, step) := by
    cases h with
    | root hv hp => exact ⟨_, _, hv⟩
    | child hv hp hl => exact ⟨_, _, hv⟩
  obtain ⟨link, step, hv⟩ := hvisit
  exact Fingerprint.mem_of_getElem? (Witness.link_of_visit hv)

/-- A fingerprint has at most one lineage. -/
theorem unique {others : List Step} (h : Lineage parents store actions fp steps)
    (h' : Lineage parents store actions fp others) : steps = others := by
  -- both read the same link, so they end or go on together
  induction h generalizing others with
  | root hv hp =>
    cases h' with
    | root hv' hp' =>
      obtain ⟨rfl, rfl⟩ := Prod.mk.inj (Except.ok.inj (hv.symm.trans hv'))
      rfl
    | child hv' hp' hl' =>
      obtain ⟨rfl, rfl⟩ := Prod.mk.inj (Except.ok.inj (hv.symm.trans hv'))
      exact absurd hp hp'
  | child hv hp hl ih =>
    cases h' with
    | root hv' hp' =>
      obtain ⟨rfl, rfl⟩ := Prod.mk.inj (Except.ok.inj (hv.symm.trans hv'))
      exact absurd hp' hp
    | child hv' hp' hl' =>
      obtain ⟨rfl, rfl⟩ := Prod.mk.inj (Except.ok.inj (hv.symm.trans hv'))
      rw [ih hl']

/-- A lineage is one step longer than its parent's, unless it is a root's. -/
theorem length_cases {link : Link} (h : Lineage parents store actions fp steps)
    (hlink : parents[fp]? = some link) :
    link.parent = fp ∧ steps.length = 1 ∨
      link.parent ≠ fp ∧ ∃ above, Lineage parents store actions link.parent above ∧
        steps.length = above.length + 1 := by
  cases h with
  | root hv hp =>
    obtain rfl := Option.some.inj ((Witness.link_of_visit hv).symm.trans hlink)
    exact Or.inl ⟨hp, rfl⟩
  | child hv hp hl =>
    obtain rfl := Option.some.inj ((Witness.link_of_visit hv).symm.trans hlink)
    exact Or.inr ⟨hp, _, hl, List.length_append⟩

/-- Every step of a lineage has a lineage of its own, which is no longer. -/
theorem of_mem {step : Step} (h : Lineage parents store actions fp steps) (hm : step ∈ steps) :
    ∃ front, Lineage parents store actions step.fingerprint front ∧
      front.length ≤ steps.length := by
  induction h with
  | root hv hp =>
    obtain rfl := List.mem_singleton.mp hm
    rw [Witness.fingerprint_of_visit hv]
    exact ⟨_, .root hv hp, Nat.le_refl _⟩
  | child hv hp hl ih =>
    rcases List.mem_append.mp hm with hm | hm
    · obtain ⟨front, hf, hlen⟩ := ih hm
      refine ⟨front, hf, ?_⟩
      rw [List.length_append]
      omega
    · obtain rfl := List.mem_singleton.mp hm
      rw [Witness.fingerprint_of_visit hv]
      exact ⟨_, .child hv hp hl, Nat.le_refl _⟩

/-- Everything on a lineage stands at a key of the parent map. -/
theorem mem_parents {step : Step} (h : Lineage parents store actions fp steps)
    (hm : step ∈ steps) : step.fingerprint ∈ parents := by
  obtain ⟨front, hf, -⟩ := h.of_mem hm
  exact hf.key_mem

/-- A lineage holds what is stored under its fingerprints. -/
theorem stored (h : Lineage parents store actions fp steps) :
    ∀ step ∈ steps, store[step.fingerprint]? = some step.state := by
  induction h with
  | root hv hp =>
    intro step hm
    rw [List.mem_singleton.mp hm, Witness.fingerprint_of_visit hv]
    exact Witness.state_of_visit hv
  | child hv hp hl ih =>
    intro step hm
    rcases List.mem_append.mp hm with hm | hm
    · exact ih step hm
    · rw [List.mem_singleton.mp hm, Witness.fingerprint_of_visit hv]
      exact Witness.state_of_visit hv

/-- Recording more fingerprints leaves lineages as they are. -/
theorem mono {parents' : ParentMap} {store' : StateStore}
    (h : Lineage parents store actions fp steps)
    (hparents : ∀ (fp : Fingerprint) (link : Link),
      parents[fp]? = some link → parents'[fp]? = some link)
    (hstore : ∀ (fp : Fingerprint) (s : State), store[fp]? = some s → store'[fp]? = some s) :
    Lineage parents' store' actions fp steps := by
  have hvisit : ∀ {fp link step}, Witness.visit parents store actions fp = .ok (link, step) →
      Witness.visit parents' store' actions fp = .ok (link, step) := by
    intro fp link step hv
    obtain ⟨s, name, hl, hs, hn, hstep⟩ := Witness.visit_eq_ok_iff.mp hv
    exact Witness.visit_eq_ok_iff.mpr ⟨s, name, hparents _ _ hl, hstore _ _ hs, hn, hstep⟩
  induction h with
  | root hv hp => exact .root (hvisit hv) hp
  | child hv hp hl ih => exact .child (hvisit hv) hp ih

/-- No fingerprint stands on a lineage twice. -/
theorem nodup (h : Lineage parents store actions fp steps) :
    (steps.map Step.fingerprint).Nodup := by
  induction h with
  | root hv hp => simp
  | @child fp link step steps hv hp hl ih =>
    rw [List.map_append, List.nodup_append]
    refine ⟨ih, by simp, ?_⟩
    -- a second lineage of `fp`, ending before this one does
    rintro a ha b hb rfl
    obtain ⟨earlier, hmem, hfp⟩ := List.mem_map.mp ha
    obtain ⟨front, hf, hlen⟩ := hl.of_mem hmem
    rw [hfp, List.mem_singleton.mp hb, Witness.fingerprint_of_visit hv] at hf
    have heq : front = steps ++ [step] := hf.unique (.child hv hp hl)
    rw [heq, List.length_append, List.length_singleton] at hlen
    omega

/-- A lineage has no more steps than there are links. -/
theorem length_le_size (h : Lineage parents store actions fp steps) :
    steps.length ≤ parents.size := by
  have hmem : ∀ key ∈ steps.map Step.fingerprint, key ∈ parents := by
    intro key hkey
    obtain ⟨step, hstep, rfl⟩ := List.mem_map.mp hkey
    exact h.mem_parents hstep
  have hle := Fingerprint.length_le_size_of_mem h.nodup hmem
  rwa [List.length_map] at hle

/-! ## The walk finds them

    The program may follow only as many links as there are.  A lineage never needs more. -/

/-- With leave to follow enough links, the walk finds the lineage. -/
theorem walk_eq_ok (h : Lineage parents store actions fp steps) :
    ∀ (more : Nat) (found : List Step), steps.length ≤ more + 1 →
      Witness.walk parents store actions more fp found = .ok (steps ++ found) := by
  induction h with
  | root hv hp =>
    intro more found hlen
    unfold Witness.walk
    simp only [hv, hp, if_true]
    rfl
  | child hv hp hl ih =>
    intro more found hlen
    have hpos := hl.length_pos
    rw [List.length_append, List.length_singleton] at hlen
    unfold Witness.walk
    simp only [hv, if_neg hp]
    cases more with
    | zero => omega
    | succ more =>
      simp only
      rw [ih more _ (by omega), List.append_assoc]
      rfl

/-- **The trace read off the links is the lineage.** -/
theorem reconstruct_eq_ok (h : Lineage parents store actions fp steps) :
    Witness.reconstruct fp parents store actions = .ok { steps } := by
  have hlen := h.length_le_size
  unfold Witness.reconstruct
  rw [h.walk_eq_ok parents.size [] (by omega), List.append_nil]
  rfl

end Lineage

/-- A walk from a fingerprint that has no link goes nowhere. -/
theorem Witness.reconstruct_of_not_mem {fp : Fingerprint} (h : fp ∉ parents) :
    reconstruct fp parents store actions = .error (.brokenChain fp) := by
  have hvisit : visit parents store actions fp = .error (.brokenChain fp) := by
    unfold visit
    rw [Fingerprint.getElem?_eq_none_iff.mpr h]
  unfold reconstruct walk
  simp only [hvisit]
  rfl

end GuardedReach
