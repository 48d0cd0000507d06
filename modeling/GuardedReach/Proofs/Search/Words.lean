/-
  Words — traces as words of action positions, and the order in which a search comes upon them.

  1. **Program** — names tell the actions of a system apart, so the positions of the actions that a
     list of steps carries can be looked up: `TransitionSystem.spell`.

  2. **Order** — `Word.Before`: shorter words first, words of one length in the order of a dictionary.
     What later proofs need of it is how it behaves when both words grow by a letter
     (`Before.concat`, `NoLater.of_concat`).

  3. **Lineages** — what a lineage spells grows by one letter with each link (`Tree.spell_child`), has
     one letter less than the lineage has steps, and leads to the state at its end
     (`Tree.follow_spell`).
-/
import GuardedReach.Proofs.Search.Tree
import GuardedReach.Proofs.System.Reach
import Mathlib.Data.List.Shortlex

namespace GuardedReach

/-! ## Spelling

    Names of actions are distinct, so a trace, which shows names, tells positions as well. -/

namespace TransitionSystem

/-- Where the action of a name stands. -/
def position (system : TransitionSystem) (name : String) : Nat :=
  (system.actions.map Action.name).idxOf name

/-- The positions of the actions that the steps carry. -/
def spell (system : TransitionSystem) (steps : List Step) : List Nat :=
  (steps.filterMap Step.action).map system.position

/-- Names are distinct, so an action is found where it stands. -/
theorem position_name {system : TransitionSystem} {index : Nat} {a : Action}
    (ha : system.actions[index]? = some a) : system.position a.name = index := by
  have hname : (system.actions.map Action.name)[index]? = some a.name := by
    rw [List.getElem?_map, ha]
    rfl
  obtain ⟨hlen, heq⟩ := List.getElem?_eq_some_iff.mp hname
  rw [position, ← heq]
  exact system.distinct.idxOf_getElem index hlen

/-- A step more is a letter more, if the step carries an action. -/
theorem spell_concat (system : TransitionSystem) (steps : List Step) (step : Step) :
    system.spell (steps ++ [step]) =
      system.spell steps ++ (step.action.map system.position).toList := by
  rw [spell, List.filterMap_append, List.map_append]
  cases h : step.action <;> simp [spell, h]

end TransitionSystem

/-! ## The order of words

    The order in which a search that expands level by level comes upon words. -/

namespace Word

variable {u v w : List Nat} {i j : Nat}

/-- Shorter words come first, and words of one length in the order of a dictionary. -/
abbrev Before (u v : List Nat) : Prop :=
  u.Shortlex (· < ·) v

/-- The same word or one that comes first. -/
def NoLater (u v : List Nat) : Prop :=
  u = v ∨ Before u v

theorem Before.length_le (h : Before u v) : u.length ≤ v.length := by
  rcases List.shortlex_def.mp h with hlt | ⟨heq, -⟩
  · exact Nat.le_of_lt hlt
  · exact Nat.le_of_eq heq

theorem Before.trans (h : Before u v) (h' : Before v w) : Before u w := by
  rcases List.shortlex_def.mp h with hlt | ⟨heq, hlex⟩
  · exact .of_length_lt (Nat.lt_of_lt_of_le hlt h'.length_le)
  · rcases List.shortlex_def.mp h' with hlt' | ⟨heq', hlex'⟩
    · exact .of_length_lt (by omega)
    · exact .of_lex (heq.trans heq') (List.lex_trans (fun h h' => Nat.lt_trans h h') hlex hlex')

theorem Before.asymm (h : Before u v) : ¬ Before v u :=
  Std.Asymm.asymm u v h

/-- Of two words, one comes first. -/
theorem before_or_noLater (u v : List Nat) : Before u v ∨ NoLater v u := by
  by_cases h : Before u v
  · exact Or.inl h
  · by_cases h' : Before v u
    · exact Or.inr (Or.inr h')
    · exact Or.inr (Or.inl (Std.Trichotomous.trichotomous v u h' h))

theorem NoLater.length_le (h : NoLater u v) : u.length ≤ v.length := by
  rcases h with rfl | h
  · exact Nat.le_refl _
  · exact h.length_le

theorem NoLater.trans (h : NoLater u v) (h' : NoLater v w) : NoLater u w := by
  rcases h with rfl | h
  · exact h'
  · rcases h' with rfl | h'
    · exact Or.inr h
    · exact Or.inr (h.trans h')

/-- If a word comes no later than another, the other does not come before it. -/
theorem NoLater.not_before (h : NoLater u v) : ¬ Before v u := by
  rcases h with rfl | h
  · exact fun h => h.asymm h
  · exact h.asymm

/-- What came first comes first whatever letters are added. -/
theorem Before.concat (h : Before u v) (i j : Nat) : Before (u ++ [i]) (v ++ [j]) := by
  rcases List.shortlex_def.mp h with hlt | ⟨heq, hlex⟩
  · exact .of_length_lt (by simpa using hlt)
  · refine .of_lex (by simpa using heq) ?_
    -- both words have the same length, so they differ before the new letters
    clear h
    induction hlex with
    | nil => exact absurd heq (by simp)
    | cons _ ih => exact .cons (ih (by simpa using heq))
    | rel hlt => exact .rel hlt

/-- Of two words that differ in the last letter, the one with the smaller comes first. -/
theorem before_concat_of_lt (u : List Nat) (h : i < j) : Before (u ++ [i]) (u ++ [j]) :=
  List.Shortlex.append_left ((List.shortlex_singleton_iff i j).mpr h) u

/-- The same with the weak order on both sides. -/
theorem noLater_concat_of_le (u : List Nat) (h : i ≤ j) : NoLater (u ++ [i]) (u ++ [j]) := by
  rcases Nat.lt_or_eq_of_le h with h | rfl
  · exact Or.inr (before_concat_of_lt u h)
  · exact Or.inl rfl

/-- A word comes before what it is lengthened to. -/
theorem before_concat (u : List Nat) (i : Nat) : Before u (u ++ [i]) :=
  .of_length_lt (by simp)

/-- The same letter behind two words leaves them in order. -/
theorem NoLater.concat (h : NoLater u v) (i : Nat) : NoLater (u ++ [i]) (v ++ [i]) := by
  rcases h with rfl | h
  · exact Or.inl rfl
  · exact Or.inr (h.concat i i)

/-- Without their last letters, two words stand in the same order or are the same. -/
theorem NoLater.of_concat (h : Before (u ++ [i]) (v ++ [j])) : NoLater u v := by
  rcases before_or_noLater v u with hlt | hle
  · exact absurd (hlt.concat j i) h.asymm
  · exact hle

end Word

/-! ## What lineages spell

    A link carries the position of an action, so a lineage spells the word of its links. -/

namespace Explorer

namespace Tree

variable {e : Explorer} {expanded : List Fingerprint} {fp : Fingerprint} {steps : List Step}

/-- The root's lineage is the empty word. -/
theorem spell_root (h : Tree e expanded)
    (hl : Lineage e.parents e.store e.system.actions e.root steps) :
    e.system.spell steps = [] := by
  cases hl with
  | root hv hp =>
    obtain ⟨s, name, hlink, -, hname, rfl⟩ := Witness.visit_eq_ok_iff.mp hv
    obtain rfl := Option.some.inj (h.root_linked.symm.trans hlink)
    obtain rfl := Except.ok.inj hname
    rfl
  | child hv hp hl => exact absurd ((h.self_link (Witness.link_of_visit hv)).mpr rfl) hp

/-- A lineage that ends with a link by an action is its parent's and that action. -/
theorem spell_child (h : Tree e expanded) {link : Link} {index : Nat}
    (hl : Lineage e.parents e.store e.system.actions fp steps)
    (hlink : e.parents[fp]? = some link) (hindex : link.action = some index) :
    ∃ above, Lineage e.parents e.store e.system.actions link.parent above ∧
      e.system.spell steps = e.system.spell above ++ [index] := by
  cases hl with
  | root hv hp =>
    -- the root is linked by no action
    obtain rfl := h.eq_root_of_visit hv hp
    obtain rfl := Option.some.inj (h.root_linked.symm.trans hlink)
    exact absurd hindex (by simp [Link.root])
  | @child _ found step above hv hp hl =>
    obtain rfl := Option.some.inj ((Witness.link_of_visit hv).symm.trans hlink)
    obtain ⟨other, a, -, -, hother, ha, -⟩ := (h.branch_of_visit hv hp).edge
    obtain rfl := Option.some.inj (hindex.symm.trans hother)
    obtain ⟨s, name, -, -, hname, rfl⟩ := Witness.visit_eq_ok_iff.mp hv
    have hname' : name = some a.name := by
      simp only [Witness.actionName, hindex, ha] at hname
      exact (Except.ok.inj hname).symm
    refine ⟨above, hl, ?_⟩
    rw [TransitionSystem.spell_concat, hname']
    simp only [Option.map_some, Option.toList_some, TransitionSystem.position_name ha]

/-- A lineage other than the root's is its parent's and one action. -/
theorem spell_cases (h : Tree e expanded)
    (hl : Lineage e.parents e.store e.system.actions fp steps) :
    fp = e.root ∨ ∃ (link : Link) (index : Nat) (above : List Step),
      e.parents[fp]? = some link ∧ link.action = some index ∧ link.parent ∈ expanded ∧
      Lineage e.parents e.store e.system.actions link.parent above ∧
      e.system.spell steps = e.system.spell above ++ [index] := by
  obtain ⟨link, hlink⟩ := Fingerprint.mem_iff_exists.mp hl.key_mem
  by_cases hroot : fp = e.root
  · exact Or.inl hroot
  · have hbranch := h.branch fp link hroot hlink
    obtain ⟨index, -, -, -, hindex, -⟩ := hbranch.edge
    obtain ⟨above, habove, hspell⟩ := h.spell_child hl hlink hindex
    exact Or.inr ⟨link, index, above, hlink, hindex, hbranch.parent_mem, habove, hspell⟩

/-- The first step of a lineage carries no action, and every other carries one. -/
theorem length_spell (h : Tree e expanded)
    (hl : Lineage e.parents e.store e.system.actions fp steps) :
    (e.system.spell steps).length + 1 = steps.length := by
  induction hl with
  | root hv hp =>
    obtain rfl := h.eq_root_of_visit hv hp
    rw [h.spell_root (.root hv hp)]
    rfl
  | @child fp link step steps hv hp hl ih =>
    obtain ⟨index, -, -, -, hindex, -⟩ := (h.branch_of_visit hv hp).edge
    obtain ⟨above, habove, hspell⟩ :=
      h.spell_child (.child hv hp hl) (Witness.link_of_visit hv) hindex
    rw [habove.unique hl] at hspell
    rw [hspell, List.length_append, List.length_append, List.length_singleton, List.length_singleton]
    omega

/-- What a lineage spells leads to the state at its end. -/
theorem follow_spell (h : Tree e expanded)
    (hl : Lineage e.parents e.store e.system.actions fp steps) {s : State}
    (hs : e.store[fp]? = some s) :
    e.system.follow (e.system.spell steps) e.system.initial = some s := by
  induction hl generalizing s with
  | root hv hp =>
    obtain rfl := h.eq_root_of_visit hv hp
    rw [h.spell_root (.root hv hp)]
    exact h.root_stored.symm.trans hs
  | @child fp link step steps hv hp hl ih =>
    obtain ⟨index, a, before, after, hindex, ha, hbefore, hafter, hat⟩ :=
      (h.branch_of_visit hv hp).edge
    obtain rfl := Option.some.inj (hafter.symm.trans hs)
    obtain ⟨above, habove, hspell⟩ :=
      h.spell_child (.child hv hp hl) (Witness.link_of_visit hv) hindex
    rw [hspell, habove.unique hl]
    exact TransitionSystem.follow_concat_eq_some_iff.mpr ⟨before, a, ih hbefore, ha, hat⟩

end Tree

end Explorer

end GuardedReach
