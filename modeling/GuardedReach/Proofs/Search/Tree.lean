/-
  The search tree — what ties the frontier, the links and the store of a search together.

  The three are updated apart from each other, in a loop that goes on early; this is what they agree
  on at every moment, whatever the hash does and whatever the budget drops.

  1. **Order** — the fingerprints a search has recorded are those it has expanded, then the goal if
     it has found one, then the queue (`pending`): no fingerprint occurs twice there, and these are
     the keys of both maps.

  2. **Invariant** — `Tree e expanded`.  Every key but the root's hangs by one action from a key that
     has been expanded (`Branch`), and following the links ends at the root (`Lineage`).  A successor
     is recorded only if its fingerprint is new, so an edge that was there is never touched
     (`Extends`): that is why a collision, with an ancestor or with the root, does no harm.

  3. **Preservation** — one attempt (`Expanding.record`), one expansion (`Expanding.induction`), one
     step (`Tree.stepped`), every search (`Trailed.tree`).
-/
import GuardedReach.Proofs.Search.Lineage
import GuardedReach.Proofs.Search.Step

namespace GuardedReach

namespace Explorer

/-! ## What is recorded stays recorded

    A search only ever adds.  What it has added once can be relied on at any later moment, and this is how
    later proofs use it. -/

/-- `f` is `e` at a later moment: nothing that was recorded has been lost or changed. -/
structure Extends (e f : Explorer) : Prop where
  system : f.system = e.system
  goal : f.goal = e.goal
  settings : f.settings = e.settings
  parents : ∀ (fp : Fingerprint) (link : Link),
    e.parents[fp]? = some link → f.parents[fp]? = some link
  store : ∀ (fp : Fingerprint) (s : State), e.store[fp]? = some s → f.store[fp]? = some s
  discovered : e.stats.discovered ≤ f.stats.discovered
  collisions : e.stats.collisions ≤ f.stats.collisions
  budgetHit : e.budgetHit = true → f.budgetHit = true

namespace Extends

theorem refl (e : Explorer) : Extends e e :=
  ⟨rfl, rfl, rfl, fun _ _ h => h, fun _ _ h => h, Nat.le_refl _, Nat.le_refl _, fun h => h⟩

theorem trans {e f g : Explorer} (h : Extends e f) (h' : Extends f g) : Extends e g where
  system := h'.system.trans h.system
  goal := h'.goal.trans h.goal
  settings := h'.settings.trans h.settings
  parents fp link hl := h'.parents fp link (h.parents fp link hl)
  store fp s hs := h'.store fp s (h.store fp s hs)
  discovered := Nat.le_trans h.discovered h'.discovered
  collisions := Nat.le_trans h.collisions h'.collisions
  budgetHit hb := h'.budgetHit (h.budgetHit hb)

end Extends

/-- The record of an attempt loses nothing. -/
theorem extends_record {e : Explorer} {a : Action} {s : State} {attempt : Attempt}
    (hkeys : ∀ fp, fp ∈ e.store → fp ∈ e.parents) (ht : Tried e a s attempt)
    (current : Fingerprint) (depth : UInt32) (index : Nat) :
    Extends e (e.record current depth index attempt) := by
  cases ht with
  | refused ha => exact { Extends.refl e with }
  | known ha hk => exact { Extends.refl e with collisions := Nat.le_add_right _ _ }
  | dropped ha hk hb hd => exact { Extends.refl e with budgetHit := fun _ => rfl }
  | fresh ha hk hroom =>
    have hstore := fun h => hk (hkeys _ h)
    exact
      { Extends.refl e with
        parents := fun fp link hl => Fingerprint.getElem?_insert_of_not_mem hk hl
        store := fun fp s hs => Fingerprint.getElem?_insert_of_not_mem hstore hs
        discovered := Nat.le_succ _ }

/-- A new state is linked to the state it came from, by the position of the action that was tried, -/
theorem parents_record_fresh (e : Explorer) (current : Fingerprint) (depth : UInt32) (index : Nat)
    (t : State) (fp : Fingerprint) :
    (e.record current depth index (.fresh t)).parents[fp]? =
      if t.fingerprint = fp then
        some { parent := current, action := some index, depth := depth + 1 }
      else e.parents[fp]? :=
  Fingerprint.getElem?_insert ..

/-- and stored under its fingerprint. -/
theorem store_record_fresh (e : Explorer) (current : Fingerprint) (depth : UInt32) (index : Nat)
    (t : State) (fp : Fingerprint) :
    (e.record current depth index (.fresh t)).store[fp]? =
      if t.fingerprint = fp then some t else e.store[fp]? :=
  Fingerprint.getElem?_insert ..

/-! ## The invariant

    The keys in the order of their expansion and discovery, and for each of them the link that it hangs by.
    -/

/-- The fingerprint of the initial state. -/
def root (e : Explorer) : Fingerprint :=
  e.system.initial.fingerprint

theorem Extends.root {e f : Explorer} (h : Extends e f) : f.root = e.root := by
  rw [Explorer.root, Explorer.root, h.system]

/-- What is recorded but not expanded: the goal, if one was found, and then the queue. -/
def pending (e : Explorer) : List Fingerprint :=
  match e.status with
  | .found goal => goal :: e.frontier.toList
  | _ => e.frontier.toList

/-- While a search goes on, what it has yet to expand is its queue. -/
theorem pending_of_running {e : Explorer} (h : e.status = .running) :
    e.pending = e.frontier.toList := by
  unfold pending
  rw [h]

namespace Started

variable {system : TransitionSystem} {goal : Goal} {settings : Settings} {e : Explorer}

/-- At the start the root is queued, -/
theorem toList_frontier (h : Started system goal settings e) : e.frontier.toList = [e.root] := by
  rw [h.frontier, Frontier.toList_push, Frontier.toList_empty, root, h.frame.1]
  rfl

/-- and nothing else is pending. -/
theorem pending_eq (h : Started system goal settings e) : e.pending = [e.root] :=
  (pending_of_running h.running).trans h.toList_frontier

/-- There is one link, the root's own, -/
theorem parents_eq_some_iff (h : Started system goal settings e) {fp : Fingerprint} {link : Link} :
    e.parents[fp]? = some link ↔ fp = e.root ∧ link = Link.root e.root := by
  rw [h.parents, root, h.frame.1]
  exact Fingerprint.getElem?_insert_empty_eq_some_iff

/-- and one state, the initial one. -/
theorem store_eq_some_iff (h : Started system goal settings e) {fp : Fingerprint} {s : State} :
    e.store[fp]? = some s ↔ fp = e.root ∧ s = e.system.initial := by
  rw [h.store, root, h.frame.1]
  exact Fingerprint.getElem?_insert_empty_eq_some_iff

end Started

/-- Ending with an empty queue leaves nothing pending that was not pending before. -/
theorem pending_ended {e : Explorer} (h : e.status = .running) : e.ended.pending = e.pending := by
  rw [pending_of_running h]
  unfold pending ended
  cases e.budgetHit <;> rfl

/-- What is new goes to the end. -/
theorem pending_record_fresh {e : Explorer} (h : e.status = .running) (current : Fingerprint)
    (depth : UInt32) (index : Nat) (t : State) :
    (e.record current depth index (.fresh t)).pending = e.pending ++ [t.fingerprint] := by
  have hr : (e.record current depth index (.fresh t)).status = .running := h
  rw [pending_of_running h, pending_of_running hr]
  exact Frontier.toList_push e.frontier t.fingerprint

/-- A goal that was taken from the queue stays pending. -/
theorem Visits.pending_foundAt {e : Explorer} {current : Fingerprint} {frontier : Frontier}
    {s : State} {link : Link} (h : e.Visits current frontier s link) :
    (e.foundAt frontier link.depth current).pending = e.pending := by
  rw [pending_of_running h.running, Frontier.toList_eq_cons_of_pop? h.popped]
  rfl

/-- What is about to be expanded is not. -/
theorem Visits.cons_pending_opened {e : Explorer} {current : Fingerprint} {frontier : Frontier}
    {s : State} {link : Link} (h : e.Visits current frontier s link) :
    current :: (e.opened frontier link.depth).pending = e.pending := by
  have hr : (e.opened frontier link.depth).status = .running := h.running
  rw [pending_of_running h.running, pending_of_running hr, Frontier.toList_eq_cons_of_pop? h.popped]
  rfl

/-- So it keeps its place in the order, behind all that has been expanded. -/
theorem Visits.order_opened {e : Explorer} {current : Fingerprint} {frontier : Frontier} {s : State}
    {link : Link} (h : e.Visits current frontier s link) (expanded : List Fingerprint) :
    (expanded ++ [current]) ++ (e.opened frontier link.depth).pending = expanded ++ e.pending := by
  rw [← h.cons_pending_opened, List.append_assoc]
  rfl

/-- How a fingerprint other than the root's hangs on the tree. -/
structure Branch (e : Explorer) (expanded : List Fingerprint) (fp : Fingerprint) (link : Link) :
    Prop where
  parent_mem : link.parent ∈ expanded
  parent_ne : link.parent ≠ fp
  edge : ∃ (index : Nat) (a : Action) (s t : State), link.action = some index ∧
    e.system.actions[index]? = some a ∧ e.store[link.parent]? = some s ∧
    e.store[fp]? = some t ∧ a.apply s = some t
  depth : ∃ above : Link, e.parents[link.parent]? = some above ∧ link.depth = above.depth + 1

/-- **The search tree.** -/
structure Tree (e : Explorer) (expanded : List Fingerprint) : Prop where
  nodup : (expanded ++ e.pending).Nodup
  mem_parents : ∀ fp, fp ∈ e.parents ↔ fp ∈ expanded ++ e.pending
  mem_store : ∀ fp, fp ∈ e.store ↔ fp ∈ expanded ++ e.pending
  discovered : e.stats.discovered = e.parents.size
  filed : ∀ (fp : Fingerprint) (s : State),
    e.store[fp]? = some s → s.fingerprint = fp ∧ s.width = e.system.width
  root_linked : e.parents[e.root]? = some (Link.root e.root)
  root_stored : e.store[e.root]? = some e.system.initial
  branch : ∀ (fp : Fingerprint) (link : Link),
    fp ≠ e.root → e.parents[fp]? = some link → Branch e expanded fp link
  lineage : ∀ fp ∈ e.parents, ∃ steps, Lineage e.parents e.store e.system.actions fp steps
  not_goal : ∀ fp ∈ expanded, ∀ s : State, e.store[fp]? = some s → e.goal.holds s = false

/-- A branch stays one, whatever is added. -/
theorem Branch.mono {e f : Explorer} {expanded : List Fingerprint} {fp : Fingerprint} {link : Link}
    (h : Branch e expanded fp link) (hx : Extends e f) : Branch f expanded fp link := by
  obtain ⟨index, a, s, t, hindex, ha, hs, ht, hat⟩ := h.edge
  obtain ⟨above, habove, hdepth⟩ := h.depth
  refine ⟨h.parent_mem, h.parent_ne, ⟨index, a, s, t, hindex, ?_, hx.store _ _ hs,
    hx.store _ _ ht, hat⟩, above, hx.parents _ _ habove, hdepth⟩
  rw [hx.system]
  exact ha

namespace Tree

variable {e f : Explorer} {expanded : List Fingerprint}

/-- Both maps have the same keys. -/
theorem mem_parents_iff_mem_store (h : Tree e expanded) (fp : Fingerprint) :
    fp ∈ e.parents ↔ fp ∈ e.store :=
  (h.mem_parents fp).trans (h.mem_store fp).symm

/-- What has been expanded is recorded. -/
theorem mem_parents_of_expanded (h : Tree e expanded) {fp : Fingerprint} (hm : fp ∈ expanded) :
    fp ∈ e.parents :=
  (h.mem_parents fp).mpr (List.mem_append_left _ hm)

/-- What is recorded is what has been expanded and what is pending, and each counts once. -/
theorem discovered_eq_length (h : Tree e expanded) :
    e.stats.discovered = expanded.length + e.pending.length := by
  rw [h.discovered, Fingerprint.size_eq_length h.nodup h.mem_parents, List.length_append]

/-- Every stored state hangs by links that end at the root. -/
theorem lineage_of_stored (h : Tree e expanded) {fp : Fingerprint} {s : State}
    (hs : e.store[fp]? = some s) :
    ∃ steps, Lineage e.parents e.store e.system.actions fp steps :=
  h.lineage fp ((h.mem_parents_iff_mem_store fp).mpr (Fingerprint.mem_of_getElem? hs))

/-- The trace that is given for a fingerprint is its lineage. -/
theorem lineage_of_witness (h : Tree e expanded) {fp : Fingerprint} {w : Witness}
    (hw : e.witness fp = .ok w) : Lineage e.parents e.store e.system.actions fp w.steps := by
  by_cases hm : fp ∈ e.parents
  · obtain ⟨steps, hsteps⟩ := h.lineage fp hm
    obtain rfl := Except.ok.inj (hsteps.reconstruct_eq_ok.symm.trans hw)
    exact hsteps
  · exact absurd ((Witness.reconstruct_of_not_mem hm).symm.trans hw) (by simp)

/-- Only the root is its own parent. -/
theorem self_link (h : Tree e expanded) {fp : Fingerprint} {link : Link}
    (hlink : e.parents[fp]? = some link) : link.parent = fp ↔ fp = e.root := by
  constructor
  · intro hself
    by_cases hne : fp = e.root
    · exact hne
    · exact absurd hself (h.branch fp link hne hlink).parent_ne
  · rintro rfl
    rw [h.root_linked] at hlink
    rw [← Option.some.inj hlink]
    rfl

/-- Seen from a visit: a key that is its own parent is the root, -/
theorem eq_root_of_visit (h : Tree e expanded) {fp : Fingerprint} {link : Link} {step : Step}
    (hv : Witness.visit e.parents e.store e.system.actions fp = .ok (link, step))
    (hp : link.parent = fp) : fp = e.root :=
  (h.self_link (Witness.link_of_visit hv)).mp hp

/-- and any other key hangs by a branch. -/
theorem branch_of_visit (h : Tree e expanded) {fp : Fingerprint} {link : Link} {step : Step}
    (hv : Witness.visit e.parents e.store e.system.actions fp = .ok (link, step))
    (hp : link.parent ≠ fp) : Branch e expanded fp link := by
  have hlink := Witness.link_of_visit hv
  exact h.branch fp link (fun hroot => hp ((h.self_link hlink).mpr hroot)) hlink

/-- The tree does not depend on the settings, the level or most of the counters. -/
theorem congr (h : Tree e expanded) (hsystem : f.system = e.system) (hgoal : f.goal = e.goal)
    (hparents : f.parents = e.parents) (hstore : f.store = e.store)
    (hpending : f.pending = e.pending) (hdiscovered : f.stats.discovered = e.stats.discovered) :
    Tree f expanded := by
  have hroot : f.root = e.root := by rw [root, root, hsystem]
  constructor
  case nodup => rw [hpending]; exact h.nodup
  case mem_parents => rw [hparents, hpending]; exact h.mem_parents
  case mem_store => rw [hstore, hpending]; exact h.mem_store
  case discovered => rw [hdiscovered, hparents]; exact h.discovered
  case filed => rw [hstore, hsystem]; exact h.filed
  case root_linked => rw [hparents, hroot]; exact h.root_linked
  case root_stored => rw [hstore, hroot, hsystem]; exact h.root_stored
  case branch =>
    intro fp link hne hl
    rw [hroot] at hne
    rw [hparents] at hl
    obtain ⟨hmem, hself, hedge, hdepth⟩ := h.branch fp link hne hl
    rw [← hsystem, ← hstore] at hedge
    rw [← hparents] at hdepth
    exact ⟨hmem, hself, hedge, hdepth⟩
  case lineage => rw [hparents, hstore, hsystem]; exact h.lineage
  case not_goal => rw [hstore, hgoal]; exact h.not_goal

section

variable {current : Fingerprint} {index : Nat} {a : Action} {s t : State} {above : Link}

/-- A new fingerprint comes last in the order. -/
theorem order_record_fresh (hr : e.status = .running) (current : Fingerprint) (depth : UInt32)
    (index : Nat) (t : State) :
    expanded ++ (e.record current depth index (.fresh t)).pending =
      expanded ++ e.pending ++ [t.fingerprint] := by
  rw [pending_record_fresh hr, List.append_assoc]

/-- What stands in the order is a key, and the new fingerprint is none. -/
theorem nodup_record_fresh (h : Tree e expanded) (hr : e.status = .running)
    (hnew : t.fingerprint ∉ e.parents) (current : Fingerprint) (depth : UInt32) (index : Nat) :
    (expanded ++ (e.record current depth index (.fresh t)).pending).Nodup := by
  rw [order_record_fresh hr, List.nodup_append]
  refine ⟨h.nodup, by simp, ?_⟩
  rintro x hx y hy rfl
  rw [List.mem_singleton.mp hy] at hx
  exact hnew ((h.mem_parents _).mpr hx)

/-- A table that has the order for its keys still has it when the new fingerprint is in both. -/
theorem mem_insert_iff_order {β : Type} {table : Std.TreeMap Fingerprint β}
    (htable : ∀ fp, fp ∈ table ↔ fp ∈ expanded ++ e.pending) (hr : e.status = .running)
    (current : Fingerprint) (depth : UInt32) (index : Nat) (t : State) (value : β)
    (fp : Fingerprint) :
    fp ∈ table.insert t.fingerprint value ↔
      fp ∈ expanded ++ (e.record current depth index (.fresh t)).pending := by
  rw [order_record_fresh hr, List.mem_append, ← htable, List.mem_singleton, or_comm]
  exact Fingerprint.mem_insert_iff

/-- One more is recorded. -/
theorem discovered_record_fresh (h : Tree e expanded) (hnew : t.fingerprint ∉ e.parents)
    (current : Fingerprint) (depth : UInt32) (index : Nat) :
    (e.record current depth index (.fresh t)).stats.discovered =
      (e.record current depth index (.fresh t)).parents.size := by
  have hcontains : ¬ e.parents.contains t.fingerprint = true := fun hm =>
    hnew (Std.TreeMap.contains_iff_mem.mp hm)
  show e.stats.discovered + 1 = (e.parents.insert _ _).size
  rw [Std.TreeMap.size_insert, if_neg hcontains, h.discovered]

/-- A state of the right width is filed under its own fingerprint. -/
theorem filed_record_fresh (h : Tree e expanded) (hwidth : t.width = e.system.width)
    {depth : UInt32} {fp : Fingerprint} {u : State}
    (hu : (e.record current depth index (.fresh t)).store[fp]? = some u) :
    u.fingerprint = fp ∧ u.width = e.system.width := by
  rw [store_record_fresh] at hu
  split at hu
  · next hfp =>
    obtain rfl := Option.some.inj hu
    exact ⟨hfp, hwidth⟩
  · exact h.filed fp u hu

/-- The new edge is that of the action; the others are as they were. -/
theorem branch_record_fresh (h : Tree e expanded) (hc : current ∈ expanded)
    (hs : e.store[current]? = some s) (hl : e.parents[current]? = some above)
    (ha : e.system.actions[index]? = some a) (hat : a.apply s = some t)
    (hnew : t.fingerprint ∉ e.parents)
    (hx : Extends e (e.record current above.depth index (.fresh t))) {fp : Fingerprint} {link : Link}
    (hne : fp ≠ e.root)
    (hlink : (e.record current above.depth index (.fresh t)).parents[fp]? = some link) :
    Branch (e.record current above.depth index (.fresh t)) expanded fp link := by
  rw [parents_record_fresh] at hlink
  split at hlink
  · next hfp =>
    obtain rfl := hfp
    obtain rfl := Option.some.inj hlink
    refine
      { parent_mem := hc
        parent_ne := ?_
        edge := ⟨index, a, s, t, rfl, ha, hx.store _ _ hs, ?_, hat⟩
        depth := ⟨above, hx.parents _ _ hl, rfl⟩ }
    · rintro rfl
      exact hnew (h.mem_parents_of_expanded hc)
    · rw [store_record_fresh, if_pos rfl]
  · exact (h.branch fp link hne hlink).mono hx

/-- The lineage of what is new is that of the state expanded, and one step more. -/
theorem lineage_record_fresh (h : Tree e expanded) (hc : current ∈ expanded)
    (ha : e.system.actions[index]? = some a) (hnew : t.fingerprint ∉ e.parents)
    (hx : Extends e (e.record current above.depth index (.fresh t))) {fp : Fingerprint}
    (hm : fp ∈ (e.record current above.depth index (.fresh t)).parents) :
    ∃ steps, Lineage (e.record current above.depth index (.fresh t)).parents
      (e.record current above.depth index (.fresh t)).store e.system.actions fp steps := by
  rcases Fingerprint.mem_insert_iff.mp hm with rfl | hm
  · obtain ⟨steps, hsteps⟩ := h.lineage current (h.mem_parents_of_expanded hc)
    have hcne : current ≠ t.fingerprint := by
      rintro rfl
      exact hnew (h.mem_parents_of_expanded hc)
    have hname : Witness.actionName e.system.actions t.fingerprint
        { parent := current, action := some index, depth := above.depth + 1 } =
          .ok (some a.name) := by
      simp only [Witness.actionName, ha]
    have hv := Witness.visit_eq_ok_iff.mpr ⟨t, some a.name,
      (parents_record_fresh e current above.depth index t _).trans (if_pos rfl),
      (store_record_fresh e current above.depth index t _).trans (if_pos rfl), hname, rfl⟩
    exact ⟨_, .child hv hcne (hsteps.mono hx.parents hx.store)⟩
  · obtain ⟨steps, hsteps⟩ := h.lineage fp hm
    exact ⟨steps, hsteps.mono hx.parents hx.store⟩

/-- **A new edge.**  A successor whose fingerprint is new hangs on the tree by the action that led to
    it; every edge that was there stays. -/
theorem record_fresh (h : Tree e expanded) (hr : e.status = .running) (hc : current ∈ expanded)
    (hs : e.store[current]? = some s) (hl : e.parents[current]? = some above)
    (ha : e.system.actions[index]? = some a) (ht : Tried e a s (.fresh t)) :
    Tree (e.record current above.depth index (.fresh t)) expanded := by
  have hx := extends_record (fun fp => (h.mem_parents_iff_mem_store fp).mpr) ht current above.depth
    index
  cases ht with
  | fresh hat hnew hroom =>
    have hwidth : t.width = e.system.width := (Action.width_apply hat).trans (h.filed current s hs).2
    constructor
    case nodup => exact h.nodup_record_fresh hr hnew current above.depth index
    case mem_parents => exact mem_insert_iff_order h.mem_parents hr current above.depth index t _
    case mem_store => exact mem_insert_iff_order h.mem_store hr current above.depth index t _
    case discovered => exact h.discovered_record_fresh hnew current above.depth index
    case filed => exact fun fp u hu => h.filed_record_fresh hwidth hu
    case root_linked => exact hx.parents _ _ h.root_linked
    case root_stored => exact hx.store _ _ h.root_stored
    case branch => exact fun fp link => h.branch_record_fresh hc hs hl ha hat hnew hx
    case lineage => exact fun fp hm => h.lineage_record_fresh hc ha hnew hx hm
    case not_goal =>
      -- no state that has been expanded is filed anew
      intro fp hm u hu
      have hne : t.fingerprint ≠ fp := by
        rintro rfl
        exact hnew (h.mem_parents_of_expanded hm)
      rw [store_record_fresh, if_neg hne] at hu
      exact h.not_goal fp hm u hu

end

end Tree

/-! ## One expansion

    In the midst of an expansion more is known than between steps: which state is expanded, and how many
    actions have been tried on it.  So the induction over its attempts carries a stronger statement,
    `Expanding`. -/

/-- Where an element can stand in a list that has just grown: last, or where it stood before. -/
theorem split_of_concat {fps front back : List Fingerprint} {last fp : Fingerprint}
    (h : fps ++ [last] = front ++ fp :: back) :
    (fps = front ∧ last = fp) ∨ ∃ rest, fps = front ++ fp :: rest := by
  rcases List.eq_nil_or_concat back with rfl | ⟨rest, x, rfl⟩
  · obtain ⟨hfront, hlast⟩ := List.append_inj' h rfl
    exact Or.inl ⟨hfront, (List.cons.inj hlast).1⟩
  · rw [List.concat_eq_append, ← List.cons_append, ← List.append_assoc] at h
    exact Or.inr ⟨rest, (List.append_inj' h rfl).1⟩

/-- Where an element stands in a list, it stands when more is put behind the list. -/
theorem split_append {fps front back : List Fingerprint} {fp : Fingerprint}
    (h : fps = front ++ fp :: back) (more : List Fingerprint) :
    fps ++ more = front ++ fp :: (back ++ more) := by
  rw [h, List.append_assoc]
  rfl

/-- The fingerprint was recorded when `before` had been expanded and the first `tried` actions had been
    tried on the state filed under `current`. -/
def Early (e : Explorer) (before : List Fingerprint) (current : Fingerprint) (tried : Nat)
    (fp : Fingerprint) : Prop :=
  fp = e.root ∨ ∃ link : Link, e.parents[fp]? = some link ∧
    (link.parent ∈ before ∨ link.parent = current ∧ ∃ index < tried, link.action = some index)

/-- What was recorded early stays so, also when more actions have been tried. -/
theorem Early.mono {e f : Explorer} {before : List Fingerprint} {current fp : Fingerprint}
    {tried tried' : Nat} (h : Early e before current tried fp) (hx : Extends e f)
    (hle : tried ≤ tried') : Early f before current tried' fp := by
  rcases h with hroot | ⟨link, hl, hparent⟩
  · exact Or.inl (hroot.trans hx.root.symm)
  · refine Or.inr ⟨link, hx.parents _ _ hl, ?_⟩
    rcases hparent with hbefore | ⟨hcurrent, index, hindex, haction⟩
    · exact Or.inl hbefore
    · exact Or.inr ⟨hcurrent, index, by omega, haction⟩

/-- In the midst of expanding `current`: `before` was expanded already, and the first `tried` actions
    have been tried on `s`. -/
structure Expanding (e : Explorer) (before : List Fingerprint) (current : Fingerprint) (s : State)
    (link : Link) (tried : Nat) : Prop where
  tree : Tree e (before ++ [current])
  running : e.status = .running
  stored : e.store[current]? = some s
  linked : e.parents[current]? = some link
  early : ∀ fp ∈ e.parents, Early e before current tried fp

namespace Expanding

variable {e : Explorer} {before : List Fingerprint} {current : Fingerprint} {s : State}
  {link : Link} {tried : Nat}

/-- In the midst of an expansion the record of an attempt loses nothing. -/
theorem extends_record (h : Expanding e before current s link tried) {a : Action}
    {attempt : Attempt} (ht : Tried e a s attempt) :
    Extends e (e.record current link.depth tried attempt) :=
  Explorer.extends_record (fun fp => (h.tree.mem_parents_iff_mem_store fp).mpr) ht ..

/-- The record of one attempt. -/
theorem record (h : Expanding e before current s link tried) {a : Action} {attempt : Attempt}
    (ha : e.system.actions[tried]? = some a) (ht : Tried e a s attempt) :
    Expanding (e.record current link.depth tried attempt) before current s link (tried + 1) := by
  have hx := h.extends_record ht
  have hearly : ∀ fp ∈ e.parents,
      Early (e.record current link.depth tried attempt) before current (tried + 1) fp := by
    intro fp hm
    exact (h.early fp hm).mono hx (Nat.le_succ tried)
  cases ht with
  | refused hat =>
    exact ⟨h.tree.congr rfl rfl rfl rfl rfl rfl, h.running, h.stored, h.linked, hearly⟩
  | known hat hk =>
    exact ⟨h.tree.congr rfl rfl rfl rfl rfl rfl, h.running, h.stored, h.linked, hearly⟩
  | dropped hat hk hb hd =>
    exact ⟨h.tree.congr rfl rfl rfl rfl rfl rfl, h.running, h.stored, h.linked, hearly⟩
  | fresh hat hk hroom =>
    refine ⟨?_, h.running, hx.store _ _ h.stored, hx.parents _ _ h.linked, ?_⟩
    · exact h.tree.record_fresh h.running (by simp) h.stored h.linked ha (.fresh hat hk hroom)
    · intro fp hm
      rcases Fingerprint.mem_insert_iff.mp hm with rfl | hm
      · refine Or.inr ⟨_, (parents_record_fresh ..).trans (if_pos rfl), Or.inr ⟨rfl, tried, ?_, rfl⟩⟩
        omega
      · exact hearly fp hm

/-- **Induction over an expansion, in its context.** -/
theorem induction {P : List Attempt → Explorer → Prop}
    (h : Expanding e before current s link 0) (hstart : P [] e)
    (hrecord : ∀ tries a f, Expanding f before current s link tries.length →
      f.system.actions[tries.length]? = some a → P tries f →
      P (tries ++ [f.attempt a s]) (f.record current link.depth tries.length (f.attempt a s))) :
    Expanding (e.expand current s link.depth 0 e.system.actions).1 before current s link
        (e.attempts current s link.depth 0 e.system.actions).length ∧
      P (e.attempts current s link.depth 0 e.system.actions)
        (e.expand current s link.depth 0 e.system.actions).1 := by
  let context : List Attempt → Explorer → Prop := fun tries f =>
    f.system = e.system ∧ Expanding f before current s link tries.length ∧ P tries f
  have hcontext : ∀ tries a f, e.system.actions[tries.length]? = some a → context tries f →
      context (tries ++ [f.attempt a s])
        (f.record current link.depth tries.length (f.attempt a s)) := by
    -- the positions are those of the actions of `e`, which `f` still searches
    rintro tries a f ha ⟨hsystem, hf, hP⟩
    rw [← hsystem] at ha
    have ht := tried_attempt f a s
    refine ⟨(hf.extends_record ht).system.trans hsystem, ?_, hrecord tries a f hf ha hP⟩
    rw [List.length_append]
    exact hf.record ha ht
  exact (expand_induction hcontext ⟨rfl, h, hstart⟩).2

end Expanding

namespace Tree

variable {e : Explorer} {expanded : List Fingerprint}

/-- A state that was taken from the queue and is no goal can be expanded. -/
theorem opened (h : Tree e expanded) {current : Fingerprint} {frontier : Frontier} {s : State}
    {link : Link} (hv : e.Visits current frontier s link) (hg : e.goal.holds s = false) :
    Expanding (e.opened frontier link.depth) expanded current s link 0 := by
  have horder := hv.order_opened expanded
  have hearly : ∀ fp ∈ e.parents, Early e expanded current 0 fp := by
    intro fp hm
    obtain ⟨l, hl⟩ := Fingerprint.mem_iff_exists.mp hm
    by_cases hroot : fp = e.root
    · exact Or.inl hroot
    · exact Or.inr ⟨l, hl, Or.inl (h.branch fp l hroot hl).parent_mem⟩
  refine ⟨?_, hv.running, hv.stored, hv.linked, hearly⟩
  constructor
  case nodup => rw [horder]; exact h.nodup
  case mem_parents => rw [horder]; exact h.mem_parents
  case mem_store => rw [horder]; exact h.mem_store
  case discovered => exact h.discovered
  case filed => exact h.filed
  case root_linked => exact h.root_linked
  case root_stored => exact h.root_stored
  case branch =>
    intro fp l hne hl
    obtain ⟨hmem, hself, hedge, hdepth⟩ := h.branch fp l hne hl
    exact ⟨List.mem_append_left _ hmem, hself, hedge, hdepth⟩
  case lineage => exact h.lineage
  case not_goal =>
    intro fp hm t ht
    rcases List.mem_append.mp hm with hm | hm
    · exact h.not_goal fp hm t ht
    · rw [List.mem_singleton.mp hm] at ht
      obtain rfl := Option.some.inj (hv.stored.symm.trans ht)
      exact hg

/-- The context of the expansion that a step makes, when it is over. -/
theorem expand (h : Tree e expanded) {current : Fingerprint} {frontier : Frontier} {s : State}
    {link : Link} (hv : e.Visits current frontier s link) (hg : e.goal.holds s = false) :
    Expanding ((e.opened frontier link.depth).expand current s link.depth 0 e.system.actions).1
      expanded current s link
      ((e.opened frontier link.depth).attempts current s link.depth 0 e.system.actions).length :=
  ((h.opened hv hg).induction (P := fun _ _ => True) trivial fun _ _ _ _ _ _ => trivial).1

/-- **One step keeps the tree.** -/
theorem stepped {next : Explorer} {events : List Event} {leg : Trail} (h : Tree e expanded)
    (hs : Stepped e events leg next) : Tree next (expanded ++ leg.expanded) := by
  cases hs with
  | rested ht => rw [Trail.empty, List.append_nil]; exact h
  | ended hr hq =>
    rw [Trail.empty, List.append_nil]
    exact h.congr rfl rfl rfl rfl (pending_ended hr) rfl
  | found hv hg =>
    rw [Trail.empty, List.append_nil]
    exact h.congr rfl rfl rfl rfl hv.pending_foundAt rfl
  | expanded hv hg => exact (h.expand hv hg).tree

/-- **One step loses nothing.** -/
theorem extends_stepped {next : Explorer} {events : List Event} {leg : Trail}
    (h : Tree e expanded) (hs : Stepped e events leg next) : Extends e next := by
  cases hs with
  | rested ht => exact Extends.refl e
  | ended hr hq => exact { Extends.refl e with }
  | found hv hg => exact { Extends.refl e with }
  | @expanded current frontier s link hv hg =>
    have hopened : Extends e (e.opened frontier link.depth) := { Extends.refl e with }
    refine hopened.trans ((h.opened hv hg).induction
      (P := fun _ f => Extends (e.opened frontier link.depth) f) (Extends.refl _) ?_).2
    intro tries a f hf ha hx
    exact hx.trans (hf.extends_record (tried_attempt f a s))

/-- The tree that a search starts from is its root. -/
theorem of_started {system : TransitionSystem} {goal : Goal} {settings : Settings}
    (h : Started system goal settings e) : Tree e [] := by
  have hlinked : e.parents[e.root]? = some (Link.root e.root) :=
    h.parents_eq_some_iff.mpr ⟨rfl, rfl⟩
  have hstored : e.store[e.root]? = some e.system.initial := h.store_eq_some_iff.mpr ⟨rfl, rfl⟩
  constructor
  case nodup => rw [h.pending_eq]; simp
  case mem_parents =>
    intro fp
    rw [h.pending_eq, Fingerprint.mem_iff_exists]
    simp [h.parents_eq_some_iff]
  case mem_store =>
    intro fp
    rw [h.pending_eq, Fingerprint.mem_iff_exists]
    simp [h.store_eq_some_iff]
  case discovered =>
    rw [h.discovered, h.parents, Std.TreeMap.size_insert]
    simp
  case filed =>
    intro fp s hs
    obtain ⟨rfl, rfl⟩ := h.store_eq_some_iff.mp hs
    exact ⟨rfl, rfl⟩
  case root_linked => exact hlinked
  case root_stored => exact hstored
  case branch =>
    intro fp link hne hl
    exact absurd (h.parents_eq_some_iff.mp hl).1 hne
  case lineage =>
    intro fp hm
    obtain ⟨link, hl⟩ := Fingerprint.mem_iff_exists.mp hm
    obtain ⟨rfl, rfl⟩ := h.parents_eq_some_iff.mp hl
    -- a link to itself is a lineage of one step
    exact ⟨_, .root (Witness.visit_eq_ok_iff.mpr ⟨_, none, hlinked, hstored, rfl, rfl⟩) rfl⟩
  case not_goal =>
    intro fp hm
    exact absurd hm (by simp)

end Tree

/-! ## Every search

    A step is one of four, and each of them keeps the tree. -/

variable {system : TransitionSystem} {goal : Goal} {settings : Settings} {trail : Trail}
  {e : Explorer}

/-- **Every search keeps the tree.** -/
theorem Trailed.tree (h : Trailed system goal settings trail e) : Tree e trail.expanded := by
  induction h with
  | start h => exact Tree.of_started (started_of_start h)
  | step he h ih => exact ih.stepped (stepped_of_step h)

/-- A search stays with the system, the goal and the settings it was started with. -/
theorem Trailed.frame (h : Trailed system goal settings trail e) :
    e.system = system ∧ e.goal = goal ∧ e.settings = settings := by
  induction h with
  | start h => exact (started_of_start h).frame
  | step he h ih =>
    have hx := he.tree.extends_stepped (stepped_of_step h)
    exact ⟨hx.system.trans ih.1, hx.goal.trans ih.2.1, hx.settings.trans ih.2.2⟩

/-- A search that has found a goal has it in its store, and its trace is the goal's lineage. -/
theorem Trailed.found (h : Trailed system goal settings trail e) {fp : Fingerprint}
    (hstatus : e.status = .found fp) :
    ∃ (s : State) (steps : List Step), e.store[fp]? = some s ∧ e.goal.holds s = true ∧
      Lineage e.parents e.store e.system.actions fp steps ∧ e.witness fp = .ok { steps } := by
  have hv := h.verdict
  rw [Verdict, hstatus] at hv
  obtain ⟨s, hs, hg⟩ := hv
  obtain ⟨steps, hsteps⟩ := h.tree.lineage_of_stored hs
  exact ⟨s, steps, hs, hg, hsteps, hsteps.reconstruct_eq_ok⟩

/-- The trace that a run ends with is the lineage of the goal it has found. -/
theorem Arises.lineage_of_run {wanted : Event → Bool} {finished : Finished} {w : Witness}
    (h : Arises system goal settings e) (hrun : e.run wanted = .ok finished)
    (hw : finished.outcome = .found w) :
    ∃ (trail : Trail) (fp : Fingerprint) (s : State),
      Trailed system goal settings trail finished.explorer ∧
      finished.explorer.status = .found fp ∧ finished.explorer.store[fp]? = some s ∧
      finished.explorer.goal.holds s = true ∧
      Lineage finished.explorer.parents finished.explorer.store finished.explorer.system.actions fp
        w.steps := by
  obtain ⟨fp, hstatus, hwitness⟩ := found_of_run hrun hw
  obtain ⟨trail, htrail⟩ := (h.run hrun).trailed
  obtain ⟨s, steps, hs, hg, hl, hfound⟩ := htrail.found hstatus
  obtain rfl := Except.ok.inj (hfound.symm.trans hwitness)
  exact ⟨trail, fp, s, htrail, hstatus, hs, hg, hl⟩

end Explorer

end GuardedReach
