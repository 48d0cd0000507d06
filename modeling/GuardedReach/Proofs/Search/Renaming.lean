/-
  Renamed searches — a search does not depend on which register is which.

  Renaming changes every fingerprint, and with them the keys of both maps and their order, so nothing
  can be read off two searches side by side.  Each is compared with its exact search instead, and the
  exact searches tell states apart by the states themselves.

  1. **Systems and goals** — `Renaming.system` and `Renaming.goal`; a goal holds of a state renamed
     exactly if it held of the state (`holds_goal`).

  2. **Exact searches** — `Renamed r x y`: the exact search `y` is `x` with every state renamed.  One
     attempt (`Renamed.tryAction`), one expansion and one step (`Renamed.step`) keep it so: a new state
     is new after renaming because renaming is injective.

  3. **Traces** — they take the same actions through the states renamed (`Renamed.trace`).

  4. **Statement** — `steps_renamed`.
-/
import GuardedReach.Proofs.Machine.Renaming
import GuardedReach.Proofs.Puzzle.Checks
import GuardedReach.Proofs.Search.Refinement

namespace GuardedReach

namespace Renaming

variable {width : Nat} (r : Renaming width) {s : State}

/-! ## Systems and goals

    Everything a search computes with is renamed: the initial state, the actions and the guards of the
    goal.  The names of the registers stay where they are, for no search reads them. -/

/-- The system of the same register names with its initial state and its actions renamed. -/
def system (system : TransitionSystem) (h : system.width = width) : TransitionSystem where
  registerNames := system.registerNames
  initial := r.state system.initial
  actions := system.actions.map r.action
  names_length := system.names_length.trans (r.width_state system.initial).symm
  fits := by
    intro a ha
    obtain ⟨before, hbefore, rfl⟩ := List.mem_map.mp ha
    rw [width_state]
    exact r.check_action (Nat.le_of_eq h.symm) (system.fits before hbefore)
  distinct := by
    have hnames : (system.actions.map r.action).map Action.name = system.actions.map Action.name :=
      List.map_map
    rw [hnames]
    exact system.distinct

/-- The goal that holds after renaming where `goal` held before. -/
def goal : Goal → Goal
  | .predicate holds => .predicate fun s => holds (r.symm.state s)
  | .allOf guards => .allOf (guards.map r.instruction)

/-- Renamed guards accept the renamed state exactly if they accepted the state. -/
theorem accepts_map (hw : s.width = width) (guards : List Instruction) :
    Goal.accepts (guards.map r.instruction) (r.state s) = Goal.accepts guards s := by
  induction guards generalizing s with
  | nil => rfl
  | cons guard rest ih =>
    rw [List.map_cons, Goal.accepts, Goal.accepts, r.execute_instruction hw]
    cases hnext : guard.execute s with
    | none => rfl
    | some next => exact ih ((Instruction.width_execute hnext).trans hw)

/-- So does a goal, a predicate being asked of the state renamed back. -/
theorem holds_goal (hw : s.width = width) (goal : Goal) :
    (r.goal goal).holds (r.state s) = goal.holds s := by
  cases goal with
  | predicate holds => exact congrArg holds (r.symm_state s)
  | allOf guards => exact r.accepts_map hw guards

/-- What was a goal for the system is one for the system renamed. -/
theorem check_goal {goal : Goal} (h : goal.check width = .ok ()) :
    (r.goal goal).check width = .ok () := by
  cases goal with
  | predicate holds => rfl
  | allOf guards =>
    obtain ⟨⟨⟩, hguards, hbounds⟩ := Puzzle.exists_ok_of_bind h
    rw [Goal.checkGuards_eq_ok_iff] at hguards
    rw [Goal.checkBounds_eq_ok_iff r.width_le] at hbounds
    have hguards' : Goal.checkGuards (guards.map r.instruction) = .ok () := by
      rw [Goal.checkGuards_eq_ok_iff, List.forall_mem_map]
      exact hguards
    have hbounds' : Goal.checkBounds width (guards.map r.instruction) = .ok () := by
      rw [Goal.checkBounds_eq_ok_iff r.width_le, List.forall_mem_map]
      intro ins hins
      rw [← Instruction.inBounds_iff_below r.width_le, r.inBounds_instruction (Nat.le_refl width),
        Instruction.inBounds_iff_below r.width_le]
      exact hbounds ins hins
    show (do Goal.checkGuards _; Goal.checkBounds _ _) = _
    rw [hguards']
    exact hbounds'

/-! ## Traces

    What a search answers, a standing or a trace, is renamed state by state. -/

/-- How a state is first reached when it was reached like `origin`. -/
def origin (origin : Origin) : Origin :=
  { origin with parent := r.state origin.parent }

/-- Where a search stands when its registers are renamed. -/
def standing : Standing → Standing
  | .running => .running
  | .found goal => .found (r.state goal)
  | .exhausted => .exhausted
  | .truncated => .truncated

/-- A search that is running is running under other names. -/
theorem standing_eq_running_iff {standing : Standing} :
    r.standing standing = .running ↔ standing = .running := by
  cases standing <;> simp [Renaming.standing]

/-- The step of a trace by the same action, with the states renamed. -/
def step (step : Step) : Step :=
  { action := step.action
    state := r.state step.state
    fingerprint := (r.state step.state).fingerprint }

/-- A trace with its states renamed. -/
def witness (w : Witness) : Witness :=
  { steps := w.steps.map r.step }

/-- Its actions are the same, -/
theorem actionNames_witness (w : Witness) : (r.witness w).actionNames = w.actionNames :=
  List.filterMap_map

/-- and its states are those of the trace, renamed. -/
theorem states_witness (w : Witness) : (r.witness w).states = w.states.map r.state := by
  unfold Witness.states witness
  rw [List.map_map, List.map_map]
  rfl

end Renaming

/-! ## Exact searches

    Both searches have tried the same actions on the same states but for the names, so whatever one has
    found the other has found renamed, in the same order and at the same depth. -/

/-- What is looked up under an injective renaming of the keys is what was there before. -/
theorem lookup_map {α β : Type} [DecidableEq α] {f : α → α} (hf : Function.Injective f) (g : β → β)
    (entries : List (α × β)) (a : α) :
    (entries.map fun entry => (f entry.1, g entry.2)).lookup (f a) = (entries.lookup a).map g := by
  induction entries with
  | nil => rfl
  | cons entry rest ih =>
    rw [List.map_cons, List.lookup_cons, List.lookup_cons]
    by_cases h : a = entry.1
    · rw [beq_iff_eq.mpr h, beq_iff_eq.mpr (congrArg f h)]
      rfl
    · rw [beq_false_of_ne h, beq_false_of_ne (fun heq => h (hf heq))]
      exact ih

/-- The exact search `y` is `x` with every state renamed. -/
structure Renamed {width : Nat} (r : Renaming width) (x y : ExactSearch) : Prop where
  settings : y.settings = x.settings
  actions : y.system.actions = x.system.actions.map r.action
  goal : y.goal = r.goal x.goal
  queue : y.queue = x.queue.map r.state
  origins : y.origins = x.origins.map fun entry => (r.state entry.1, r.origin entry.2)
  standing : y.standing = r.standing x.standing
  stats : y.stats = x.stats
  budgetHit : y.budgetHit = x.budgetHit
  /-- What is queued has the width that the renaming is for. -/
  widths : ∀ s ∈ x.queue, s.width = width

namespace Renamed

variable {width : Nat} {r : Renaming width} {x y : ExactSearch}

/-- What led to a state has led to the state renamed. -/
theorem origin?_state (h : Renamed r x y) (s : State) :
    y.origin? (r.state s) = (x.origin? s).map r.origin := by
  unfold ExactSearch.origin?
  rw [h.origins]
  exact lookup_map r.state_injective r.origin x.origins s

/-- A state is known to one exactly if it is known, renamed, to the other. -/
theorem discovered_state_iff (h : Renamed r x y) (s : State) :
    y.Discovered (r.state s) ↔ x.Discovered s := by
  unfold ExactSearch.Discovered
  rw [h.origin?_state, Option.isSome_map]

/-- It lies as deep in both. -/
theorem depth_state (h : Renamed r x y) (s : State) : y.depth (r.state s) = x.depth s := by
  unfold ExactSearch.depth
  rw [h.origin?_state, Option.map_map]
  rfl

/-- A state that is added to one can be added, renamed, to the other. -/
theorem add (h : Renamed r x y) {t : State} (hw : t.width = width) (origin : Origin) :
    Renamed r (x.add t origin) (y.add (r.state t) (r.origin origin)) := by
  constructor
  case settings => exact h.settings
  case actions => exact h.actions
  case goal => exact h.goal
  case standing => exact h.standing
  case budgetHit => exact h.budgetHit
  case queue =>
    show y.queue ++ [r.state t] = (x.queue ++ [t]).map r.state
    rw [h.queue, List.map_append]
    rfl
  case origins => exact congrArg _ h.origins
  case stats =>
    unfold ExactSearch.add
    simp only [h.stats, h.queue, List.length_map]
    rfl
  case widths =>
    intro s hs
    rcases List.mem_append.mp hs with hs | hs
    · exact h.widths s hs
    · rw [List.mem_singleton.mp hs]
      exact hw

/-- **One attempt.** -/
theorem tryAction (h : Renamed r x y) {current : State} (hw : current.width = width)
    (depth : UInt32) (index : Nat) (a : Action) :
    Renamed r (x.tryAction current depth index a)
      (y.tryAction (r.state current) depth index (r.action a)) := by
  unfold ExactSearch.tryAction
  rw [r.apply_action hw]
  cases ha : a.apply current with
  | none =>
    simp only [Option.map_none]
    exact { h with stats := by simp only [h.stats] }
  | some t =>
    have hdiscovered := h.discovered_state_iff t
    have hfull : y.isFull = x.isFull := by
      unfold ExactSearch.isFull
      rw [h.settings, h.stats]
    simp only [Option.map_some]
    by_cases hd : x.Discovered t
    · rw [if_pos hd, if_pos (hdiscovered.mpr hd)]
      exact { h with stats := by simp only [h.stats] }
    · rw [if_neg hd, if_neg (mt hdiscovered.mp hd), hfull]
      cases x.isFull with
      | true =>
        simp only [if_true]
        exact { h with stats := by simp only [h.stats], budgetHit := rfl }
      | false =>
        have hcounted : Renamed r
            { x with
              stats := { x.stats with tried := x.stats.tried + 1, applied := x.stats.applied + 1 } }
            { y with
              stats := { y.stats with tried := y.stats.tried + 1, applied := y.stats.applied + 1 } } :=
          { h with stats := by simp only [h.stats] }
        exact hcounted.add ((Action.width_apply ha).trans hw) _

/-- **One expansion.**  The actions are tried at the same positions. -/
theorem expand (h : Renamed r x y) {current : State} (hw : current.width = width)
    (depth : UInt32) : Renamed r (x.expand current depth) (y.expand (r.state current) depth) := by
  unfold ExactSearch.expand
  rw [h.actions, List.zipIdx_map, List.foldl_map]
  refine List.foldl_rel (r := Renamed r) h ?_
  intro entry _ x y hxy
  exact hxy.tryAction hw depth entry.2 entry.1

/-- **One step.** -/
theorem step (h : Renamed r x y) : Renamed r x.step y.step := by
  have hstanding : y.standing = .running ↔ x.standing = .running := by
    rw [h.standing]
    exact r.standing_eq_running_iff
  by_cases hx : x.standing = .running
  · have hy := hstanding.mpr hx
    cases hq : x.queue with
    | nil =>
      have hyq : y.queue = [] := by
        rw [h.queue, hq]
        rfl
      rw [ExactSearch.step_of_empty hx hq, ExactSearch.step_of_empty hy hyq]
      refine { h with standing := ?_ }
      show (if y.budgetHit then Standing.truncated else .exhausted) = _
      rw [h.budgetHit]
      cases x.budgetHit <;> rfl
    | cons s queue =>
      have hyq : y.queue = r.state s :: queue.map r.state := by
        rw [h.queue, hq]
        rfl
      have hw : s.width = width := h.widths s (by rw [hq]; exact List.mem_cons_self ..)
      have hrest : ∀ t ∈ queue, t.width = width := fun t ht =>
        h.widths t (by rw [hq]; exact List.mem_cons_of_mem _ ht)
      -- the goal was renamed with the state, so it is asked the same
      have hgoal : y.goal.holds (r.state s) = x.goal.holds s := by
        rw [h.goal, r.holds_goal hw]
      cases hg : x.goal.holds s with
      | true =>
        rw [ExactSearch.step_of_goal hx hq hg, ExactSearch.step_of_goal hy hyq (hgoal.trans hg)]
        exact { h with queue := rfl, standing := rfl, widths := hrest }
      | false =>
        have hopened : Renamed r
            { x with queue, stats := { x.stats with expanded := x.stats.expanded + 1 } }
            { y with
              queue := queue.map r.state
              stats := { y.stats with expanded := y.stats.expanded + 1 } } :=
          { h with queue := rfl, widths := hrest, stats := by simp only [h.stats] }
        rw [ExactSearch.step_of_not_goal hx hq hg,
          ExactSearch.step_of_not_goal hy hyq (hgoal.trans hg), h.depth_state]
        exact hopened.expand hw (x.depth s)
  · rw [ExactSearch.step_of_ended hx, ExactSearch.step_of_ended (mt hstanding.mp hx)]
    exact h

/-- After any number of steps they are renamings of each other, -/
theorem steps (h : Renamed r x y) (n : Nat) : Renamed r (x.steps n) (y.steps n) := by
  induction n with
  | zero => exact h
  | succ n ih => exact ih.step

/-- as they were at the start. -/
theorem start (r : Renaming width) {system : TransitionSystem} (hw : system.width = width)
    (goal : Goal) (settings : Settings) :
    Renamed r (ExactSearch.start system goal settings)
      (ExactSearch.start (r.system system hw) (r.goal goal) settings) := by
  constructor
  case widths =>
    intro s hs
    rw [List.mem_singleton.mp hs]
    exact hw
  all_goals rfl

/-! ### Their traces

    The chain of parents is followed to the same length in both, since a state renamed is its own parent
    exactly if the state was. -/

/-- One entry of a trace is renamed. -/
theorem entry (h : Renamed r x y) (s : State) (origin : Origin) :
    y.entry (r.state s) (r.origin origin) = r.step (x.entry s origin) := by
  have hname : (origin.action.bind fun index => y.system.actions[index]?).map Action.name =
      (origin.action.bind fun index => x.system.actions[index]?).map Action.name := by
    cases origin.action with
    | none => rfl
    | some index =>
      rw [Option.bind_some, Option.bind_some, h.actions, List.getElem?_map, Option.map_map]
      rfl
  unfold ExactSearch.entry Renaming.step Renaming.origin
  rw [hname]

/-- **The traces take the same actions.** -/
theorem trace (h : Renamed r x y) (more : Nat) (s : State) :
    y.trace more (r.state s) = (x.trace more s).map (List.map r.step) := by
  have hself : ∀ origin : Origin, (r.origin origin).parent = r.state s ↔ origin.parent = s :=
    fun origin => r.state_injective.eq_iff
  induction more generalizing s with
  | zero =>
    unfold ExactSearch.trace
    rw [h.origin?_state]
    cases x.origin? s with
    | none => rfl
    | some origin =>
      simp only [Option.map_some, hself, h.entry]
      split <;> rfl
  | succ more ih =>
    unfold ExactSearch.trace
    rw [h.origin?_state]
    cases x.origin? s with
    | none => rfl
    | some origin =>
      simp only [Option.map_some, hself, h.entry]
      split
      · rfl
      · have hparent := ih origin.parent fun _ => r.state_injective.eq_iff
        show (y.trace more (r.state origin.parent)).map _ = _
        rw [hparent, Option.map_map, Option.map_map]
        refine congrArg (fun f => Option.map f _) (funext fun steps => ?_)
        show steps.map r.step ++ [x.entry s origin].map r.step = _
        exact List.map_append.symm

/-- Hence the whole trace is. -/
theorem witness? (h : Renamed r x y) (s : State) :
    y.witness? (r.state s) = (x.witness? s).map r.witness := by
  unfold ExactSearch.witness?
  rw [h.trace, h.stats, Option.map_map, Option.map_map]
  rfl

end Renamed

/-! ## Statement

    Each of the two searches is as good as its exact search while its collision counter stands at zero, and
    the exact searches are renamings of each other. -/

/-- Two searches have come to a status of one kind. -/
inductive Status.Alike : Status → Status → Prop
  | running : Alike .running .running
  | found (goal goal' : Fingerprint) : Alike (.found goal) (.found goal')
  | exhausted : Alike .exhausted .exhausted
  | truncated : Alike .truncated .truncated

namespace Explorer

/-- The search `f` stands where `e` stands, with the registers renamed: it has counted the same, stored
    the states renamed, and if both have found a goal, their traces take the same actions. -/
structure SameRenamed {width : Nat} (r : Renaming width) (e f : Explorer) : Prop where
  status : e.status.Alike f.status
  stats : f.stats = e.stats
  stored : ∀ t : State, (∃ fp : Fingerprint, f.store[fp]? = some t) ↔
    ∃ (fp : Fingerprint) (s : State), e.store[fp]? = some s ∧ r.state s = t
  traces : ∀ goal goal', e.status = .found goal → f.status = .found goal' →
    ∃ w w', e.witness goal = .ok w ∧ f.witness goal' = .ok w' ∧
      w'.actionNames = w.actionNames ∧ w'.states = w.states.map r.state

/-- What stands for two exact searches, one of them the other renamed, is the same but renamed. -/
theorem sameRenamed_of_hashed {width : Nat} {r : Renaming width} {x y : ExactSearch}
    {e f : Explorer} {expanded expanded' : List Fingerprint} (h : Renamed r x y) (hx : Hashed x e)
    (hy : Hashed y f) (ht : Tree e expanded) (ht' : Tree f expanded') : SameRenamed r e f := by
  constructor
  case status =>
    rw [hx.status, hy.status, h.standing]
    cases x.standing with
    | running => exact .running
    | found goal => exact .found _ _
    | exhausted => exact .exhausted
    | truncated => exact .truncated
  case stats => rw [hy.stats, h.stats, hx.stats]
  case stored =>
    intro t
    constructor
    · rintro ⟨fp, hs⟩
      obtain ⟨hd, -⟩ := hy.stored_iff.mp hs
      -- whatever the renamed search has stored is a state renamed, namely what it is renamed back to
      have hback : r.state (r.symm.state t) = t := r.symm.symm_state t
      rw [← hback, h.discovered_state_iff] at hd
      exact ⟨_, r.symm.state t, hx.stored_iff.mpr ⟨hd, rfl⟩, hback⟩
    · rintro ⟨fp, s, hs, rfl⟩
      obtain ⟨hd, -⟩ := hx.stored_iff.mp hs
      exact ⟨_, hy.stored_iff.mpr ⟨(h.discovered_state_iff s).mpr hd, rfl⟩⟩
  case traces =>
    intro goal goal' hstatus hstatus'
    obtain ⟨s, hstanding, rfl⟩ := hx.standing_of_found hstatus
    obtain ⟨t, hstanding', rfl⟩ := hy.standing_of_found hstatus'
    rw [h.standing, hstanding] at hstanding'
    obtain rfl := Standing.found.inj hstanding'
    have hd := hx.goal_discovered s hstanding
    obtain ⟨w, hw, hexact⟩ := hx.witness_eq ht hd
    obtain ⟨w', hw', hexact'⟩ := hy.witness_eq ht' ((h.discovered_state_iff s).mpr hd)
    rw [h.witness?, hexact] at hexact'
    obtain rfl := Option.some.inj hexact'
    exact ⟨w, _, hw, hw', r.actionNames_witness w, r.states_witness w⟩

/-- **Nothing depends on which register is which.**  An action renamed does to a state renamed what the
    action does to the state, and is refused exactly if the action is.  A search of the system renamed
    can be started if a search of the system can, and under any settings, after any number of steps, one
    stands where the other stands, as long as neither has counted a collision. -/
theorem steps_renamed {width : Nat} (r : Renaming width) :
    (∀ (a : Action) (s : State), s.width = width →
      (r.action a).apply (r.state s) = (a.apply s).map r.state) ∧
    ∀ (system : TransitionSystem) (hw : system.width = width) (goal : Goal) (settings : Settings)
      (e : Explorer), Explorer.start system goal settings = .ok e →
      ∃ f, Explorer.start (r.system system hw) (r.goal goal) settings = .ok f ∧
        ∀ n, ∃ e' f', e.steps n = .ok e' ∧ f.steps n = .ok f' ∧
          (e'.stats.collisions = 0 → f'.stats.collisions = 0 → SameRenamed r e' f') := by
  refine ⟨fun a s hw => r.apply_action hw a, ?_⟩
  intro system hw goal settings e hstart
  have hcheck : (r.goal goal).check (r.system system hw).width = .ok () := by
    have hpassed := exists_start_iff.mp ⟨e, hstart⟩
    have hwidth : (r.system system hw).width = width := (r.width_state system.initial).trans hw
    rw [hw] at hpassed
    rw [hwidth]
    exact r.check_goal hpassed
  obtain ⟨f, hstart'⟩ : ∃ f, Explorer.start (r.system system hw) (r.goal goal) settings = .ok f :=
    exists_start_iff.mpr hcheck
  refine ⟨f, hstart', fun n => ?_⟩
  obtain ⟨e', he'⟩ := exists_steps hstart n
  obtain ⟨f', hf'⟩ := exists_steps hstart' n
  refine ⟨e', f', he', hf', fun hcollisions hcollisions' => ?_⟩
  obtain ⟨trail, ht⟩ := trailed_of_steps hstart he'
  obtain ⟨trail', ht'⟩ := trailed_of_steps hstart' hf'
  exact sameRenamed_of_hashed ((Renamed.start r hw goal settings).steps n)
    (Hashed.steps hstart he' hcollisions) (Hashed.steps hstart' hf' hcollisions') ht.tree ht'.tree

/-- Four units in the big one of jugs of three and five, which is the second jug, and then the first. -/
theorem jugs_renamed :
    ∃ (system : TransitionSystem) (goal : Goal) (e f e' f' : Explorer),
      (waterJugs 3 5 4).build = .ok (system, goal) ∧
      Explorer.start system goal Settings.default = .ok e ∧
      Explorer.start ((Renaming.reversing system.initial).system system rfl)
        ((Renaming.reversing system.initial).goal goal) Settings.default = .ok f ∧
      e.steps 20 = .ok e' ∧ f.steps 20 = .ok f' ∧ e'.status.isTerminal = true ∧
      SameRenamed (Renaming.reversing system.initial) e' f' := by
  have hquery : (waterJugs 3 5 4).build.toOption.any (fun built =>
      (Explorer.start built.1 built.2 Settings.default).toOption.any fun e =>
        (Explorer.start ((Renaming.reversing built.1.initial).system built.1 rfl)
          ((Renaming.reversing built.1.initial).goal built.2) Settings.default).toOption.any fun f =>
          (e.steps 20).toOption.any fun e' => (f.steps 20).toOption.any fun f' =>
            decide (e'.stats.collisions = 0 ∧ f'.stats.collisions = 0 ∧
              e'.status.isTerminal = true)) = true := by decide +kernel
  obtain ⟨⟨system, goal⟩, hbuild, hquery⟩ := (Option.any_eq_true ..).mp hquery
  obtain ⟨e, hstart, hquery⟩ := (Option.any_eq_true ..).mp hquery
  obtain ⟨f, hstart', hquery⟩ := (Option.any_eq_true ..).mp hquery
  obtain ⟨e', hsteps, hquery⟩ := (Option.any_eq_true ..).mp hquery
  obtain ⟨f', hsteps', hquery⟩ := (Option.any_eq_true ..).mp hquery
  obtain ⟨hcollisions, hcollisions', hended⟩ := of_decide_eq_true hquery
  have hstart := Puzzle.eq_ok_of_toOption hstart
  have hstart' := Puzzle.eq_ok_of_toOption hstart'
  have hsteps := Puzzle.eq_ok_of_toOption hsteps
  have hsteps' := Puzzle.eq_ok_of_toOption hsteps'
  obtain ⟨g, hg, hrenamed⟩ :=
    (steps_renamed (Renaming.reversing system.initial)).2 system rfl goal Settings.default e hstart
  obtain rfl := Except.ok.inj (hstart'.symm.trans hg)
  obtain ⟨d, d', hd, hd', hsame⟩ := hrenamed 20
  obtain rfl := Except.ok.inj (hsteps.symm.trans hd)
  obtain rfl := Except.ok.inj (hsteps'.symm.trans hd')
  exact ⟨system, goal, e, f, e', f', Puzzle.eq_ok_of_toOption hbuild, hstart, hstart', hsteps, hsteps',
    hended, hsame hcollisions hcollisions'⟩

end Explorer

end GuardedReach
