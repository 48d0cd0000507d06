/-
  Systems — what is searched: an initial state, an ordered list of actions, and register names.

  The order of the actions matters: it decides which of several shortest traces a search returns.
  A system carries its own consistency (`TransitionSystem`): every action fits the width of the
  initial state, action names are pairwise distinct, and there is one name for each register.
-/
import GuardedReach.Goal

namespace GuardedReach

/-- A system to search. -/
structure TransitionSystem where
  registerNames : List String
  initial : State
  actions : List Action
  names_length : registerNames.length = initial.width
  fits : ∀ a ∈ actions, a.check initial.width = .ok ()
  distinct : (actions.map Action.name).Nodup

namespace TransitionSystem

/-- The number of registers. -/
def width (system : TransitionSystem) : Nat :=
  system.initial.width

/-! ## Checking the actions

    Each action is checked against the width and against the names of those before it. -/

/-- Looks at each action in turn: it must fit the width, and then its name must be new. -/
def checkActions (width : Nat) (seen : List String) : List Action → Except SetupError Unit
  | [] => .ok ()
  | a :: rest =>
    match a.check width with
    | .error reason => .error (.machine reason)
    | .ok () =>
      if a.name ∈ seen then .error (.duplicateAction a.name)
      else checkActions width (a.name :: seen) rest

/-- What the check has established once it passes. -/
theorem checkActions_eq_ok_iff (width : Nat) (seen : List String) (actions : List Action) :
    checkActions width seen actions = .ok () ↔
      (∀ a ∈ actions, a.check width = .ok ()) ∧ (∀ a ∈ actions, a.name ∉ seen) ∧
        (actions.map Action.name).Nodup := by
  induction actions generalizing seen with
  | nil => simp [checkActions]
  | cons a rest ih =>
    unfold checkActions
    cases h : a.check width with
    | error reason => simp [h]
    | ok u =>
      by_cases hs : a.name ∈ seen
      · simp [hs]
      · simp only [hs, if_false, ih, List.mem_cons, List.map_cons, List.nodup_cons, List.mem_map,
          forall_eq_or_imp, h, true_and]
        grind

/-! ## Building

    Names of registers come last, and are numbered unless they are given. -/

/-- The names registers have until others are given: `r0`, `r1`, and so on. -/
def defaultNames (width : Nat) : List String :=
  (List.range width).map fun i => "r" ++ i.repr

/-- Builds a system.  The width is looked at first, then the initial state, then each action. -/
def make (width : Nat) (initial : State) (actions : List Action) :
    Except SetupError TransitionSystem :=
  if width = 0 ∨ registerCapacity < width then .error (.machine (.invalidWidth width))
  else if hw : initial.width = width then
    match h : checkActions width [] actions with
    | .error reason => .error reason
    | .ok () =>
      have checked := (checkActions_eq_ok_iff width [] actions).mp h
      .ok
        { registerNames := defaultNames width
          initial
          actions
          names_length := by simp [defaultNames, hw]
          fits := by rw [hw]; exact checked.1
          distinct := checked.2.2 }
  else .error (.widthMismatch width initial.width)

/-- Gives the registers other names. -/
def withRegisterNames (system : TransitionSystem) (names : List String) :
    Except SetupError TransitionSystem :=
  if h : names.length = system.width then
    .ok { system with registerNames := names, names_length := h }
  else .error (.registerNames system.width names.length)

end TransitionSystem

end GuardedReach
