/-
  Bare files — what a state is when its type promises nothing.

  A state carries the proof that its width is in range and that the cells beyond it are zero, and no access
  can leave the file.  Here the same machine is built over a file of which nothing is known, with accesses
  by index alone: it faults if one leaves the file, and it could well write beyond the width.

  1. **Program** — `Bare` is a width with the cells.  It is built, and instructions and actions run on it,
     as on states; whether an instruction fits is looked at once, before the first access.

  2. **Agreement** — on the bare file of a state each operation does what it does to the state
     (`load_bare`, `store_bare`, `zeros_eq`, `ofList_eq`), so every opcode does (`execute_bare`), and
     from it by induction every sequence of instructions (`runAll_bare`) and of calls (`after_bare`).  So
     none of them faults.

  3. **Representation** — the bare file of a state is well formed (`wellFormed_bare`), and its active
     registers tell it (`bare_inj`).
-/
import GuardedReach.Format.Machine
import GuardedReach.Proofs.Machine.Execution

namespace GuardedReach

/-! ## Program

    The machine once more, with nothing promised: each access is by index alone and gives nothing if it
    leaves the file. -/

/-- A register file and the number of registers in use, of which nothing is promised. -/
structure Bare where
  width : Nat
  cells : Vector Int64 registerCapacity
deriving DecidableEq

/-- Something that is done to a register file in place. -/
inductive Call where
  /-- A single instruction, of any indices. -/
  | execute (ins : Instruction)
  /-- An action, which leaves the file as it was if it is refused. -/
  | apply (a : Action)

namespace Bare

/-- The width is in range, and the cells beyond it are zero. -/
structure WellFormed (f : Bare) : Prop where
  width_pos : 0 < f.width
  width_le : f.width ≤ registerCapacity
  rest_zero : ∀ i, (h : i < registerCapacity) → f.width ≤ i → f.cells[i] = 0

/-- The file of so many registers, all zero, if the number is in range. -/
def zeros (width : Nat) : Except MachineError Bare :=
  if 0 < width ∧ width ≤ registerCapacity then
    .ok { width, cells := Vector.replicate registerCapacity 0 }
  else .error (.invalidWidth width)

/-- The values are copied over the first cells of a file of zeros. -/
def ofList (values : List Int64) : Except MachineError Bare :=
  (zeros values.length).map fun f =>
    { f with cells := Vector.ofFn fun i => values.getD i f.cells[i] }

/-- A file is decoded from the list of its values. -/
def ofJson? (value : Json) : Option Bare := do
  let values ← value.list? Json.int64?
  (ofList values).toOption

/-- The content of a cell.  There is none if the access leaves the file. -/
def load (f : Bare) (i : Nat) : Option Int64 :=
  f.cells[i]?

/-- The file with a cell replaced.  There is none if the access leaves the file. -/
def store (f : Bare) (i : Nat) (value : Int64) : Option Bare :=
  if h : i < registerCapacity then some { f with cells := f.cells.set i value h } else none

/-- Whether the instruction was accepted, and the file afterwards; nothing if an access has left it. -/
def execute (ins : Instruction) (f : Bare) : Option (Bool × Bare) :=
  if ins.InBounds f.width then
    let target := ins.target.toNat
    let source := ins.source.toNat
    match ins.opcode with
    | .lessThan => return (decide ((← f.load target) < ins.amount), f)
    | .equal => return (decide ((← f.load target) = ins.amount), f)
    | .notEqual => return (decide ((← f.load target) ≠ ins.amount), f)
    | .assign => return (true, ← f.store target ins.amount)
    | .add => return (true, ← f.store target ((← f.load target) + ins.amount))
    | .subtract => return (true, ← f.store target ((← f.load target) - ins.amount))
    | .boundedTransfer =>
      if target = source then return (true, f)
      else do
        let poured := Transfer.pour (← f.load target) (← f.load source) ins.amount
        return (true, ← (← f.store source poured.2).store target poured.1)
  else return (false, f)

/-- The instructions in order, up to the first that is refused: the file afterwards, unless one was. -/
def runAll : List Instruction → Bare → Option (Option Bare)
  | [], f => some (some f)
  | ins :: rest, f => do
    let (accepted, next) ← f.execute ins
    if accepted then runAll rest next else return none

/-- The file after a call. -/
def called (f : Bare) : Call → Option Bare
  | .execute ins => (f.execute ins).map Prod.snd
  | .apply a => (runAll a.instructions f).map fun copy => copy.getD f

/-- The file after several calls, one after the other. -/
def after (f : Bare) (calls : List Call) : Option Bare :=
  calls.foldlM called f

/-- The registers in use, in index order. -/
def active (f : Bare) : List Int64 :=
  f.cells.toList.take f.width

end Bare

namespace State

/-- What is stored of a state. -/
def bare (s : State) : Bare :=
  { width := s.width, cells := s.cells }

/-- The state after a call. -/
def called (s : State) : Call → State
  | .execute ins => (ins.perform s).2
  | .apply a => (a.apply s).getD s

/-- The state after several calls, one after the other. -/
def after (s : State) (calls : List Call) : State :=
  calls.foldl called s

/-! ## Agreement

    On the bare file of a state no access leaves the file, and what is read and written is what the state
    has there. -/

variable {s t : State} {i : Nat}

/-- An active register is read as on the state, -/
theorem load_bare (h : i < s.width) : s.bare.load i = some (s.read i h) :=
  Vector.getElem?_eq_getElem (Nat.lt_of_lt_of_le h s.width_le)

/-- and written as there. -/
theorem store_bare (h : i < s.width) (value : Int64) :
    s.bare.store i value = some (s.write i h value).bare :=
  dif_pos (Nat.lt_of_lt_of_le h s.width_le)

end State

namespace Bare

/-- A file of zeros is the bare file of the state of zeros, and is refused for the same widths. -/
theorem zeros_eq (width : Nat) : zeros width = (State.zeros width).map State.bare := by
  unfold zeros State.zeros
  split <;> rfl

/-- So is a file that is copied from a list of values, -/
theorem ofList_eq (values : List Int64) : ofList values = (State.ofList values).map State.bare := by
  unfold ofList zeros State.ofList
  split
  · simp [Except.map, State.bare]
  · rfl

/-- and one that is decoded. -/
theorem ofJson?_eq (value : Json) : ofJson? value = (State.ofJson? value).map State.bare := by
  unfold ofJson? State.ofJson?
  cases value.list? Json.int64? with
  | none => rfl
  | some values =>
    show (ofList values).toOption = (State.ofList values).toOption.map State.bare
    rw [ofList_eq]
    cases State.ofList values <;> rfl

end Bare

namespace Instruction

variable {ins : Instruction} {s t : State}

/-- An instruction that only compares is accepted if the comparison holds. -/
theorem perform_of_guard {p : Prop} [Decidable p] (h : ins.execute s = if p then some s else none) :
    ins.perform s = (decide p, s) := by
  unfold perform
  rw [h]
  by_cases hp : p <;> simp [hp]

/-- An instruction that gives a next state is accepted, -/
theorem perform_of_execute (h : ins.execute s = some t) : ins.perform s = (true, t) := by
  unfold perform
  rw [h]

/-- and one that gives none leaves the state as it was. -/
theorem perform_of_refused (h : ins.execute s = none) : ins.perform s = (false, s) := by
  unfold perform
  rw [h]

end Instruction

namespace Bare

variable {s : State}

/-- **Every opcode agrees**, whatever the indices are: on the bare file of a state an instruction is
    accepted as on the state, and leaves the bare file of what it leaves there. -/
theorem execute_bare (ins : Instruction) (s : State) :
    s.bare.execute ins = some ((ins.perform s).1, (ins.perform s).2.bare) := by
  obtain ⟨opcode, target, source, amount⟩ := ins
  -- on both sides an instruction that does not fit is refused before anything is accessed
  by_cases h : Instruction.InBounds ⟨opcode, target, source, amount⟩ s.width
  · have ht : target.toNat < s.width := h.target_lt
    have hload := State.load_bare ht
    have hstore := State.store_bare ht
    unfold execute
    rw [if_pos (show Instruction.InBounds _ s.bare.width from h)]
    cases opcode with
    | lessThan =>
      rw [Instruction.perform_of_guard (p := s.read target.toNat ht < amount) (dif_pos h)]
      simp only [hload]
      rfl
    | equal =>
      rw [Instruction.perform_of_guard (p := s.read target.toNat ht = amount) (dif_pos h)]
      simp only [hload]
      rfl
    | notEqual =>
      rw [Instruction.perform_of_guard (p := s.read target.toNat ht ≠ amount) (dif_pos h)]
      simp only [hload]
      rfl
    | assign =>
      rw [Instruction.perform_of_execute (dif_pos h)]
      simp only [hstore]
      rfl
    | add =>
      rw [Instruction.perform_of_execute (dif_pos h)]
      simp only [hload, Option.bind_eq_bind, Option.bind_some, hstore]
      rfl
    | subtract =>
      rw [Instruction.perform_of_execute (dif_pos h)]
      simp only [hload, Option.bind_eq_bind, Option.bind_some, hstore]
      rfl
    | boundedTransfer =>
      have hs : source.toNat < s.width := h.source_lt rfl
      rw [Instruction.perform_of_execute (Instruction.execute_of_transfer rfl h)]
      unfold Instruction.transfer
      by_cases hself : target.toNat = source.toNat
      · simp only [if_pos hself]
        rfl
      · -- the source is stored first, and the target in the file that this leaves
        simp only [if_neg hself, hload, State.load_bare hs, Option.bind_eq_bind, Option.bind_some,
          State.store_bare hs]
        rw [State.store_bare (s := s.write source.toNat hs _) ht]
        rfl
  · rw [Instruction.perform_of_refused (Instruction.execute_of_not_inBounds h)]
    exact if_neg h

/-- So every sequence of instructions agrees. -/
theorem runAll_bare (instructions : List Instruction) (s : State) :
    runAll instructions s.bare = some ((GuardedReach.runAll instructions s).toOption.map State.bare) := by
  induction instructions generalizing s with
  | nil => rfl
  | cons ins rest ih =>
    rw [runAll, execute_bare, GuardedReach.runAll]
    cases hnext : ins.execute s with
    | none =>
      rw [Instruction.perform_of_refused hnext]
      rfl
    | some next =>
      rw [Instruction.perform_of_execute hnext]
      exact ih next

/-- One call agrees, an action that is refused included: its copy is dropped on both sides. -/
theorem called_bare (s : State) (call : Call) : s.bare.called call = some (s.called call).bare := by
  cases call with
  | execute ins =>
    show (s.bare.execute ins).map Prod.snd = _
    rw [execute_bare]
    rfl
  | apply a =>
    show (runAll a.instructions s.bare).map (fun copy => copy.getD s.bare) = some ((a.apply s).getD s).bare
    rw [runAll_bare]
    unfold Action.apply Action.run
    cases (GuardedReach.runAll a.instructions s).toOption <;> rfl

/-- And so do calls, any number of them.  None of them faults. -/
theorem after_bare (s : State) (calls : List Call) : s.bare.after calls = some (s.after calls).bare := by
  induction calls generalizing s with
  | nil => rfl
  | cons call rest ih =>
    unfold after State.after
    rw [List.foldlM_cons, called_bare]
    exact ih (s.called call)

end Bare

/-! ## Representation

    Among bare files, those of states are told by their well-formedness, which every call keeps. -/

namespace State

variable {s t : State}

/-- The bare file of a state is well formed, since the state carries the proof. -/
theorem wellFormed_bare (s : State) : s.bare.WellFormed :=
  ⟨s.width_pos, s.width_le, s.rest_zero⟩

/-- No call changes the width, -/
theorem width_called (s : State) (call : Call) : (s.called call).width = s.width := by
  cases call with
  | execute ins =>
    show (ins.perform s).2.width = s.width
    cases hnext : ins.execute s with
    | none => rw [Instruction.perform_of_refused hnext]
    | some next =>
      rw [Instruction.perform_of_execute hnext]
      exact Instruction.width_execute hnext
  | apply a =>
    show ((a.apply s).getD s).width = s.width
    cases hnext : a.apply s with
    | none => rfl
    | some next => exact Action.width_apply hnext

/-- and so no number of calls does. -/
theorem width_after (s : State) (calls : List Call) : (s.after calls).width = s.width := by
  induction calls generalizing s with
  | nil => rfl
  | cons call rest ih => exact (ih (s.called call)).trans (s.width_called call)

end State

namespace Bare.WellFormed

variable {f g : Bare}

/-- A well-formed file shows as many registers as its width says. -/
theorem length_active (h : f.WellFormed) : f.active.length = f.width := by
  unfold active
  rw [List.length_take, Vector.length_toList]
  exact Nat.min_eq_left h.width_le

/-- Cells that are in use are seen, and the others are all the same. -/
theorem eq_iff (hf : f.WellFormed) (hg : g.WellFormed) : f = g ↔ f.active = g.active := by
  constructor
  · rintro rfl
    rfl
  · intro h
    have hw : f.width = g.width := by
      rw [← hf.length_active, h, hg.length_active]
    obtain ⟨width, cells⟩ := f
    obtain ⟨width', cells'⟩ := g
    obtain rfl : width = width' := hw
    suffices cells = cells' by rw [this]
    ext i hi
    by_cases hused : i < width
    · have hsame := congrArg (·[i]?) h
      simpa [active, hused, hi] using hsame
    · rw [hf.rest_zero i hi (Nat.le_of_not_lt hused), hg.rest_zero i hi (Nat.le_of_not_lt hused)]

end Bare.WellFormed

end GuardedReach
