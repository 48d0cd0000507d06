/-
  Instructions — one guard or effect over at most two registers and an immediate amount.

  1. **Families** — a guard (`lessThan`, `equal`, `notEqual`) compares a register with the amount
     and changes nothing; an effect (`assign`, `add`, `subtract`, `boundedTransfer`) changes the
     target register and, for a transfer, the source as well.  Only a transfer looks at `source`.

  2. **Two readings of "fits"** — `InBounds` says that every register touched lies below a width;
     `check` finds the first that does not and names it.  `check_eq_ok_iff` says they agree.

  3. **Program** — `execute` gives the next state, or `none` when the instruction is refused: a
     guard that does not hold, or a register that is not active.  Arithmetic is modulo `2^64`.

  4. **Text** — `text` is the assembly form (`lt r0, 3`, `xfer r1, r0, 5`).
-/
import GuardedReach.Machine.State
import GuardedReach.Machine.Transfer

namespace GuardedReach

/-! ## Opcodes

    Seven of them.  What is said of all is said by cases, so the properties an opcode has are functions of
    it. -/

/-- What an instruction does. -/
inductive Opcode where
  /-- Guard: the target register is below the amount. -/
  | lessThan
  /-- Guard: the target register equals the amount. -/
  | equal
  /-- Guard: the target register differs from the amount. -/
  | notEqual
  /-- The target register becomes the amount. -/
  | assign
  | add
  | subtract
  /-- Pour the source register into the target register, whose capacity is the amount. -/
  | boundedTransfer
deriving DecidableEq

namespace Opcode

def all : List Opcode :=
  [lessThan, equal, notEqual, assign, add, subtract, boundedTransfer]

/-- Whether the opcode only tests. -/
def isGuard : Opcode → Bool
  | lessThan | equal | notEqual => true
  | assign | add | subtract | boundedTransfer => false

/-- Whether the opcode looks at the source register. -/
def usesSource : Opcode → Bool
  | boundedTransfer => true
  | lessThan | equal | notEqual | assign | add | subtract => false

/-- The short form used in assembly text. -/
def mnemonic : Opcode → String
  | lessThan => "lt"
  | equal => "eq"
  | notEqual => "ne"
  | assign => "set"
  | add => "add"
  | subtract => "sub"
  | boundedTransfer => "xfer"

/-- The full name used in puzzle files. -/
def name : Opcode → String
  | lessThan => "less_than"
  | equal => "equal"
  | notEqual => "not_equal"
  | assign => "assign"
  | add => "add"
  | subtract => "subtract"
  | boundedTransfer => "bounded_transfer"

/-- The opcode with a given full name. -/
def ofName? (name : String) : Option Opcode :=
  all.find? fun opcode => opcode.name = name

/-- Full names tell opcodes apart, and each is found by its own. -/
theorem ofName?_name (opcode : Opcode) : ofName? opcode.name = some opcode := by
  cases opcode <;> decide

end Opcode

/-! ## Instructions

    One form for all opcodes.  A field that an opcode does not look at is there nonetheless, and is written
    to files. -/

/-- One guard or effect. -/
structure Instruction where
  opcode : Opcode
  target : UInt8
  source : UInt8
  amount : Int64
deriving DecidableEq

namespace Instruction

/-- An instruction that has no use for a source register. -/
def unary (opcode : Opcode) (target : UInt8) (amount : Int64) : Instruction :=
  { opcode, target, source := 0, amount }

/-- The guard that a register is below an amount, -/
def lessThan : UInt8 → Int64 → Instruction := unary .lessThan
/-- that it equals the amount, -/
def equal : UInt8 → Int64 → Instruction := unary .equal
/-- and that it does not. -/
def notEqual : UInt8 → Int64 → Instruction := unary .notEqual
/-- The effect that a register becomes an amount, -/
def assign : UInt8 → Int64 → Instruction := unary .assign
/-- that the amount is added to it, -/
def add : UInt8 → Int64 → Instruction := unary .add
/-- and that the amount is taken from it. -/
def subtract : UInt8 → Int64 → Instruction := unary .subtract

/-- Pour from `source` into `target` until `target` holds `capacity` or `source` is empty. -/
def boundedTransfer (target source : UInt8) (capacity : Int64) : Instruction :=
  { opcode := .boundedTransfer, target, source, amount := capacity }

def isGuard (ins : Instruction) : Bool :=
  ins.opcode.isGuard

/-! ## Registers touched

    A register index is a byte and may point anywhere, so whether an instruction fits is a question of the
    width it is run at. -/

/-- The registers an instruction looks at or changes, the target first. -/
def touched (ins : Instruction) : List UInt8 :=
  if ins.opcode.usesSource then [ins.target, ins.source] else [ins.target]

/-- Every register touched is one of the first `width` of the register file. -/
def InBounds (ins : Instruction) (width : Nat) : Prop :=
  ins.target.toNat < min width registerCapacity ∧
    (ins.opcode.usesSource = true → ins.source.toNat < min width registerCapacity)

instance (ins : Instruction) (width : Nat) : Decidable (ins.InBounds width) :=
  inferInstanceAs (Decidable (_ ∧ _))

/-- Names the first register touched that is not one of the first `width`. -/
def check (ins : Instruction) (width : Nat) : Except OutOfRange Unit :=
  let width := min width registerCapacity
  match ins.touched.find? fun index => width ≤ index.toNat with
  | some index => .error { index, width }
  | none => .ok ()

/-- The two readings of "fits" agree. -/
theorem check_eq_ok_iff (ins : Instruction) (width : Nat) :
    ins.check width = .ok () ↔ ins.InBounds width := by
  unfold check InBounds touched
  cases ins.opcode.usesSource <;>
    simp only [Bool.false_eq_true, if_false, if_true, List.find?] <;>
    grind

/-- The target of an instruction that fits is active, -/
theorem InBounds.target_lt {ins : Instruction} {width : Nat} (h : ins.InBounds width) :
    ins.target.toNat < width :=
  Nat.lt_of_lt_of_le h.1 (Nat.min_le_left ..)

/-- and so is its source, if its opcode looks at one. -/
theorem InBounds.source_lt {ins : Instruction} {width : Nat} (h : ins.InBounds width)
    (hs : ins.opcode.usesSource = true) : ins.source.toNat < width :=
  Nat.lt_of_lt_of_le (h.2 hs) (Nat.min_le_left ..)

/-! ## Execution

    An instruction that does not fit is refused like a guard that does not hold: nothing is written outside
    the active registers. -/

/-- The state after pouring one active register into another.  A register poured into itself keeps
    its content. -/
def transfer (s : State) (target source : Nat) (ht : target < s.width) (hs : source < s.width)
    (capacity : Int64) : State :=
  if target = source then s
  else
    let poured := Transfer.pour (s.read target ht) (s.read source hs) capacity
    (s.write source hs poured.2).write target ht poured.1

/-- **The program**: the next state, or `none` if the instruction is refused. -/
def execute (ins : Instruction) (s : State) : Option State :=
  if h : ins.InBounds s.width then
    have ht : ins.target.toNat < s.width := h.target_lt
    let held := s.read ins.target.toNat ht
    match hop : ins.opcode with
    | .lessThan => if held < ins.amount then some s else none
    | .equal => if held = ins.amount then some s else none
    | .notEqual => if held ≠ ins.amount then some s else none
    | .assign => some (s.write ins.target.toNat ht ins.amount)
    | .add => some (s.write ins.target.toNat ht (held + ins.amount))
    | .subtract => some (s.write ins.target.toNat ht (held - ins.amount))
    | .boundedTransfer =>
      some (transfer s ins.target.toNat ins.source.toNat ht (h.source_lt (by rw [hop]; rfl))
        ins.amount)
  else none

/-- A guard hands on the state it was given. -/
theorem execute_guard {ins : Instruction} (hg : ins.isGuard = true) {s t : State}
    (h : ins.execute s = some t) : t = s := by
  unfold execute at h
  unfold isGuard at hg
  split at h
  · split at h <;> simp_all [Opcode.isGuard]
  · simp at h

@[simp] theorem width_transfer (s : State) (target source : Nat) (ht : target < s.width)
    (hs : source < s.width) (capacity : Int64) :
    (transfer s target source ht hs capacity).width = s.width := by
  unfold transfer
  split <;> rfl

/-- No instruction changes the number of registers. -/
theorem width_execute {ins : Instruction} {s t : State} (h : ins.execute s = some t) :
    t.width = s.width := by
  by_cases hg : ins.isGuard = true
  · rw [execute_guard hg h]
  · unfold execute at h
    unfold isGuard at hg
    split at h
    · split at h
      case h_4 | h_5 | h_6 | h_7 => obtain rfl := Option.some.inj h; simp
      -- the three guards
      all_goals next hop => exact absurd (by rw [hop]; rfl) hg
    · exact absurd h (by simp)

/-- Running an instruction in place: whether it was accepted, and the state afterwards, which a
    refusal leaves as it was. -/
def perform (ins : Instruction) (s : State) : Bool × State :=
  match ins.execute s with
  | some next => (true, next)
  | none => (false, s)

/-! ## Text

    A line of assembly shows the source register if the opcode looks at one. -/

/-- The assembly form. -/
def text (ins : Instruction) : String :=
  ins.opcode.mnemonic ++ " r" ++ ins.target.toNat.repr ++
    (if ins.opcode.usesSource then ", r" ++ ins.source.toNat.repr else "") ++
    ", " ++ ins.amount.toInt.repr

end Instruction

end GuardedReach
