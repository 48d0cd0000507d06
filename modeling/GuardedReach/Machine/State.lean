/-
  States — the complete configuration of a modeled system.

  A state is a file of `registerCapacity` 64-bit cells of which the first `width` are active.  The
  cells beyond them are zero, and that is part of the type; so two states are equal exactly when
  their active registers are (`State.ext_active`), and a state may be read as the list of them.

  1. **Program** — `ofList` and `zeros` build a state or say why the width is wrong; `read` and
     `write` take a proof that the index is active, so no access can leave the file.

  2. **Fingerprint** — the hash of the little-endian bytes of the active registers, in index order.
-/
import GuardedReach.Machine.Error
import GuardedReach.Machine.Fingerprint

namespace GuardedReach

/-- A register file with its active width. -/
structure State where
  width : Nat
  cells : Vector Int64 registerCapacity
  width_pos : 0 < width
  width_le : width ≤ registerCapacity
  rest_zero : ∀ i, (h : i < registerCapacity) → width ≤ i → cells[i] = 0
deriving DecidableEq

namespace State

/-! ## Building

    A width is in range, or there is no state of it. -/

/-- The state whose registers are all zero. -/
def zeros (width : Nat) : Except MachineError State :=
  if h : 0 < width ∧ width ≤ registerCapacity then
    .ok
      { width
        cells := Vector.replicate registerCapacity 0
        width_pos := h.1
        width_le := h.2
        rest_zero := by simp }
  else
    .error (.invalidWidth width)

/-- The state whose active registers are `values`, in order. -/
def ofList (values : List Int64) : Except MachineError State :=
  if h : 0 < values.length ∧ values.length ≤ registerCapacity then
    .ok
      { width := values.length
        cells := Vector.ofFn fun i => values.getD i 0
        width_pos := h.1
        width_le := h.2
        rest_zero := by
          intro i hi hw
          simp [List.getD_eq_getElem?_getD, List.getElem?_eq_none hw] }
  else
    .error (.invalidWidth values.length)

/-! ## Reading and writing

    Accesses carry a proof of their bound.  `get?` asks for none, and finds nothing outside the active
    registers. -/

/-- The contents of an active register. -/
def read (s : State) (i : Nat) (h : i < s.width) : Int64 :=
  have : i < registerCapacity := Nat.lt_of_lt_of_le h s.width_le
  s.cells[i]

/-- The state with one active register replaced. -/
def write (s : State) (i : Nat) (h : i < s.width) (value : Int64) : State :=
  { s with
    cells := s.cells.set i value (Nat.lt_of_lt_of_le h s.width_le)
    rest_zero := by
      intro j hj hw
      rw [Vector.getElem_set]
      split
      · omega
      · exact s.rest_zero j hj hw }

/-- The contents of a register, if it is active. -/
def get? (s : State) (i : Nat) : Option Int64 :=
  if h : i < s.width then some (s.read i h) else none

/-- The active registers, in index order. -/
def active (s : State) : List Int64 :=
  s.cells.toList.take s.width

@[simp] theorem width_write (s : State) (i : Nat) (h : i < s.width) (value : Int64) :
    (s.write i h value).width = s.width := rfl

/-- A read sees the last value written to its register and no other write. -/
theorem read_write (s : State) (i : Nat) (h : i < s.width) (value : Int64) (j : Nat)
    (hj : j < s.width) :
    (s.write i h value).read j hj = if i = j then value else s.read j hj := by
  simp [read, write, Vector.getElem_set]

/-- The active registers are as many as the width says. -/
@[simp] theorem length_active (s : State) : s.active.length = s.width := by
  have := s.width_le
  simp [active, Nat.min_eq_left this]

theorem getElem?_active (s : State) (i : Nat) : s.active[i]? = s.get? i := by
  have hw := s.width_le
  unfold active get? read
  split
  · next h =>
    have h8 : i < registerCapacity := Nat.lt_of_lt_of_le h hw
    simp [h, Vector.getElem?_eq_getElem h8]
  · next h =>
    apply List.getElem?_eq_none
    rw [List.length_take]
    exact Nat.le_trans (Nat.min_le_left ..) (Nat.le_of_not_lt h)

/-- Two states of one width that read alike everywhere are the same state. -/
theorem ext_read {s t : State} (hw : s.width = t.width)
    (hr : ∀ i (hs : i < s.width) (ht : i < t.width), s.read i hs = t.read i ht) : s = t := by
  obtain ⟨w, cs, hp, hl, hz⟩ := s
  obtain ⟨w', cs', hp', hl', hz'⟩ := t
  obtain rfl : w = w' := hw
  suffices cs = cs' by subst this; rfl
  ext i hi
  by_cases h : i < w
  · simpa [read] using hr i h h
  · rw [hz i hi (by omega), hz' i hi (by omega)]

/-- **A state is its active registers.** -/
theorem ext_active {s t : State} (h : s.active = t.active) : s = t := by
  have hw : s.width = t.width := by simpa using congrArg List.length h
  refine ext_read hw fun i hs ht => ?_
  have hi : s.get? i = t.get? i := by rw [← getElem?_active, ← getElem?_active, h]
  simpa [get?, hs, ht] using hi

/-- A state built from a list holds that list. -/
theorem active_ofList {values : List Int64} {s : State} (h : ofList values = .ok s) :
    s.active = values := by
  unfold ofList at h
  split at h
  · next hv =>
    cases h
    apply List.ext_getElem?
    intro i
    rw [getElem?_active]
    unfold get? read
    split
    · next hi => simp [List.getElem?_eq_getElem (show i < values.length from hi)]
    · next hi => simp [List.getElem?_eq_none (Nat.le_of_not_lt hi)]
  · simp at h

/-- Building a state from its own active registers gives it back. -/
theorem ofList_active (s : State) : ofList s.active = .ok s := by
  have hw : 0 < s.active.length ∧ s.active.length ≤ registerCapacity := by
    simpa using And.intro s.width_pos s.width_le
  cases h : ofList s.active with
  | ok t => rw [ext_active (active_ofList h)]
  | error e => unfold ofList at h; rw [dif_pos hw] at h; exact absurd h (by simp)

/-! ## Fingerprint and text

    Both look at the active registers and at nothing else. -/

/-- The eight bytes of a register, least significant first. -/
def littleEndian (value : Int64) : List UInt8 :=
  [0, 8, 16, 24, 32, 40, 48, 56].map fun shift : UInt64 => (value.toUInt64 >>> shift).toUInt8

/-- The bytes that stand for the state: its active registers in index order. -/
def bytes (s : State) : List UInt8 :=
  s.active.flatMap littleEndian

/-- The content hash of the active registers. -/
def fingerprint (s : State) : Fingerprint :=
  ⟨fnv1a s.bytes⟩

/-- The active registers between square brackets. -/
def text (s : State) : String :=
  "[" ++ ", ".intercalate (s.active.map fun value => value.toInt.repr) ++ "]"

end State

end GuardedReach
