/-
  Renaming registers — a machine does not care which register is which.

  1. **Renamings** — a permutation of the registers below a width; what lies beyond stays
     (`Renaming.position`).  The content of register `i` goes where `i` goes (`get?_state`), and so does
     every mention of `i` in an instruction.  A source that an instruction does not look at is no mention.

  2. **Instructions** — reading and writing are carried along (`read_state`, `write_state`), so every
     instruction is (`execute_instruction`).  It does not have to fit: a register beyond the width is
     refused before and after.

  3. **Actions** — `apply_action`: renaming and then acting is acting and then renaming, and one is
     refused exactly if the other is.
-/
import GuardedReach.Proofs.Machine.Execution
import Mathlib.Data.Fin.Rev

namespace GuardedReach

/-! ## Renamings

    A renaming moves the registers below a width among themselves, so every index has one place to go to and
    comes from one place. -/

/-- A renaming of the registers of states of a width. -/
structure Renaming (width : Nat) where
  perm : Equiv.Perm (Fin width)
  width_le : width ≤ registerCapacity

namespace Renaming

/-- The renaming that reverses the registers of a state. -/
def reversing (s : State) : Renaming s.width :=
  { perm := Fin.revPerm, width_le := s.width_le }

variable {width : Nat} (r : Renaming width)

/-- The renaming back. -/
def symm : Renaming width :=
  { perm := r.perm.symm, width_le := r.width_le }

/-- Where a register goes. -/
def position (i : Nat) : Nat :=
  if h : i < width then r.perm ⟨i, h⟩ else i

/-- Below the width an index goes where the permutation sends it, -/
theorem position_of_lt {i : Nat} (h : i < width) : r.position i = r.perm ⟨i, h⟩ :=
  dif_pos h

/-- beyond it stays. -/
theorem position_of_le {i : Nat} (h : width ≤ i) : r.position i = i :=
  dif_neg (Nat.not_lt.mpr h)

/-- A register stays below every bound that no register of the width reaches. -/
theorem position_lt_iff {bound : Nat} (hbound : width ≤ bound) {i : Nat} :
    r.position i < bound ↔ i < bound := by
  by_cases h : i < width
  · rw [r.position_of_lt h]
    have hlt := (r.perm ⟨i, h⟩).isLt
    omega
  · rw [r.position_of_le (Nat.le_of_not_lt h)]

/-- The inverse takes every index back, -/
theorem symm_position (i : Nat) : r.symm.position (r.position i) = i := by
  by_cases h : i < width
  · rw [r.position_of_lt h, r.symm.position_of_lt (r.perm ⟨i, h⟩).isLt]
    exact congrArg Fin.val (r.perm.symm_apply_apply ⟨i, h⟩)
  · have hle := Nat.le_of_not_lt h
    rw [r.position_of_le hle, r.symm.position_of_le hle]

/-- in either order. -/
theorem position_symm (i : Nat) : r.position (r.symm.position i) = i :=
  r.symm.symm_position i

/-- The register that an instruction names when it named `i`. -/
def index (i : UInt8) : UInt8 :=
  UInt8.ofNat (r.position i.toNat)

/-- On the indices of instructions it is the same renaming. -/
theorem toNat_index (i : UInt8) : (r.index i).toNat = r.position i.toNat := by
  have hcapacity := r.width_le
  have hlt : r.position i.toNat < UInt8.size :=
    (r.position_lt_iff (Nat.le_trans hcapacity (by decide))).mpr i.toNat_lt
  exact UInt8.toNat_ofNat_of_lt' hlt

/-- Different indices stay different. -/
theorem toNat_index_inj {i j : UInt8} : (r.index i).toNat = (r.index j).toNat ↔ i.toNat = j.toNat := by
  rw [toNat_index, toNat_index]
  constructor
  · intro h
    rw [← r.symm_position i.toNat, h, symm_position]
  · intro h
    rw [h]

/-- The state with every content where its register has gone. -/
def state (s : State) : State :=
  if h : s.width = width then
    { width := s.width
      cells := Vector.ofFn fun i => (s.get? (r.symm.position i)).getD 0
      width_pos := s.width_pos
      width_le := s.width_le
      rest_zero := by
        intro i hi hw
        rw [Vector.getElem_ofFn, r.symm.position_of_le (h ▸ hw), State.get?,
          dif_neg (Nat.not_lt.mpr hw), Option.getD_none] }
  else s

/-- A renamed state is as wide as the state. -/
@[simp] theorem width_state (s : State) : (r.state s).width = s.width := by
  unfold state
  split <;> rfl

end Renaming

/-! ## Reading and writing

    Contents go along with their registers. -/

namespace Renaming

variable {width : Nat} (r : Renaming width) {s : State}

/-- What a register holds afterwards is what was held where it came from. -/
theorem get?_state (hw : s.width = width) (i : Nat) :
    (r.state s).get? i = s.get? (r.symm.position i) := by
  have hback := r.symm.position_lt_iff (Nat.le_of_eq hw.symm) (i := i)
  by_cases hi : i < s.width
  · have hheld : s.get? (r.symm.position i) = some (s.read _ (hback.mpr hi)) := dif_pos _
    rw [hheld, State.get?_eq_some_iff]
    refine ⟨Nat.lt_of_lt_of_eq hi (r.width_state s).symm, ?_⟩
    simp only [State.read, state, dif_pos hw, Vector.getElem_ofFn, hheld, Option.getD_some]
  · have hi' : ¬ i < (r.state s).width := by
      rw [width_state]
      exact hi
    rw [State.get?, State.get?, dif_neg hi', dif_neg (mt hback.mp hi)]

/-- Renamed back, a state is itself. -/
theorem symm_state (s : State) : r.symm.state (r.state s) = s := by
  by_cases hw : s.width = width
  · refine State.ext_get? fun i => ?_
    rw [r.symm.get?_state ((r.width_state s).trans hw), r.get?_state hw]
    exact congrArg s.get? (r.symm_position i)
  · have hs : r.state s = s := dif_neg hw
    rw [hs]
    exact dif_neg hw

/-- So different states stay different. -/
theorem state_injective : Function.Injective r.state :=
  Function.LeftInverse.injective r.symm_state

/-- What is read under the new index is what was read under the old one. -/
theorem read_state (hw : s.width = width) (i : UInt8) (h : i.toNat < s.width)
    (h' : (r.index i).toNat < (r.state s).width) :
    (r.state s).read (r.index i).toNat h' = s.read i.toNat h := by
  have hheld : (r.state s).get? (r.index i).toNat = s.get? i.toNat := by
    rw [r.get?_state hw, toNat_index, symm_position]
  rw [State.get?, State.get?, dif_pos h, dif_pos h'] at hheld
  exact Option.some.inj hheld

/-- To write under the new index is to write under the old one and then rename. -/
theorem write_state (hw : s.width = width) (i : UInt8) (h : i.toNat < s.width)
    (h' : (r.index i).toNat < (r.state s).width) (value : Int64) :
    (r.state s).write (r.index i).toNat h' value = r.state (s.write i.toNat h value) := by
  refine State.ext_get? fun j => ?_
  rw [State.get?_write, r.get?_state hw, r.get?_state (s := s.write i.toNat h value) hw, State.get?_write,
    toNat_index]
  have hiff : r.position i.toNat = j ↔ i.toNat = r.symm.position j := by
    constructor
    · rintro rfl
      exact (r.symm_position _).symm
    · intro heq
      rw [heq, position_symm]
  simp only [hiff]

/-! ## Instructions

    An instruction mentions its target, and its source if it uses it. -/

/-- The instruction that does to the registers renamed what `ins` does to them. -/
def instruction (ins : Instruction) : Instruction :=
  { ins with
    target := r.index ins.target
    source := if ins.opcode.usesSource then r.index ins.source else ins.source }

/-- It fits after renaming exactly if it fitted before. -/
theorem inBounds_instruction {bound : Nat} (hbound : width ≤ bound) (ins : Instruction) :
    (r.instruction ins).InBounds bound ↔ ins.InBounds bound := by
  have hmin : width ≤ min bound registerCapacity := Nat.le_min.mpr ⟨hbound, r.width_le⟩
  have htarget := r.position_lt_iff hmin (i := ins.target.toNat)
  have hsource := r.position_lt_iff hmin (i := ins.source.toNat)
  unfold Instruction.InBounds instruction
  cases ins.opcode.usesSource with
  | false => simp [toNat_index, htarget]
  | true => simp [toNat_index, htarget, hsource]

/-- A transfer between renamed registers is the transfer, renamed. -/
theorem transfer_state (hw : s.width = width) (i j : UInt8) (hi : i.toNat < s.width)
    (hj : j.toNat < s.width) (hi' : (r.index i).toNat < (r.state s).width)
    (hj' : (r.index j).toNat < (r.state s).width) (capacity : Int64) :
    Instruction.transfer (r.state s) (r.index i).toNat (r.index j).toNat hi' hj' capacity =
      r.state (Instruction.transfer s i.toNat j.toNat hi hj capacity) := by
  unfold Instruction.transfer
  by_cases hself : i.toNat = j.toNat
  · rw [if_pos hself, if_pos (r.toNat_index_inj.mpr hself)]
  · rw [if_neg hself, if_neg (mt r.toNat_index_inj.mp hself)]
    rw [r.read_state hw i hi hi', r.read_state hw j hj hj']
    generalize Transfer.pour (s.read i.toNat hi) (s.read j.toNat hj) capacity = poured
    -- the source is written first, and the target in the state that this leaves
    have hsource := r.write_state hw j hj hj' poured.2
    have hbetween : (s.write j.toNat hj poured.2).width = width := hw
    have htarget := r.write_state hbetween i hi
      (by rw [← hsource]; exact hi') poured.1
    rw [← htarget]
    simp only [hsource]

/-- **Every instruction is carried along.** -/
theorem execute_instruction (hw : s.width = width) (ins : Instruction) :
    (r.instruction ins).execute (r.state s) = (ins.execute s).map r.state := by
  have hbounds : (r.instruction ins).InBounds (r.state s).width ↔ ins.InBounds s.width := by
    rw [width_state]
    exact r.inBounds_instruction (Nat.le_of_eq hw.symm) ins
  by_cases h : ins.InBounds s.width
  · have h' := hbounds.mpr h
    have hread := r.read_state hw ins.target h.target_lt h'.target_lt
    have hwrite := r.write_state hw ins.target h.target_lt h'.target_lt
    obtain ⟨opcode, target, source, amount⟩ := ins
    unfold Instruction.execute
    rw [dif_pos h, dif_pos h']
    cases opcode with
    | lessThan => simp only [instruction, hread]; split <;> rfl
    | equal => simp only [instruction, hread]; split <;> rfl
    | notEqual => simp only [instruction, hread]; split <;> rfl
    | assign => exact congrArg some (hwrite amount)
    | add => simp only [instruction, hread]; exact congrArg some (hwrite _)
    | subtract => simp only [instruction, hread]; exact congrArg some (hwrite _)
    | boundedTransfer => exact congrArg some (r.transfer_state hw target source _ _ _ _ amount)
  · unfold Instruction.execute
    rw [dif_neg h, dif_neg (mt hbounds.mp h)]
    rfl

/-! ## Actions

    What holds of each instruction of an action holds of the whole, by induction over a run. -/

/-- The action of the same name with its instructions renamed. -/
def action (a : Action) : Action where
  name := a.name
  instructions := a.instructions.map r.instruction
  name_ne := a.name_ne
  length_le := by
    rw [List.length_map]
    exact a.length_le
  inBounds := by
    intro ins hins
    obtain ⟨before, hbefore, rfl⟩ := List.mem_map.mp hins
    exact (r.inBounds_instruction r.width_le before).mpr (a.inBounds before hbefore)

/-- An action that passed its check passes it renamed. -/
theorem check_action {bound : Nat} (hbound : width ≤ bound) {a : Action}
    (h : a.check bound = .ok ()) : (r.action a).check bound = .ok () := by
  rw [Action.check_eq_ok_iff] at h ⊢
  intro ins hins
  obtain ⟨before, hbefore, rfl⟩ := List.mem_map.mp hins
  exact (r.inBounds_instruction hbound before).mpr (h before hbefore)

/-- Renamed instructions run on the renamed state as they ran on the state. -/
theorem runAll_map (hw : s.width = width) (instructions : List Instruction) :
    (runAll (instructions.map r.instruction) (r.state s)).toOption =
      (runAll instructions s).toOption.map r.state := by
  induction instructions generalizing s with
  | nil => rfl
  | cons ins rest ih =>
    have hexecute := r.execute_instruction hw ins
    rw [List.map_cons, runAll, runAll, hexecute]
    cases hnext : ins.execute s with
    | none => rfl
    | some next => exact ih ((Instruction.width_execute hnext).trans hw)

/-- **Every action is carried along**, and is refused exactly if it was. -/
theorem apply_action (hw : s.width = width) (a : Action) :
    (r.action a).apply (r.state s) = (a.apply s).map r.state :=
  r.runAll_map hw a.instructions

end Renaming

end GuardedReach
