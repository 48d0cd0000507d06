/-
  Execution — what instructions do to registers that are there.

  1. **Registers** — a register that is there has a content (`State.get?_eq_some_iff`), and writing it
     replaces one item in the list of active registers (`State.active_write`) and changes no other
     content (`State.get?_write`).

  2. **Equations** — an instruction that fits either looks at its target alone (`execute_of_unary`):
     `passes` says whether it goes ahead, and `leaves` what it leaves there; or it is a transfer
     (`execute_of_transfer`), which always goes ahead.

  3. **Instructions** — each kind has one lemma, for any state in which the registers it names are
     there: a guard keeps the state or refuses, an effect is never refused and says which registers it
     replaces.

  4. **Sequences** — `runAll_induction`: what each instruction preserves, a run that comes to its end
     preserves.

  5. **Exactness** — `Instruction.Exact` says that nothing the instruction computes wraps around, and
     `RunsExactly` that nothing does while instructions run on a copy of the state.
-/
import GuardedReach.Machine.Action
import GuardedReach.Proofs.Machine.Transfer

namespace GuardedReach

/-! ## Registers

    A state is known by the contents of its registers.  What writing does is said of the content at each
    index and of the list as a whole. -/

namespace State

/-- A content is what is read from a register that is there. -/
theorem get?_eq_some_iff {s : State} {i : Nat} {value : Int64} :
    s.get? i = some value ↔ ∃ h : i < s.width, s.read i h = value := by
  unfold get?
  split
  · next h => simp [h]
  · next h => simp [h]

/-- States that hold the same registers are the same. -/
theorem ext_get? {s t : State} (h : ∀ i, s.get? i = t.get? i) : s = t := by
  refine ext_active (List.ext_getElem? fun i => ?_)
  rw [getElem?_active, getElem?_active, h]

/-- Writing changes the content at its own index and at no other. -/
theorem get?_write (s : State) (i : Nat) (h : i < s.width) (value : Int64) (j : Nat) :
    (s.write i h value).get? j = if i = j then some value else s.get? j := by
  unfold get?
  by_cases hj : j < s.width
  · rw [dif_pos hj, dif_pos (show j < (s.write i h value).width from hj), read_write]
    split <;> rfl
  · have hne : i ≠ j := by omega
    rw [dif_neg hj, dif_neg (show ¬ j < (s.write i h value).width from hj), if_neg hne]

/-- Writing what is there already changes nothing. -/
theorem write_read (s : State) (i : Nat) (h : i < s.width) : s.write i h (s.read i h) = s := by
  refine ext_get? fun j => ?_
  rw [get?_write]
  split
  · next heq =>
    subst heq
    exact (get?_eq_some_iff.mpr ⟨h, rfl⟩).symm
  · rfl

/-- In the list of registers it replaces one item. -/
theorem active_write (s : State) (i : Nat) (h : i < s.width) (value : Int64) :
    (s.write i h value).active = s.active.set i value := by
  unfold active write
  rw [Vector.toList_set, List.take_set]

/-- To replace an item by itself is to do nothing. -/
theorem set_active_self {s : State} {i : Nat} {value : Int64} (h : s.get? i = some value) :
    s.active.set i value = s.active := by
  rw [← getElem?_active] at h
  obtain ⟨hi, rfl⟩ := List.getElem?_eq_some_iff.mp h
  exact List.set_getElem_self hi

end State

/-! ## Equations

    Most instructions ask one question of their target and leave one value there; the transfer is the only
    one that looks at two registers. -/

namespace Instruction

section

variable {ins : Instruction} {s : State}

/-- Only a transfer looks at its source. -/
theorem usesSource_iff (ins : Instruction) :
    ins.opcode.usesSource = true ↔ ins.opcode = .boundedTransfer := by
  cases ins.opcode <;> simp [Opcode.usesSource]

/-- Whether the comparison of a guard holds of the content of its register.  An effect compares
    nothing. -/
def passes (ins : Instruction) (held : Int64) : Bool :=
  match ins.opcode with
  | .lessThan => held < ins.amount
  | .equal => held = ins.amount
  | .notEqual => held ≠ ins.amount
  | .assign | .add | .subtract | .boundedTransfer => true

/-- What an instruction that looks at no other register makes of the content of its target. -/
def leaves (ins : Instruction) (held : Int64) : Int64 :=
  match ins.opcode with
  | .assign => ins.amount
  | .add => held + ins.amount
  | .subtract => held - ins.amount
  | .lessThan | .equal | .notEqual | .boundedTransfer => held

/-- What does not go ahead is a guard. -/
theorem isGuard_of_not_passes {held : Int64} (h : ins.passes held = false) :
    ins.isGuard = true := by
  unfold passes at h
  unfold isGuard
  cases hop : ins.opcode <;> simp_all [Opcode.isGuard]

/-- An instruction without its registers is refused. -/
theorem execute_of_not_inBounds (h : ¬ ins.InBounds s.width) : ins.execute s = none :=
  dif_neg h

/-- What has happened had its registers. -/
theorem inBounds_of_execute {t : State} (h : ins.execute s = some t) : ins.InBounds s.width := by
  by_cases hfits : ins.InBounds s.width
  · exact hfits
  · exact absurd ((execute_of_not_inBounds hfits).symm.trans h) (by simp)

/-- **An instruction of one register**: it goes ahead or is refused by what it finds there. -/
theorem execute_of_unary (hop : ins.opcode.usesSource = false) (h : ins.InBounds s.width) :
    ins.execute s =
      if ins.passes (s.read ins.target.toNat h.target_lt) then
        some (s.write ins.target.toNat h.target_lt
          (ins.leaves (s.read ins.target.toNat h.target_lt)))
      else none := by
  obtain ⟨opcode, target, source, amount⟩ := ins
  unfold execute
  rw [dif_pos h]
  cases opcode with
  | lessThan => simp only [passes, leaves, s.write_read, decide_eq_true_eq]
  | equal => simp only [passes, leaves, s.write_read, decide_eq_true_eq]
  | notEqual => simp only [passes, leaves, s.write_read, decide_eq_true_eq]
  | assign => rfl
  | add => rfl
  | subtract => rfl
  | boundedTransfer => exact Bool.noConfusion hop

/-- **A transfer** goes ahead whatever it finds. -/
theorem execute_of_transfer (hop : ins.opcode = .boundedTransfer) (h : ins.InBounds s.width) :
    ins.execute s = some (transfer s ins.target.toNat ins.source.toNat h.target_lt
      (h.source_lt ((usesSource_iff ins).mpr hop)) ins.amount) := by
  obtain ⟨opcode, target, source, amount⟩ := ins
  obtain rfl : opcode = .boundedTransfer := hop
  exact dif_pos h

/-- An instruction that fits is refused exactly if it is a guard whose comparison is false. -/
theorem execute_eq_none_iff (h : ins.InBounds s.width) :
    ins.execute s = none ↔
      ins.isGuard = true ∧ ins.passes (s.read ins.target.toNat h.target_lt) = false := by
  rw [and_iff_right_of_imp isGuard_of_not_passes]
  cases huses : ins.opcode.usesSource with
  | true =>
    have hop := (usesSource_iff ins).mp huses
    have hpasses : ins.passes (s.read ins.target.toNat h.target_lt) = true := by
      unfold passes
      rw [hop]
    rw [execute_of_transfer hop h, hpasses]
    simp
  | false =>
    rw [execute_of_unary huses h]
    simp

end

/-! ## Instructions

    The equations are read for each opcode by itself, of states in which the registers have contents. -/

variable {s : State} {i j : UInt8} {u v : Int64} (amount : Int64)

/-- With its register there an instruction fits. -/
theorem inBounds_unary {opcode : Opcode} (hop : opcode.usesSource = false)
    (h : i.toNat < s.width) : (unary opcode i amount).InBounds s.width := by
  refine ⟨Nat.lt_min.mpr ⟨h, Nat.lt_of_lt_of_le h s.width_le⟩, fun huses => ?_⟩
  exact absurd (hop.symm.trans huses) (by simp)

/-- The first guard compares by order, -/
theorem execute_lessThan (h : s.get? i.toNat = some u) :
    (lessThan i amount).execute s = if u < amount then some s else none := by
  obtain ⟨hi, rfl⟩ := State.get?_eq_some_iff.mp h
  exact dif_pos (inBounds_unary amount rfl hi)

/-- the second asks for a difference, -/
theorem execute_notEqual (h : s.get? i.toNat = some u) :
    (notEqual i amount).execute s = if u ≠ amount then some s else none := by
  obtain ⟨hi, rfl⟩ := State.get?_eq_some_iff.mp h
  exact dif_pos (inBounds_unary amount rfl hi)

/-- and the third for equality. -/
theorem execute_equal (h : s.get? i.toNat = some u) :
    (equal i amount).execute s = if u = amount then some s else none := by
  obtain ⟨hi, rfl⟩ := State.get?_eq_some_iff.mp h
  exact dif_pos (inBounds_unary amount rfl hi)

/-- An assignment replaces the content of its target. -/
theorem execute_assign (h : s.get? i.toNat = some u) :
    ∃ t, (assign i amount).execute s = some t ∧ t.active = s.active.set i.toNat amount := by
  obtain ⟨hi, rfl⟩ := State.get?_eq_some_iff.mp h
  exact ⟨_, dif_pos (inBounds_unary amount rfl hi), State.active_write s _ hi amount⟩

/-- A transfer between two registers replaces both contents. -/
theorem execute_boundedTransfer (hne : i ≠ j) (hi : s.get? i.toNat = some u)
    (hj : s.get? j.toNat = some v) :
    ∃ t, (boundedTransfer i j amount).execute s = some t ∧
      t.active = (s.active.set j.toNat (Transfer.pour u v amount).2).set i.toNat
        (Transfer.pour u v amount).1 := by
  obtain ⟨hti, rfl⟩ := State.get?_eq_some_iff.mp hi
  obtain ⟨htj, rfl⟩ := State.get?_eq_some_iff.mp hj
  have hin : (boundedTransfer i j amount).InBounds s.width :=
    ⟨Nat.lt_min.mpr ⟨hti, Nat.lt_of_lt_of_le hti s.width_le⟩,
      fun _ => Nat.lt_min.mpr ⟨htj, Nat.lt_of_lt_of_le htj s.width_le⟩⟩
  have hdistinct : i.toNat ≠ j.toNat := fun h => hne (UInt8.toNat_inj.mp h)
  refine ⟨_, dif_pos hin, ?_⟩
  show (transfer s i.toNat j.toNat hti htj amount).active = _
  unfold transfer
  rw [if_neg hdistinct, ← State.active_write s j.toNat htj]
  exact State.active_write ..

/-! ## Sequences

    A sequence runs each instruction on what the one before it has left. -/

end Instruction

/-- It comes to its end if the first instruction happens and the rest comes to its end from there. -/
theorem runAll_cons_eq_ok_iff {ins : Instruction} {rest : List Instruction} {s t : State} :
    runAll (ins :: rest) s = .ok t ↔
      ∃ next, ins.execute s = some next ∧ runAll rest next = .ok t := by
  rw [runAll]
  cases ins.execute s <;> simp

/-- **Induction over a run.**  What no instruction breaks holds at the end if it holds at the start. -/
theorem runAll_induction {P : State → Prop} {instructions : List Instruction}
    (hstep : ∀ ins ∈ instructions, ∀ s t, P s → ins.execute s = some t → P t) {s t : State} (hs : P s)
    (h : runAll instructions s = .ok t) : P t := by
  induction instructions generalizing s with
  | nil => rwa [← Except.ok.inj h]
  | cons ins rest ih =>
    obtain ⟨next, hnext, hrest⟩ := runAll_cons_eq_ok_iff.mp h
    have hthis := hstep ins (List.mem_cons_self ..) s next hs hnext
    exact ih (fun ins' hins' => hstep ins' (List.mem_cons_of_mem _ hins')) hthis hrest

/-! ## Exactness

    Only transfers compute, so only they have to be asked whether anything wraps around. -/

namespace Instruction

/-- Nothing that the instruction computes on the state wraps around.  Guards and assignments compute
    nothing, nor does a transfer of a register into itself. -/
def Exact (ins : Instruction) (s : State) : Prop :=
  match ins.opcode with
  | .lessThan | .equal | .notEqual | .assign => True
  | .add => ∀ u, s.get? ins.target.toNat = some u → IsWord (u.toInt + ins.amount.toInt)
  | .subtract => ∀ u, s.get? ins.target.toNat = some u → IsWord (u.toInt - ins.amount.toInt)
  | .boundedTransfer => ins.target ≠ ins.source → ∀ u v, s.get? ins.target.toNat = some u →
      s.get? ins.source.toNat = some v → Transfer.Exact u v ins.amount

/-- A guard computes nothing. -/
theorem exact_of_isGuard {ins : Instruction} (h : ins.isGuard = true) (s : State) :
    ins.Exact s := by
  unfold isGuard at h
  unfold Exact
  cases hop : ins.opcode <;> simp_all [Opcode.isGuard]

end Instruction

/-- Nothing wraps around while the instructions run, up to the first that is refused. -/
def RunsExactly : List Instruction → State → Prop
  | [], _ => True
  | ins :: rest, s => ins.Exact s ∧ ∀ t, ins.execute s = some t → RunsExactly rest t

/-- What comes after a guard runs on the state the guard was tried on. -/
theorem runsExactly_cons_of_isGuard {ins : Instruction} {rest : List Instruction} {s : State}
    (hg : ins.isGuard = true) (h : RunsExactly rest s) : RunsExactly (ins :: rest) s := by
  refine ⟨Instruction.exact_of_isGuard hg s, ?_⟩
  intro t ht
  rwa [Instruction.execute_guard hg ht]

/-- A single instruction runs exactly if it is exact. -/
theorem runsExactly_singleton {ins : Instruction} {s : State} (h : ins.Exact s) :
    RunsExactly [ins] s :=
  ⟨h, fun _ _ => trivial⟩

end GuardedReach
