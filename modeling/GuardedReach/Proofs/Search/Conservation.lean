/-
  Conservation — what is poured from one register to another is lost nowhere on the way.

  1. **Specification** — `State.total` is the sum of the active registers, and `OnlyPours` says that an
     instruction which changes anything is a transfer.  The sum is kept modulo `2^64` and no better: a
     transfer into a register far above its capacity may wrap around.

  2. **Steps** — writing a register changes the total by the difference (`State.total_write`); the two
     writes of a transfer cancel out (`total_transfer`), and a register poured into itself is written
     not at all.

  3. **Runs** — what one instruction keeps, a sequence keeps (`total_runAll`), and so does every word of
     actions (`OnlyPours.total_reachable`).

  4. **Statement** — `Explorer.total_conserved`: all that a search stores or returns is reachable.
-/
import GuardedReach.Proofs.Machine.Execution
import GuardedReach.Proofs.Search.Closure
import Mathlib.Algebra.BigOperators.Group.List.Basic
import Mathlib.Data.Int.ModEq

namespace GuardedReach

/-! ## Specification

    The total is an integer and does not wrap.  What is kept of it is its residue. -/

/-- The sum of the active registers, as integers. -/
def State.total (s : State) : Int :=
  (s.active.map Int64.toInt).sum

/-- An instruction that does more than compare is a transfer. -/
def Instruction.OnlyPours (ins : Instruction) : Prop :=
  ins.isGuard = false → ins.opcode = .boundedTransfer

instance (ins : Instruction) : Decidable ins.OnlyPours :=
  inferInstanceAs (Decidable (_ → _))

/-- The actions of the system do nothing but pour. -/
def TransitionSystem.OnlyPours (system : TransitionSystem) : Prop :=
  ∀ a ∈ system.actions, ∀ ins ∈ a.instructions, ins.OnlyPours

instance (system : TransitionSystem) : Decidable system.OnlyPours :=
  inferInstanceAs (Decidable (∀ a ∈ system.actions, ∀ ins ∈ a.instructions, ins.OnlyPours))

/-! ## Steps

    A register that is written changes the total by what it changes itself, up to the modulus. -/

/-- Writing a register takes out of the total what it held and puts in what it holds. -/
theorem State.total_write (s : State) (i : Nat) (h : i < s.width) (value : Int64) :
    (s.write i h value).total = s.total - (s.read i h).toInt + value.toInt := by
  have hlen : i < (s.active.map Int64.toInt).length := by
    rwa [List.length_map, State.length_active]
  have hread : (s.active.map Int64.toInt)[i] = (s.read i h).toInt := by
    have hsome : s.active[i]? = some (s.read i h) :=
      (s.getElem?_active i).trans (State.get?_eq_some_iff.mpr ⟨h, rfl⟩)
    obtain ⟨hi, hheld⟩ := List.getElem?_eq_some_iff.mp hsome
    rw [List.getElem_map, hheld]
  unfold total
  rw [State.active_write, List.map_set, List.sum_set', dif_pos hlen, hread]
  omega

namespace Instruction

variable {ins : Instruction} {s t : State}

/-- The second register is written when the first has been, and it is another. -/
theorem total_transfer {target source : Nat} (htarget : target < s.width) (hsource : source < s.width)
    (capacity : Int64) :
    (transfer s target source htarget hsource capacity).total ≡ s.total [ZMOD 2 ^ 64] := by
  unfold transfer
  split
  · exact Int.ModEq.refl _
  · next hne =>
    have hother : ∀ value, (s.write source hsource value).read target htarget = s.read target htarget :=
      fun value => (s.read_write source hsource value target htarget).trans (if_neg (Ne.symm hne))
    have hpoured := Transfer.pour_conserves (s.read target htarget) (s.read source hsource) capacity
    generalize Transfer.pour (s.read target htarget) (s.read source hsource) capacity = poured at hpoured
    have hafter := toInt_add_emod poured.1 poured.2
    have hbefore := toInt_add_emod (s.read target htarget) (s.read source hsource)
    rw [hpoured] at hafter
    have htotal : ((s.write source hsource poured.2).write target htarget poured.1).total =
        s.total - (s.read source hsource).toInt + poured.2.toInt - (s.read target htarget).toInt +
          poured.1.toInt := by
      refine (State.total_write (s.write source hsource poured.2) target htarget poured.1).trans ?_
      rw [hother, State.total_write]
    show State.total _ % 18446744073709551616 = s.total % 18446744073709551616
    rw [htotal]
    omega

/-- One instruction keeps the total, -/
theorem total_execute (hpours : ins.OnlyPours) (h : ins.execute s = some t) :
    t.total ≡ s.total [ZMOD 2 ^ 64] := by
  cases hguard : ins.isGuard with
  | true => rw [execute_guard hguard h]
  | false =>
    have hfits := inBounds_of_execute h
    rw [execute_of_transfer (hpours hguard) hfits] at h
    obtain rfl := Option.some.inj h
    exact total_transfer _ _ _

end Instruction

/-! ## Runs

    A guard keeps the state, a transfer its total, and there is nothing else. -/

/-- a sequence keeps it, -/
theorem total_runAll {instructions : List Instruction} {s t : State}
    (hpours : ∀ ins ∈ instructions, ins.OnlyPours) (h : runAll instructions s = .ok t) :
    t.total ≡ s.total [ZMOD 2 ^ 64] := by
  refine runAll_induction (P := fun u => u.total ≡ s.total [ZMOD 2 ^ 64]) ?_ (Int.ModEq.refl _) h
  intro ins hins u v hu hexecute
  exact (Instruction.total_execute (hpours ins hins) hexecute).trans hu

/-- and so does any word of actions. -/
theorem TransitionSystem.OnlyPours.total_reachable {system : TransitionSystem}
    (hpours : system.OnlyPours) {s : State} (h : system.Reachable s) :
    s.total ≡ system.initial.total [ZMOD 2 ^ 64] := by
  refine h.induction (P := fun t => t.total ≡ system.initial.total [ZMOD 2 ^ 64]) (Int.ModEq.refl _) ?_
  intro r t index a hr ha hat
  have hstep := total_runAll (hpours a (List.mem_of_getElem? ha)) (Action.apply_eq_some_iff.mp hat)
  exact hstep.trans hr

namespace Explorer

/-! ## Statement

    What is reachable, what is stored and what stands on a trace, each of the total that the search began
    with. -/

/-- **What is only poured stays the same in all.**  In a system whose actions do nothing but pour, every
    reachable state has the total of the initial state modulo `2^64`; so has every state that a search
    has stored, every state of a trace that is asked of it, and every state of the trace that it ends
    with. -/
theorem total_conserved {system : TransitionSystem} (hpours : system.OnlyPours) :
    (∀ s : State, system.Reachable s → s.total ≡ system.initial.total [ZMOD 2 ^ 64]) ∧
    ∀ (goal : Goal) (settings : Settings) (e : Explorer), Arises system goal settings e →
      (∀ (fp : Fingerprint) (s : State), e.store[fp]? = some s →
        s.total ≡ system.initial.total [ZMOD 2 ^ 64]) ∧
      (∀ (fp : Fingerprint) (w : Witness), e.witness fp = .ok w → ∀ s ∈ w.states,
        s.total ≡ system.initial.total [ZMOD 2 ^ 64]) ∧
      ∀ (wanted : Event → Bool) (finished : Finished) (w : Witness),
        e.run wanted = .ok finished → finished.outcome = .found w → ∀ s ∈ w.states,
          s.total ≡ system.initial.total [ZMOD 2 ^ 64] := by
  refine ⟨fun s h => hpours.total_reachable h, ?_⟩
  intro goal settings e h
  refine ⟨?_, ?_, ?_⟩
  · intro fp s hs
    exact hpours.total_reachable (h.reachable_of_stored hs)
  · intro fp w hw s hs
    exact hpours.total_reachable (h.reachable_of_witness hw hs)
  · intro wanted finished w hrun hfound s hs
    obtain ⟨fp, -, hwitness⟩ := found_of_run hrun hfound
    exact hpours.total_reachable ((h.run hrun).reachable_of_witness hwitness hs)

/-- Eight units are shared out among jugs of eight, five and three; when the second holds four, the
    first can be drained into a register that is full to the brim of its word. -/
def decanting : Puzzle where
  name := "decanting"
  registers := [{ name := "eight", initial := 8 }, { name := "five", initial := 0 },
    { name := "three", initial := 0 }, { name := "brim", initial := Int64.maxValue }]
  actions := [pourJug "EightToFive" 1 0 5, pourJug "FiveToThree" 2 1 3, pourJug "ThreeToEight" 0 2 8,
    { name := "Stir", instructions := [.boundedTransfer 2 2 0] },
    { name := "Drain", instructions := [.equal 1 4, .boundedTransfer 3 0 (-2)] }]
  target := [.lessThan 3 0]

/-- The trace that drains the first jug: a transfer wraps around on the way, so that the totals of its
    states, which are the same modulo `2^64`, are not all the same. -/
theorem decanting_conserves :
    ∃ (system : TransitionSystem) (goal : Goal) (e : Explorer) (finished : Finished) (w : Witness),
      decanting.build = .ok (system, goal) ∧ system.OnlyPours ∧
      Explorer.start system goal Settings.default = .ok e ∧
      e.run (fun _ => false) = .ok finished ∧ finished.outcome = .found w ∧
      (∀ s ∈ w.states, s.total ≡ system.initial.total [ZMOD 2 ^ 64]) ∧
      ∃ s ∈ w.states, s.total ≠ system.initial.total := by
  have hpours : (decanting.build).toOption.any (fun built => decide built.1.OnlyPours) = true := by
    decide +kernel
  have hquery : (decanting.finish Settings.default).any (fun finished =>
      finished.outcome.witness?.any fun w => w.states.any fun s =>
        decide (s.total ≠ finished.explorer.system.initial.total)) = true := by decide +kernel
  obtain ⟨finished, hfinish, hfound⟩ := (Option.any_eq_true ..).mp hquery
  obtain ⟨system, goal, e, hbuild, hstart, hrun⟩ := Puzzle.exists_of_finish hfinish
  rw [hbuild] at hpours
  have hpours : system.OnlyPours := of_decide_eq_true hpours
  obtain ⟨w, hsome, hdiffers⟩ := (Option.any_eq_true ..).mp hfound
  have hw := eq_found_of_witness? hsome
  obtain ⟨s, hs, hne⟩ := List.any_eq_true.mp hdiffers
  obtain ⟨trail, htrail⟩ := ((Arises.start hstart).run hrun).trailed
  rw [htrail.frame.1] at hne
  obtain ⟨-, hsearches⟩ := total_conserved hpours
  obtain ⟨-, -, htrace⟩ := hsearches goal Settings.default e (.start hstart)
  exact ⟨system, goal, e, finished, w, hbuild, hpours, hstart, hrun, hw, htrace _ finished w hrun hw,
    s, hs, of_decide_eq_true hne⟩

end Explorer

end GuardedReach
