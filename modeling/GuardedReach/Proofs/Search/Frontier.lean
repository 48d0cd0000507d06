/-
  Frontier history — a queue against everything that was ever done to it.

  1. **Operations** — a fingerprint is pushed or the oldest one is popped (`Operation`), in any order
     and any number of times.  A pop that fails leaves the queue as it is (`perform`).

  2. **One operation** — what stood in the queue followed by what is pushed is what is popped followed
     by what stands in it then (`toList_perform`).  The count of pushes and the peak move with it
     (`pushed_perform`, `peak_perform`).

  3. **A history** — hence the same of any number of operations (`toList_after`, `pushed_after`,
     `length_le_peak_after`, `peak_after_attained`), by induction over them from any queue.

  4. **Statement** — `history_law`, for the histories that begin with the empty queue.
-/
import GuardedReach.Search.Frontier

namespace GuardedReach

namespace Frontier

/-! ## Operations

    A history is a list of operations, the earliest first, and what it does is a fold. -/

/-- What can be done to a queue. -/
inductive Operation where
  | push (fp : Fingerprint)
  | pop
deriving DecidableEq

/-- What an operation pushes. -/
def Operation.pushed? : Operation → Option Fingerprint
  | push fp => some fp
  | pop => none

/-- What an operation pops from the queue. -/
def popped? (q : Frontier) : Operation → Option Fingerprint
  | .push _ => none
  | .pop => q.pop?.map Prod.fst

/-- The queue after an operation. -/
def perform (q : Frontier) : Operation → Frontier
  | .push fp => q.push fp
  | .pop =>
    match q.pop? with
    | some (_, rest) => rest
    | none => q

/-- What a history pushes, in order. -/
def pushes (ops : List Operation) : List Fingerprint :=
  ops.filterMap Operation.pushed?

/-- What a history pops from the queue, in order.  Pops that fail leave nothing here. -/
def pops (q : Frontier) : List Operation → List Fingerprint
  | [] => []
  | op :: rest => (q.popped? op).toList ++ (q.perform op).pops rest

/-- The queue after a history. -/
def after (q : Frontier) (ops : List Operation) : Frontier :=
  ops.foldl perform q

variable (q : Frontier) (op : Operation) (ops more : List Operation)

/-- What is pushed by a history is pushed by its operations in order. -/
theorem pushes_cons : pushes (op :: ops) = op.pushed?.toList ++ pushes ops := by
  cases op <;> rfl

/-- Two histories in a row are one, -/
theorem after_append : q.after (ops ++ more) = (q.after ops).after more :=
  List.foldl_append

/-- and give what the first gives, and then what the second gives from there. -/
theorem pops_append : q.pops (ops ++ more) = q.pops ops ++ (q.after ops).pops more := by
  induction ops generalizing q with
  | nil => rfl
  | cons op rest ih => rw [List.cons_append, pops, pops, ih, List.append_assoc]; rfl

/-! ## One operation

    Everything that is kept is a law about what stood in the queue and what stands in it then. -/

/-- **First in, first out**, of one operation. -/
theorem toList_perform :
    q.toList ++ op.pushed?.toList = (q.popped? op).toList ++ (q.perform op).toList := by
  cases op with
  | push fp => exact (toList_push q fp).symm
  | pop =>
    cases h : q.pop? with
    | none => simp [Operation.pushed?, popped?, perform, h]
    | some pair => simp [Operation.pushed?, popped?, perform, h, toList_eq_cons_of_pop? h]

/-- The count of pushes moves with what is pushed. -/
theorem pushed_perform : (q.perform op).pushed = q.pushed + op.pushed?.toList.length := by
  cases op with
  | push fp => rfl
  | pop =>
    cases h : q.pop? with
    | none => simp [Operation.pushed?, perform, h]
    | some pair => simp [Operation.pushed?, perform, h, counts_of_pop? h]

theorem length_of_pop? {q r : Frontier} {fp : Fingerprint} (h : q.pop? = some (fp, r)) :
    q.length = r.length + 1 := by
  rw [length_eq_length_toList, length_eq_length_toList, toList_eq_cons_of_pop? h, List.length_cons]

/-- The peak is that of before or the length of now, whichever is larger. -/
theorem peak_perform {q : Frontier} (h : q.length ≤ q.peak) (op : Operation) :
    (q.perform op).peak = max q.peak (q.perform op).length := by
  cases op with
  | push fp => rfl
  | pop =>
    cases hp : q.pop? with
    | none => simp [perform, hp, h]
    | some pair =>
      obtain ⟨fp, rest⟩ := pair
      have hlength := length_of_pop? hp
      have hpeak := (counts_of_pop? hp).2
      simp only [perform, hp]
      omega

/-- A pop that fails changes nothing. -/
theorem perform_pop_of_none {q : Frontier} (h : q.pop? = none) : q.perform .pop = q := by
  simp only [perform, h]

/-! ## A history

    From any queue, so that histories can be put one behind the other. -/

/-- **First in, first out**, of any number of operations. -/
theorem toList_after : q.toList ++ pushes ops = q.pops ops ++ (q.after ops).toList := by
  induction ops generalizing q with
  | nil => exact List.append_nil _
  | cons op rest ih =>
    calc q.toList ++ pushes (op :: rest)
      _ = (q.toList ++ op.pushed?.toList) ++ pushes rest := by rw [pushes_cons, List.append_assoc]
      _ = (q.popped? op).toList ++ ((q.perform op).toList ++ pushes rest) := by
        rw [toList_perform, List.append_assoc]
      _ = q.pops (op :: rest) ++ (q.after (op :: rest)).toList := by
        rw [ih, pops, List.append_assoc]; rfl

/-- After any history the count has grown by what was pushed. -/
theorem pushed_after : (q.after ops).pushed = q.pushed + (pushes ops).length := by
  induction ops generalizing q with
  | nil => rfl
  | cons op rest ih =>
    have hrest : (q.after (op :: rest)).pushed = (q.perform op).pushed + (pushes rest).length :=
      ih (q.perform op)
    rw [hrest, pushed_perform, pushes_cons, List.length_append, Nat.add_assoc]

variable {q} {ops}

/-- The queue has at no moment been longer than its peak. -/
theorem length_le_peak_after (h : q.length ≤ q.peak) :
    q.peak ≤ (q.after ops).peak ∧
      ∀ before, before <+: ops → (q.after before).length ≤ (q.after ops).peak := by
  induction ops generalizing q with
  | nil =>
    refine ⟨Nat.le_refl _, fun before hbefore => ?_⟩
    obtain rfl := List.prefix_nil.mp hbefore
    exact h
  | cons op rest ih =>
    have hpeak := peak_perform h op
    obtain ⟨hkept, hlengths⟩ := ih (q := q.perform op) (by omega)
    have hkept : (q.perform op).peak ≤ (q.after (op :: rest)).peak := hkept
    refine ⟨by omega, fun before hbefore => ?_⟩
    rcases List.prefix_cons_iff.mp hbefore with rfl | ⟨tail, rfl, htail⟩
    · show q.length ≤ _
      omega
    · exact hlengths tail htail

/-- Unless the peak is that of the beginning, the queue has been as long as that at some moment. -/
theorem peak_after_attained (ops : List Operation) (h : q.length ≤ q.peak) :
    (q.after ops).peak = q.peak ∨
      ∃ before, before <+: ops ∧ (q.after before).length = (q.after ops).peak := by
  induction ops generalizing q with
  | nil => exact Or.inl rfl
  | cons op rest ih =>
    have hpeak := peak_perform h op
    rcases ih (q := q.perform op) (by omega) with hsame | ⟨tail, htail, hlength⟩
    · have hsame : (q.after (op :: rest)).peak = (q.perform op).peak := hsame
      by_cases hgrown : (q.perform op).length ≤ q.peak
      · exact Or.inl (by omega)
      · have hnow : (q.perform op).length = (q.after (op :: rest)).peak := by omega
        exact Or.inr ⟨[op], by simp, hnow⟩
    · exact Or.inr ⟨op :: tail, List.cons_prefix_cons.mpr ⟨rfl, htail⟩, hlength⟩

/-! ## Statement

    The queue that a history begins with is empty, and its counters are zero. -/

/-- **The law of a frontier.**  After any history of a new queue: what was popped is the beginning of
    what was pushed, in its order, and the queue holds the rest; the count of pushes is exact, and the
    length is what is left of it when each pop that succeeded is taken off; the next pop fails exactly
    if all that was pushed has been popped, and then changes nothing; and the peak is the largest length
    of the queue at any moment of the history. -/
theorem history_law (ops : List Operation) :
    (empty.pops ops <+: pushes ops ∧
      (empty.after ops).toList = (pushes ops).drop (empty.pops ops).length) ∧
    ((empty.after ops).pushed = (pushes ops).length ∧
      (empty.pops ops).length ≤ (empty.after ops).pushed ∧
      (empty.after ops).length = (empty.after ops).pushed - (empty.pops ops).length) ∧
    (((empty.after ops).pop? = none ↔ empty.pops ops = pushes ops) ∧
      ((empty.after ops).pop? = none →
        empty.after (ops ++ [.pop]) = empty.after ops ∧
        empty.pops (ops ++ [.pop]) = empty.pops ops)) ∧
    ((∀ before, before <+: ops → (empty.after before).length ≤ (empty.after ops).peak) ∧
      ∃ before, before <+: ops ∧ (empty.after before).length = (empty.after ops).peak) := by
  have horder : pushes ops = empty.pops ops ++ (empty.after ops).toList := empty.toList_after ops
  have hcount : (empty.after ops).pushed = (pushes ops).length :=
    (empty.pushed_after ops).trans (Nat.zero_add _)
  -- all counts follow from the order in which fingerprints went through the queue
  have hlength := congrArg List.length horder
  rw [List.length_append, ← length_eq_length_toList] at hlength
  have hempty : empty.length ≤ empty.peak := Nat.le_refl 0
  refine ⟨⟨⟨_, horder.symm⟩, ?_⟩, ⟨hcount, by omega, by omega⟩, ⟨?_, fun hfails => ?_⟩, ?_, ?_⟩
  · rw [horder, List.drop_left]
  · rw [pop?_eq_none_iff]
    constructor
    · intro hnone
      rw [horder, hnone, List.append_nil]
    · intro hall
      rw [hall] at horder
      exact List.self_eq_append_right.mp horder
  · constructor
    · rw [after_append]
      exact perform_pop_of_none hfails
    · rw [pops_append]
      simp [pops, popped?, hfails]
  · exact (length_le_peak_after hempty).2
  · rcases peak_after_attained ops hempty with hnone | hsome
    · -- a queue that was never anything but empty
      exact ⟨[], List.nil_prefix, hnone.symm⟩
    · exact hsome

end Frontier

end GuardedReach
