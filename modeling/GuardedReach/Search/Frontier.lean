/-
  The frontier — the first-in first-out queue of fingerprints awaiting expansion.

  First-in first-out is what makes a search breadth-first, and so what makes the first goal it meets
  a nearest one.

  1. **Program** — two lists: `front` in order and `back` reversed.  `push` adds to the back in
     constant time; `pop?` takes from the front and turns the back over when the front runs dry.
     The length, the number of pushes and the largest length so far are kept beside them.

  2. **View** — `toList` is the queue from oldest to newest.  `toList_push`, `pop?_eq_none_iff` and
     `toList_eq_cons_of_pop?` say what the operations do to it, and are all that later proofs need.
-/
import GuardedReach.Machine.Fingerprint

namespace GuardedReach

/-- A queue of fingerprints. -/
structure Frontier where
  front : List Fingerprint
  back : List Fingerprint
  length : Nat
  /-- Fingerprints ever pushed, those popped since included. -/
  pushed : Nat
  /-- The largest length the queue has had. -/
  peak : Nat
  length_eq : length = front.length + back.length

namespace Frontier

def empty : Frontier :=
  { front := [], back := [], length := 0, pushed := 0, peak := 0, length_eq := rfl }

/-- The queue from oldest to newest. -/
def toList (q : Frontier) : List Fingerprint :=
  q.front ++ q.back.reverse

def isEmpty (q : Frontier) : Bool :=
  q.length = 0

/-- Adds a fingerprint at the back.  The queue itself does not look for duplicates. -/
def push (q : Frontier) (fp : Fingerprint) : Frontier :=
  { front := q.front
    back := fp :: q.back
    length := q.length + 1
    pushed := q.pushed + 1
    peak := max q.peak (q.length + 1)
    length_eq := by simp only [List.length_cons, q.length_eq]; omega }

/-- Takes the oldest fingerprint. -/
def pop? (q : Frontier) : Option (Fingerprint × Frontier) :=
  match hf : q.front with
  | fp :: front =>
    some (fp,
      { q with
        front
        length := q.length - 1
        length_eq := by have := q.length_eq; simp only [hf, List.length_cons] at this; omega })
  | [] =>
    match hb : q.back.reverse with
    | fp :: front =>
      some (fp,
        { q with
          front
          back := []
          length := q.length - 1
          length_eq := by
            have hl := q.length_eq
            have hr := congrArg List.length hb
            simp only [List.length_reverse, List.length_cons] at hr
            simp only [hf, List.length_nil] at hl ⊢
            omega })
    | [] => none

/-! ## The view

    A queue is the list of what it holds, and that is how everything else speaks of it. -/

@[simp] theorem toList_empty : empty.toList = [] := rfl

theorem length_eq_length_toList (q : Frontier) : q.length = q.toList.length := by
  simp [toList, q.length_eq]

@[simp] theorem toList_push (q : Frontier) (fp : Fingerprint) :
    (q.push fp).toList = q.toList ++ [fp] := by
  simp [toList, push]

/-- A pop fails only on the empty queue. -/
theorem pop?_eq_none_iff (q : Frontier) : q.pop? = none ↔ q.toList = [] := by
  obtain ⟨front, back, length, pushed, peak, hl⟩ := q
  cases front with
  | cons fp rest => simp [pop?, toList]
  | nil =>
    unfold pop? toList
    simp only [List.nil_append, List.reverse_eq_nil_iff]
    split
    · next h =>
      simp only [reduceCtorEq, false_iff]
      rintro rfl
      simp at h
    · next h => simpa using h

/-- A pop takes the head of the queue and leaves the rest. -/
theorem toList_eq_cons_of_pop? {q r : Frontier} {fp : Fingerprint} (h : q.pop? = some (fp, r)) :
    q.toList = fp :: r.toList := by
  unfold pop? at h
  split at h
  · next hf => cases h; simp [toList, hf]
  · next hf =>
    split at h
    · next hb => cases h; simp [toList, hf, hb]
    · simp at h

/-- A pop changes neither the count of pushes nor the peak. -/
theorem counts_of_pop? {q r : Frontier} {fp : Fingerprint} (h : q.pop? = some (fp, r)) :
    r.pushed = q.pushed ∧ r.peak = q.peak := by
  unfold pop? at h
  split at h
  · cases h; exact ⟨rfl, rfl⟩
  · split at h
    · cases h; exact ⟨rfl, rfl⟩
    · simp at h

end Frontier

end GuardedReach
