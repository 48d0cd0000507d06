/-
  Pouring — which levels two jugs can be brought to.

  1. **Levels** — `Poured small big x y`: the jugs of these capacities, empty at first, can hold `x`
     and `y` units.  Nothing stops a jug from being filled when it is full or poured when it is
     empty; it just makes no difference.

  2. **Bounds** — both levels stay within the capacities and multiples of their greatest common
     divisor, and one of the jugs is always empty or full.

  3. **Strategy** — fill the small jug and pour it into the big one, which is emptied whenever it is
     full.  Each round adds `small` to the big jug modulo `big` (`Poured.drain`), so `k` rounds leave
     `k * small % big`, and every multiple of the greatest common divisor is of that form.

  4. **Statement** — `exists_poured_iff`.
-/
import Mathlib.Data.Int.GCD

namespace GuardedReach

/-! ## Levels

    Natural numbers, with no machine and no search in sight. -/

/-- The levels that two jugs can be brought to. -/
inductive Poured (small big : Nat) : Nat → Nat → Prop where
  | empty : Poured small big 0 0
  | fillSmall {x y : Nat} (h : Poured small big x y) : Poured small big small y
  | fillBig {x y : Nat} (h : Poured small big x y) : Poured small big x big
  | emptySmall {x y : Nat} (h : Poured small big x y) : Poured small big 0 y
  | emptyBig {x y : Nat} (h : Poured small big x y) : Poured small big x 0
  | smallToBig {x y : Nat} (h : Poured small big x y) :
      Poured small big (x - min x (big - y)) (y + min x (big - y))
  | bigToSmall {x y : Nat} (h : Poured small big x y) :
      Poured small big (x + min y (small - x)) (y - min y (small - x))

namespace Poured

variable {small big x y : Nat}

/-! ## Bounds

    What each pouring keeps, by induction over pourings. -/

theorem le (h : Poured small big x y) : x ≤ small ∧ y ≤ big := by
  induction h with
  | empty => omega
  | fillSmall _ ih | fillBig _ ih | emptySmall _ ih | emptyBig _ ih | smallToBig _ ih
  | bigToSmall _ ih => omega

/-- One of the jugs is empty or full: a pouring stops only when it has to. -/
theorem extreme (h : Poured small big x y) : x = 0 ∨ x = small ∨ y = 0 ∨ y = big := by
  cases h with
  | empty => exact Or.inl rfl
  | fillSmall _ => exact Or.inr (Or.inl rfl)
  | fillBig _ => exact Or.inr (Or.inr (Or.inr rfl))
  | emptySmall _ => exact Or.inl rfl
  | emptyBig _ => exact Or.inr (Or.inr (Or.inl rfl))
  | smallToBig h =>
    obtain ⟨-, hy⟩ := h.le
    omega
  | bigToSmall h =>
    obtain ⟨hx, -⟩ := h.le
    omega

theorem gcd_dvd (h : Poured small big x y) : Nat.gcd small big ∣ x ∧ Nat.gcd small big ∣ y := by
  have hsmall := Nat.gcd_dvd_left small big
  have hbig := Nat.gcd_dvd_right small big
  induction h with
  | empty => exact ⟨Nat.dvd_zero _, Nat.dvd_zero _⟩
  | fillSmall _ ih => exact ⟨hsmall, ih.2⟩
  | fillBig _ ih => exact ⟨ih.1, hbig⟩
  | emptySmall _ ih => exact ⟨Nat.dvd_zero _, ih.2⟩
  | emptyBig _ ih => exact ⟨ih.1, Nat.dvd_zero _⟩
  | smallToBig _ ih =>
    have hmoved := min_rec' (Nat.gcd small big ∣ ·) ih.1 (Nat.dvd_sub hbig ih.2)
    exact ⟨Nat.dvd_sub ih.1 hmoved, Nat.dvd_add ih.2 hmoved⟩
  | bigToSmall _ ih =>
    have hmoved := min_rec' (Nat.gcd small big ∣ ·) ih.2 (Nat.dvd_sub hsmall ih.1)
    exact ⟨Nat.dvd_add ih.1 hmoved, Nat.dvd_sub ih.2 hmoved⟩

/-! ## Strategy

    That enough levels can be had is shown by having them. -/

/-- The small jug can be drained through the big one, which then holds what both did modulo its
    capacity.  Each time the big one is full it is emptied, and there is less to drain. -/
theorem drain (hbig : 0 < big) (h : Poured small big x y) :
    Poured small big 0 ((x + y) % big) := by
  induction hsum : x + y using Nat.strongRecOn generalizing x y with
  | ind n ih =>
    obtain ⟨-, hy⟩ := h.le
    have hpoured := h.smallToBig
    by_cases hroom : x + y < big
    · have hmoved : min x (big - y) = x := by omega
      rw [hmoved, Nat.sub_self, Nat.add_comm y x] at hpoured
      rw [← hsum, Nat.mod_eq_of_lt hroom]
      exact hpoured
    · have hmoved : min x (big - y) = big - y := by omega
      rw [hmoved] at hpoured
      have hleft : x - (big - y) + 0 = n - big := by omega
      have hless := ih (n - big) (by omega) hpoured.emptyBig hleft
      rwa [← Nat.mod_eq_sub_mod (by omega)] at hless

/-- After `k` rounds. -/
theorem rounds (hbig : 0 < big) (k : Nat) : Poured small big 0 (k * small % big) := by
  induction k with
  | zero =>
    rw [Nat.zero_mul, Nat.zero_mod]
    exact .empty
  | succ k ih =>
    have hround := ih.fillSmall.drain hbig
    have hmod : (small + k * small % big) % big = (k + 1) * small % big := by
      rw [Nat.add_mod_mod, Nat.succ_mul, Nat.add_comm]
    rwa [hmod] at hround

/-- Every multiple of the greatest common divisor below the capacity of the big jug is what some
    number of rounds leaves. -/
theorem exists_rounds (hy : y < big) (h : Nat.gcd small big ∣ y) :
    ∃ k, k * small % big = y := by
  obtain ⟨c, rfl⟩ := h
  by_cases hgcd : Nat.gcd small big < big
  · obtain ⟨m, -, hm⟩ := Nat.exists_mul_mod_eq_gcd hgcd
    refine ⟨m * c, ?_⟩
    calc
      m * c * small % big = small * m * c % big := by
        rw [Nat.mul_right_comm, Nat.mul_comm m small]
      _ = (small * m % big) * c % big := (Nat.mod_mul_mod ..).symm
      _ = Nat.gcd small big * c % big := by rw [hm]
      _ = Nat.gcd small big * c := Nat.mod_eq_of_lt hy
  · -- Then the divisor is the capacity itself, and the only multiple below it is zero.
    have hzero : Nat.gcd small big * c = 0 := by
      rcases Nat.eq_zero_or_pos c with rfl | hc
      · rfl
      · have := Nat.le_mul_of_pos_right (Nat.gcd small big) hc
        omega
    exact ⟨0, by rw [hzero, Nat.zero_mul, Nat.zero_mod]⟩

end Poured

/-! ## Statement

    The levels that can be had are the multiples of the divisor within the capacities. -/

/-- **The big jug can hold exactly the multiples of the greatest common divisor** up to its
    capacity. -/
theorem exists_poured_iff {small big y : Nat} :
    (∃ x, Poured small big x y) ↔ y ≤ big ∧ Nat.gcd small big ∣ y := by
  constructor
  · rintro ⟨x, h⟩
    exact ⟨h.le.2, h.gcd_dvd.2⟩
  · rintro ⟨hy, hdvd⟩
    rcases Nat.lt_or_eq_of_le hy with hlt | rfl
    · obtain ⟨k, rfl⟩ := Poured.exists_rounds hlt hdvd
      exact ⟨0, Poured.rounds (Nat.zero_lt_of_lt hlt) k⟩
    · exact ⟨0, Poured.empty.fillBig⟩

end GuardedReach
