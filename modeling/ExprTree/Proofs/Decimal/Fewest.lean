/-
This file shows that no decimal has fewer digits than the shortest one or is closer with as many.
-/

import ExprTree.Proofs.Decimal.Grid
import Mathlib.Tactic.Ring

namespace ExprTree.Decimal
open Binary64

section Power
variable {magnitude power : Nat}

/-- From ten units on the next magnitude is larger by a tenth at most. -/
theorem exactGrowth (large : 10 ≤ magnitude) :
    10 * exact (magnitude + 1) ≤ 11 * exact magnitude := by
  have growth := unitsGrowth 10 magnitude large (by decide)
  rw [exactUnits, exactUnits, ← mul_assoc, ← mul_assoc]
  refine mul_le_mul_of_nonneg_right ?_ castGrainsPositive.le
  exact_mod_cast growth

/-- One unit is about 4.94 times the 750th power of ten. -/
theorem unitPowers : ∃ start, 10 ^ start ≤ grains 1 ∧ 3 * grains 1 < 2 * 10 ^ (start + 1) ∧
    19 * 10 ^ (start + 1) ≤ 40 * grains 1 ∧ 19 * grains 1 < 2 * 10 ^ (start + 2) :=
  ⟨750, by decide +kernel⟩

theorem exactSmall (small : magnitude < 10) : exact magnitude = magnitude * grains 1 := by
  rw [exactUnits, unitsOfSmall]
  exact small.trans (by decide)

/-- A power of ten that reads back as a few units exceeds them by a twentieth at most. -/
theorem powerNearSmall (small : magnitude < 10) (positive : 0 < magnitude)
    (upper : 2 * 10 ^ power ≤ (2 * magnitude + 1) * grains 1) :
    19 * 10 ^ power ≤ 20 * (magnitude * grains 1) := by
  obtain ⟨start, unit, one, two, ten⟩ := unitPowers
  generalize grains 1 = grain at *
  rcases Nat.lt_trichotomy power (start + 1) with less | rfl | more
  · calc 19 * 10 ^ power ≤ 20 * 10 ^ start :=
          Nat.mul_le_mul (by decide) (Nat.pow_le_pow_right (by decide) (Nat.le_of_lt_succ less))
      _ ≤ 20 * grain := Nat.mul_le_mul_left 20 unit
      _ ≤ 20 * (magnitude * grain) := Nat.mul_le_mul_left 20 (Nat.le_mul_of_pos_left _ positive)
  · have several : 2 ≤ magnitude := by
      by_contra single
      obtain rfl : magnitude = 1 := by omega
      exact absurd upper (Nat.not_le.mpr one)
    calc 19 * 10 ^ (start + 1) ≤ 40 * grain := two
      _ = 20 * (2 * grain) := Nat.mul_assoc 20 2 _
      _ ≤ 20 * (magnitude * grain) := Nat.mul_le_mul_left 20 (Nat.mul_le_mul_right _ several)
  · refine absurd ten (Nat.not_lt.mpr ?_)
    calc 2 * 10 ^ (start + 2) ≤ 2 * 10 ^ power :=
          Nat.mul_le_mul_left 2 (Nat.pow_le_pow_right (by decide) more)
      _ ≤ (2 * magnitude + 1) * grain := upper
      _ ≤ 19 * grain := Nat.mul_le_mul_right _ (by omega)

theorem powerNear (positive : 0 < magnitude) (reads : Reads magnitude (10 ^ power)) :
    19 * 10 ^ power ≤ 20 * exact magnitude := by
  have upper := reads.upper
  by_cases large : 10 ≤ magnitude
  · have growth := exactGrowth large
    have whole : 0 ≤ exact magnitude := Nat.cast_nonneg _
    linarith
  · have small : magnitude < 10 := Nat.not_le.mp large
    have next : units (magnitude + 1) = magnitude + 1 := unitsOfSmall _ (by
      unfold leadingBit
      omega)
    rw [exactSmall small, exactUnits, next, ← add_mul] at upper
    have bound : 2 * 10 ^ power ≤ (2 * magnitude + 1) * grains 1 := by
      rw [Nat.two_mul magnitude, Nat.add_assoc]
      exact_mod_cast upper
    rw [exactSmall small]
    exact_mod_cast powerNearSmall small positive bound

end Power

section Digits
variable {magnitude power digits : Nat}

theorem Coarsest.present (coarsest : Coarsest magnitude power digits) (positive : 0 < magnitude) :
    0 < digits := by
  apply Nat.pos_of_ne_zero
  rintro rfl
  apply coarsest.reads.nonzero positive
  rw [Nat.cast_zero, zero_mul]

theorem Coarsest.coarser (coarsest : Coarsest magnitude power digits) (other : Nat)
    {exponent : Nat} (more : power < exponent) : ¬Reads magnitude (other * 10 ^ exponent) := by
  obtain ⟨rest, rfl⟩ := Nat.exists_eq_add_of_lt more
  have multiple : (other * 10 ^ (power + rest + 1) : ℚ) =
      (other * 10 ^ rest : Nat) * 10 ^ (power + 1) := by
    push_cast
    ring
  rw [multiple]
  exact coarsest.coarsest _

/-- A decimal that reads back has no larger exponent. -/
theorem Coarsest.finer (coarsest : Coarsest magnitude power digits) {other : Nat} {exponent : ℤ}
    (reads : Reads magnitude (other * 10 ^ exponent)) : exponent ≤ power := by
  by_contra more
  obtain ⟨large, rfl⟩ := Int.eq_ofNat_of_zero_le (show 0 ≤ exponent by omega)
  rw [zpow_natCast] at reads
  exact coarsest.coarser other (by omega) reads

theorem belowPower {other count total : Nat} {exponent : ℤ} (bound : other < 10 ^ count)
    (order : count + exponent ≤ total) : (other * 10 ^ exponent : ℚ) ≤ 10 ^ total := by
  have ten : (1 : ℚ) ≤ 10 := by decide
  calc (other * 10 ^ exponent : ℚ) ≤ 10 ^ count * 10 ^ exponent :=
        mul_le_mul_of_nonneg_right (by exact_mod_cast bound.le) (zpow_nonneg (by decide) exponent)
    _ = 10 ^ (count + exponent) := by rw [zpow_add₀ (by decide), zpow_natCast]
    _ ≤ 10 ^ (total : ℤ) := zpow_le_zpow_right₀ ten order
    _ = 10 ^ total := zpow_natCast 10 total

/-- A power of ten between two numbers that read back is none of the next grid. -/
theorem Coarsest.powerBetween (coarsest : Coarsest magnitude power digits) {count : Nat}
    {number : ℚ} (reads : Reads magnitude number) (low : number ≤ 10 ^ (count + power))
    (high : 10 ^ count ≤ digits) :
    count = 0 ∧ Reads magnitude (10 ^ power) := by
  have top : (10 ^ (count + power) : ℚ) ≤ digits * 10 ^ power := by
    rw [pow_add]
    refine mul_le_mul_of_nonneg_right ?_ (pow_nonneg (by decide) power)
    exact_mod_cast high
  have middle := reads.between coarsest.reads low top
  have none : count = 0 := by
    by_contra some
    have beyond : power < count + power := Nat.lt_add_of_pos_left (Nat.pos_of_ne_zero some)
    apply coarsest.coarser 1 beyond
    rwa [Nat.cast_one, one_mul]
  rw [none, Nat.zero_add] at middle
  exact ⟨none, middle⟩

theorem Coarsest.fewest (coarsest : Coarsest magnitude power digits) (positive : 0 < magnitude)
    {other count : Nat} {exponent : ℤ} (bound : other < 10 ^ count)
    (reads : Reads magnitude (other * 10 ^ exponent)) : digits < 10 ^ count := by
  by_contra more
  have finer := coarsest.finer reads
  have below : (other * 10 ^ exponent : ℚ) ≤ 10 ^ (count + power) :=
    belowPower bound (by omega)
  obtain ⟨rfl, _⟩ := coarsest.powerBetween reads below (Nat.not_lt.mp more)
  refine reads.nonzero positive ?_
  rw [Nat.lt_one_iff.mp bound, Nat.cast_zero, zero_mul]

theorem Coarsest.closest (coarsest : Coarsest magnitude power digits) (positive : 0 < magnitude)
    {other count : Nat} {exponent : ℤ} (bound : other < 10 ^ (count + 1))
    (reads : Reads magnitude (other * 10 ^ exponent)) (enough : 10 ^ count ≤ digits) :
    |digits * 10 ^ power - exact magnitude| ≤ |other * 10 ^ exponent - exact magnitude| := by
  rcases (coarsest.finer reads).eq_or_lt with rfl | finer
  · rw [zpow_natCast] at reads ⊢
    exact coarsest.nearest other reads
  · -- A decimal on a finer grid is below a power of ten, which is on the coarsest one.
    have below : (other * 10 ^ exponent : ℚ) ≤ 10 ^ (count + power) :=
      belowPower bound (by omega)
    obtain ⟨rfl, first⟩ := coarsest.powerBetween reads below enough
    have near := powerNear positive first
    have tenth : (10 ^ exponent : ℚ) ≤ 10 ^ power / 10 := by
      rw [← zpow_natCast, div_eq_mul_inv, ← zpow_sub_one₀ (by decide)]
      exact zpow_le_zpow_right₀ (by decide) (by omega)
    have digit : (other : ℚ) ≤ 9 := by exact_mod_cast Nat.le_of_lt_succ bound
    have size : (0 : ℚ) < 10 ^ power := pow_pos (by decide) power
    have small : (other * 10 ^ exponent : ℚ) ≤ 9 * (10 ^ power / 10) :=
      mul_le_mul digit tenth (zpow_nonneg (by decide) exponent) (by decide)
    have nearest := coarsest.nearest 1 (by rwa [Nat.cast_one, one_mul])
    rw [Nat.cast_one, one_mul] at nearest
    exact nearest.trans (nearerAbove (by linarith) (by linarith))

end Digits

end ExprTree.Decimal
