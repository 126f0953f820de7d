/-
This file shows that the shortest decimal lies on the coarsest grid that reads back.
-/

import ExprTree.Decimal.Shortest
import ExprTree.Proofs.Decimal.Magnitude

namespace ExprTree

namespace Binary64

/-- The numbers that round to a magnitude have no gap between them. -/
theorem Encloses.between {first middle last : ℚ} {magnitude : Nat}
    (one : Encloses first magnitude) (other : Encloses last magnitude) (low : first ≤ middle)
    (high : middle ≤ last) : Encloses middle magnitude := by
  have lower := one.lower
  have upper := other.upper
  refine ⟨by linarith, by linarith, ?_⟩
  rintro (least | most)
  · exact one.even (.inl (by linarith))
  · exact other.even (.inr (by linarith))

theorem enclosesUnits (magnitude : Nat) : Encloses (units magnitude) magnitude := by
  have below : (units (magnitude - 1) : ℚ) ≤ units magnitude := unitsMono (Nat.sub_le magnitude 1)
  have above : (units magnitude : ℚ) < units (magnitude + 1) :=
    Nat.cast_lt.mpr (unitsStrictMono (Nat.lt_succ_self magnitude))
  refine ⟨by linarith, by linarith, ?_⟩
  rintro (least | most)
  · have same : (units magnitude : ℚ) = units (magnitude - 1) := by linarith
    have index := unitsStrictMono.injective (Nat.cast_injective same)
    omega
  · linarith

/-- From the given count on magnitudes lie so close that the next one is larger by its part only. -/
theorem unitsGrowth (count magnitude : Nat) (enough : count ≤ magnitude)
    (small : count ≤ leadingBit) :
    count * units (magnitude + 1) ≤ (count + 1) * units magnitude := by
  obtain ⟨scale, significand, fits, rfl⟩ := fitsMagnitude magnitude
  have steps : count ≤ significand := by
    rcases fits.low with rfl | leading
    · omega
    · exact small.trans leading
  rw [unitsNext scale significand fits, unitsFits scale significand fits, ← Nat.mul_assoc,
    ← Nat.mul_assoc]
  apply Nat.mul_le_mul_right
  rw [Nat.mul_succ, Nat.add_mul, Nat.one_mul]
  exact Nat.add_le_add_left steps _

end Binary64

namespace Decimal
open Binary64

theorem grainsUnits (units : Nat) : grains units = units * grains 1 := by
  unfold grains
  generalize Nat.pow 5 1074 = power
  rw [Nat.one_mul]

theorem grainsPositive : 0 < grains 1 := by
  unfold grains
  generalize 1074 = power
  exact Nat.mul_pos Nat.one_pos (Nat.pow_pos (Nat.succ_pos 4))

theorem castGrainsPositive : (0 : ℚ) < grains 1 := Nat.cast_pos.mpr grainsPositive

/-- The exact value of a magnitude is a whole number of grains. -/
def exact (magnitude : Nat) : ℚ := grains (units magnitude)

theorem exactUnits (magnitude : Nat) : exact magnitude = units magnitude * grains 1 := by
  rw [exact, grainsUnits, Nat.cast_mul]

/-- A number of grains reads back when it rounds to the magnitude. -/
def Reads (magnitude : Nat) (number : ℚ) : Prop := Encloses (number / grains 1) magnitude

section Reads
variable {magnitude : Nat}

theorem Reads.between {first middle last : ℚ} (one : Reads magnitude first)
    (other : Reads magnitude last) (low : first ≤ middle) (high : middle ≤ last) :
    Reads magnitude middle :=
  Encloses.between one other (div_le_div_of_nonneg_right low castGrainsPositive.le)
    (div_le_div_of_nonneg_right high castGrainsPositive.le)

theorem readsExact (magnitude : Nat) : Reads magnitude (exact magnitude) := by
  rw [Reads, exactUnits, mul_div_cancel_right₀ _ castGrainsPositive.ne']
  exact enclosesUnits magnitude

theorem Reads.upper {number : ℚ} (reads : Reads magnitude number) :
    2 * number ≤ exact magnitude + exact (magnitude + 1) := by
  have upper := Encloses.upper reads
  rw [← mul_div_assoc, div_le_iff₀ castGrainsPositive, add_mul] at upper
  rw [exactUnits, exactUnits]
  exact upper

/-- Zero rounds to no other magnitude. -/
theorem Reads.nonzero {number : ℚ} (reads : Reads magnitude number) (positive : 0 < magnitude) :
    number ≠ 0 := by
  rintro rfl
  rw [Reads, zero_div] at reads
  have none := reads.underflow.mpr (by rw [mul_zero]; exact zero_le_one)
  exact positive.ne' none

end Reads

/-- The check of a whole number of grains decides whether the number reads back. -/
theorem readsBackReads (magnitude count : Nat) :
    readsBack magnitude count = true ↔ Reads magnitude count := by
  have divisor := castGrainsPositive
  rw [readsBack, Reads, grainsUnits, grainsUnits (_ + units (magnitude + 1))]
  generalize grains 1 = grain at *
  constructor
  · intro found
    apply enclosesQuotient count grain magnitude (Nat.cast_pos.mp divisor)
    all_goals split at found <;> simp only [decide_eq_true_eq] at found <;> omega
  · rintro ⟨lower, upper, even⟩
    rw [← mul_div_assoc, le_div_iff₀ divisor] at lower
    rw [← mul_div_assoc, div_le_iff₀ divisor] at upper
    rw [← mul_div_assoc, div_eq_iff divisor.ne', div_eq_iff divisor.ne'] at even
    norm_cast at lower upper even
    split <;> simp only [decide_eq_true_eq] <;> omega

/-- On a grid a number is nearest when it reads back and no other one that does is nearer. -/
structure NearestOnGrid (magnitude power digits : Nat) : Prop where
  reads : Reads magnitude (digits * 10 ^ power)
  nearest : ∀ other : Nat, Reads magnitude (other * 10 ^ power) →
    |digits * 10 ^ power - exact magnitude| ≤ |other * 10 ^ power - exact magnitude|

theorem gridMono {first second : Nat} (order : first ≤ second) (power : Nat) :
    (first * 10 ^ power : ℚ) ≤ second * 10 ^ power :=
  mul_le_mul_of_nonneg_right (Nat.cast_le.mpr order) (pow_nonneg (by decide) power)

theorem gridStrictMono {first second : Nat} (order : first < second) (power : Nat) :
    (first * 10 ^ power : ℚ) < second * 10 ^ power :=
  mul_lt_mul_of_pos_right (Nat.cast_lt.mpr order) (pow_pos (by decide) power)

theorem readsBackGrid (magnitude power digits : Nat) :
    readsBack magnitude (digits * powerOfTen power) = true ↔
      Reads magnitude (digits * 10 ^ power) := by
  rw [readsBackReads, Nat.cast_mul, castPowerOfTen]

section Neighbours
variable {magnitude power below : Nat}

theorem nearestBelow (low : below * 10 ^ power ≤ exact magnitude)
    (high : exact magnitude < (below + 1 : Nat) * 10 ^ power)
    (reads : Reads magnitude (below * 10 ^ power))
    (nearer : Reads magnitude ((below + 1 : Nat) * 10 ^ power) →
      2 * exact magnitude ≤ below * 10 ^ power + (below + 1 : Nat) * 10 ^ power) :
    NearestOnGrid magnitude power below := by
  refine ⟨reads, fun other readsOther => ?_⟩
  rcases lt_trichotomy other below with less | rfl | more
  · have order := gridStrictMono less power
    exact nearerAbove order (by linarith)
  · exact le_rfl
  · have beyond := gridMono (Nat.succ_le_of_lt more) power
    have middle := nearer ((readsExact magnitude).between readsOther high.le beyond)
    exact nearerBelow (gridStrictMono more power) (by linarith)

theorem nearestAbove (low : below * 10 ^ power ≤ exact magnitude)
    (high : exact magnitude < (below + 1 : Nat) * 10 ^ power)
    (reads : Reads magnitude ((below + 1 : Nat) * 10 ^ power))
    (nearer : Reads magnitude (below * 10 ^ power) →
      (below + 1 : Nat) * 10 ^ power + below * 10 ^ power ≤ 2 * exact magnitude) :
    NearestOnGrid magnitude power (below + 1) := by
  refine ⟨reads, fun other readsOther => ?_⟩
  rcases lt_trichotomy other (below + 1) with less | rfl | more
  · have before := gridMono (Nat.le_of_lt_succ less) power
    have middle := nearer (readsOther.between (readsExact magnitude) before low)
    exact nearerAbove (gridStrictMono less power) (by linarith)
  · exact le_rfl
  · have order := gridStrictMono more power
    exact nearerBelow order (by linarith)

theorem neighboursRead (low : below * 10 ^ power ≤ exact magnitude)
    (high : exact magnitude < (below + 1 : Nat) * 10 ^ power) (other : Nat)
    (reads : Reads magnitude (other * 10 ^ power)) :
    Reads magnitude (below * 10 ^ power) ∨ Reads magnitude ((below + 1 : Nat) * 10 ^ power) := by
  rcases Nat.lt_or_ge below other with more | less
  · exact .inr ((readsExact magnitude).between reads high.le (gridMono more power))
  · exact .inl (reads.between (readsExact magnitude) (gridMono less power) low)

end Neighbours

/-- An amount lies between two numbers of a grid, and the rest tells which half it is in. -/
theorem aroundExact (magnitude power : Nat) :
    let below := grains (units magnitude) / powerOfTen power
    (below * 10 ^ power : ℚ) ≤ exact magnitude ∧
      exact magnitude < ((below + 1 : Nat) * 10 ^ power : ℚ) ∧
      (powerOfTen power ≤ 2 * (grains (units magnitude) % powerOfTen power) ↔
        ((below + 1 : Nat) * 10 ^ power + below * 10 ^ power : ℚ) ≤ 2 * exact magnitude) := by
  intro below
  have positive : 0 < powerOfTen power := Nat.pow_pos (Nat.succ_pos 9)
  have split : below * powerOfTen power + _ = _ := Nat.div_add_mod' (grains (units magnitude)) _
  have rest := Nat.mod_lt (grains (units magnitude)) positive
  have next : (below + 1) * powerOfTen power = below * powerOfTen power + powerOfTen power :=
    Nat.succ_mul below _
  rw [← castPowerOfTen, ← Nat.cast_mul, ← Nat.cast_mul, exact, Nat.cast_le, Nat.cast_lt,
    ← Nat.cast_add, ← Nat.cast_two (R := ℚ), ← Nat.cast_mul, Nat.cast_le]
  generalize below * powerOfTen power = start at *
  omega

/-- Either a nearest number is found on the grid, or no number of the grid reads back. -/
theorem nearestOnGridFinds (magnitude power : Nat) :
    (∃ digits, nearestOnGrid? magnitude power = some digits ∧
      NearestOnGrid magnitude power digits) ∨
    nearestOnGrid? magnitude power = none ∧
      ∀ other : Nat, ¬Reads magnitude (other * 10 ^ power) := by
  obtain ⟨low, high, middle⟩ := aroundExact magnitude power
  simp only [nearestOnGrid?]
  split
  case isTrue readsBelow =>
    rw [readsBackGrid] at readsBelow
    split
    case isTrue tie =>
      rw [readsBackGrid] at tie
      exact .inl ⟨_, rfl, nearestAbove low high tie.1 fun _ => middle.mp tie.2⟩
    case isFalse nearer =>
      rw [readsBackGrid] at nearer
      refine .inl ⟨_, rfl, nearestBelow low high readsBelow fun readsAbove => ?_⟩
      have less := mt middle.mpr fun more => nearer ⟨readsAbove, more⟩
      linarith
  case isFalse notBelow =>
    rw [readsBackGrid] at notBelow
    split
    case isTrue readsAbove =>
      rw [readsBackGrid] at readsAbove
      exact .inl ⟨_, rfl, nearestAbove low high readsAbove fun reads => absurd reads notBelow⟩
    case isFalse notAbove =>
      rw [readsBackGrid] at notAbove
      refine .inr ⟨rfl, fun other reads => ?_⟩
      exact (neighboursRead low high other reads).elim notBelow notAbove

/-- A number on the coarsest grid is nearest there, and no number of the next grid reads back. -/
structure Coarsest (magnitude power digits : Nat) : Prop
    extends NearestOnGrid magnitude power digits where
  coarsest : ∀ other : Nat, ¬Reads magnitude (other * 10 ^ (power + 1))

theorem shortestFromCoarsest (magnitude start : Nat)
    (coarse : ∀ other : Nat, ¬Reads magnitude (other * 10 ^ start)) :
    ∃ power digits : Nat, shortestFrom magnitude start = ⟨digits, (power : ℤ) - 1074⟩ ∧
      Coarsest magnitude power digits := by
  induction start with
  | zero =>
      -- The exact value itself stands on the finest grid.
      refine absurd (readsExact magnitude) ?_
      have finest := coarse (grains (units magnitude))
      rwa [pow_zero, mul_one] at finest
  | succ power ih =>
      rcases nearestOnGridFinds magnitude power with ⟨digits, found, nearest⟩ | ⟨none, coarser⟩
      · refine ⟨power, digits, ?_, nearest, coarse⟩
        rw [shortestFrom, found]
      · rw [shortestFrom, none]
        exact ih coarser

theorem Reads.upperTriple {magnitude : Nat} {number : ℚ} (reads : Reads magnitude number)
    (positive : 0 < magnitude) : 2 * number ≤ 3 * exact magnitude := by
  have upper := reads.upper
  have growth := unitsGrowth 1 magnitude positive (by decide)
  rw [Nat.one_mul] at growth
  have next : exact (magnitude + 1) ≤ 2 * exact magnitude := by
    rw [exactUnits, exactUnits, ← mul_assoc]
    refine mul_le_mul_of_nonneg_right ?_ castGrainsPositive.le
    exact_mod_cast growth
  linarith

theorem startBeyond (count : Nat) : 2 * count < powerOfTen (count.log2 / 3 + 2) := by
  calc 2 * count < 2 * 2 ^ (count.log2 + 1) :=
        Nat.mul_lt_mul_of_pos_left Nat.lt_log2_self Nat.two_pos
    _ = 2 ^ (count.log2 + 2) := (Nat.pow_succ' ..).symm
    _ ≤ 2 ^ (3 * (count.log2 / 3 + 2)) := Nat.pow_le_pow_right Nat.two_pos (by omega)
    _ = 8 ^ (count.log2 / 3 + 2) := Nat.pow_mul 2 3 _
    _ ≤ powerOfTen (count.log2 / 3 + 2) := Nat.pow_le_pow_left (by decide) _

/-- On the coarse first grid even the first number lies beyond the numbers that read back. -/
theorem startCoarse (magnitude : Nat) (positive : 0 < magnitude) (other : Nat) :
    ¬Reads magnitude (other * 10 ^ ((grains (units magnitude)).log2 / 3 + 2)) := by
  intro reads
  have upper := reads.upperTriple positive
  have present : 1 ≤ other := by
    by_contra none
    refine reads.nonzero positive ?_
    rw [Nat.lt_one_iff.mp (Nat.not_le.mp none), Nat.cast_zero, zero_mul]
  have first := gridMono present ((grains (units magnitude)).log2 / 3 + 2)
  have large : 2 * exact magnitude < 10 ^ ((grains (units magnitude)).log2 / 3 + 2) := by
    rw [exact, ← castPowerOfTen]
    exact_mod_cast startBeyond (grains (units magnitude))
  have whole : 0 ≤ exact magnitude := Nat.cast_nonneg _
  linarith

theorem shortestCoarsest (magnitude : Nat) (positive : 0 < magnitude) :
    ∃ power digits : Nat, shortest magnitude = ⟨digits, (power : ℤ) - 1074⟩ ∧
      Coarsest magnitude power digits :=
  shortestFromCoarsest magnitude _ (startCoarse magnitude positive)

end Decimal

end ExprTree
