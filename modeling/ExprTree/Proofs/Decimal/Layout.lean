/-
This file shows that the layout of a text depends on the value and not on its shortest decimal.
-/

import ExprTree.Proofs.Decimal.Fewest
import ExprTree.Proofs.Decimal.Notation

namespace ExprTree

/-- A greater number rounds to a greater magnitude or to the same one. -/
theorem Binary64.Encloses.mono {first second : ℚ} {one other : Nat}
    (enclosesOne : Encloses first one) (enclosesOther : Encloses second other)
    (order : first ≤ second) : one ≤ other := by
  by_contra less
  have lower := enclosesOne.lower
  have upper := enclosesOther.upper
  have below : (units other : ℚ) ≤ units (one - 1) := unitsMono (by omega)
  have above : (units (other + 1) : ℚ) ≤ units one := unitsMono (by omega)
  -- The two neighbourhoods meet in one midpoint, but only one of two neighbours is even.
  have even := enclosesOne.even (.inl (by linarith))
  have evenOther := enclosesOther.even (.inr (by linarith))
  have same : (units (other + 1) : ℚ) = units one := by linarith
  have index := unitsStrictMono.injective (Nat.cast_injective same)
  omega

namespace Decimal
open Binary64

theorem exactMono {first second : Nat} (order : first ≤ second) : exact first ≤ exact second := by
  rw [exactUnits, exactUnits]
  exact mul_le_mul_of_nonneg_right (unitsMono order) castGrainsPositive.le

theorem Reads.mono {one other : Nat} {first second : ℚ} (reads : Reads one first)
    (readsOther : Reads other second) (order : first ≤ second) : one ≤ other :=
  Encloses.mono reads readsOther (div_le_div_of_nonneg_right order castGrainsPositive.le)

/-- A unit has as many grains as there are powers of five in its powers of ten. -/
theorem grainsTen : (grains 1 : ℚ) * 2 ^ 1074 = 10 ^ 1074 := by
  unfold grains
  generalize 1074 = power
  show ((1 * 5 ^ power : Nat) : ℚ) * 2 ^ power = 10 ^ power
  rw [Nat.one_mul, Nat.cast_pow, ← mul_pow]
  norm_num

theorem amountExact (magnitude : Nat) :
    Binary64.amount magnitude = exact magnitude / 10 ^ 1074 := by
  have grain := castGrainsPositive
  rw [amountUnits, exactUnits, ← grainsTen, mul_comm (grains 1 : ℚ),
    mul_div_mul_right _ _ grain.ne']

theorem amountGrid (digits power : Nat) :
    amount ⟨digits, (power : ℤ) - 1074⟩ = digits * 10 ^ power / 10 ^ 1074 := by
  have shift : ((power : ℤ) - 1074) = power - (1074 : Nat) := rfl
  rw [amount, shift, zpow_sub₀ (by decide), zpow_natCast, zpow_natCast, mul_div_assoc]

theorem Reads.rounds {magnitude : Nat} {number : ℚ} (reads : Reads magnitude number)
    (finite : magnitude ≤ infinity) : Rounds (number / 10 ^ 1074) magnitude := by
  have rounds := Encloses.rounds reads
  rwa [div_div, grainsTen, min_eq_right finite] at rounds

/-- Every amount is a quotient, so some magnitude encloses it, and that is the rounding. -/
theorem roundsReads {magnitude : Nat} {amount : ℚ} (rounds : Rounds amount magnitude)
    (nonnegative : 0 ≤ amount) (finite : magnitude < infinity) :
    Reads magnitude (amount * 10 ^ 1074) := by
  obtain ⟨numerator, whole⟩ := Int.eq_ofNat_of_zero_le (Rat.num_nonneg.mpr nonnegative)
  have quotient : (numerator : ℚ) / amount.den = amount := by
    rw [← Int.cast_natCast, ← whole, Rat.num_div_den]
  obtain ⟨other, encloses, _⟩ :=
    nearestEncloses (numerator <<< 1074) amount.den amount.den_pos
  rw [castShift, mul_div_right_comm, quotient] at encloses
  have same := encloses.rounds
  rw [mul_div_cancel_right₀ _ (pow_ne_zero 1074 two_ne_zero)] at same
  have index := rounds.unique same
  rw [Reads, ← grainsTen, mul_left_comm, mul_div_cancel_left₀ _ castGrainsPositive.ne']
  rwa [show magnitude = other by omega]

/-- A threshold is a power of ten, the shortest decimal of the first magnitude from it on. -/
structure Threshold (first power : Nat) : Prop where
  positive : 0 < first
  short : shortest first = ⟨1, (power : ℤ) - 1074⟩
  reached : powerOfTen power ≤ grains (units first)
  before : grains (units (first - 1)) < powerOfTen power

theorem lowThreshold : Threshold 0x3f1a36e2eb1c432d 1070 where
  positive := by decide
  short := by decide +kernel
  reached := by decide +kernel
  before := by decide +kernel

theorem highThreshold : Threshold 0x4341c37937e08000 1090 where
  positive := by decide
  short := by decide +kernel
  reached := by decide +kernel
  before := by decide +kernel

section Threshold
variable {first power : Nat} (threshold : Threshold first power) (magnitude : Nat)

include threshold

/-- The first magnitude and all later ones have reached the threshold, and no earlier one has. -/
theorem Threshold.exact : 10 ^ power ≤ exact magnitude ↔ first ≤ magnitude := by
  have reached : (10 ^ power : ℚ) ≤ Decimal.exact first := by
    rw [← castPowerOfTen, Decimal.exact]
    exact_mod_cast threshold.reached
  have before : Decimal.exact (first - 1) < 10 ^ power := by
    rw [← castPowerOfTen, Decimal.exact]
    exact_mod_cast threshold.before
  constructor
  · intro reaches
    by_contra less
    have below := exactMono (show magnitude ≤ first - 1 by omega)
    linarith
  · intro least
    exact reached.trans (exactMono least)

theorem Threshold.shortest {place digits : Nat}
    (found : Decimal.shortest magnitude = ⟨digits, (place : ℤ) - 1074⟩)
    (coarsest : Coarsest magnitude place digits) :
    10 ^ power ≤ (digits * 10 ^ place : ℚ) ↔ first ≤ magnitude := by
  obtain ⟨_, _, same, coarsestFirst⟩ := shortestCoarsest first threshold.positive
  rw [threshold.short, Decimal.mk.injEq, sub_left_inj, Nat.cast_inj] at same
  obtain ⟨rfl, rfl⟩ := same
  have reads := coarsestFirst.reads
  rw [Nat.cast_one, one_mul] at reads
  constructor
  · exact reads.mono coarsest.reads
  · intro least
    rcases least.eq_or_lt with rfl | more
    · rw [threshold.short, Decimal.mk.injEq, sub_left_inj, Nat.cast_inj] at found
      obtain ⟨rfl, rfl⟩ := found
      rw [Nat.cast_one, one_mul]
    · by_contra less
      have order := coarsest.reads.mono reads (not_le.mp less).le
      omega

/-- The shortest decimal has a position beyond a threshold when the amount has reached it. -/
theorem Threshold.position (nonzero : 0 < magnitude) :
    (power : ℤ) - 1074 < (Decimal.shortest magnitude).position ↔
      10 ^ ((power : ℤ) - 1074) ≤ Binary64.amount magnitude := by
  obtain ⟨place, digits, found, coarsest⟩ := shortestCoarsest magnitude nonzero
  have size : (0 : ℚ) < 10 ^ 1074 := pow_pos (by decide) 1074
  have bound := amountGrid 1 power
  rw [amount, Nat.cast_one, one_mul, one_mul] at bound
  rw [found, positionAmount _ (coarsest.present nonzero), amountGrid, amountExact, bound,
    div_le_div_iff_of_pos_right size, div_le_div_iff_of_pos_right size,
    threshold.shortest magnitude found coarsest, threshold.exact magnitude]

end Threshold

/-- Exactly the amounts from 10 ^ -4 up to 10 ^ 16 have a position for the plain layout. -/
theorem plainPosition (magnitude : Nat) (nonzero : 0 < magnitude) :
    -3 ≤ (shortest magnitude).position ∧ (shortest magnitude).position ≤ 16 ↔
      (10 ^ (-4 : ℤ) : ℚ) ≤ Binary64.amount magnitude ∧ Binary64.amount magnitude < 10 ^ 16 := by
  have low := lowThreshold.position magnitude nonzero
  have high := highThreshold.position magnitude nonzero
  have start : ((1070 : Nat) : ℤ) - 1074 = -4 := by decide
  have stop : ((1090 : Nat) : ℤ) - 1074 = (16 : Nat) := by decide
  rw [start] at low
  rw [stop, zpow_natCast] at high
  rw [← low, ← not_le (a := (10 : ℚ) ^ 16), ← high]
  omega

end Decimal

end ExprTree
