/-
This file shows that comparisons follow the order of the exact values and that signs agree with them.
-/

import ExprTree.Proofs.Binary64.Order
import ExprTree.Standard.BinaryOp
import ExprTree.Standard.Function

namespace ExprTree
open Binary64 (extended rank)

namespace Binary64

theorem ofBoolOne (truth : Bool) : ofBool truth = 1.0 ↔ truth = true := by
  cases truth <;> decide

theorem ofBoolZero (truth : Bool) : ofBool truth = 0.0 ↔ truth = false := by
  cases truth <;> decide

theorem ofBoolDecided (truth : Bool) : ofBool truth = 1.0 ∨ ofBool truth = 0.0 := by
  cases truth
  · exact .inr rfl
  · exact .inl rfl

/-- One is a sign, and so is its negation. -/
def signedOne (negative : Bool) : Float := if negative then -1.0 else 1.0

theorem signedOneSame (first second : Bool) : signedOne first = signedOne second ↔ first = second := by
  cases first <;> cases second <;> decide

theorem signedOneNegate (negative : Bool) : signedOne (!negative) = -signedOne negative := by
  cases negative <;> rfl

/-- Zeros and NaN are their own signs. -/
theorem signOwn (value : Float) (own : value.isNaN = true ∨ rank value = 0) :
    sign value = value := by
  rw [sign, equalsZero value 0.0 rfl, if_pos]
  rw [Bool.or_eq_true, decide_eq_true_iff, ← rankMagnitude, Int.natAbs_eq_zero]
  exact own.symm

theorem signOther (value : Float) (number : value.isNaN = false) (present : rank value ≠ 0) :
    sign value = signedOne (decide (rank value < 0)) := by
  rw [sign, equalsZero value 0.0 rfl, if_neg, ← rankNegative present]
  · rfl
  · rw [number, Bool.or_false, decide_eq_true_iff, ← rankMagnitude, Int.natAbs_eq_zero]
    exact present

/-- The sign is one or its negation exactly for the numbers on that side of zero. -/
theorem signIsOne (negative : Bool) (value : Float) :
    sign value = signedOne negative ↔
      value.isNaN = false ∧ rank value ≠ 0 ∧ negative = decide (rank value < 0) := by
  by_cases own : value.isNaN = true ∨ rank value = 0
  · rw [signOwn value own]
    refine iff_of_false ?_ ?_
    · rintro rfl
      cases negative <;> exact absurd own (by decide)
    · rintro ⟨number, present, _⟩
      rw [number] at own
      exact own.elim Bool.false_ne_true present
  · rw [not_or, Bool.not_eq_true] at own
    rw [signOther value own.1 own.2, signedOneSame, eq_comm]
    exact ⟨fun same => ⟨own.1, own.2, same⟩, fun same => same.2.2⟩

theorem signNegate (value : Float) (number : value.isNaN = false) : sign (-value) = -sign value := by
  have bounded := (numberMagnitude value).mp number
  have turned : (-value).isNaN = false := by
    rw [numberMagnitude, magnitudeNegate]
    exact bounded
  have order := rankNegate value bounded
  by_cases none : rank value = 0
  · rw [signOwn value (.inr none), signOwn (-value) (.inr (by omega))]
  · rw [signOther value number none, signOther (-value) turned (by omega), ← signedOneNegate, order,
      ← decide_not]
    apply congrArg signedOne
    rw [decide_eq_decide]
    omega

end Binary64

namespace BinaryOp

/-- Comparisons are the operations that an order decides. -/
def comparisons : List BinaryOp := [.lt, .le, .gt, .ge, .eq, .notEq]

/-- The comparisons of two values answer by the order of their exact values, where NaN has none. -/
structure Follow (first second : Float) : Prop where
  decided : ∀ op ∈ comparisons, op.apply first second = 1.0 ∨ op.apply first second = 0.0
  less : lt.apply first second = 1.0 ↔
    first.isNaN = false ∧ second.isNaN = false ∧ extended first < extended second
  atMost : le.apply first second = 1.0 ↔
    first.isNaN = false ∧ second.isNaN = false ∧ extended first ≤ extended second
  equal : eq.apply first second = 1.0 ↔
    first.isNaN = false ∧ second.isNaN = false ∧ extended first = extended second
  complement : notEq.apply first second = 1.0 ↔ eq.apply first second = 0.0
  greater : gt.apply first second = lt.apply second first
  atLeast : ge.apply first second = le.apply second first
  either : le.apply first second = or.apply (lt.apply first second) (eq.apply first second)
  trichotomy : first.isNaN = false → second.isNaN = false →
    ∃! op, op ∈ [lt, eq, gt] ∧ op.apply first second = 1.0
  unordered : first.isNaN = true ∨ second.isNaN = true →
    (∀ op ∈ [lt, le, gt, ge, eq], op.apply first second = 0.0) ∧ notEq.apply first second = 1.0
  same : eq.apply first second = 1.0 ↔
    first.isNaN = false ∧ second.isNaN = false ∧
      (first.toBits = second.toBits ∨
        (first = 0.0 ∨ first = -0.0) ∧ (second = 0.0 ∨ second = -0.0))

section Follow
variable (first second : Float)

theorem applyLess :
    lt.apply first second = 1.0 ↔
      first.isNaN = false ∧ second.isNaN = false ∧ rank first < rank second := by
  rw [apply, Binary64.ofBoolOne, decide_eq_true_iff, Binary64.lessRank]

theorem applyAtMost :
    le.apply first second = 1.0 ↔
      first.isNaN = false ∧ second.isNaN = false ∧ rank first ≤ rank second := by
  rw [apply, Binary64.ofBoolOne, decide_eq_true_iff, Binary64.atMostRank]

theorem applyEqual :
    eq.apply first second = 1.0 ↔
      first.isNaN = false ∧ second.isNaN = false ∧ rank first = rank second := by
  rw [apply, Binary64.ofBoolOne, Binary64.equalRank]

theorem applyComparison {op : BinaryOp} (member : op ∈ comparisons) :
    op.apply first second = 1.0 ∨ op.apply first second = 0.0 := by
  simp only [comparisons, List.mem_cons, List.not_mem_nil, or_false] at member
  rcases member with rfl | rfl | rfl | rfl | rfl | rfl <;> exact Binary64.ofBoolDecided _

/-- Each result of a comparison has its own operation. -/
def ofOrdering : Ordering → BinaryOp
  | .lt => lt
  | .eq => eq
  | .gt => gt

theorem memberOrdering (op : BinaryOp) : op ∈ [lt, eq, gt] ↔ ∃ order, op = ofOrdering order := by
  constructor
  · intro member
    simp only [List.mem_cons, List.not_mem_nil, or_false] at member
    rcases member with rfl | rfl | rfl
    · exact ⟨.lt, rfl⟩
    · exact ⟨.eq, rfl⟩
    · exact ⟨.gt, rfl⟩
  · rintro ⟨order, rfl⟩
    cases order <;> decide

theorem applyOrdering {first second : Float} (one : first.isNaN = false)
    (other : second.isNaN = false) (order : Ordering) :
    (ofOrdering order).apply first second = 1.0 ↔ compare (rank first) (rank second) = order := by
  cases order with
  | lt => simp only [ofOrdering, applyLess, one, other, true_and, Int.compare_eq_lt]
  | eq => simp only [ofOrdering, applyEqual, one, other, true_and, Int.compare_eq_eq]
  | gt =>
      rw [Int.compare_eq_gt]
      exact (applyLess second first).trans (by simp only [one, other, true_and])

theorem applyEither :
    le.apply first second = or.apply (lt.apply first second) (eq.apply first second) := by
  apply congrArg Binary64.ofBool
  rw [apply, apply, Binary64.isTrueOfBool, Binary64.isTrueOfBool, Bool.eq_iff_iff, Bool.or_eq_true,
    decide_eq_true_iff, decide_eq_true_iff, Binary64.atMostRank, Binary64.lessRank,
    Binary64.equalRank, ← and_or_left, ← and_or_left, Int.le_iff_lt_or_eq]

/-- Only two numbers are found to be in some order. -/
theorem appliedNumbers {op : BinaryOp} (member : op ∈ [lt, le, gt, ge, eq])
    (answer : op.apply first second = 1.0) : first.isNaN = false ∧ second.isNaN = false := by
  simp only [List.mem_cons, List.not_mem_nil, or_false] at member
  rcases member with rfl | rfl | rfl | rfl | rfl
  · obtain ⟨one, other, _⟩ := (applyLess first second).mp answer
    exact ⟨one, other⟩
  · obtain ⟨one, other, _⟩ := (applyAtMost first second).mp answer
    exact ⟨one, other⟩
  · obtain ⟨other, one, _⟩ := (applyLess second first).mp answer
    exact ⟨one, other⟩
  · obtain ⟨other, one, _⟩ := (applyAtMost second first).mp answer
    exact ⟨one, other⟩
  · obtain ⟨one, other, _⟩ := (applyEqual first second).mp answer
    exact ⟨one, other⟩

theorem applyComplement : notEq.apply first second = 1.0 ↔ eq.apply first second = 0.0 := by
  rw [apply, apply, Binary64.ofBoolOne, Binary64.ofBoolZero, bne, Bool.not_eq_true']

theorem follow : Follow first second where
  decided _ member := applyComparison first second member
  less := by rw [apply, Binary64.ofBoolOne, decide_eq_true_iff, Binary64.lessExtended]
  atMost := by rw [apply, Binary64.ofBoolOne, decide_eq_true_iff, Binary64.atMostExtended]
  equal := by rw [apply, Binary64.ofBoolOne, Binary64.equalExtended]
  complement := applyComplement first second
  greater := rfl
  atLeast := rfl
  either := applyEither first second
  trichotomy one other := by
    refine ⟨ofOrdering (compare (rank first) (rank second)),
      ⟨(memberOrdering _).mpr ⟨_, rfl⟩, (applyOrdering one other _).mpr rfl⟩, ?_⟩
    rintro op ⟨member, answer⟩
    obtain ⟨order, rfl⟩ := (memberOrdering op).mp member
    rw [(applyOrdering one other order).mp answer]
  unordered either := by
    have none (op : BinaryOp) (member : op ∈ [lt, le, gt, ge, eq]) :
        op.apply first second = 0.0 := by
      refine (applyComparison first second ?_).resolve_left fun answer => ?_
      · exact List.mem_append_left [notEq] member
      · obtain ⟨one, other⟩ := appliedNumbers first second member answer
        rw [one, other] at either
        exact either.elim Bool.false_ne_true Bool.false_ne_true
    exact ⟨none, (applyComplement first second).mpr (none eq (by decide))⟩
  same := by
    have bits : first.toBits = second.toBits ↔ first = second :=
      ⟨Binary64.eqOfBits, congrArg Float.toBits⟩
    rw [applyEqual, Binary64.rankSame, bits, Binary64.rankZero, Binary64.rankZero]

end Follow

/-- The sign is decided by the comparisons with zero, and a turned number has the turned sign. -/
structure SignFollows (value : Float) : Prop where
  positive : Binary64.sign value = 1.0 ↔ gt.apply value 0.0 = 1.0
  negative : Binary64.sign value = -1.0 ↔ lt.apply value 0.0 = 1.0
  own : gt.apply value 0.0 ≠ 1.0 → lt.apply value 0.0 ≠ 1.0 →
    Binary64.sign value = value ∧ (value = 0.0 ∨ value = -0.0 ∨ value.isNaN = true)
  opposite : value.isNaN = false → Binary64.sign (-value) = -Binary64.sign value

theorem signFollows (value : Float) : SignFollows value := by
  have zero : rank 0.0 = 0 := rfl
  have less : lt.apply value 0.0 = 1.0 ↔ value.isNaN = false ∧ rank value < 0 := by
    rw [applyLess, zero]
    exact and_congr_right fun _ => and_iff_right rfl
  have greater : gt.apply value 0.0 = 1.0 ↔ value.isNaN = false ∧ 0 < rank value := by
    refine (applyLess 0.0 value).trans ?_
    rw [zero]
    exact and_iff_right rfl
  constructor
  · refine (Binary64.signIsOne false value).trans (Iff.trans ?_ greater.symm)
    refine and_congr_right fun _ => ?_
    rw [eq_comm, decide_eq_false_iff_not]
    omega
  · refine (Binary64.signIsOne true value).trans (Iff.trans ?_ less.symm)
    refine and_congr_right fun _ => ?_
    rw [eq_comm, decide_eq_true_iff]
    omega
  · intro notAbove notBelow
    rw [ne_eq, greater] at notAbove
    rw [ne_eq, less] at notBelow
    cases number : value.isNaN with
    | true => exact ⟨Binary64.signOwn value (.inl number), .inr (.inr rfl)⟩
    | false =>
        have none : rank value = 0 := by
          simp only [number, true_and] at notAbove notBelow
          omega
        have zeros := (Binary64.rankZero value).mp none
        exact ⟨Binary64.signOwn value (.inr none), zeros.imp_right .inl⟩
  · exact Binary64.signNegate value

end BinaryOp

/--
Comparisons answer by the order of the exact values, which infinity closes at both ends.
Equality leaves out NaN and joins the zeros, and the standard sign agrees with the comparisons.
-/
theorem comparisonsFollowOrder {Hidden : Type} (first second third : Float) :
    BinaryOp.Follow first second ∧
    (BinaryOp.le.apply first second = 1.0 → BinaryOp.le.apply second third = 1.0 →
      BinaryOp.le.apply first third = 1.0) ∧
    (Standard.builder? "sign" : Option (Builder Hidden)) =
      some ⟨"sign", .ofUnary Binary64.sign⟩ ∧
    BinaryOp.SignFollows first := by
  refine ⟨BinaryOp.follow first second, fun before after => ?_, rfl, BinaryOp.signFollows first⟩
  rw [BinaryOp.applyAtMost] at before after ⊢
  exact ⟨before.1, after.2.1, before.2.2.trans after.2.2⟩

/-- Negative infinity is below both zeros, which are equal, and NaN is in no order with it. -/
theorem comparisonsFollowOrderInfinity :
    let low := Binary64.ofMagnitude true Binary64.infinity
    (BinaryOp.le.apply low 0.0 = 1.0 ∧ BinaryOp.le.apply 0.0 (-0.0) = 1.0 ∧
      BinaryOp.le.apply low (-0.0) = 1.0) ∧
    (∃! op, op ∈ [BinaryOp.lt, .eq, .gt] ∧ op.apply low 0.0 = 1.0) ∧
    (∀ op ∈ [BinaryOp.lt, .le, .gt, .ge, .eq], op.apply Binary64.notANumber low = 0.0) ∧
    Binary64.sign (-low) = 1.0 := by
  have below : BinaryOp.le.apply (Binary64.ofMagnitude true Binary64.infinity) 0.0 = 1.0 := rfl
  have zeros : BinaryOp.le.apply 0.0 (-0.0) = 1.0 := rfl
  have turned : BinaryOp.lt.apply (Binary64.ofMagnitude true Binary64.infinity) 0.0 = 1.0 := rfl
  have number : (Binary64.ofMagnitude true Binary64.infinity).isNaN = false := rfl
  intro low
  obtain ⟨follow, transitive, _, sign⟩ := @comparisonsFollowOrder Empty low 0.0 (-0.0)
  obtain ⟨other, _⟩ := @comparisonsFollowOrder Empty Binary64.notANumber low low
  refine ⟨⟨below, zeros, transitive below zeros⟩, follow.trichotomy number rfl,
    (other.unordered (.inl rfl)).1, ?_⟩
  rw [sign.opposite number, sign.negative.mpr turned]
  rfl

end ExprTree
