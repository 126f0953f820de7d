/-
This file compares two trees position by position.
-/

import ExprTree.Node.Basic
import Mathlib.Data.List.Forall2

namespace ExprTree.Node
variable {Hidden Other Label : Type}

/-- Trees match when both have the same positions, with equal labels of the nodes there. -/
def Matches (label : Node Hidden → Label) (labelOther : Node Other → Label)
    (first : Node Hidden) (second : Node Other) : Prop :=
  ∀ path, (first.descendant? path).map label = (second.descendant? path).map labelOther

theorem matchesAll (label : Node Hidden → Label) (labelOther : Node Other → Label)
    (first : List (Node Hidden)) (second : List (Node Other)) :
    (∀ (index : Nat) (path : List Nat), (first[index]?.bind (descendant? path)).map label =
        (second[index]?.bind (descendant? path)).map labelOther) ↔
      List.Forall₂ (Matches label labelOther) first second := by
  induction first generalizing second with
  | nil =>
      cases second with
      | nil => simp
      | cons node rest =>
          rw [List.forall₂_nil_left_iff]
          refine iff_of_false (fun same => ?_) nofun
          cases same 0 []
  | cons node rest ih =>
      cases second with
      | nil =>
          rw [List.forall₂_nil_right_iff]
          refine iff_of_false (fun same => ?_) nofun
          cases same 0 []
      | cons other others =>
          rw [List.forall₂_cons, ← ih]
          constructor
          · intro same
            exact ⟨same 0, fun index => same (index + 1)⟩
          · rintro ⟨root, below⟩ (_ | index)
            · exact root
            · exact below index

/-- Trees match when their roots have equal labels and their children match in order. -/
theorem matchesChildren (label : Node Hidden → Label) (labelOther : Node Other → Label)
    (first : Node Hidden) (second : Node Other) :
    Matches label labelOther first second ↔
      label first = labelOther second ∧
        List.Forall₂ (Matches label labelOther) first.children second.children := by
  rw [← matchesAll]
  constructor
  · intro same
    exact ⟨Option.some.inj (same []), fun index path => same (index :: path)⟩
  · rintro ⟨root, below⟩ (_ | ⟨index, path⟩)
    · exact congrArg some root
    · exact below index path

end ExprTree.Node
