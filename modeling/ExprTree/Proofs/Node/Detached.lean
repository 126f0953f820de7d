/-
This file shows which nodes the loop that takes a tree apart pops, and in which order.
-/

import ExprTree.Node.Teardown
import ExprTree.Proofs.Node.PreOrder
import Mathlib.Data.List.Nodup

namespace ExprTree.Node
variable {Hidden : Type}

/-- The children of a node at a place have the places that extend it by their indices. -/
def childEntries (entry : List Nat × Node Hidden) : List (List Nat × Node Hidden) :=
  entry.2.children.zipIdx.map fun child => (entry.1 ++ [child.2], child.1)

theorem childEntriesNodes (entry : List Nat × Node Hidden) :
    (childEntries entry).map Prod.snd = entry.2.children := by
  rw [childEntries, List.map_map]
  exact List.zipIdx_map_fst 0 _

/-- The loop pops detached nodes with all of their children, and every node keeps its place. -/
def poppedFrom (detached : List (List Nat × Node Hidden)) : List (List Nat × Node Hidden) :=
  match detached with
  | [] => []
  | entry :: rest => entry :: poppedFrom ((childEntries entry).reverse ++ rest)
termination_by sizeSum (detached.map Prod.snd)
decreasing_by
  simp [sizeChildren entry.2, sizeSum, sizeSumAppend, sizeSumReverse, childEntriesNodes]

def popped (node : Node Hidden) : List (List Nat × Node Hidden) :=
  poppedFrom (childEntries ([], node)).reverse

/-- The loop leaves the husk of each node that it pops. -/
theorem dismantleFrom (detached : List (List Nat × Node Hidden)) :
    dismantleDetached (detached.map Prod.snd) =
      (poppedFrom detached).map fun entry => entry.2.husk := by
  fun_induction poppedFrom detached with
  | case1 => rw [List.map_nil, dismantleDetached, List.map_nil]
  | case2 entry rest ih =>
      rw [List.map_append, List.map_reverse, childEntriesNodes] at ih
      rw [List.map_cons, dismantleDetached, ih, List.map_cons]

theorem dismantlePopped (node : Node Hidden) :
    node.dismantle = node.popped.map fun entry => entry.2.husk := by
  rw [dismantle, popped, ← dismantleFrom, List.map_reverse, childEntriesNodes]

/-- The nodes below a place in post-order. -/
def postOrderAt (entry : List Nat × Node Hidden) : List (List Nat × Node Hidden) :=
  entry.2.postOrder.map fun below => (entry.1 ++ below.1, below.2)

theorem postOrderAtChildren (entry : List Nat × Node Hidden) :
    postOrderAt entry = (childEntries entry).flatMap postOrderAt ++ [entry] := by
  rw [postOrderAt, postOrderChildren, List.map_append, List.map_flatMap, childEntries,
    List.flatMap_map]
  simp only [under, postOrderAt, List.map_map, Function.comp_def, List.map_cons, List.map_nil,
    List.append_nil, List.append_assoc, List.cons_append, List.nil_append]

/-- A popped node is followed by the nodes below it, from the last child to the first. -/
theorem poppedFromPostOrder (detached : List (List Nat × Node Hidden)) :
    poppedFrom detached = detached.flatMap fun entry => (postOrderAt entry).reverse := by
  fun_induction poppedFrom detached with
  | case1 => rfl
  | case2 entry rest ih =>
      rw [ih, List.flatMap_cons, postOrderAtChildren, List.reverse_append, List.flatMap_append,
        List.reverse_flatMap]
      rfl

/-- The popped nodes and then the root are all nodes of the tree in reverse post-order. -/
theorem poppedPostOrder (node : Node Hidden) :
    node.popped.reverse ++ [([], node)] = node.postOrder := by
  have whole := postOrderAtChildren ([], node)
  rw [postOrderAt] at whole
  simp only [List.nil_append, List.map_id'] at whole
  rw [whole, popped, poppedFromPostOrder, List.reverse_flatMap, List.reverse_reverse]
  simp only [Function.comp_def, List.reverse_reverse]

theorem poppedNodup (node : Node Hidden) : (node.popped.map Prod.fst).Nodup := by
  have all := node.postOrderNodup
  rw [← poppedPostOrder, List.map_append, List.map_reverse] at all
  exact List.nodup_reverse.mp (List.nodup_append.mp all).1

/-- The loop pops the nodes below the root, each of them as it was in the tree. -/
theorem memPopped (node below : Node Hidden) (path : List Nat) :
    (path, below) ∈ node.popped ↔ path ≠ [] ∧ node.descendant? path = some below := by
  have all := node.postOrderNodup
  rw [← poppedPostOrder, List.map_append, List.nodup_append] at all
  rw [← memPostOrder, ← poppedPostOrder, List.mem_append, List.mem_reverse, List.mem_singleton]
  constructor
  · intro member
    refine ⟨?_, .inl member⟩
    rintro rfl
    exact all.2.2 [] (List.mem_map.mpr ⟨([], below), List.mem_reverse.mpr member, rfl⟩) []
      (List.mem_singleton.mpr rfl) rfl
  · rintro ⟨inside, member | same⟩
    · exact member
    · exact absurd (congrArg Prod.fst same) inside

/-- Pre-order and post-order list the same places. -/
theorem placesPostOrder (node : Node Hidden) : node.places.Perm node.postOrder := by
  have distinct : node.places.Nodup := by
    apply node.placesAscend.imp
    rintro first second less rfl
    exact List.lt_irrefl _ less
  refine (List.perm_ext_iff_of_nodup distinct node.postOrderNodup.of_map).mpr ?_
  rintro ⟨path, below⟩
  rw [memPlaces, memPostOrder]

theorem countPopped (node : Node Hidden) : node.popped.length + 1 = node.nodeCount := by
  rw [countPlaces, node.placesPostOrder.length_eq, ← poppedPostOrder, List.length_append,
    List.length_reverse, List.length_singleton]

end ExprTree.Node
