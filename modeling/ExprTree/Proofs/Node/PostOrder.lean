/-
This file lists the nodes of a tree in post-order with the paths that lead to them.
-/

import ExprTree.Proofs.Node.Subtree

namespace ExprTree

/-- A path precedes the paths of later siblings and the paths that it extends. -/
def PathPrecedes : List Nat → List Nat → Prop
  | _ :: _, [] => True
  | [], _ => False
  | index :: first, other :: second => index < other ∨ index = other ∧ PathPrecedes first second

theorem pathPrecedesIrrefl (path : List Nat) : ¬PathPrecedes path path := by
  induction path with
  | nil => simp [PathPrecedes]
  | cons index path ih => simp [PathPrecedes, ih]

namespace Node

/-- The paths of the nodes below a child start with the index of the child. -/
def under {Hidden : Type} (index : Nat) (entries : List (List Nat × Node Hidden)) :
    List (List Nat × Node Hidden) :=
  entries.map fun entry => (index :: entry.1, entry.2)

/-- An entry below a node is an entry of the child that its path starts with. -/
theorem memUnderChildren {Hidden : Type} (list : Node Hidden → List (List Nat × Node Hidden))
    (node below : Node Hidden) (path : List Nat) :
    (path, below) ∈ (node.children.zipIdx.flatMap fun child => under child.2 (list child.1)) ↔
      ∃ index rest child, path = index :: rest ∧ node.children[index]? = some child ∧
        (rest, below) ∈ list child := by
  simp only [under, List.mem_flatMap, List.mem_map, Prod.mk.injEq]
  constructor
  · rintro ⟨⟨child, index⟩, member, ⟨rest, found⟩, inside, same, rfl⟩
    exact ⟨index, rest, child, same.symm, List.mem_zipIdx_iff_getElem?.mp member, inside⟩
  · rintro ⟨index, rest, child, same, found, inside⟩
    exact ⟨(child, index), List.mem_zipIdx_iff_getElem?.mpr found, (rest, below), inside,
      same.symm, rfl⟩

/-- Entries of one child keep their order, and entries of two children have the order of these. -/
theorem pairwiseUnderChildren {Hidden : Type} {related : List Nat → List Nat → Prop}
    (within : ∀ index first second,
      related first second → related (index :: first) (index :: second))
    (across : ∀ index other first second,
      index < other → related (index :: first) (other :: second))
    (list : Node Hidden → List (List Nat × Node Hidden)) (node : Node Hidden)
    (each : ∀ child ∈ node.children,
      (list child).Pairwise fun first second => related first.1 second.1) :
    (node.children.zipIdx.flatMap fun child => under child.2 (list child.1)).Pairwise
      fun first second => related first.1 second.1 := by
  refine List.pairwise_flatMap.mpr ⟨fun child member => ?_, ?_⟩
  · apply List.pairwise_map.mpr
    apply (each child.1 (List.fst_mem_of_mem_zipIdx member)).imp
    intro first second
    exact within child.2 first.1 second.1
  · have ascending : node.children.zipIdx.Pairwise fun one other => one.2 < other.2 := by
      rw [← List.pairwise_map, List.zipIdx_map_snd]
      exact List.pairwise_lt_range'
    apply ascending.imp
    intro one other less first memberFirst second memberSecond
    obtain ⟨below, _, rfl⟩ := List.mem_map.mp memberFirst
    obtain ⟨beside, _, rfl⟩ := List.mem_map.mp memberSecond
    exact across one.2 other.2 below.1 beside.1 less

/-- In post-order the nodes below the first child come first, and the root comes last. -/
def postOrder {Hidden : Type} : Node Hidden → List (List Nat × Node Hidden) :=
  fold fun node parts => (parts.zipIdx.flatMap fun part => under part.2 part.1) ++ [([], node)]

theorem postOrderChildren {Hidden : Type} (node : Node Hidden) :
    node.postOrder =
      (node.children.zipIdx.flatMap fun child => under child.2 child.1.postOrder) ++
        [([], node)] := by
  simp only [postOrder, foldChildren _ node, List.zipIdx_map, List.flatMap_map]
  rfl

/-- The listing holds every node below the root under its own path. -/
theorem memPostOrder {Hidden : Type} (node below : Node Hidden) (path : List Nat) :
    (path, below) ∈ node.postOrder ↔ node.descendant? path = some below := by
  induction path generalizing node with
  | nil =>
      rw [postOrderChildren node, List.mem_append, memUnderChildren, descendant?]
      simp [eq_comm]
  | cons index path ih =>
      rw [postOrderChildren node, List.mem_append, memUnderChildren, descendant?,
        Option.bind_eq_some_iff]
      simp [ih]

/-- Each path precedes all paths that stand after it. -/
theorem postOrderPrecedes {Hidden : Type} (node : Node Hidden) :
    node.postOrder.Pairwise fun first second => PathPrecedes first.1 second.1 := by
  induction node using childInduction with
  | step node each =>
      rw [postOrderChildren node, List.pairwise_append]
      refine ⟨pairwiseUnderChildren (fun index first second precedes => .inr ⟨rfl, precedes⟩)
        (fun index other first second less => .inl less) postOrder node each,
        List.pairwise_singleton _ _, ?_⟩
      intro first memberFirst last memberLast
      obtain ⟨index, rest, _, same, _⟩ := (memUnderChildren postOrder node _ _).mp memberFirst
      rw [List.mem_singleton.mp memberLast, same]
      trivial

/-- No path precedes itself, so no node is listed twice. -/
theorem postOrderNodup {Hidden : Type} (node : Node Hidden) :
    (node.postOrder.map Prod.fst).Nodup := by
  apply List.pairwise_map.mpr
  apply node.postOrderPrecedes.imp
  intro first second precedes same
  rw [same] at precedes
  exact pathPrecedesIrrefl second.1 precedes

end Node

end ExprTree
