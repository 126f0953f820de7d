/-
This file lists the nodes of a tree as a walk visits them and measures the tree by the walk.
-/

import ExprTree.Proofs.Node.PostOrder
import Mathlib.Algebra.Order.BigOperators.Group.List
import Mathlib.Algebra.Order.Ring.Nat
import Mathlib.Algebra.BigOperators.Ring.List
import Mathlib.Data.List.MinMax

namespace ExprTree

/-- The greatest of no numbers is zero. -/
def greatest (numbers : List Nat) : Nat := numbers.foldr max 0

theorem greatestCons (number : Nat) (numbers : List Nat) :
    greatest (number :: numbers) = max number (greatest numbers) := rfl

theorem greatestWithin (numbers : List Nat) (bound : Nat) :
    greatest numbers ≤ bound ↔ ∀ number ∈ numbers, number ≤ bound := by
  constructor
  · intro within number member
    exact (List.le_max_of_le member le_rfl).trans within
  · exact List.max_le_of_forall_le numbers bound

theorem memGreatest {numbers : List Nat} (present : numbers ≠ []) :
    greatest numbers ∈ numbers :=
  List.maximum_mem (List.foldr_max_of_ne_nil present).symm

namespace Node

/-- In pre-order the root comes first, and the nodes below the last child come last. -/
def places {Hidden : Type} : Node Hidden → List (List Nat × Node Hidden) :=
  fold fun node parts => ([], node) :: parts.zipIdx.flatMap fun part => under part.2 part.1

theorem placesChildren {Hidden : Type} (node : Node Hidden) :
    node.places =
      ([], node) :: node.children.zipIdx.flatMap fun child => under child.2 child.1.places := by
  simp only [places, foldChildren _ node, List.zipIdx_map, List.flatMap_map]
  rfl

/-- Every node has one place, the path that leads to it. -/
theorem memPlaces {Hidden : Type} (node below : Node Hidden) (path : List Nat) :
    (path, below) ∈ node.places ↔ node.descendant? path = some below := by
  induction path generalizing node with
  | nil =>
      rw [placesChildren node, List.mem_cons, memUnderChildren, descendant?]
      simp [eq_comm]
  | cons index path ih =>
      rw [placesChildren node, List.mem_cons, memUnderChildren, descendant?,
        Option.bind_eq_some_iff]
      simp [ih]

/-- The paths ascend: each one is followed by its extensions and then by later siblings. -/
theorem placesAscend {Hidden : Type} (node : Node Hidden) :
    node.places.Pairwise fun first second => first.1 < second.1 := by
  induction node using childInduction with
  | step node each =>
      rw [placesChildren node, List.pairwise_cons]
      refine ⟨fun entry member => ?_, pairwiseUnderChildren ?_ ?_ places node each⟩
      · obtain ⟨index, rest, _, same, _⟩ := (memUnderChildren places node _ _).mp member
        rw [same]
        exact List.nil_lt_cons index rest
      · intro index first second less
        exact List.cons_lt_cons_iff.mpr (.inr ⟨rfl, less⟩)
      · intro index other first second less
        exact List.cons_lt_cons_iff.mpr (.inl less)

/-- A node stands as deep in the listing of the walk as its path is long. -/
theorem preOrderPlaces {Hidden : Type} (node : Node Hidden) (depth : Nat) :
    node.preOrder depth = node.places.map fun entry => (entry.2, entry.1.length + depth) := by
  induction node using childInduction generalizing depth with
  | step node each =>
      rw [preOrderChildren, placesChildren, List.map_cons, List.map_flatMap,
        ← List.zipIdx_map_fst 0 node.children, List.flatMap_map]
      simp only [List.length_nil, Nat.zero_add, List.zipIdx_map_fst]
      congr 1
      apply List.flatMap_congr
      intro child member
      rw [each child.1 (List.fst_mem_of_mem_zipIdx member), under, List.map_map]
      congr 1
      funext entry
      simp only [Function.comp, List.length_cons, Nat.add_right_comm, Nat.add_assoc]

/-- The height is the depth by recursion. -/
def height {Hidden : Type} : Node Hidden → Nat
  | .number _ | .var _ => 1
  | .negation operand => 1 + operand.height
  | .operator _ left right => 1 + max left.height right.height
  | .unary _ _ argument => 1 + argument.height
  | .binary _ _ first second => 1 + max first.height second.height
  | .ternary _ _ condition first second =>
      1 + max condition.height (max first.height second.height)

theorem heightChildren {Hidden : Type} (node : Node Hidden) :
    node.height = 1 + greatest (node.children.map height) := by
  cases node <;> simp [height, children, greatest]

/-- A tree stays within a bound when each of its nodes does. -/
theorem heightWithin {Hidden : Type} (node : Node Hidden) (above bound : Nat) :
    above + node.height ≤ bound ↔ ∀ entry ∈ node.preOrder (above + 1), entry.2 ≤ bound := by
  induction node using childInduction generalizing above with
  | step node each =>
      have heights := greatestWithin (node.children.map height) (bound - (above + 1))
      rw [List.forall_mem_map] at heights
      rw [preOrderChildren, List.forall_mem_cons, List.forall_mem_flatMap, heightChildren]
      constructor
      · intro within
        refine ⟨by omega, fun child member => ?_⟩
        rw [← each child member (above + 1)]
        have := heights.mp (by omega) child member
        omega
      · rintro ⟨root, below⟩
        have := heights.mpr fun child member => by
          have := (each child member (above + 1)).mpr (below child member)
          omega
        omega

theorem deepestWithin {Hidden : Type} (entries : List (Node Hidden × Nat)) (start bound : Nat) :
    entries.foldl (fun deepest entry => max deepest entry.2) start ≤ bound ↔
      start ≤ bound ∧ ∀ entry ∈ entries, entry.2 ≤ bound := by
  induction entries generalizing start with
  | nil => simp
  | cons entry rest ih => rw [List.foldl_cons, ih, max_le_iff, List.forall_mem_cons, and_assoc]

/-- The greatest depth that the walk meets is the height. -/
theorem depthHeight {Hidden : Type} (node : Node Hidden) : node.depth = node.height := by
  apply eq_of_forall_ge_iff
  intro bound
  have within := node.heightWithin 0 bound
  rw [Nat.zero_add] at within
  rw [depth, walkPreOrder, deepestWithin, within]
  exact and_iff_right (Nat.zero_le bound)

theorem depthChildren {Hidden : Type} (node : Node Hidden) :
    node.depth = 1 + greatest (node.children.map depth) := by
  simp only [funext depthHeight, heightChildren node]

/-- The walk counts each place once. -/
theorem countPlaces {Hidden : Type} (node : Node Hidden) :
    node.nodeCount = node.places.length := by
  rw [nodeCount, walkSum fun _ => 1, preOrderPlaces, List.map_map, Nat.zero_add]
  simp [Function.comp_def]

theorem sizeSumMap {Hidden : Type} (nodes : List (Node Hidden)) :
    sizeSum nodes = (nodes.map size).sum := by
  induction nodes with
  | nil => rfl
  | cons node rest ih => rw [sizeSum, ih, List.map_cons, List.sum_cons]

theorem countSize {Hidden : Type} (node : Node Hidden) : node.nodeCount = node.size := by
  rw [countPlaces]
  induction node using childInduction with
  | step node each =>
      rw [placesChildren, List.length_cons, List.length_flatMap, sizeChildren, sizeSumMap,
        ← List.zipIdx_map_fst 0 node.children, List.map_map, Nat.add_comm]
      simp only [List.zipIdx_map_fst]
      congr 2
      apply List.map_congr_left
      intro child member
      rw [under, List.length_map]
      exact each child.1 (List.fst_mem_of_mem_zipIdx member)

theorem countChildren {Hidden : Type} (node : Node Hidden) :
    node.nodeCount = 1 + (node.children.map nodeCount).sum := by
  simp only [funext countSize, sizeChildren node, sizeSumMap]

theorem countPositive {Hidden : Type} (node : Node Hidden) : 1 ≤ node.nodeCount := by
  rw [countChildren]
  omega

theorem depthPositive {Hidden : Type} (node : Node Hidden) : 1 ≤ node.depth := by
  rw [depthChildren]
  omega

/-- A node is a leaf when its children leave a measure of the tree at one. -/
theorem leafOne {Hidden : Type} (node : Node Hidden) (measure : Node Hidden → Nat)
    (positive : ∀ child, 1 ≤ measure child) (total : List Nat → Nat) (none : total [] = 0)
    (covers : ∀ number numbers, number ∈ numbers → number ≤ total numbers) :
    node.isLeaf = true ↔ 1 + total (node.children.map measure) = 1 := by
  rw [isLeafChildren]
  constructor
  · intro bare
    rw [bare, List.map_nil, none]
  · intro one
    apply List.eq_nil_iff_forall_not_mem.mpr
    intro child member
    have covered := covers _ _ (List.mem_map_of_mem (f := measure) member)
    have := positive child
    omega

theorem leafCount {Hidden : Type} (node : Node Hidden) :
    node.isLeaf = true ↔ node.nodeCount = 1 := by
  rw [countChildren]
  exact node.leafOne nodeCount countPositive List.sum rfl fun _ _ => List.le_sum_of_mem

theorem leafDepth {Hidden : Type} (node : Node Hidden) :
    node.isLeaf = true ↔ node.depth = 1 := by
  rw [depthChildren]
  exact node.leafOne depth depthPositive greatest rfl fun _ numbers =>
    (greatestWithin numbers _).mp le_rfl _

/-- Each level holds at least one node. -/
theorem depthCount {Hidden : Type} (node : Node Hidden) : node.depth ≤ node.nodeCount := by
  induction node using childInduction with
  | step node each =>
      rw [depthChildren, countChildren]
      apply Nat.add_le_add_left
      rw [greatestWithin, List.forall_mem_map]
      intro child member
      exact (each child member).trans (List.le_sum_of_mem (List.mem_map_of_mem member))

theorem fewChildren {Hidden : Type} (node : Node Hidden) : node.children.length ≤ 3 := by
  cases node <;> simp [children]

/-- No tree is larger than the one of its depth in which every inner node has three children. -/
theorem countPower {Hidden : Type} (node : Node Hidden) :
    2 * node.nodeCount + 1 ≤ 3 ^ node.depth := by
  induction node using childInduction with
  | step node each =>
      rw [countChildren, depthChildren]
      generalize deepest : greatest (node.children.map depth) = depth
      have bound := (greatestWithin (node.children.map Node.depth) depth).mp deepest.le
      rw [List.forall_mem_map] at bound
      have level : (node.children.map fun child => 2 * child.nodeCount + 1).sum ≤
          node.children.length * 3 ^ depth := by
        rw [← List.length_map fun child => 2 * child.nodeCount + 1]
        apply List.sum_le_card_nsmul
        rw [List.forall_mem_map]
        intro child member
        exact (each child member).trans (Nat.pow_le_pow_right (by decide) (bound child member))
      rw [List.sum_map_add, List.sum_map_mul_left, List.map_const', List.sum_replicate_nat] at level
      have width : 1 ≤ 3 ^ depth := Nat.one_le_pow _ _ (by decide)
      rw [Nat.pow_add, Nat.pow_one]
      generalize 3 ^ depth = width at *
      -- Each child that is missing to three leaves room for one node of the level below it.
      obtain ⟨missing, three⟩ := Nat.exists_eq_add_of_le node.fewChildren
      have room := Nat.le_mul_of_pos_right missing width
      rw [three, Nat.add_mul]
      omega

/--
A walk visits every node once, in the order of the paths, and its depth is one more than the
length of its path. So it counts the nodes and measures the depth as the recursions do.
-/
theorem walkVisitsPreOrder {Hidden : Type} (node : Node Hidden) :
    (∀ (State : Type) (visit : State → Node Hidden → Nat → State) (state : State),
      node.walk visit state =
        node.places.foldl (fun state entry => visit state entry.2 (1 + entry.1.length)) state) ∧
    (∀ path below, (path, below) ∈ node.places ↔ node.descendant? path = some below) ∧
    (node.places.Pairwise fun first second => first.1 < second.1) ∧
    node.nodeCount = node.places.length ∧
    node.nodeCount = node.size ∧ node.nodeCount = 1 + (node.children.map nodeCount).sum ∧
    node.depth = node.height ∧ node.depth = 1 + greatest (node.children.map depth) ∧
    (node.isLeaf = true ↔ node.children = []) ∧
    (node.isLeaf = true ↔ node.nodeCount = 1) ∧ (node.isLeaf = true ↔ node.depth = 1) ∧
    node.depth ≤ node.nodeCount ∧ 2 * node.nodeCount + 1 ≤ 3 ^ node.depth := by
  refine ⟨fun State visit state => ?_, fun path below => node.memPlaces below path,
    node.placesAscend, node.countPlaces, node.countSize, node.countChildren, node.depthHeight,
    node.depthChildren, node.isLeafChildren, node.leafCount, node.leafDepth, node.depthCount,
    node.countPower⟩
  rw [walkPreOrder, preOrderPlaces, List.foldl_map]
  simp only [Nat.add_comm]

end Node

end ExprTree
