/-
This file derives the peaks of the worklist from the shape of the tree.
-/

import ExprTree.Proofs.Evaluation.Agreement
import ExprTree.Proofs.Node.Match
import ExprTree.Proofs.Node.PreOrder

namespace ExprTree

/-- A shift of all numbers shifts the greatest one. -/
theorem greatestShift (shift : Nat) (numbers : List Nat) (present : numbers ≠ []) :
    greatest (numbers.map (shift + ·)) = shift + greatest numbers := by
  apply eq_of_forall_ge_iff
  intro bound
  have within := greatestWithin numbers (bound - shift)
  rw [greatestWithin, List.forall_mem_map]
  constructor
  · intro each
    have := each _ (memGreatest present)
    omega
  · intro total number member
    have := within.mp (by omega) number member
    omega

namespace Peaks

/-- Of two stretches of a run each stack has the higher peak. -/
def join (first second : Peaks) : Peaks :=
  ⟨max first.jobs second.jobs, max first.values second.values⟩

theorem joinAssoc (first second third : Peaks) :
    (first.join second).join third = first.join (second.join third) := by
  simp only [join, Nat.max_assoc]

/-- Peaks are raised to the greatest heights that any turn leaves behind. -/
theorem raisedTurns {Hidden : Type} (turns : List (Turn Hidden)) (before : Peaks) :
    turns.foldl (fun peaks turn => peaks.raise turn.after) before =
      before.join ⟨greatest (turns.map fun turn => turn.after.jobs.height),
        greatest (turns.map fun turn => turn.after.values.height)⟩ := by
  induction turns generalizing before with
  | nil => simp [join, greatest]
  | cons turn rest ih =>
      rw [List.foldl_cons, ih, List.map_cons, List.map_cons, greatestCons, greatestCons]
      exact joinAssoc before ⟨_, _⟩ ⟨_, _⟩

/-- The visit of a node and its own job stand out only where no child climbs as high. -/
theorem joinAround (count jobs values jobsBelow valuesBelow : Nat) (positive : 1 ≤ valuesBelow) :
    (⟨count + (jobs + 1), values⟩ : Peaks).join
        (join ⟨jobs + jobsBelow, values + valuesBelow⟩ ⟨jobs, values + 1⟩) =
      ⟨jobs + max (count + 1) jobsBelow, values + valuesBelow⟩ := by
  simp only [join, Peaks.mk.injEq]
  omega

/--
A leaf leaves one value and no job. The children of an inner node are evaluated above the jobs of
the later ones, above the job of the node itself and above the values of the earlier ones.
-/
def ofChildren (parts : List Peaks) : Peaks :=
  if parts.isEmpty then ⟨0, 1⟩
  else
    ⟨max (parts.length + 1)
        (greatest (parts.zipIdx.map fun part => parts.length - part.2 + part.1.jobs)),
      greatest (parts.zipIdx.map fun part => part.2 + part.1.values)⟩

end Peaks

namespace Node

/-- The peaks of a tree are computed from the peaks of its children. -/
def peaks {Hidden : Type} : Node Hidden → Peaks := fold fun _ parts => Peaks.ofChildren parts

theorem peaksChildren {Hidden : Type} (node : Node Hidden) :
    node.peaks = Peaks.ofChildren (node.children.map peaks) :=
  foldChildren _ node

theorem peaksLeaf {Hidden : Type} (node : Node Hidden) (leaf : node.isLeaf = true) :
    node.peaks = ⟨0, 1⟩ := by
  rw [peaksChildren, node.isLeafChildren.mp leaf]
  rfl

theorem peaksInner {Hidden : Type} (node : Node Hidden) (inner : node.isLeaf = false) :
    node.peaks =
      ⟨max (node.children.length + 1) (greatest (node.children.zipIdx.map fun child =>
          node.children.length - child.2 + child.1.peaks.jobs)),
        greatest (node.children.zipIdx.map fun child => child.2 + child.1.peaks.values)⟩ := by
  have present : ¬(node.children.map peaks).isEmpty = true := by
    rw [List.isEmpty_iff, List.map_eq_nil_iff]
    exact node.innerChildren inner
  rw [peaksChildren, Peaks.ofChildren, if_neg present, List.length_map, List.zipIdx_map,
    List.map_map, List.map_map]
  rfl

end Node

namespace Machine

def heights {Hidden : Type} (machine : Machine Hidden) : Peaks :=
  ⟨machine.jobs.height, machine.values.height⟩

theorem heightsOf {Hidden : Type} (jobs : List (Job Hidden)) (values : List Float)
    (world : World Hidden) : (of jobs values world).heights = ⟨jobs.length, values.length⟩ := rfl

/-- Between two machines the loop raises any peaks as far as these. -/
def Climbs {Hidden : Type} (machine : Machine Hidden) (peaks : Peaks)
    (final : Machine Hidden) : Prop :=
  ∃ turns, Reaches machine turns final ∧
    ∀ before : Peaks, turns.foldl (fun peaks turn => peaks.raise turn.after) before =
      before.join peaks

theorem climbsTurn {Hidden : Type} {job : Job Hidden} {jobs : List (Job Hidden)}
    {values : List Float} {world : World Hidden} {next : Machine Hidden}
    (performed : (of jobs values world).perform? job = some next) :
    Climbs (of (job :: jobs) values world) next.heights next :=
  ⟨_, reachesTurn performed, fun _ => rfl⟩

theorem climbsAppend {Hidden : Type} {machine middle final : Machine Hidden} {first second : Peaks}
    (here : Climbs machine first middle) (there : Climbs middle second final) :
    Climbs machine (first.join second) final := by
  obtain ⟨turns, reached, raised⟩ := here
  obtain ⟨later, onward, raisedLater⟩ := there
  refine ⟨turns ++ later, reachesAppend reached onward, fun before => ?_⟩
  rw [List.foldl_append, raised, raisedLater, Peaks.joinAssoc]

/-- The visit of a tree climbs to the peaks of the tree above what lies on the stacks. -/
def VisitClimbs {Hidden : Type} (node : Node Hidden) : Prop :=
  ∀ jobs values world,
    Climbs (of (.visit node :: jobs) values world)
      ⟨jobs.length + node.peaks.jobs, values.length + node.peaks.values⟩
      (of jobs ((node.evaluate world).1 :: values) (node.evaluate world).2)

/-- Children that remain after the first few find the values of these on the stack. -/
theorem climbAll {Hidden : Type} (nodes : List (Node Hidden))
    (each : ∀ node ∈ nodes, VisitClimbs node) (own : Job Hidden) (jobs : List (Job Hidden))
    (values : List Float) (world : World Hidden) (total done base : Nat)
    (remaining : done + nodes.length = total) (stacked : values.length = base + done) :
    Climbs (of (nodes.map .visit ++ own :: jobs) values world)
      ⟨greatest ((nodes.zipIdx done).map fun child =>
          jobs.length + (total - child.2 + child.1.peaks.jobs)),
        greatest ((nodes.zipIdx done).map fun child => base + (child.2 + child.1.peaks.values))⟩
      (of (own :: jobs) ((Node.evaluateAll nodes world).1.reverse ++ values)
        (Node.evaluateAll nodes world).2) := by
  induction nodes generalizing values world done with
  | nil => exact ⟨[], .rest _, fun before => by simp [greatest, Peaks.join]⟩
  | cons node rest ih =>
      rw [List.length_cons] at remaining
      have head := each node List.mem_cons_self (rest.map .visit ++ own :: jobs) values world
      have tail := ih (fun other member => each other (List.mem_cons_of_mem node member))
        ((node.evaluate world).1 :: values) (node.evaluate world).2 (done + 1) (by omega)
        (by rw [List.length_cons, stacked, Nat.add_assoc])
      have joined := climbsAppend head tail
      have pending : (rest.map Job.visit ++ own :: jobs).length = jobs.length + (total - done) := by
        rw [List.length_append, List.length_map, List.length_cons]
        omega
      rw [pending, stacked] at joined
      simpa only [List.map_cons, List.cons_append, Node.evaluateAll, List.reverse_cons,
        List.append_assoc, List.nil_append, List.zipIdx_cons, greatestCons, Peaks.join,
        Nat.add_assoc] using joined

end Machine

theorem Node.valuesPositive {Hidden : Type} (node : Node Hidden) : 1 ≤ node.peaks.values := by
  induction node using childInduction with
  | step node each =>
      cases kind : node.isLeaf with
      | true => rw [node.peaksLeaf kind]
      | false =>
          obtain ⟨child, rest, children⟩ := List.exists_cons_of_ne_nil (node.innerChildren kind)
          have positive := each child (by rw [children]; exact List.mem_cons_self)
          rw [node.peaksInner kind, children, List.zipIdx_cons, List.map_cons, greatestCons]
          exact (positive.trans (Nat.le_add_left _ 0)).trans (Nat.le_max_left _ _)

namespace Machine

/-- The children climb above the values of each other, and the job of the node climbs least. -/
theorem visitClimbs {Hidden : Type} (node : Node Hidden) : VisitClimbs node := by
  induction node using Node.childInduction with
  | step node each =>
      intro jobs values world
      obtain ⟨action, found, evaluated⟩ := node.evaluateChildren world
      have own := climbsTurn (performJob node _ action found jobs values
        (Node.evaluateAll node.children world).2)
      rw [evaluated]
      cases kind : node.isLeaf with
      | true =>
          rw [node.isLeafChildren.mp kind, jobLeaf node kind] at own
          rw [node.peaksLeaf kind, node.isLeafChildren.mp kind]
          exact own
      | false =>
          have opened := climbsTurn (performVisit node kind jobs values world)
          have below := climbAll node.children each node.job jobs values world
            node.children.length 0 values.length (Nat.zero_add _) rfl
          have joined := climbsAppend opened (climbsAppend below own)
          have inner := node.peaksInner kind
          have positive := node.valuesPositive
          have several : node.children.zipIdx ≠ [] := by
            rw [ne_eq, List.zipIdx_eq_nil_iff]
            exact node.innerChildren kind
          have shift (height : Nat) (peak : Node Hidden × Nat → Nat) :
              greatest (node.children.zipIdx.map fun child => height + peak child) =
                height + greatest (node.children.zipIdx.map peak) := by
            rw [← greatestShift _ _ (mt List.map_eq_nil_iff.mp several), List.map_map]
            rfl
          rw [inner] at positive ⊢
          rw [heightsOf, heightsOf, List.length_append, List.length_map, List.length_cons,
            List.length_cons, shift, shift, Peaks.joinAround _ _ _ _ _ positive] at joined
          exact joined

end Machine

namespace Node
variable {Hidden : Type} (node : Node Hidden)

/-- The worklist reports the peaks that the shape of the tree gives. -/
theorem evaluatePeaks (world : World Hidden) :
    (node.evaluateIterative world).peaks = node.peaks := by
  obtain ⟨turns, reached, raised⟩ := Machine.visitClimbs node [] [] world
  have all := Machine.turnsReaches reached
  rw [Machine.turnsBare (.of [] _ _) rfl, List.append_nil] at all
  rw [evaluateIterativeEq]
  show (Machine.turns (.of [.visit node] [] world)).foldl _ _ = _
  rw [all, raised]
  simp [Peaks.join]

/-- Trees have the same shape when nodes in the same position have as many children. -/
def SameShape {Other : Type} (first : Node Hidden) (second : Node Other) : Prop :=
  Matches (fun below => below.children.length) (fun below => below.children.length) first second

theorem shapePeaks {Other : Type} (second : Node Other) (same : SameShape node second) :
    node.peaks = second.peaks := by
  induction node using childInduction generalizing second with
  | step node each =>
      have children := ((matchesChildren _ _ node second).mp same).2
      rw [peaksChildren, peaksChildren second]
      congr 1
      generalize node.children = nodes at each children
      generalize second.children = others at children
      induction children with
      | nil => rfl
      | cons head _ ih =>
          rw [List.map_cons, List.map_cons, each _ List.mem_cons_self _ head,
            ih fun child member => each child (List.mem_cons_of_mem _ member)]

/-- A child has one of the first three indices and less depth than its parent. -/
theorem childLevel (child : Node Hidden × Nat) (member : child ∈ node.children.zipIdx) :
    child.1 ∈ node.children ∧ child.2 < node.children.length ∧ node.children.length ≤ 3 ∧
      child.1.depth + 1 ≤ node.depth := by
  have found := List.fst_mem_of_mem_zipIdx member
  refine ⟨found, List.snd_lt_of_mem_zipIdx member, node.fewChildren, ?_⟩
  have within := (greatestWithin (node.children.map depth) _).mp le_rfl _
    (List.mem_map_of_mem found)
  rw [node.depthChildren]
  omega

theorem jobsWithin (inner : node.isLeaf = false) (bound : Nat) :
    node.peaks.jobs ≤ bound ↔ node.children.length + 1 ≤ bound ∧
      ∀ child ∈ node.children.zipIdx,
        node.children.length - child.2 + child.1.peaks.jobs ≤ bound := by
  rw [node.peaksInner inner, max_le_iff, greatestWithin, List.forall_mem_map]

theorem valuesWithin (inner : node.isLeaf = false) (bound : Nat) :
    node.peaks.values ≤ bound ↔
      ∀ child ∈ node.children.zipIdx, child.2 + child.1.peaks.values ≤ bound := by
  rw [node.peaksInner inner, greatestWithin, List.forall_mem_map]

/-- At each level the values of at most two earlier children are added. -/
theorem valuesDepth : node.peaks.values ≤ 2 * node.depth - 1 := by
  induction node using childInduction with
  | step node each =>
      cases kind : node.isLeaf with
      | true => rw [node.peaksLeaf kind, node.leafDepth.mp kind]
      | false =>
          rw [node.valuesWithin kind]
          intro child member
          obtain ⟨found, index, few, level⟩ := node.childLevel child member
          have below := each child.1 found
          have positive := child.1.depthPositive
          omega

/-- At each level the jobs of at most two later children and of the parent are added. -/
theorem jobsDepth : node.peaks.jobs ≤ 3 * node.depth - 2 := by
  induction node using childInduction with
  | step node each =>
      cases kind : node.isLeaf with
      | true =>
          rw [node.peaksLeaf kind]
          exact Nat.zero_le _
      | false =>
          have deep := mt node.leafDepth.mpr (Bool.eq_false_iff.mp kind)
          have positive := node.depthPositive
          have few := node.fewChildren
          refine (node.jobsWithin kind _).mpr ⟨by omega, fun child member => ?_⟩
          obtain ⟨found, index, _, level⟩ := node.childLevel child member
          have below := each child.1 found
          have childPositive := child.1.depthPositive
          omega

/-- While the deepest child is evaluated, the job of its parent is pending at each level. -/
theorem depthJobs (inner : 2 ≤ node.depth) : node.depth ≤ node.peaks.jobs := by
  induction node using childInduction with
  | step node each =>
      have kind : node.isLeaf = false := by
        rw [← Bool.not_eq_true, node.leafDepth]
        omega
      obtain ⟨several, highest⟩ := (node.jobsWithin kind _).mp le_rfl
      have present := node.innerChildren kind
      have level := node.depthChildren
      have measured : node.children.map depth ≠ [] := mt List.map_eq_nil_iff.mp present
      obtain ⟨child, found, deepest⟩ := List.mem_map.mp (memGreatest measured)
      obtain ⟨index, position⟩ := List.getElem?_of_mem found
      have entry : (child, index) ∈ node.children.zipIdx :=
        List.mem_zipIdx_iff_getElem?.mpr position
      have above : node.children.length - index + child.peaks.jobs ≤ node.peaks.jobs :=
        highest _ entry
      have before : index < node.children.length := (node.childLevel _ entry).2.1
      have length := List.length_pos_of_ne_nil present
      rcases Nat.lt_or_ge child.depth 2 with shallow | deep
      · omega
      · have below := each child found deep
        omega

end Node

/--
The reported peaks are the greatest heights after any turn. They depend on the shape of the tree
alone, and they follow from the peaks of its children. The values stay below twice the depth and
the jobs below three times, but the jobs are as many as the tree is deep unless it is a leaf.
-/
theorem peaksFollowShape {Hidden : Type} (node : Node Hidden) (world : World Hidden) :
    let peaks (tree : Node Hidden) := (tree.evaluateIterative world).peaks
    let turns := (Machine.start node world).turns
    (node.evaluateWith .worklist world).diagnostics =
      [.worklistComplete (peaks node).jobs (peaks node).values] ∧
    (peaks node).jobs = greatest (turns.map fun turn => turn.after.jobs.height) ∧
    (peaks node).values = greatest (turns.map fun turn => turn.after.values.height) ∧
    (∀ (Other : Type) (other : Node Other) (elsewhere : World Other), node.SameShape other →
      (other.evaluateIterative elsewhere).peaks = peaks node) ∧
    (node.children = [] → peaks node = ⟨0, 1⟩) ∧
    (node.children ≠ [] →
      (peaks node).jobs = max (node.children.length + 1) (greatest
        (node.children.zipIdx.map fun child =>
          (node.children.length - child.2) + (peaks child.1).jobs)) ∧
      (peaks node).values = greatest
        (node.children.zipIdx.map fun child => child.2 + (peaks child.1).values)) ∧
    (peaks node).values ≤ 2 * node.depth - 1 ∧ (peaks node).jobs ≤ 3 * node.depth - 2 ∧
    (2 ≤ node.depth → node.depth ≤ (peaks node).jobs) := by
  intro peaks turns
  have shaped : peaks = Node.peaks := funext fun tree => tree.evaluatePeaks world
  have raised := congrArg Completion.peaks (node.evaluateIterativeEq world)
  rw [node.evaluatePeaks, Peaks.raisedTurns] at raised
  rw [shaped]
  refine ⟨?_, ?_, ?_, fun Other other elsewhere same => ?_, fun bare => ?_, fun present => ?_,
    node.valuesDepth, node.jobsDepth, node.depthJobs⟩
  · rw [← node.evaluatePeaks world]
    rfl
  · rw [raised]
    exact Nat.zero_max _
  · rw [raised]
    exact Nat.zero_max _
  · rw [other.evaluatePeaks, node.shapePeaks other same]
  · exact node.peaksLeaf (node.isLeafChildren.mpr bare)
  · rw [node.peaksInner (Bool.eq_false_iff.mpr (mt node.isLeafChildren.mp present))]
    exact ⟨rfl, rfl⟩

/-- Two trees of one shape have four jobs pending, as many as they are deep. -/
theorem peaksFollowShapeRight :
    let tree : Node Nat := .operator Float.add (.number 1.0) (.negation (.negation (.var ⟨0⟩)))
    let other : Node Nat := .binary "f" (fun first _ => .done first) (.var ⟨1⟩)
      (.unary "g" .done (.negation (.number 0.0)))
    tree.SameShape other ∧ tree.children ≠ [] ∧ 2 ≤ tree.depth ∧
      (other.evaluateIterative World.empty).peaks = (tree.evaluateIterative World.empty).peaks ∧
      (tree.evaluateIterative World.empty).peaks.jobs = 4 ∧
      (tree.evaluateIterative World.empty).peaks.values = 2 ∧
      tree.depth ≤ (tree.evaluateIterative World.empty).peaks.jobs := by
  intro tree other
  have alike {one second : Node Nat} (count : one.children.length = second.children.length)
      (below : List.Forall₂ Node.SameShape one.children second.children) : one.SameShape second :=
    (Node.matchesChildren _ _ one second).mpr ⟨count, below⟩
  have same : tree.SameShape other :=
    alike rfl (.cons (alike rfl .nil)
      (.cons (alike rfl (.cons (alike rfl (.cons (alike rfl .nil) .nil)) .nil)) .nil))
  have present : tree.children ≠ [] := List.cons_ne_nil _ _
  have deep : 2 ≤ tree.depth := by
    rw [Node.depthHeight]
    decide
  obtain ⟨_, _, _, shape, _, inner, _, _, least⟩ := peaksFollowShape tree World.empty
  obtain ⟨jobs, values⟩ := inner present
  simp only [Node.evaluatePeaks] at jobs values shape least ⊢
  exact ⟨same, present, deep, shape Nat other World.empty same, jobs, values, least deep⟩

end ExprTree
