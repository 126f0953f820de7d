/-
This file shows that the worklist visits a tree as the recursion evaluates it.
-/

import ExprTree.Proofs.Evaluation.Event

namespace ExprTree

/-- This job performs the action of a node. -/
def Node.job {Hidden : Type} : Node Hidden → Job Hidden
  | .negation _ => .negate
  | .operator operation _ _ => .combine operation
  | .unary _ body _ => .call (.unary body)
  | .binary _ body _ _ => .call (.binary body)
  | .ternary _ body _ _ _ => .call (.ternary body)
  | leaf => .visit leaf

namespace Machine

/-- The operands of a node lie on top of the values with the last one first. -/
theorem performJob {Hidden : Type} (node : Node Hidden) (operands : List Float)
    (action : Action Hidden) (found : node.action? operands = some action)
    (jobs : List (Job Hidden)) (values : List Float) (world : World Hidden) :
    (of jobs (operands.reverse ++ values) world).perform? node.job =
      some (of jobs ((action.perform world).1 :: values) (action.perform world).2) := by
  cases node <;>
    rcases operands with _ | ⟨first, _ | ⟨second, _ | ⟨third, _ | ⟨fourth, rest⟩⟩⟩⟩ <;>
    cases found <;> rfl

theorem actionJob {Hidden : Type} (node : Node Hidden) (operands : List Float)
    (action : Action Hidden) (found : node.action? operands = some action)
    (jobs : List (Job Hidden)) (values : List Float) (world : World Hidden)
    (after : Machine Hidden) :
    Turn.action? ⟨node.job, of jobs (operands.reverse ++ values) world, after⟩ = some action := by
  cases node <;>
    rcases operands with _ | ⟨first, _ | ⟨second, _ | ⟨third, _ | ⟨fourth, rest⟩⟩⟩⟩ <;>
    cases found <;> rfl

theorem openedJob {Hidden : Type} (node : Node Hidden) (place : Place) :
    node.job.opened place = [] := by
  cases node <;> rfl

/-- A visited leaf acts at once, so the visit is its own job. -/
theorem jobLeaf {Hidden : Type} (node : Node Hidden) (leaf : node.isLeaf = true) :
    node.job = .visit node := by
  cases node with
  | number value | var slot => rfl
  | _ => cases leaf

/-- A visited inner node puts its children before its own job. -/
theorem performVisit {Hidden : Type} (node : Node Hidden) (inner : node.isLeaf = false)
    (jobs : List (Job Hidden)) (values : List Float) (world : World Hidden) :
    (of jobs values world).perform? (.visit node) =
      some (of (node.children.map .visit ++ node.job :: jobs) values world) := by
  cases node with
  | number value | var slot => cases inner
  | _ => rfl

theorem actionVisit {Hidden : Type} (node : Node Hidden) (inner : node.isLeaf = false)
    (before after : Machine Hidden) : Turn.action? ⟨.visit node, before, after⟩ = none := by
  cases node with
  | number value | var slot => cases inner
  | _ => rfl

/-- Between two machines the turns give these events, wherever the loop goes on from there. -/
def Spans {Hidden : Type} (places : List Place) (machine : Machine Hidden)
    (events : List (Event Hidden)) (remaining : List Place) (final : Machine Hidden) : Prop :=
  ∃ turns, Reaches machine turns final ∧
    ∀ later, Turn.events places (turns ++ later) = events ++ Turn.events remaining later

theorem spansAppend {Hidden : Type} {places middlePlaces remaining : List Place}
    {machine middle final : Machine Hidden} {events later : List (Event Hidden)}
    (first : Spans places machine events middlePlaces middle)
    (second : Spans middlePlaces middle later remaining final) :
    Spans places machine (events ++ later) remaining final := by
  obtain ⟨turns, reached, recorded⟩ := first
  obtain ⟨more, onward, recordedMore⟩ := second
  refine ⟨turns ++ more, reachesAppend reached onward, fun rest => ?_⟩
  rw [List.append_assoc, recorded, recordedMore, List.append_assoc]

/-- The job of a node consumes the operands on top of the values and gives one event. -/
theorem spansJob {Hidden : Type} (node : Node Hidden) (operands : List Float)
    (action : Action Hidden) (found : node.action? operands = some action) (place : Place)
    (places : List Place) (jobs : List (Job Hidden)) (values : List Float)
    (world : World Hidden) :
    Spans (place :: places) (of (node.job :: jobs) (operands.reverse ++ values) world)
      [⟨place, action, world⟩] places
      (of jobs ((action.perform world).1 :: values) (action.perform world).2) := by
  refine ⟨_, reachesTurn (performJob node operands action found jobs values world), ?_⟩
  intro later
  simp only [List.cons_append, List.nil_append, Turn.events, openedJob,
    actionJob node operands action found]
  rfl

/-- The visit of an inner node gives no event and opens the places of its children. -/
theorem spansVisit {Hidden : Type} (node : Node Hidden) (inner : node.isLeaf = false)
    (place : Place) (places : List Place) (jobs : List (Job Hidden)) (values : List Float)
    (world : World Hidden) :
    Spans (place :: places) (of (.visit node :: jobs) values world) []
      (node.children.zipIdx.map (fun entry => place ++ [entry.2]) ++ place :: places)
      (of (node.children.map .visit ++ node.job :: jobs) values world) := by
  refine ⟨_, reachesTurn (performVisit node inner jobs values world), ?_⟩
  intro later
  simp only [List.cons_append, List.nil_append, Turn.events, Job.opened, inner,
    actionVisit node inner, Bool.false_eq_true, if_false, List.append_assoc]
  rfl

/-- A visit leaves the value of the tree and gives the events of its journal. -/
def Visits {Hidden : Type} (node : Node Hidden) : Prop :=
  ∀ place places jobs values world,
    Spans (place :: places) (of (.visit node :: jobs) values world) (node.journal place world)
      places (of jobs ((node.evaluate world).1 :: values) (node.evaluate world).2)

/-- Trees that stand side by side leave their values with the last one on top. -/
theorem visitAll {Hidden : Type} (nodes : List (Node Hidden × Nat))
    (each : ∀ entry ∈ nodes, Visits entry.1) (place : Place) (places : List Place)
    (jobs : List (Job Hidden)) (values : List Float) (world : World Hidden) :
    Spans (nodes.map (fun entry => place ++ [entry.2]) ++ places)
      (of ((nodes.map Prod.fst).map .visit ++ jobs) values world)
      (Node.journalAll place nodes world) places
      (of jobs ((Node.evaluateAll (nodes.map Prod.fst) world).1.reverse ++ values)
        (Node.evaluateAll (nodes.map Prod.fst) world).2) := by
  induction nodes generalizing values world with
  | nil => exact ⟨[], .rest _, fun later => rfl⟩
  | cons entry rest ih =>
      have head := each entry List.mem_cons_self (place ++ [entry.2])
        (rest.map (fun entry => place ++ [entry.2]) ++ places)
        ((rest.map Prod.fst).map .visit ++ jobs) values world
      have tail := ih (fun other member => each other (List.mem_cons_of_mem entry member))
        ((entry.1.evaluate world).1 :: values) (entry.1.evaluate world).2
      have joined := spansAppend head tail
      simpa only [List.map_cons, List.cons_append, Node.evaluateAll, Node.journalAll,
        List.reverse_cons, List.append_assoc, List.nil_append] using joined

/-- The children leave the operands on top, and the job of the node consumes them. -/
theorem visits {Hidden : Type} (node : Node Hidden) : Visits node := by
  induction node using Node.childInduction with
  | step node each =>
      intro place places jobs values world
      obtain ⟨action, found, evaluated, journal⟩ := node.journalChildren place world
      have own := spansJob node _ action found place places jobs values
        (Node.evaluateAll node.children world).2
      rw [evaluated, journal]
      cases kind : node.isLeaf with
      | true =>
          rw [(Node.isLeafChildren node).mp kind] at own ⊢
          rw [← jobLeaf node kind]
          exact own
      | false =>
          have below := visitAll node.children.zipIdx
            (fun entry member => each entry.1 (List.fst_mem_of_mem_zipIdx member)) place
            (place :: places) (node.job :: jobs) values world
          rw [List.zipIdx_map_fst] at below
          have opened := spansVisit node kind place places jobs values world
          have joined := spansAppend opened (spansAppend below own)
          rwa [List.nil_append] at joined

end Machine

/-- The worklist comes to an end with the value, the world and the events of the recursion. -/
theorem Node.startReaches {Hidden : Type} (node : Node Hidden) (world : World Hidden) :
    ∃ turns, (Machine.start node world).Reaches turns
        (.of [] [(node.evaluate world).1] (node.evaluate world).2) ∧
      (Machine.start node world).turns = turns ∧
      Turn.events [[]] turns = node.journal [] world := by
  obtain ⟨turns, reached, events⟩ := Machine.visits node [] [] [] [] world
  refine ⟨turns, reached, ?_, ?_⟩
  · have all := Machine.turnsReaches reached
    rwa [Machine.turnsBare (.of [] _ _) rfl, List.append_nil] at all
  · have complete := events []
    rwa [List.append_nil, Turn.eventsNone, List.append_nil] at complete

end ExprTree
