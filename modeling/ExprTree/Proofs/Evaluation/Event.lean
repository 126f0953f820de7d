/-
This file records the actions of an evaluation, each with the place of its node.
-/

import ExprTree.Evaluation.Strategy
import ExprTree.Proofs.Evaluation.Action
import ExprTree.Proofs.Evaluation.Turn

namespace ExprTree

/-- The place of a node is the path that leads to it from the root. -/
abbrev Place := List Nat

/-- An event is an action at a place, together with the world that the action finds. -/
structure Event (Hidden : Type) where
  place : Place
  action : Action Hidden
  before : World Hidden

namespace Event

def result {Hidden : Type} (event : Event Hidden) : Float := (event.action.perform event.before).1

def after {Hidden : Type} (event : Event Hidden) : World Hidden :=
  (event.action.perform event.before).2

end Event

namespace Node

/--
This is the recursion with its actions left open.
An observer performs each of them at the place where it occurs.
-/
def evaluateUnder {Hidden State : Type} (observer : Place → Action Hidden → State → Float × State)
    (place : Place) : Node Hidden → State → Float × State
  | .number value, state => observer place (.number value) state
  | .var slot, state => observer place (.read slot) state
  | .negation operand, state =>
      let (value, state) := operand.evaluateUnder observer (place ++ [0]) state
      observer place (.negate value) state
  | .operator operation left right, state =>
      let (first, state) := left.evaluateUnder observer (place ++ [0]) state
      let (second, state) := right.evaluateUnder observer (place ++ [1]) state
      observer place (.combine operation first second) state
  | .unary _ body argument, state =>
      let (value, state) := argument.evaluateUnder observer (place ++ [0]) state
      observer place (.unary body value) state
  | .binary _ body left right, state =>
      let (first, state) := left.evaluateUnder observer (place ++ [0]) state
      let (second, state) := right.evaluateUnder observer (place ++ [1]) state
      observer place (.binary body first second) state
  | .ternary _ body condition left right, state =>
      let (truth, state) := condition.evaluateUnder observer (place ++ [0]) state
      let (first, state) := left.evaluateUnder observer (place ++ [1]) state
      let (second, state) := right.evaluateUnder observer (place ++ [2]) state
      observer place (.ternary body truth first second) state

/-- The observer that only performs the actions gives the evaluation by recursion. -/
theorem evaluateUnderPerform {Hidden : Type} (node : Node Hidden) (place : Place)
    (world : World Hidden) :
    node.evaluateUnder (fun _ action => action.perform) place world = node.evaluate world := by
  induction node generalizing place world with
  | number value => rfl
  | var slot => rfl
  | negation operand ih =>
      simp only [evaluateUnder, ih]
      rfl
  | operator operation left right leftIh rightIh =>
      simp only [evaluateUnder, leftIh, rightIh]
      rfl
  | unary name body argument ih =>
      simp only [evaluateUnder, ih]
      rfl
  | binary name body first second firstIh secondIh =>
      simp only [evaluateUnder, firstIh, secondIh]
      rfl
  | ternary name body condition first second conditionIh firstIh secondIh =>
      simp only [evaluateUnder, conditionIh, firstIh, secondIh]
      rfl

/-- This observer performs each action and notes it as an event. -/
def note {Hidden : Type} (place : Place) (action : Action Hidden)
    (state : World Hidden × List (Event Hidden)) : Float × World Hidden × List (Event Hidden) :=
  let (value, after) := action.perform state.1
  (value, after, state.2 ++ [⟨place, action, state.1⟩])

/-- The journal of the recursion holds the events that are noted while it runs. -/
def journal {Hidden : Type} (place : Place) (node : Node Hidden) (world : World Hidden) :
    List (Event Hidden) := (node.evaluateUnder note place (world, [])).2.2

/-- Trees that stand side by side have the journals of one tree after the other. -/
def journalAll {Hidden : Type} (place : Place) :
    List (Node Hidden × Nat) → World Hidden → List (Event Hidden)
  | [], _ => []
  | entry :: rest, world =>
      entry.1.journal (place ++ [entry.2]) world ++
        journalAll place rest (entry.1.evaluate world).2

def evaluateAllUnder {Hidden State : Type}
    (observer : Place → Action Hidden → State → Float × State) (place : Place) :
    List (Node Hidden × Nat) → State → List Float × State
  | [], state => ([], state)
  | entry :: rest, state =>
      let (value, state) := entry.1.evaluateUnder observer (place ++ [entry.2]) state
      let (values, state) := evaluateAllUnder observer place rest state
      (value :: values, state)

theorem evaluateUnderChildren {Hidden State : Type}
    (observer : Place → Action Hidden → State → Float × State) (place : Place)
    (node : Node Hidden) (state : State) :
    ∃ action,
      node.action? (evaluateAllUnder observer place node.children.zipIdx state).1 = some action ∧
      node.evaluateUnder observer place state =
        observer place action (evaluateAllUnder observer place node.children.zipIdx state).2 := by
  cases node <;> exact ⟨_, rfl, rfl⟩

/-- Notes do not disturb an evaluation, and they follow the earlier ones. -/
def Notes {Hidden : Type} (node : Node Hidden) : Prop :=
  ∀ place world events, node.evaluateUnder note place (world, events) =
    ((node.evaluate world).1, (node.evaluate world).2, events ++ node.journal place world)

theorem notesAll {Hidden : Type} (place : Place) (nodes : List (Node Hidden × Nat))
    (each : ∀ entry ∈ nodes, entry.1.Notes) (world : World Hidden) (events : List (Event Hidden)) :
    evaluateAllUnder note place nodes (world, events) =
      ((evaluateAll (nodes.map Prod.fst) world).1, (evaluateAll (nodes.map Prod.fst) world).2,
        events ++ journalAll place nodes world) := by
  induction nodes generalizing world events with
  | nil => simp only [evaluateAllUnder, List.map_nil, evaluateAll, journalAll, List.append_nil]
  | cons entry rest ih =>
      have head := each entry List.mem_cons_self
      have tail := ih fun other member => each other (List.mem_cons_of_mem entry member)
      simp only [evaluateAllUnder, head _ _ _, tail, List.map_cons, evaluateAll, journalAll,
        List.append_assoc]

/-- A node notes its own action after the journals of its children. -/
theorem noteChildren {Hidden : Type} (node : Node Hidden)
    (each : ∀ child ∈ node.children, child.Notes) (place : Place) (world : World Hidden)
    (events : List (Event Hidden)) :
    ∃ action, node.action? (evaluateAll node.children world).1 = some action ∧
      node.evaluateUnder note place (world, events) =
        ((node.evaluate world).1, (node.evaluate world).2,
          events ++ (journalAll place node.children.zipIdx world ++
            [⟨place, action, (evaluateAll node.children world).2⟩])) := by
  have noted := notesAll place node.children.zipIdx
    (fun entry member => each entry.1 (List.fst_mem_of_mem_zipIdx member)) world events
  rw [List.zipIdx_map_fst] at noted
  obtain ⟨action, found, observed⟩ := evaluateUnderChildren note place node (world, events)
  obtain ⟨other, foundOther, evaluated⟩ := evaluateChildren node world
  rw [noted, foundOther] at found
  cases found
  refine ⟨action, foundOther, ?_⟩
  rw [observed, noted, evaluated]
  simp only [note, List.append_assoc]

theorem notes {Hidden : Type} (node : Node Hidden) : node.Notes := by
  induction node using childInduction with
  | step node each =>
      intro place world events
      obtain ⟨action, found, bare⟩ := noteChildren node each place world []
      obtain ⟨other, foundOther, noted⟩ := noteChildren node each place world events
      rw [found] at foundOther
      cases foundOther
      rw [noted, journal, bare, List.nil_append]

/-- The journal of a tree is the journal of its children and the event of its root. -/
theorem journalChildren {Hidden : Type} (node : Node Hidden) (place : Place)
    (world : World Hidden) :
    ∃ action, node.action? (evaluateAll node.children world).1 = some action ∧
      node.evaluate world = action.perform (evaluateAll node.children world).2 ∧
      node.journal place world = journalAll place node.children.zipIdx world ++
        [⟨place, action, (evaluateAll node.children world).2⟩] := by
  obtain ⟨action, found, noted⟩ := noteChildren node (fun child _ => notes child) place world []
  obtain ⟨other, foundOther, evaluated⟩ := evaluateChildren node world
  rw [found] at foundOther
  cases foundOther
  refine ⟨action, found, evaluated, ?_⟩
  rw [journal, noted, List.nil_append]

end Node

/-- A visited leaf acts at once, and any other job acts on the values on top. -/
def Turn.action? {Hidden : Type} (turn : Turn Hidden) : Option (Action Hidden) :=
  match turn.job, turn.before.values.items with
  | .visit (.number value), _ => some (.number value)
  | .visit (.var slot), _ => some (.read slot)
  | .negate, operand :: _ => some (.negate operand)
  | .combine operation, right :: left :: _ => some (.combine operation left right)
  | .call (.unary body), argument :: _ => some (.unary body argument)
  | .call (.binary body), second :: first :: _ => some (.binary body first second)
  | .call (.ternary body), second :: first :: condition :: _ =>
      some (.ternary body condition first second)
  | _, _ => none

/-- A visited inner node opens the places of its children and then its own one again. -/
def Job.opened {Hidden : Type} (place : Place) : Job Hidden → List Place
  | .visit node =>
      if node.isLeaf then []
      else node.children.zipIdx.map (fun entry => place ++ [entry.2]) ++ [place]
  | _ => []

/-- The pending jobs have places, and the turns that act give events at the places of their jobs. -/
def Turn.events {Hidden : Type} : List Place → List (Turn Hidden) → List (Event Hidden)
  | place :: places, turn :: turns =>
      (turn.action?.map fun action => ⟨place, action, turn.before.world⟩).toList ++
        events (turn.job.opened place ++ places) turns
  | _, _ => []

theorem Turn.eventsNone {Hidden : Type} (turns : List (Turn Hidden)) :
    Turn.events [] turns = [] := by
  cases turns <;> rfl

/-- Under both strategies the events of an evaluation are read off the evaluation itself. -/
def Node.events {Hidden : Type} (strategy : Strategy) (node : Node Hidden) (world : World Hidden) :
    List (Event Hidden) :=
  match strategy with
  | .recursive => node.journal [] world
  | .worklist => Turn.events [[]] (Machine.start node world).turns

end ExprTree
