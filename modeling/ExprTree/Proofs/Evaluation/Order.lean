/-
This file shows that every evaluation performs the actions of a tree in post-order.
-/

import ExprTree.Proofs.Evaluation.Agreement
import ExprTree.Proofs.Node.PostOrder
import ExprTree.Proofs.World.Writes

namespace ExprTree

/-- Only the body of a function writes to slots. -/
def Action.writes {Hidden : Type} : Action Hidden → World Hidden → List (Slot × Float)
  | .unary body argument, world => (body argument).writes world
  | .binary body first second, world => (body first second).writes world
  | .ternary body condition first second, world =>
      (body (Binary64.isTrue condition) first second).writes world
  | _, _ => []

theorem Action.readPerform {Hidden : Type} (action : Action Hidden) (world : World Hidden)
    (slot : Slot) :
    (action.perform world).2.read slot = lastWritten slot (action.writes world) (world.read slot) := by
  cases action with
  | number value | read slot | negate operand | combine operation left right => rfl
  | unary body argument => exact (body argument).readRun world slot
  | binary body first second => exact (body first second).readRun world slot
  | ternary body condition first second =>
      exact (body (Binary64.isTrue condition) first second).readRun world slot

namespace Event

def writes {Hidden : Type} (event : Event Hidden) : List (Slot × Float) :=
  event.action.writes event.before

/-- Each event finds the world that the event before it leaves. -/
def Leads {Hidden : Type} : World Hidden → List (Event Hidden) → World Hidden → Prop
  | world, [], final => world = final
  | world, event :: rest, final => event.before = world ∧ Leads event.after rest final

theorem leadsAppend {Hidden : Type} (first second : List (Event Hidden))
    (world final : World Hidden) :
    Leads world (first ++ second) final ↔
      ∃ middle, Leads world first middle ∧ Leads middle second final := by
  induction first generalizing world with
  | nil => simp [Leads]
  | cons event rest ih => simp only [List.cons_append, Leads, ih, and_assoc, exists_and_left]

/-- A slot holds the last value that the events so far wrote to it. -/
theorem readLeads {Hidden : Type} (events : List (Event Hidden)) (world final : World Hidden)
    (leads : Leads world events final) (slot : Slot) :
    final.read slot = lastWritten slot (events.flatMap writes) (world.read slot) := by
  induction events generalizing world with
  | nil =>
      rw [show world = final from leads]
      rfl
  | cons event rest ih =>
      obtain ⟨found, later⟩ := leads
      rw [ih event.after later, List.flatMap_cons, lastWrittenAppend, after, writes,
        Action.readPerform, found]

/-- The events perform the actions of the listed nodes at their places, one after the other. -/
def Perform {Hidden : Type} (events : List (Event Hidden))
    (entries : List (Place × Node Hidden)) : Prop :=
  List.Forall₂ (fun event entry => event.place = entry.1 ∧
    ∃ operands, entry.2.action? operands = some event.action) events entries

theorem placesPerform {Hidden : Type} {events : List (Event Hidden)}
    {entries : List (Place × Node Hidden)} (perform : Perform events entries) :
    events.map place = entries.map Prod.fst := by
  induction perform with
  | nil => rfl
  | cons head _ ih => rw [List.map_cons, List.map_cons, head.1, ih]

end Event

namespace Node

/-- Listed nodes keep their order when the whole tree stands at a place. -/
def listedAt {Hidden : Type} (place : Place) (entries : List (Place × Node Hidden)) :
    List (Place × Node Hidden) :=
  entries.map fun entry => (place ++ entry.1, entry.2)

theorem listedUnder {Hidden : Type} (place : Place) (index : Nat)
    (entries : List (Place × Node Hidden)) :
    listedAt place (under index entries) = listedAt (place ++ [index]) entries := by
  simp only [listedAt, under, List.map_map, Function.comp_def, List.append_assoc,
    List.cons_append, List.nil_append]

theorem journalAllPerforms {Hidden : Type} (place : Place) (nodes : List (Node Hidden × Nat))
    (each : ∀ entry ∈ nodes, ∀ place world,
      Event.Perform (entry.1.journal place world) (listedAt place entry.1.postOrder))
    (world : World Hidden) :
    Event.Perform (journalAll place nodes world)
      (listedAt place (nodes.flatMap fun entry => under entry.2 entry.1.postOrder)) := by
  induction nodes generalizing world with
  | nil => exact .nil
  | cons entry rest ih =>
      have head := each entry List.mem_cons_self (place ++ [entry.2]) world
      have tail := ih (fun other member => each other (List.mem_cons_of_mem entry member))
        (entry.1.evaluate world).2
      rw [← listedUnder] at head
      rw [List.flatMap_cons, listedAt, List.map_append]
      exact List.rel_append head tail

/-- The journal performs the actions of all nodes in post-order. -/
theorem journalPerforms {Hidden : Type} (node : Node Hidden) (place : Place)
    (world : World Hidden) :
    Event.Perform (node.journal place world) (listedAt place node.postOrder) := by
  induction node using childInduction generalizing place world with
  | step node each =>
      obtain ⟨action, found, _, journal⟩ := node.journalChildren place world
      have below := journalAllPerforms place node.children.zipIdx
        (fun entry member => each entry.1 (List.fst_mem_of_mem_zipIdx member)) world
      rw [journal, postOrderChildren, listedAt, List.map_append]
      exact List.rel_append below (.cons ⟨(List.append_nil place).symm, _, found⟩ .nil)

theorem journalAllLeads {Hidden : Type} (place : Place) (nodes : List (Node Hidden × Nat))
    (each : ∀ entry ∈ nodes, ∀ place world,
      Event.Leads world (entry.1.journal place world) (entry.1.evaluate world).2)
    (world : World Hidden) :
    Event.Leads world (journalAll place nodes world)
      (evaluateAll (nodes.map Prod.fst) world).2 := by
  induction nodes generalizing world with
  | nil => rfl
  | cons entry rest ih =>
      have head := each entry List.mem_cons_self (place ++ [entry.2]) world
      have tail := ih (fun other member => each other (List.mem_cons_of_mem entry member))
        (entry.1.evaluate world).2
      exact (Event.leadsAppend _ _ _ _).mpr ⟨_, head, tail⟩

/-- The journal leads from the first world of the evaluation to its last one. -/
theorem journalLeads {Hidden : Type} (node : Node Hidden) (place : Place) (world : World Hidden) :
    Event.Leads world (node.journal place world) (node.evaluate world).2 := by
  induction node using childInduction generalizing place world with
  | step node each =>
      obtain ⟨action, _, evaluated, journal⟩ := node.journalChildren place world
      have below := journalAllLeads place node.children.zipIdx
        (fun entry member => each entry.1 (List.fst_mem_of_mem_zipIdx member)) world
      rw [List.zipIdx_map_fst] at below
      rw [journal, evaluated]
      exact (Event.leadsAppend _ _ _ _).mpr ⟨_, below, rfl, rfl⟩

theorem journalResult {Hidden : Type} (node : Node Hidden) (place : Place)
    (world : World Hidden) :
    (node.journal place world).getLast?.map Event.result = some (node.evaluate world).1 := by
  obtain ⟨action, _, evaluated, journal⟩ := node.journalChildren place world
  rw [journal, evaluated, List.getLast?_append]
  rfl

/-- Both strategies give the events of the journal. -/
theorem eventsJournal {Hidden : Type} (strategy : Strategy) (node : Node Hidden)
    (world : World Hidden) : node.events strategy world = node.journal [] world := by
  cases strategy with
  | recursive => rfl
  | worklist =>
      obtain ⟨turns, _, same, events⟩ := node.startReaches world
      rw [Node.events, same, events]

theorem eventsPerform {Hidden : Type} (strategy : Strategy) (node : Node Hidden)
    (world : World Hidden) : Event.Perform (node.events strategy world) node.postOrder := by
  have performs := node.journalPerforms [] world
  rw [eventsJournal]
  simpa only [listedAt, List.nil_append, List.map_id'] using performs

end Node

/--
An evaluation performs the action of every node once and in post-order, whatever the strategy.
A variable is read after all writes of the actions before it and before all others.
-/
theorem actionsFollowPostOrder {Hidden : Type} (strategy : Strategy) (node : Node Hidden)
    (world : World Hidden) :
    (∀ place, node.evaluateUnder (fun _ action => action.perform) place world =
      node.evaluate world) ∧
    Event.Perform (node.events strategy world) node.postOrder ∧
    (∀ place below, (place, below) ∈ node.postOrder ↔ node.descendant? place = some below) ∧
    (node.postOrder.Pairwise fun first second => PathPrecedes first.1 second.1) ∧
    (node.postOrder.map Prod.fst).Nodup ∧
    Event.Leads world (node.events strategy world)
      (node.evaluateWith strategy world).outcome.2 ∧
    (node.events strategy world).getLast?.map Event.result =
      some (node.evaluateWith strategy world).outcome.1 ∧
    (∀ other start, (node.events other start).map Event.place =
      (node.events strategy world).map Event.place) ∧
    ∀ earlier event later slot, node.events strategy world = earlier ++ event :: later →
      event.action = .read slot →
      event.result = lastWritten slot (earlier.flatMap Event.writes) (world.read slot) := by
  have leads := node.journalLeads [] world
  rw [← Node.eventsJournal strategy] at leads
  refine ⟨fun place => node.evaluateUnderPerform place world, node.eventsPerform strategy world,
    fun place below => node.memPostOrder below place, node.postOrderPrecedes, node.postOrderNodup,
    ?_, ?_, fun other start => ?_, ?_⟩
  · rwa [Node.evaluateWithOutcome]
  · rw [Node.eventsJournal, Node.evaluateWithOutcome, Node.journalResult]
  · rw [Event.placesPerform (node.eventsPerform other start),
      Event.placesPerform (node.eventsPerform strategy world)]
  · intro earlier event later slot split read
    rw [split] at leads
    obtain ⟨middle, reached, found, _⟩ := (Event.leadsAppend _ _ _ _).mp leads
    rw [Event.result, read, ← Event.readLeads earlier world middle reached, ← found]
    rfl

/-- The right operand of a difference sees what the body of the left operand has written. -/
theorem actionsFollowPostOrderPastWrite :
    let body := fun argument : Float => Effect.write (⟨0⟩ : Slot) argument (.done argument)
    let tree : Node Nat := .operator Float.sub (.unary "set" body (.number 5.0)) (.var ⟨0⟩)
    ∃ earlier event later, tree.events .worklist World.empty = earlier ++ event :: later ∧
      event.place = [1] ∧ event.action = .read ⟨0⟩ ∧ event.result = 5.0 := by
  intro body tree
  let written : World Nat := World.empty.write ⟨0⟩ 5.0
  have split : tree.events .worklist World.empty =
      [⟨[0, 0], .number 5.0, World.empty⟩, ⟨[0], .unary body 5.0, World.empty⟩] ++
        ⟨[1], .read ⟨0⟩, written⟩ ::
          [⟨[], .combine Float.sub 5.0 (written.read ⟨0⟩), written⟩] := by
    rw [Node.eventsJournal]
    rfl
  have order := actionsFollowPostOrder .worklist tree World.empty
  obtain ⟨_, _, _, _, _, _, _, _, seen⟩ := order
  exact ⟨_, _, _, split, rfl, rfl, seen _ _ _ ⟨0⟩ split rfl⟩

end ExprTree
