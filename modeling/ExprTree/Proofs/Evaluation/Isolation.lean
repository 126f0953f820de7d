/-
This file shows that an evaluation depends on the slots and cells of its tree and on nothing else.
-/

import ExprTree.Proofs.Evaluation.Order
import ExprTree.Proofs.World.Access

namespace ExprTree

/-- The effect of an action answers with its result, and only a read or a body acts on the world. -/
def Action.effect {Hidden : Type} : Action Hidden → Effect Hidden Float
  | .number value => .done value
  | .read slot => .read slot .done
  | .negate operand => .done (-operand)
  | .combine operation left right => .done (operation left right)
  | .unary body argument => body argument
  | .binary body first second => body first second
  | .ternary body condition first second => body (Binary64.isTrue condition) first second

theorem Action.performEffect {Hidden : Type} (action : Action Hidden) (world : World Hidden) :
    action.perform world = action.effect.run world := by
  cases action <;> rfl

theorem Action.writesEffect {Hidden : Type} (action : Action Hidden) (world : World Hidden) :
    action.writes world = action.effect.writes world := by
  cases action <;> rfl

namespace Event

def accesses {Hidden : Type} (event : Event Hidden) : List (Access Hidden) :=
  event.action.effect.accesses event.before

theorem writesAccesses {Hidden : Type} (events : List (Event Hidden)) :
    events.flatMap writes = (events.flatMap accesses).filterMap Access.written? := by
  rw [List.filterMap_flatMap]
  congr 1
  funext event
  rw [writes, Action.writesEffect, Effect.writesAccesses, accesses]

/-- The trace grows by what the events record. -/
theorem traceLeads {Hidden : Type} (events : List (Event Hidden)) (world final : World Hidden)
    (leads : Leads world events final) :
    final.trace.toList =
      world.trace.toList ++ (events.flatMap accesses).filterMap Access.recorded? := by
  induction events generalizing world with
  | nil =>
      rw [show world = final from leads]
      exact (List.append_nil _).symm
  | cons event rest ih =>
      obtain ⟨found, later⟩ := leads
      rw [ih event.after later, after, Action.performEffect, Effect.traceRun, found,
        List.flatMap_cons, List.filterMap_append, List.append_assoc, accesses, found]

/-- Events that change nothing lead nowhere else. -/
theorem quietLeads {Hidden : Type} (events : List (Event Hidden)) (world final : World Hidden)
    (leads : Leads world events final) (quiet : ∀ event ∈ events, event.after = event.before) :
    final = world := by
  induction events generalizing world with
  | nil => exact Eq.symm leads
  | cons event rest ih =>
      obtain ⟨found, later⟩ := leads
      obtain ⟨still, quietRest⟩ := List.forall_mem_cons.mp quiet
      rw [ih event.after later quietRest, still, found]

theorem memPerform {Hidden : Type} {events : List (Event Hidden)}
    {entries : List (Place × Node Hidden)} (perform : Perform events entries)
    {event : Event Hidden} (member : event ∈ events) :
    ∃ entry ∈ entries, event.place = entry.1 ∧
      ∃ operands, entry.2.action? operands = some event.action := by
  induction perform with
  | nil => cases member
  | @cons head entry events entries performed _ ih =>
      rcases List.mem_cons.mp member with rfl | later
      · exact ⟨entry, List.mem_cons_self, performed⟩
      · obtain ⟨other, listed, found⟩ := ih later
        exact ⟨other, List.mem_cons_of_mem entry listed, found⟩

end Event

/-- The effects of a body are those that it has for any arguments. -/
def Callable.effects {Hidden : Type} : Callable Hidden → Set (Effect Hidden Float)
  | .unary body => {effect | ∃ argument, body argument = effect}
  | .binary body => {effect | ∃ first second, body first second = effect}
  | .ternary body => {effect | ∃ condition first second, body condition first second = effect}

namespace Node

/-- A tree holds the nodes that some path leads to. -/
def Holds {Hidden : Type} (node below : Node Hidden) : Prop :=
  ∃ place, node.descendant? place = some below

theorem holdsSelf {Hidden : Type} (node : Node Hidden) : node.Holds node := ⟨[], rfl⟩

theorem holdsChildren {Hidden : Type} (node below : Node Hidden) :
    node.Holds below ↔ node = below ∨ ∃ child ∈ node.children, child.Holds below := by
  constructor
  · rintro ⟨_ | ⟨index, place⟩, reached⟩
    · exact .inl (Option.some.inj reached)
    · obtain ⟨child, listed, inside⟩ := Option.bind_eq_some_iff.mp reached
      exact .inr ⟨child, List.mem_of_getElem? listed, place, inside⟩
  · rintro (rfl | ⟨child, member, place, inside⟩)
    · exact node.holdsSelf
    · obtain ⟨index, listed⟩ := List.mem_iff_getElem?.mp member
      exact ⟨index :: place, Option.bind_eq_some_iff.mpr ⟨child, listed, inside⟩⟩

theorem holdsPostOrder {Hidden : Type} (node below : Node Hidden) :
    node.Holds below ↔ below ∈ node.postOrder.map Prod.snd := by
  simp only [Holds, ← memPostOrder, List.mem_map, Prod.exists, exists_eq_right]

/-- The calls of a tree are the effects of all bodies in it. -/
def calls {Hidden : Type} (node : Node Hidden) : Set (Effect Hidden Float) :=
  {effect | ∃ below name callable, node.Holds below ∧
    below.function? = some (name, callable) ∧ effect ∈ callable.effects}

/-- The scope of a tree has the slots that it holds or reads and the cells that it touches. -/
def scope {Hidden : Type} (node : Node Hidden) : Scope where
  slots := {slot | node.Holds (.var slot) ∨
    ∃ effect ∈ node.calls, ∃ world, Access.read slot ∈ effect.accesses world}
  cells := {cell | ∃ effect ∈ node.calls, ∃ world, Access.load cell ∈ effect.accesses world ∨
    ∃ content, Access.store cell content ∈ effect.accesses world}

/-- The written slots of a tree are those that its bodies write in some world. -/
def written {Hidden : Type} (node : Node Hidden) : Set Slot :=
  {slot | ∃ effect ∈ node.calls, ∃ world, slot ∈ (effect.writes world).map Prod.fst}

/-- The bodies of a quiet tree leave every world as they find it. -/
def Quiet {Hidden : Type} (node : Node Hidden) : Prop :=
  ∀ effect ∈ node.calls, ∀ world, (effect.run world).2 = world

/-- Only variables and functions act on the world, and a variable only reads its slot. -/
theorem actionEffect {Hidden : Type} {node : Node Hidden} {operands : List Float}
    {action : Action Hidden} (found : node.action? operands = some action) :
    (∃ answer, action.effect = .done answer) ∨
      (∃ slot, node = .var slot ∧ action.effect = .read slot .done) ∨
      ∃ name callable, node.function? = some (name, callable) ∧
        action.effect ∈ callable.effects := by
  cases node <;>
    rcases operands with _ | ⟨first, _ | ⟨second, _ | ⟨third, _ | ⟨fourth, rest⟩⟩⟩⟩ <;>
    cases found
  case number.nil value => exact .inl ⟨value, rfl⟩
  case var.nil slot => exact .inr (.inl ⟨slot, rfl, rfl⟩)
  case negation.cons.nil operand => exact .inl ⟨_, rfl⟩
  case operator => exact .inl ⟨_, rfl⟩
  case unary name body _ => exact .inr (.inr ⟨name, .unary body, rfl, _, rfl⟩)
  case binary name body _ _ => exact .inr (.inr ⟨name, .binary body, rfl, _, _, rfl⟩)
  case ternary name body _ _ _ => exact .inr (.inr ⟨name, .ternary body, rfl, _, _, _, rfl⟩)

/-- A tree stays within a scope when all accesses of all its nodes do, whatever the operands. -/
def Within {Hidden : Type} (scope : Scope) (node : Node Hidden) : Prop :=
  ∀ below operands action world, node.Holds below → below.action? operands = some action →
    ∀ access ∈ action.effect.accesses world, access.Within scope

theorem withinScope {Hidden : Type} (node : Node Hidden) : node.Within node.scope := by
  intro below operands action world held found access member
  rcases actionEffect found with ⟨answer, effect⟩ | ⟨slot, rfl, effect⟩ |
    ⟨name, callable, function, called⟩
  · rw [effect] at member
    cases member
  · rw [effect] at member
    rw [List.mem_singleton.mp member]
    exact .inl held
  · have call : action.effect ∈ node.calls := ⟨below, name, callable, held, function, called⟩
    cases access with
    | read slot => exact .inr ⟨_, call, world, member⟩
    | load cell => exact ⟨_, call, world, .inl member⟩
    | store cell content => exact ⟨_, call, world, .inr ⟨content, member⟩⟩
    | write slot value | record value => trivial

theorem withinChild {Hidden : Type} {scope : Scope} {node child : Node Hidden}
    (within : node.Within scope) (member : child ∈ node.children) : child.Within scope := by
  intro below operands action world held
  exact within below operands action world
    ((holdsChildren node below).mpr (.inr ⟨child, member, held⟩))

/-- A tree repeats itself within a scope when worlds that agree there lead to the same accesses. -/
def Repeats {Hidden : Type} (scope : Scope) (node : Node Hidden) : Prop :=
  ∀ place first second, World.Agree scope first second →
    (node.evaluate first).1 = (node.evaluate second).1 ∧
      (node.journal place first).flatMap Event.accesses =
        (node.journal place second).flatMap Event.accesses ∧
      World.Agree scope (node.evaluate first).2 (node.evaluate second).2

theorem repeatsAll {Hidden : Type} {scope : Scope} (place : Place)
    (nodes : List (Node Hidden × Nat)) (each : ∀ entry ∈ nodes, entry.1.Repeats scope)
    (first second : World Hidden) (agree : World.Agree scope first second) :
    (evaluateAll (nodes.map Prod.fst) first).1 = (evaluateAll (nodes.map Prod.fst) second).1 ∧
      (journalAll place nodes first).flatMap Event.accesses =
        (journalAll place nodes second).flatMap Event.accesses ∧
      World.Agree scope (evaluateAll (nodes.map Prod.fst) first).2
        (evaluateAll (nodes.map Prod.fst) second).2 := by
  induction nodes generalizing first second with
  | nil => exact ⟨rfl, rfl, agree⟩
  | cons entry rest ih =>
      obtain ⟨value, accesses, after⟩ :=
        each entry List.mem_cons_self (place ++ [entry.2]) first second agree
      obtain ⟨values, later, final⟩ :=
        ih (fun other member => each other (List.mem_cons_of_mem entry member)) _ _ after
      simp only [List.map_cons, evaluateAll, journalAll, List.flatMap_append, value, accesses,
        values, later, final, and_self]

/-- The children leave worlds that agree, so the node acts on the same operands in both. -/
theorem repeats {Hidden : Type} {scope : Scope} (node : Node Hidden)
    (within : node.Within scope) : node.Repeats scope := by
  induction node using childInduction with
  | step node each =>
      intro place first second agree
      have below := repeatsAll place node.children.zipIdx
        (fun entry member =>
          have child := List.fst_mem_of_mem_zipIdx member
          each entry.1 child (withinChild within child)) first second agree
      rw [List.zipIdx_map_fst] at below
      obtain ⟨values, accesses, after⟩ := below
      obtain ⟨action, found, evaluated, journal⟩ := node.journalChildren place first
      obtain ⟨other, foundOther, evaluatedOther, journalOther⟩ := node.journalChildren place second
      rw [← values, found] at foundOther
      cases foundOther
      obtain ⟨value, own, final⟩ := action.effect.runAgree _ _ after
        (within node _ action _ node.holdsSelf found)
      rw [evaluated, evaluatedOther, journal, journalOther, Action.performEffect,
        Action.performEffect, List.flatMap_append, List.flatMap_append, accesses]
      refine ⟨value, ?_, final⟩
      simp only [List.flatMap_cons, List.flatMap_nil, Event.accesses, own]

/-- An event of a tree answers at once, reads a slot or carries out a call of the tree. -/
theorem eventEffect {Hidden : Type} (node : Node Hidden) (place : Place) (world : World Hidden)
    (event : Event Hidden) (member : event ∈ node.journal place world) :
    (∃ answer, event.action.effect = .done answer) ∨
      (∃ slot, event.action.effect = .read slot .done) ∨ event.action.effect ∈ node.calls := by
  obtain ⟨entry, listed, _, operands, found⟩ :=
    Event.memPerform (node.journalPerforms place world) member
  obtain ⟨⟨path, below⟩, inside, rfl⟩ := List.mem_map.mp listed
  rw [memPostOrder] at inside
  rcases actionEffect found with done | ⟨slot, _, read⟩ | ⟨name, callable, function, called⟩
  · exact .inl done
  · exact .inr (.inl ⟨slot, read⟩)
  · exact .inr (.inr ⟨below, name, callable, ⟨path, inside⟩, function, called⟩)

/-- A slot that no body writes keeps its value. -/
theorem readUnwritten {Hidden : Type} (node : Node Hidden) (world : World Hidden) (slot : Slot)
    (unwritten : slot ∉ node.written) : (node.evaluate world).2.read slot = world.read slot := by
  rw [Event.readLeads _ world _ (node.journalLeads [] world)]
  apply lastWrittenKept
  intro member
  obtain ⟨write, made, rfl⟩ := List.mem_map.mp member
  obtain ⟨event, listed, made⟩ := List.mem_flatMap.mp made
  rw [Event.writes, Action.writesEffect] at made
  rcases node.eventEffect [] world event listed with ⟨answer, done⟩ | ⟨read, reads⟩ | call
  · rw [done] at made
    cases made
  · rw [reads] at made
    cases made
  · exact unwritten ⟨_, call, event.before, List.mem_map_of_mem made⟩

/-- A quiet tree has no event that changes the world. -/
theorem evaluateQuiet {Hidden : Type} (node : Node Hidden) (quiet : node.Quiet)
    (world : World Hidden) : (node.evaluate world).2 = world := by
  apply Event.quietLeads (node.journal [] world) world _ (node.journalLeads [] world)
  intro event listed
  rw [Event.after, Action.performEffect]
  rcases node.eventEffect [] world event listed with ⟨answer, done⟩ | ⟨slot, reads⟩ | call
  · rw [done]
    rfl
  · rw [reads]
    rfl
  · exact quiet _ call event.before

/-- Every evaluation in a row finds the world of the first one and repeats its value. -/
theorem historyQuiet {Hidden : Type} (node : Node Hidden) (quiet : node.Quiet)
    (world : World Hidden) (strategies : List Strategy) :
    Request.history (strategies.map fun strategy => .evaluate strategy node) world =
      strategies.map fun _ => (some (node.evaluate world).1, world) := by
  induction strategies with
  | nil => rfl
  | cons strategy rest ih =>
      rw [List.map_cons, List.map_cons, Request.history, Request.answer]
      simp only [Node.evaluateWithOutcome, node.evaluateQuiet quiet, ih]

end Node

/--
Worlds that agree on the slots and cells of a tree lead to the same value, records and writes.
They still agree afterwards, and each of them keeps all slots that no body of the tree writes.
The writes are those of the events that lead through the evaluation, one for each node.
A tree without side effects changes nothing and repeats its value.
-/
theorem evaluationsAreIsolated {Hidden : Type} (node : Node Hidden) :
    (∀ strategy other first second, World.Agree node.scope first second →
      let run := (node.evaluateWith strategy first).outcome
      let rerun := (node.evaluateWith other second).outcome
      run.1 = rerun.1 ∧
        (∃ entries, run.2.trace.toList = first.trace.toList ++ entries ∧
          rerun.2.trace.toList = second.trace.toList ++ entries) ∧
        (node.events strategy first).flatMap Event.writes =
          (node.events other second).flatMap Event.writes ∧
        World.Agree node.scope run.2 rerun.2) ∧
    (∀ strategy world,
      Event.Perform (node.events strategy world) node.postOrder ∧
      Event.Leads world (node.events strategy world)
        (node.evaluateWith strategy world).outcome.2) ∧
    (∀ strategy world, ∀ slot ∉ node.written,
      (node.evaluateWith strategy world).outcome.2.read slot = world.read slot) ∧
    (node.Quiet → ∀ world,
      (∀ strategy, (node.evaluateWith strategy world).outcome.2 = world) ∧
      (∃ value, ∀ strategies : List Strategy,
        Request.history (strategies.map fun strategy => .evaluate strategy node) world =
          strategies.map fun _ => (some value, world)) ∧
      ∀ strategy other value, ∀ slot ∉ node.scope.slots,
        (node.evaluateWith strategy (world.write slot value)).outcome.1 =
          (node.evaluateWith other world).outcome.1) := by
  refine ⟨?_, fun strategy world => ⟨node.eventsPerform strategy world, ?_⟩, ?_, ?_⟩
  · intro strategy other first second agree run rerun
    obtain ⟨value, accesses, after⟩ := node.repeats node.withinScope [] first second agree
    have ran : run = node.evaluate first := node.evaluateWithOutcome strategy first
    have reran : rerun = node.evaluate second := node.evaluateWithOutcome other second
    rw [ran, reran, Node.eventsJournal, Node.eventsJournal, Event.writesAccesses,
      Event.writesAccesses, accesses]
    have trace := Event.traceLeads _ first _ (node.journalLeads [] first)
    have retrace := Event.traceLeads _ second _ (node.journalLeads [] second)
    rw [accesses] at trace
    exact ⟨value, ⟨_, trace, retrace⟩, rfl, after⟩
  · rw [Node.eventsJournal, Node.evaluateWithOutcome]
    exact node.journalLeads [] world
  · intro strategy world slot unwritten
    rw [Node.evaluateWithOutcome, node.readUnwritten world slot unwritten]
  · intro quiet world
    refine ⟨fun strategy => ?_, ⟨_, node.historyQuiet quiet world⟩, ?_⟩
    · rw [Node.evaluateWithOutcome, node.evaluateQuiet quiet]
    · intro strategy other value slot outside
      rw [Node.evaluateWithOutcome, Node.evaluateWithOutcome]
      exact (node.repeats node.withinScope [] _ _ (.writeOutside world outside value)).1

/-- A body that exchanges a slot is told nothing by a slot elsewhere, and a negation is quiet. -/
theorem evaluationsAreIsolatedExchange :
    let body := fun argument : Float => Effect.read (⟨1⟩ : Slot) fun old =>
      .write ⟨1⟩ argument (.record old (.done (old + argument)))
    let tree : Node Nat := .unary "exchange" body (.var ⟨0⟩)
    let start : World Nat := World.empty.write ⟨1⟩ 5.0
    let other := (start.record 3.0).write ⟨2⟩ 7.0
    let quiet : Node Nat := .negation (.var ⟨0⟩)
    (World.Agree tree.scope other start ∧
      (tree.evaluateWith .worklist other).outcome.1 =
        (tree.evaluateWith .recursive start).outcome.1) ∧
    ((⟨0⟩ : Slot) ∉ tree.written ∧
      (tree.evaluateWith .worklist other).outcome.2.read ⟨0⟩ = other.read ⟨0⟩) ∧
    quiet.Quiet ∧ (⟨1⟩ : Slot) ∉ quiet.scope.slots ∧
      (quiet.evaluateWith .worklist (start.write ⟨1⟩ 6.0)).outcome.1 =
        (quiet.evaluateWith .recursive start).outcome.1 := by
  intro body tree start other quiet
  have treeCalls : ∀ effect ∈ tree.calls, ∃ argument, body argument = effect := by
    rintro effect ⟨below, name, callable, held, function, called⟩
    rw [Node.holdsPostOrder] at held
    change below ∈ [.var ⟨0⟩, tree] at held
    rcases List.mem_pair.mp held with rfl | rfl
    · cases function
    · cases function
      exact called
  have quietCalls : ∀ effect, effect ∉ quiet.calls := by
    rintro effect ⟨below, name, callable, held, function, called⟩
    rw [Node.holdsPostOrder] at held
    change below ∈ [.var ⟨0⟩, quiet] at held
    rcases List.mem_pair.mp held with rfl | rfl <;> cases function
  have outside : (⟨2⟩ : Slot) ∉ tree.scope.slots := by
    rintro (held | ⟨effect, call, world, member⟩)
    · rw [Node.holdsPostOrder] at held
      change .var ⟨2⟩ ∈ [.var ⟨0⟩, tree] at held
      exact absurd (List.mem_pair.mp held) (by simp [tree])
    · obtain ⟨argument, rfl⟩ := treeCalls effect call
      simp [body, Effect.accesses] at member
  have agree : World.Agree tree.scope other start :=
    let agree := World.Agree.writeOutside (start.record 3.0) outside 7.0
    ⟨agree.slots, agree.cells⟩
  have unwritten : (⟨0⟩ : Slot) ∉ tree.written := by
    rintro ⟨effect, call, world, member⟩
    obtain ⟨argument, rfl⟩ := treeCalls effect call
    simp [body, Effect.writes] at member
  have still : quiet.Quiet := fun effect call => absurd call (quietCalls effect)
  have unread : (⟨1⟩ : Slot) ∉ quiet.scope.slots := by
    rintro (held | ⟨effect, call, _⟩)
    · rw [Node.holdsPostOrder] at held
      change .var ⟨1⟩ ∈ [.var ⟨0⟩, quiet] at held
      exact absurd (List.mem_pair.mp held) (by simp [quiet])
    · exact quietCalls effect call
  obtain ⟨alike, _, kept, _⟩ := evaluationsAreIsolated tree
  obtain ⟨_, _, _, repeated⟩ := evaluationsAreIsolated quiet
  exact ⟨⟨agree, (alike .worklist .recursive other start agree).1⟩,
    ⟨unwritten, kept .worklist other ⟨0⟩ unwritten⟩, still, unread,
    (repeated still start).2.2 .worklist .recursive 6.0 ⟨1⟩ unread⟩

end ExprTree
