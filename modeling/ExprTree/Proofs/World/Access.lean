/-
This file lists what an effect does to the world, and what its run depends on.
-/

import ExprTree.Proofs.World.Writes
import Mathlib.Data.Set.Defs

namespace ExprTree

/-- An access is one step of an effect, and its answer is not part of it. -/
inductive Access (Hidden : Type) where
  | read (slot : Slot)
  | write (slot : Slot) (value : Float)
  | record (value : Float)
  | load (cell : Cell)
  | store (cell : Cell) (content : Hidden)

namespace Access

def written? {Hidden : Type} : Access Hidden → Option (Slot × Float)
  | .write slot value => some (slot, value)
  | _ => none

def recorded? {Hidden : Type} : Access Hidden → Option Float
  | .record value => some value
  | _ => none

end Access

/-- The accesses of an effect are those that its run makes, in order. -/
def Effect.accesses {Hidden Answer : Type} :
    Effect Hidden Answer → World Hidden → List (Access Hidden)
  | .done _, _ => []
  | .read slot next, world => .read slot :: (next (world.read slot)).accesses world
  | .write slot value next, world => .write slot value :: next.accesses (world.write slot value)
  | .record value next, world => .record value :: next.accesses (world.record value)
  | .load cell next, world => .load cell :: (next (world.load cell)).accesses world
  | .store cell content next, world =>
      .store cell content :: next.accesses (world.store cell content)

theorem Effect.writesAccesses {Hidden Answer : Type} (effect : Effect Hidden Answer)
    (world : World Hidden) :
    effect.writes world = (effect.accesses world).filterMap Access.written? := by
  induction effect generalizing world with
  | done answer => rfl
  | read slot next ih => exact ih (world.read slot) world
  | write slot value next ih => exact congrArg ((slot, value) :: ·) (ih (world.write slot value))
  | record value next ih => exact ih (world.record value)
  | load cell next ih => exact ih (world.load cell) world
  | store cell content next ih => exact ih (world.store cell content)

/-- A run adds what it records to the end of the trace. -/
theorem Effect.traceRun {Hidden Answer : Type} (effect : Effect Hidden Answer)
    (world : World Hidden) :
    (effect.run world).2.trace.toList =
      world.trace.toList ++ (effect.accesses world).filterMap Access.recorded? := by
  induction effect generalizing world with
  | done answer => exact (List.append_nil _).symm
  | read slot next ih => exact ih (world.read slot) world
  | write slot value next ih => exact ih (world.write slot value)
  | record value next ih =>
      rw [run, ih, World.record, Array.toList_push, List.append_assoc]
      rfl
  | load cell next ih => exact ih (world.load cell) world
  | store cell content next ih => exact ih (world.store cell content)

/-- A stored cell holds the stored content, and every other cell keeps its own. -/
theorem World.loadStore {Hidden : Type} (world : World Hidden) (cell other : Cell)
    (content : Hidden) :
    (world.store cell content).load other =
      if cell = other then some content else world.load other := by
  have same : cell = other ↔ cell.address = other.address := by
    cases cell
    cases other
    exact Cell.mk.injEq _ _ ▸ Iff.rfl
  simp only [load, store, Memory.findWrite, same]

/-- A scope holds some of the slots and some of the cells. -/
structure Scope where
  slots : Set Slot
  cells : Set Cell

/-- An access stays within a scope when it reads no other slot and touches no other cell. -/
def Access.Within {Hidden : Type} (scope : Scope) : Access Hidden → Prop
  | .read slot => slot ∈ scope.slots
  | .load cell | .store cell _ => cell ∈ scope.cells
  | .write _ _ | .record _ => True

/-- Worlds agree within a scope when its slots and its cells have the same contents. -/
structure World.Agree {Hidden : Type} (scope : Scope) (first second : World Hidden) : Prop where
  slots : ∀ slot ∈ scope.slots, first.read slot = second.read slot
  cells : ∀ cell ∈ scope.cells, first.load cell = second.load cell

namespace World.Agree
variable {Hidden : Type} {scope : Scope} {first second : World Hidden}

theorem write (agree : Agree scope first second) (slot : Slot) (value : Float) :
    Agree scope (first.write slot value) (second.write slot value) where
  slots := by
    intro other member
    rw [readWrite, readWrite, agree.slots other member]
  cells := agree.cells

theorem store (agree : Agree scope first second) (cell : Cell) (content : Hidden) :
    Agree scope (first.store cell content) (second.store cell content) where
  slots := agree.slots
  cells := by
    intro other member
    rw [loadStore, loadStore, agree.cells other member]

/-- A slot outside of the scope can be written on one side alone. -/
theorem writeOutside (world : World Hidden) {slot : Slot} (outside : slot ∉ scope.slots)
    (value : Float) : Agree scope (world.write slot value) world where
  slots := by
    intro other member
    have different : slot ≠ other := by
      rintro rfl
      exact outside member
    rw [readWrite, if_neg different]
  cells _ _ := rfl

end World.Agree

/-- An effect whose accesses stay within a scope cannot tell apart worlds that agree there. -/
theorem Effect.runAgree {Hidden Answer : Type} {scope : Scope} (effect : Effect Hidden Answer)
    (first second : World Hidden) (agree : World.Agree scope first second)
    (within : ∀ access ∈ effect.accesses first, access.Within scope) :
    (effect.run first).1 = (effect.run second).1 ∧
      effect.accesses first = effect.accesses second ∧
      World.Agree scope (effect.run first).2 (effect.run second).2 := by
  induction effect generalizing first second with
  | done answer => exact ⟨rfl, rfl, agree⟩
  | read slot next ih =>
      obtain ⟨inside, later⟩ := List.forall_mem_cons.mp within
      have same := agree.slots slot inside
      obtain ⟨answer, accesses, after⟩ := ih (first.read slot) first second agree later
      rw [run, run, Effect.accesses, Effect.accesses, ← same, ← accesses]
      exact ⟨answer, rfl, after⟩
  | write slot value next ih =>
      obtain ⟨_, later⟩ := List.forall_mem_cons.mp within
      obtain ⟨answer, accesses, after⟩ := ih _ _ (agree.write slot value) later
      rw [run, run, Effect.accesses, Effect.accesses, ← accesses]
      exact ⟨answer, rfl, after⟩
  | record value next ih =>
      obtain ⟨_, later⟩ := List.forall_mem_cons.mp within
      obtain ⟨answer, accesses, after⟩ :=
        ih (first.record value) (second.record value) ⟨agree.slots, agree.cells⟩ later
      rw [run, run, Effect.accesses, Effect.accesses, ← accesses]
      exact ⟨answer, rfl, after⟩
  | load cell next ih =>
      obtain ⟨inside, later⟩ := List.forall_mem_cons.mp within
      have same := agree.cells cell inside
      obtain ⟨answer, accesses, after⟩ := ih (first.load cell) first second agree later
      rw [run, run, Effect.accesses, Effect.accesses, ← same, ← accesses]
      exact ⟨answer, rfl, after⟩
  | store cell content next ih =>
      obtain ⟨_, later⟩ := List.forall_mem_cons.mp within
      obtain ⟨answer, accesses, after⟩ := ih _ _ (agree.store cell content) later
      rw [run, run, Effect.accesses, Effect.accesses, ← accesses]
      exact ⟨answer, rfl, after⟩

end ExprTree
