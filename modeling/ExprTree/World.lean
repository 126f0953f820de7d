/-
This file holds the state that evaluations share and the programs that act on it.
-/

import ExprTree.Memory

namespace ExprTree

/-- A slot is the handle of a variable, and handles of one variable are equal. -/
structure Slot where
  address : Nat
deriving DecidableEq, Repr

/-- A cell holds the private state of one callable. -/
structure Cell where
  address : Nat
deriving DecidableEq, Repr

/-- Evaluations share variable slots, private cells and a trace. -/
structure World (Hidden : Type) where
  slots : Memory Float
  cells : Memory Hidden
  trace : Array Float

namespace World

def empty {Hidden : Type} : World Hidden := ⟨Memory.empty, Memory.empty, #[]⟩

/-- A slot that was never written holds zero. -/
def read {Hidden : Type} (world : World Hidden) (slot : Slot) : Float :=
  (world.slots.find? slot.address).getD 0.0

def write {Hidden : Type} (world : World Hidden) (slot : Slot) (value : Float) : World Hidden :=
  { world with slots := world.slots.write slot.address value }

def load {Hidden : Type} (world : World Hidden) (cell : Cell) : Option Hidden :=
  world.cells.find? cell.address

def store {Hidden : Type} (world : World Hidden) (cell : Cell) (content : Hidden) :
    World Hidden :=
  { world with cells := world.cells.write cell.address content }

def record {Hidden : Type} (world : World Hidden) (value : Float) : World Hidden :=
  { world with trace := world.trace.push value }

def newSlot {Hidden : Type} (world : World Hidden) (value : Float) : Slot × World Hidden :=
  let (address, slots) := world.slots.allocate value
  (⟨address⟩, { world with slots := slots })

def newCell {Hidden : Type} (world : World Hidden) (content : Hidden) : Cell × World Hidden :=
  let (address, cells) := world.cells.allocate content
  (⟨address⟩, { world with cells := cells })

/-- A written slot holds the written value, and every other slot keeps its own. -/
theorem readWrite {Hidden : Type} (world : World Hidden) (slot other : Slot) (value : Float) :
    (world.write slot value).read other = if slot = other then value else world.read other := by
  have same : slot = other ↔ slot.address = other.address := by
    constructor
    · intro equal; rw [equal]
    · intro equal; cases slot; cases other; cases equal; rfl
  simp only [read, write, Memory.findWrite, same]
  split <;> rfl

end World

/-- An effect is a finite program over the world that ends in an answer. -/
inductive Effect (Hidden Answer : Type) where
  | done (answer : Answer)
  | read (slot : Slot) (next : Float → Effect Hidden Answer)
  | write (slot : Slot) (value : Float) (next : Effect Hidden Answer)
  | record (value : Float) (next : Effect Hidden Answer)
  | load (cell : Cell) (next : Option Hidden → Effect Hidden Answer)
  | store (cell : Cell) (content : Hidden) (next : Effect Hidden Answer)

def Effect.run {Hidden Answer : Type} :
    Effect Hidden Answer → World Hidden → Answer × World Hidden
  | .done answer, world => (answer, world)
  | .read slot next, world => (next (world.read slot)).run world
  | .write slot value next, world => next.run (world.write slot value)
  | .record value next, world => next.run (world.record value)
  | .load cell next, world => (next (world.load cell)).run world
  | .store cell content next, world => next.run (world.store cell content)

end ExprTree
