/-
This file accounts for the contents of slots by the writes that reach them.
-/

import ExprTree.World

namespace ExprTree

/-- The writes of an effect are those that its run makes to slots, in order. -/
def Effect.writes {Hidden Answer : Type} :
    Effect Hidden Answer → World Hidden → List (Slot × Float)
  | .done _, _ => []
  | .read slot next, world => (next (world.read slot)).writes world
  | .write slot value next, world => (slot, value) :: next.writes (world.write slot value)
  | .record value next, world => next.writes (world.record value)
  | .load cell next, world => (next (world.load cell)).writes world
  | .store cell content next, world => next.writes (world.store cell content)

/-- The last write to a slot decides, and a slot that is not written keeps its value. -/
def lastWritten (slot : Slot) (writes : List (Slot × Float)) (kept : Float) : Float :=
  writes.foldl (fun value write => if write.1 = slot then write.2 else value) kept

theorem lastWrittenAppend (slot : Slot) (first second : List (Slot × Float)) (kept : Float) :
    lastWritten slot (first ++ second) kept =
      lastWritten slot second (lastWritten slot first kept) := by
  rw [lastWritten, List.foldl_append]
  rfl

theorem lastWrittenKept (slot : Slot) (writes : List (Slot × Float)) (kept : Float)
    (absent : slot ∉ writes.map Prod.fst) : lastWritten slot writes kept = kept := by
  induction writes with
  | nil => rfl
  | cons write rest ih =>
      rw [List.map_cons, List.mem_cons, not_or] at absent
      rw [lastWritten, List.foldl_cons, if_neg (Ne.symm absent.1)]
      exact ih absent.2

/-- After a run a slot holds the last value that the run wrote to it. -/
theorem Effect.readRun {Hidden Answer : Type} (effect : Effect Hidden Answer)
    (world : World Hidden) (slot : Slot) :
    (effect.run world).2.read slot = lastWritten slot (effect.writes world) (world.read slot) := by
  induction effect generalizing world with
  | done answer => rfl
  | read target next ih => exact ih (world.read target) world
  | write target value next ih =>
      rw [run, ih, World.readWrite]
      rfl
  | record value next ih => exact ih (world.record value)
  | load cell next ih => exact ih (world.load cell) world
  | store cell content next ih => exact ih (world.store cell content)

end ExprTree
