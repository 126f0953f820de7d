/-
This file defines stacks that know their height.
-/

namespace ExprTree

/-- The first item is on top, and the height is kept beside the items. -/
structure Stack (Item : Type) where
  items : List Item
  height : Nat
  counted : height = items.length

namespace Stack

def empty {Item : Type} : Stack Item := ⟨[], 0, rfl⟩

def push {Item : Type} (stack : Stack Item) (item : Item) : Stack Item :=
  ⟨item :: stack.items, stack.height + 1, by simp [stack.counted]⟩

def pop? {Item : Type} : Stack Item → Option (Item × Stack Item)
  | ⟨[], _, _⟩ => none
  | ⟨item :: rest, height, counted⟩ =>
      some (item, ⟨rest, height - 1, by simp [counted]⟩)

@[simp] theorem itemsPush {Item : Type} (stack : Stack Item) (item : Item) :
    (stack.push item).items = item :: stack.items := rfl

/-- A stack is determined by its items. -/
theorem ext {Item : Type} {first second : Stack Item} (same : first.items = second.items) :
    first = second := by
  obtain ⟨items, height, counted⟩ := first
  obtain ⟨otherItems, otherHeight, otherCounted⟩ := second
  cases same
  cases counted
  cases otherCounted
  rfl

/-- Only the empty stack has no top. -/
theorem popNone {Item : Type} (stack : Stack Item) (bare : stack.pop? = none) :
    stack.items = [] := by
  obtain ⟨items, height, counted⟩ := stack
  cases items with
  | nil => rfl
  | cons item rest => cases bare

theorem popSome {Item : Type} (stack rest : Stack Item) (item : Item)
    (popped : stack.pop? = some (item, rest)) : stack.items = item :: rest.items := by
  obtain ⟨items, height, counted⟩ := stack
  cases items with
  | nil => cases popped
  | cons top below =>
      cases popped
      rfl

end Stack

end ExprTree
