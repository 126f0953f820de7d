/-
This file keeps contents under addresses.
-/

import Std.Data.TreeMap

namespace ExprTree

/-- Every address below `next` has been handed out, and none from there on. -/
structure Memory (Content : Type) where
  contents : Std.TreeMap Nat Content
  next : Nat

namespace Memory

def empty {Content : Type} : Memory Content := ⟨∅, 0⟩

def find? {Content : Type} (memory : Memory Content) (address : Nat) : Option Content :=
  memory.contents[address]?

def write {Content : Type} (memory : Memory Content) (address : Nat) (content : Content) :
    Memory Content :=
  { memory with contents := memory.contents.insert address content }

/-- A new address differs from every earlier one. -/
def allocate {Content : Type} (memory : Memory Content) (content : Content) :
    Nat × Memory Content :=
  (memory.next, ⟨memory.contents.insert memory.next content, memory.next + 1⟩)

theorem findEmpty {Content : Type} (address : Nat) :
    (empty : Memory Content).find? address = none := by
  simp [empty, find?]

/-- A write changes its own address and no other. -/
theorem findWrite {Content : Type} (memory : Memory Content) (address other : Nat)
    (content : Content) :
    (memory.write address content).find? other =
      if address = other then some content else memory.find? other := by
  simp [write, find?, Std.TreeMap.getElem?_insert]

theorem findAllocate {Content : Type} (memory : Memory Content) (other : Nat)
    (content : Content) :
    (memory.allocate content).2.find? other =
      if memory.next = other then some content else memory.find? other := by
  simp [allocate, find?, Std.TreeMap.getElem?_insert]

end Memory

end ExprTree
