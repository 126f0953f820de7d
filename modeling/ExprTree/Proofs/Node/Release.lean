/-
This file shows that the release of a tree is shallow and gives back every handle once.
-/

import ExprTree.Proofs.Node.Detached
import ExprTree.Proofs.Node.Rebuild
import ExprTree.Proofs.Slots.Planted
import Mathlib.Logic.Function.Basic

namespace ExprTree

namespace Node
variable {Hidden : Type}

theorem huskRebuild (node : Node Hidden) :
    node.husk = node.rebuild (node.children.map fun _ => placeholder) := by
  cases node <;> rfl

theorem huskReplicate (node : Node Hidden) :
    node.husk.children = List.replicate node.children.length placeholder := by
  rw [huskChildren, List.map_const']

theorem dismantlePlaceholders (count : Nat) :
    dismantleDetached (List.replicate count placeholder) =
      (List.replicate count placeholder : List (Node Hidden)) := by
  induction count with
  | zero => rw [List.replicate_zero, dismantleDetached]
  | succ count ih => rw [List.replicate_succ, dismantleDetached]; exact congrArg _ ih

/-- A husk that is taken apart itself yields placeholders only. -/
theorem dismantleHusk (node : Node Hidden) :
    node.husk.dismantle = List.replicate node.children.length placeholder := by
  rw [dismantle, huskReplicate, List.reverse_replicate, dismantlePlaceholders]

/--
A release frees the husks of its loop one level deeper, and then the children that are left in
place. What the node itself holds is freed last, on the level of the release.
-/
def freed (level : Nat) (node : Node Hidden) : List (Nat × Node Hidden) :=
  (node.dismantle.attach.flatMap fun husk => husk.val.freed (level + 1)) ++
    (node.husk.children.attach.flatMap fun child => child.val.freed level) ++
    [(level, node.husk)]
termination_by node.size
decreasing_by
  · have bound := sizeDismantled node.children.reverse husk.val husk.property
    rw [sizeSumReverse] at bound
    rw [sizeChildren node]
    omega
  · obtain ⟨child, member⟩ := child
    rw [huskReplicate] at member
    obtain ⟨inner, rfl⟩ := List.mem_replicate.mp member
    rw [sizeChildren node]
    cases children : node.children with
    | nil => exact absurd (congrArg List.length children) inner
    | cons first rest =>
        simp only [sizeSum, sizeChildren first, placeholder, size]
        omega

theorem freedParts (level : Nat) (node : Node Hidden) :
    node.freed level =
      (node.dismantle.flatMap (freed (level + 1))) ++ (node.husk.children.flatMap (freed level)) ++
        [(level, node.husk)] := by
  have forget {Item Result : Type} (items : List Item) (each : Item → List Result) :
      (items.attach.flatMap fun item => each item.val) = items.flatMap each := by
    rw [← List.flatMap_map, List.attach_map_subtype_val]
  rw [freed, forget _ (freed (level + 1)), forget _ (freed level)]

theorem foldGreatest (numbers : List Nat) (start : Nat) :
    numbers.foldl (fun deepest number => max deepest (number + 1)) (1 + start) =
      1 + max start (greatest numbers) := by
  induction numbers generalizing start with
  | nil => simp [greatest]
  | cons number rest ih =>
      rw [List.foldl_cons, Nat.add_comm number, Nat.add_max_add_left, ih, greatestCons,
        Nat.max_assoc]

/-- The nesting is one more than the deepest nesting in the loop. -/
theorem nestingDismantle (node : Node Hidden) :
    node.releaseNesting = 1 + greatest (node.dismantle.map releaseNesting) := by
  have whole := foldGreatest (node.dismantle.map releaseNesting) 0
  rw [List.foldl_map, Nat.zero_max] at whole
  rw [releaseNesting, ← whole]
  exact List.foldl_attach (f := fun deepest (husk : Node Hidden) =>
    max deepest (husk.releaseNesting + 1))

theorem dismantleLeaf (node : Node Hidden) (leaf : node.isLeaf = true) : node.dismantle = [] := by
  rw [dismantle, (isLeafChildren node).mp leaf, List.reverse_nil, dismantleDetached]

/-- A node is less deep than every node that it stands below. -/
theorem depthBelow (node below : Node Hidden) (path : List Nat)
    (reached : node.descendant? path = some below) : below.depth + path.length ≤ node.depth := by
  induction path generalizing node with
  | nil => exact (congrArg depth (Option.some.inj reached)).ge
  | cons index path ih =>
      obtain ⟨child, listed, inside⟩ := Option.bind_eq_some_iff.mp reached
      have deep := ih child inside
      have level := (greatestWithin (node.children.map depth) _).mp le_rfl child.depth
        (List.mem_map_of_mem (List.mem_of_getElem? listed))
      rw [depthChildren node, List.length_cons]
      omega

/-- An inner husk still releases its placeholders. -/
theorem nestingHusk (node : Node Hidden) : node.husk.releaseNesting = min 2 node.depth := by
  have bare : (placeholder : Node Hidden).releaseNesting = 1 := by
    rw [nestingDismantle, dismantleLeaf _ rfl]
    rfl
  rw [nestingDismantle, dismantleHusk, List.map_replicate, bare]
  cases kind : node.isLeaf with
  | true =>
      rw [(isLeafChildren node).mp kind, (leafDepth node).mp kind]
      rfl
  | false =>
      have inner : node.depth ≠ 1 := by
        rw [ne_eq, ← leafDepth, kind]
        exact Bool.false_ne_true
      have deep := node.depthPositive
      have once : greatest (List.replicate node.children.length 1) = 1 := by
        have present : List.replicate node.children.length 1 ≠ [] := by
          simpa using node.innerChildren kind
        exact List.eq_of_mem_replicate (memGreatest present)
      omega

/-- Deeper trees are not released with a deeper nesting. -/
theorem nestingDepth (node : Node Hidden) : node.releaseNesting = min 3 node.depth := by
  have loop : node.dismantle.map releaseNesting =
      node.popped.map fun entry => min 2 entry.2.depth := by
    rw [dismantlePopped, List.map_map]
    exact List.map_congr_left fun entry _ => nestingHusk entry.2
  rw [nestingDismantle, loop]
  have positive := node.depthPositive
  have upper : greatest (node.popped.map fun entry => min 2 entry.2.depth) ≤
      min 2 (node.depth - 1) := by
    rw [greatestWithin, List.forall_mem_map]
    rintro ⟨path, below⟩ member
    obtain ⟨inside, reached⟩ := (node.memPopped below path).mp member
    have deep := node.depthBelow below path reached
    have long := List.length_pos_of_ne_nil inside
    show min 2 below.depth ≤ min 2 (node.depth - 1)
    omega
  cases kind : node.isLeaf with
  | true =>
      have low := (leafDepth node).mp kind
      omega
  | false =>
      -- The deepest child is popped, and its husk nests as deep as the loop does.
      have present : node.children.map depth ≠ [] := by simpa using node.innerChildren kind
      obtain ⟨child, member, deepest⟩ := List.mem_map.mp (memGreatest present)
      obtain ⟨index, listed⟩ := List.mem_iff_getElem?.mp member
      have detached : ([index], child) ∈ node.popped :=
        (node.memPopped child [index]).mpr
          ⟨List.cons_ne_nil _ _, Option.bind_eq_some_iff.mpr ⟨child, listed, rfl⟩⟩
      have lower := (greatestWithin (node.popped.map fun entry => min 2 entry.2.depth) _).mp le_rfl
        _ (List.mem_map_of_mem detached)
      have depth := node.depthChildren
      simp only at lower
      omega

theorem freedPlaceholder (level : Nat) :
    (placeholder : Node Hidden).freed level = [(level, placeholder)] := by
  rw [freedParts, dismantleLeaf _ rfl]
  rfl

/-- A husk nests at most one level deeper than its own release. -/
theorem freedHusk (level : Nat) (node : Node Hidden) :
    node.husk.freed level =
      List.replicate node.children.length (level + 1, placeholder) ++
        List.replicate node.children.length (level, placeholder) ++ [(level, node.husk)] := by
  have again : node.husk.husk = node.husk := by cases node <;> rfl
  have each (count deep : Nat) : (List.replicate count (placeholder : Node Hidden)).flatMap
      (freed deep) = List.replicate count (deep, placeholder) := by
    induction count with
    | zero => rfl
    | succ count ih =>
        rw [List.replicate_succ, List.flatMap_cons, ih, freedPlaceholder, List.replicate_succ]
        rfl
  rw [freedParts, dismantleHusk, again, huskReplicate, each, each]

/-- The levels of a release reach up to its nesting, which the deepest husk of its loop decides. -/
theorem freedLevels (level : Nat) (node : Node Hidden) :
    (∀ entry ∈ node.freed level, entry.1 < level + node.releaseNesting) ∧
      ∃ entry ∈ node.freed level, entry.1 + 1 = level + node.releaseNesting := by
  induction level, node using freed.induct with
  | case1 level node husks children =>
      rw [freedParts, nestingDismantle]
      have loop := greatestWithin (node.dismantle.map releaseNesting) _ |>.mp le_rfl
      rw [List.forall_mem_map] at loop
      constructor
      · intro entry member
        rcases List.mem_append.mp member with early | last
        · rcases List.mem_append.mp early with inner | left
          · obtain ⟨husk, listed, inside⟩ := List.mem_flatMap.mp inner
            have below : entry.1 < level + 1 + husk.releaseNesting :=
              (husks ⟨husk, listed⟩).1 entry inside
            have deepest := loop husk listed
            omega
          · obtain ⟨child, listed, inside⟩ := List.mem_flatMap.mp left
            rw [huskReplicate] at listed
            rw [List.eq_of_mem_replicate listed, freedPlaceholder] at inside
            rw [List.mem_singleton.mp inside]
            omega
        · rw [List.mem_singleton.mp last]
          omega
      · by_cases empty : node.dismantle.map releaseNesting = []
        · rw [empty]
          exact ⟨(level, node.husk), List.mem_append_right _ (List.mem_singleton.mpr rfl), rfl⟩
        · obtain ⟨husk, listed, deepest⟩ := List.mem_map.mp (memGreatest empty)
          obtain ⟨entry, inside, reached⟩ := (husks ⟨husk, listed⟩).2
          change entry.1 + 1 = level + 1 + husk.releaseNesting at reached
          refine ⟨entry, List.mem_append_left _ (List.mem_append_left _
            (List.mem_flatMap.mpr ⟨husk, listed, inside⟩)), ?_⟩
          omega

theorem nestingFreed (node : Node Hidden) :
    greatest ((node.freed 1).map Prod.fst) = node.releaseNesting := by
  obtain ⟨upper, entry, member, reached⟩ := node.freedLevels 1
  apply Nat.le_antisymm
  · rw [greatestWithin, List.forall_mem_map]
    intro other listed
    have below := upper other listed
    omega
  · have level := (greatestWithin ((node.freed 1).map Prod.fst) _).mp le_rfl _
      (List.mem_map_of_mem member)
    omega

/-- What is freed apart from placeholders is what the nodes hold themselves. -/
theorem freedHeld {Held : Type} (own : Node Hidden → List Held) (bare : own placeholder = [])
    (kept : ∀ node, own node.husk = own node) (level : Nat) (node : Node Hidden) :
    ((node.freed level).flatMap fun entry => own entry.2) =
      node.dismantle.flatMap own ++ own node := by
  have alone (deep : Nat) (below : Node Hidden) :
      ((below.husk.freed deep).flatMap fun entry => own entry.2) = own below.husk := by
    simp [freedHusk, List.flatMap_replicate, bare]
  rw [freedParts, List.flatMap_append, List.flatMap_append, List.flatMap_assoc, dismantlePopped,
    List.flatMap_map, List.flatMap_map]
  simp [alone, huskReplicate, freedPlaceholder, bare, kept, List.flatMap_replicate]

/-- A variable holds one handle of its slot, and a body holds the handles that it captured. -/
def handles (captured : Callable Hidden → List Slot) (node : Node Hidden) : List Slot :=
  node.ownSlots ++ (node.function?.map fun function => captured function.2).getD []

/-- The held slots of a tree have one entry for each handle that a node of it holds. -/
def held (captured : Callable Hidden → List Slot) (node : Node Hidden) : List Slot :=
  node.places.flatMap fun entry => entry.2.handles captured

theorem freedHandles (captured : Callable Hidden → List Slot) (node : Node Hidden) :
    ((node.freed 1).flatMap fun entry => entry.2.handles captured).Perm (node.held captured) := by
  have kept (node : Node Hidden) : node.husk.handles captured = node.handles captured := by
    cases node <;> rfl
  have all := node.placesPostOrder.flatMap_right fun entry => entry.2.handles captured
  rw [← poppedPostOrder, List.flatMap_append, List.flatMap_singleton] at all
  rw [freedHeld (handles captured) rfl kept, dismantlePopped, List.flatMap_map]
  simp only [kept]
  exact (all.trans ((node.popped.reverse_perm.flatMap_right _).append_right _)).symm

theorem handlesLeaves (node : Node Hidden) : node.handles (fun _ => []) = node.ownSlots := by
  cases node <;> rfl

/-- A leaf has no loop, and an inner node has no slot of its own. -/
theorem releasedFreed (node : Node Hidden) :
    node.releasedSlots = (node.freed 1).flatMap fun entry => entry.2.ownSlots := by
  rw [freedHeld ownSlots rfl (fun node => by cases node <;> rfl), releasedSlots]
  cases kind : node.isLeaf with
  | true => simp [node.dismantleLeaf kind]
  | false =>
      have bare : node.ownSlots = [] := by
        cases node with
        | number value | var slot => cases kind
        | _ => rfl
      simp [bare]

/-- Where bodies capture no handle, the held slots are the variables from left to right. -/
theorem heldLeaves (node : Node Hidden) : node.held (fun _ => []) = node.leafSlots := by
  induction node using childInduction with
  | step node each =>
      simp only [held, handlesLeaves] at each ⊢
      rw [leafSlotsChildren, placesChildren, List.flatMap_cons, List.flatMap_assoc]
      simp only [under, List.flatMap_map]
      rw [← List.flatMap_map (f := Prod.fst)
        (g := fun child : Node Hidden => child.places.flatMap fun entry => entry.2.ownSlots),
        List.zipIdx_map_fst]
      congr 1
      exact List.flatMap_congr each

end Node

/-- A tally keeps the value of a slot together with the number of its live handles. -/
structure Tally where
  handles : Nat
  value : Float
  live : 0 < handles

namespace Tally

/-- The last handle takes the value with it. -/
def lower? (tally : Tally) : Option Tally :=
  if more : 0 < tally.handles - 1 then some ⟨tally.handles - 1, tally.value, more⟩ else none

/-- A handle of a slot without live handles cannot be given back. -/
def giveBack? (tallies : Slot → Option Tally) (slot : Slot) : Option (Slot → Option Tally) :=
  (tallies slot).map fun tally => Function.update tallies slot tally.lower?

theorem lowerHandles (tally : Tally) : (tally.lower?.map handles).getD 0 + 1 = tally.handles := by
  have live := tally.live
  unfold lower?
  split
  · show tally.handles - 1 + 1 = tally.handles
    omega
  · show 0 + 1 = tally.handles
    omega

theorem lowerValue {tally left : Tally} (kept : tally.lower? = some left) :
    left.value = tally.value := by
  unfold lower? at kept
  split at kept
  · cases kept
    rfl
  · cases kept

def count (tallies : Slot → Option Tally) (slot : Slot) : Nat :=
  ((tallies slot).map handles).getD 0

/-- Every slot loses its share of the returned handles, and the remaining ones keep the value. -/
structure Falls (before after : Slot → Option Tally) (slots : List Slot) : Prop where
  counts : ∀ slot, count after slot + slots.count slot = count before slot
  values : ∀ slot tally, after slot = some tally →
    ∃ earlier, before slot = some earlier ∧ tally.value = earlier.value

theorem Falls.trans {first middle last : Slot → Option Tally} {slots later : List Slot}
    (here : Falls first middle slots) (there : Falls middle last later) :
    Falls first last (slots ++ later) where
  counts slot := by
    have one := here.counts slot
    have two := there.counts slot
    rw [List.count_append]
    omega
  values slot tally kept := by
    obtain ⟨second, found, same⟩ := there.values slot tally kept
    obtain ⟨earlier, present, equal⟩ := here.values slot second found
    exact ⟨earlier, present, same.trans equal⟩

theorem fallsOne (tallies : Slot → Option Tally) (slot : Slot) (live : 0 < count tallies slot) :
    ∃ after, giveBack? tallies slot = some after ∧ Falls tallies after [slot] := by
  cases found : tallies slot with
  | none => simp [count, found] at live
  | some tally =>
      refine ⟨_, by rw [giveBack?, found, Option.map_some], fun other => ?_,
        fun other left kept => ?_⟩
      · by_cases same : other = slot
        · rw [same, count, count, Function.update_self, found, List.count_singleton_self]
          exact tally.lowerHandles
        · rw [count, count, Function.update_of_ne same,
            List.count_eq_zero_of_not_mem (mt List.mem_singleton.mp same)]
          rfl
      · by_cases same : other = slot
        · rw [same, Function.update_self] at kept
          exact ⟨tally, same ▸ found, lowerValue kept⟩
        · rw [Function.update_of_ne same] at kept
          exact ⟨left, kept, rfl⟩

/-- As many handles as are live can be given back one after the other. -/
theorem fallsAll (slots : List Slot) (tallies : Slot → Option Tally)
    (enough : ∀ slot, slots.count slot ≤ count tallies slot) :
    ∃ after, slots.foldlM giveBack? tallies = some after ∧ Falls tallies after slots := by
  induction slots generalizing tallies with
  | nil => exact ⟨tallies, rfl, fun slot => rfl, fun slot tally kept => ⟨tally, kept, rfl⟩⟩
  | cons slot rest ih =>
      have live := enough slot
      rw [List.count_cons_self] at live
      obtain ⟨middle, given, falls⟩ := fallsOne tallies slot (by omega)
      obtain ⟨after, done, fallsRest⟩ := ih middle fun other => by
        have all := enough other
        have one := falls.counts other
        rw [List.count_cons] at all
        rw [List.count_singleton] at one
        omega
      refine ⟨after, ?_, falls.trans fallsRest⟩
      rw [List.foldlM_cons, given]
      exact done

theorem Falls.perm {before after : Slot → Option Tally} {slots others : List Slot}
    (falls : Falls before after slots) (same : slots.Perm others) : Falls before after others where
  counts slot := same.count_eq slot ▸ falls.counts slot
  values := falls.values

end Tally

/--
The loop pops every node below the root once, as it was in the tree, and leaves its husk. A husk
keeps what its node holds, with placeholders as children, so releases nest at most three deep.
All handles of the tree are given back once, and the handles that remain keep their value.
-/
theorem releasesGiveBackOnce {Hidden : Type} (node : Node Hidden) :
    (node.dismantle = node.popped.map (fun entry => entry.2.husk) ∧
      node.dismantle.length + 1 = node.nodeCount ∧
      (node.popped.map Prod.fst).Nodup ∧
      ∀ path below, (path, below) ∈ node.popped ↔
        path ≠ [] ∧ node.descendant? path = some below) ∧
    (∀ below : Node Hidden, below.husk.function? = below.function? ∧
      (∀ operands, below.husk.action? operands = below.action? operands) ∧
      ∀ child ∈ below.husk.children, child = Node.placeholder) ∧
    (node.releaseNesting = min 3 node.depth ∧
      greatest ((node.freed 1).map Prod.fst) = node.releaseNesting) ∧
    (node.releasedSlots = ((node.freed 1).flatMap fun entry => entry.2.ownSlots) ∧
      node.releasedSlots.Perm node.leafSlots) ∧
    ∀ (captured : Callable Hidden → List Slot) (tallies : Slot → Option Tally),
      (∀ slot, (node.held captured).count slot ≤ Tally.count tallies slot) →
      ∃ after, ((node.freed 1).flatMap fun entry => entry.2.handles captured).foldlM
          Tally.giveBack? tallies = some after ∧
        Tally.Falls tallies after (node.held captured) := by
  refine ⟨⟨node.dismantlePopped, ?_, node.poppedNodup, fun path below => node.memPopped below path⟩,
    fun below => ⟨?_, fun operands => ?_, fun child member => ?_⟩,
    ⟨node.nestingDepth, node.nestingFreed⟩, ⟨node.releasedFreed, ?_⟩,
    fun captured tallies enough => ?_⟩
  · rw [node.dismantlePopped, List.length_map, node.countPopped]
  · rw [below.huskRebuild, Node.rebuildFunction]
  · rw [below.huskRebuild, Node.rebuildAction]
  · rw [below.huskReplicate] at member
    exact List.eq_of_mem_replicate member
  · have all := node.freedHandles fun _ => []
    simp only [Node.handlesLeaves, node.heldLeaves] at all
    rw [node.releasedFreed]
    exact all
  · have all := node.freedHandles captured
    obtain ⟨after, done, falls⟩ := Tally.fallsAll _ tallies fun slot => by
      rw [all.count_eq slot]
      exact enough slot
    exact ⟨after, done, falls.perm all⟩

/-- One variable stands twice in a tree and is captured once, and a fourth handle is elsewhere. -/
theorem releasesGiveBackOnceShared :
    let body := fun argument : Float => Effect.write (⟨0⟩ : Slot) argument (.done argument)
    let tree : Node Nat := .operator Float.add (.var ⟨0⟩)
      (.negation (.unary "keep" body (.var ⟨0⟩)))
    let captured : Callable Nat → List Slot := fun _ => [⟨0⟩]
    let tallies : Slot → Option Tally :=
      fun slot => if slot = ⟨0⟩ then some ⟨4, 2.5, by decide⟩ else none
    (∀ slot, (tree.held captured).count slot ≤ Tally.count tallies slot) ∧
    tree.dismantle.length = 4 ∧ tree.releaseNesting = 3 ∧
    ∃ after, ((tree.freed 1).flatMap fun entry => entry.2.handles captured).foldlM
        Tally.giveBack? tallies = some after ∧
      Tally.count after ⟨0⟩ = 1 ∧ ∀ tally, after ⟨0⟩ = some tally → tally.value = 2.5 := by
  intro body tree captured tallies
  have held : tree.held captured = [⟨0⟩, ⟨0⟩, ⟨0⟩] := rfl
  have enough : ∀ slot, (tree.held captured).count slot ≤ Tally.count tallies slot := by
    intro slot
    by_cases same : slot = ⟨0⟩
    · rw [same, held]
      decide
    · rw [held]
      simp [Ne.symm same]
  obtain ⟨⟨_, count, _⟩, _, ⟨nesting, _⟩, _, returned⟩ := releasesGiveBackOnce tree
  obtain ⟨after, done, falls⟩ := returned captured tallies enough
  refine ⟨enough, ?_, ?_, after, done, ?_, fun tally kept => ?_⟩
  · rw [Node.countSize] at count
    exact Nat.succ.inj count
  · rw [nesting, Node.depthHeight]
    rfl
  · have counts := falls.counts ⟨0⟩
    rw [held] at counts
    exact Nat.add_right_cancel counts
  · obtain ⟨earlier, found, same⟩ := falls.values ⟨0⟩ tally kept
    cases found
    exact same

end ExprTree
