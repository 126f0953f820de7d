/-
This file shows that the log of a client accounts for its slots and for its handles.
-/

import ExprTree.Proofs.Slots.Client

namespace ExprTree

/-- A new slot has the next address, holds its value and disturbs no other slot. -/
theorem World.readNewSlot {Hidden : Type} (world : World Hidden) (value : Float) (slot : Slot) :
    (world.newSlot value).2.read slot =
      if (⟨world.slots.next⟩ : Slot) = slot then value else world.read slot := by
  have same : (⟨world.slots.next⟩ : Slot) = slot ↔ world.slots.next = slot.address := by
    cases slot
    exact Slot.mk.injEq _ _ ▸ Iff.rfl
  simp only [newSlot, read, Memory.findAllocate, same]
  split <;> rfl

/-- No run creates a slot. -/
theorem Effect.nextRun {Hidden Answer : Type} (effect : Effect Hidden Answer)
    (world : World Hidden) : (effect.run world).2.slots.next = world.slots.next := by
  induction effect generalizing world with
  | done answer => rfl
  | read slot next ih => exact ih (world.read slot) world
  | write slot value next ih => exact ih (world.write slot value)
  | record value next ih => exact ih (world.record value)
  | load cell next ih => exact ih (world.load cell) world
  | store cell content next ih => exact ih (world.store cell content)

theorem Action.nextPerform {Hidden : Type} (action : Action Hidden) (world : World Hidden) :
    (action.perform world).2.slots.next = world.slots.next := by
  cases action with
  | number value | read slot | negate operand | combine operation left right => rfl
  | unary body argument => exact (body argument).nextRun world
  | binary body first second => exact (body first second).nextRun world
  | ternary body condition first second =>
      exact (body (Binary64.isTrue condition) first second).nextRun world

theorem Event.nextLeads {Hidden : Type} (events : List (Event Hidden))
    (world final : World Hidden) (leads : Leads world events final) :
    final.slots.next = world.slots.next := by
  induction events generalizing world with
  | nil => rw [show world = final from leads]
  | cons event rest ih =>
      obtain ⟨found, later⟩ := leads
      rw [ih event.after later, after, Action.nextPerform, found]

namespace Client
variable {Hidden : Type}

/-- A client holds a handle under a name or in a leaf of one of its trees. -/
def Holds (client : Client Hidden) (handle : Handle) : Prop :=
  (∃ name, client.names name = some handle) ∨
    ∃ planted, some planted ∈ client.stack ∧ handle ∈ planted.handles

/--
The log tells the contents of all slots, and the slots were created in the order of their
addresses. The origin of a handle is the creation of its slot.
-/
structure Accounts (client : Client Hidden) : Prop where
  contents : ∀ slot,
    client.world.read slot = lastWritten slot (client.log.map Entry.content) 0.0
  created : client.log.filterMap Entry.created? =
    (List.range client.world.slots.next).map Slot.mk
  origins : ∀ handle, client.Holds handle →
    handle.slot = ⟨handle.origin⟩ ∧ handle.origin < client.world.slots.next

theorem accountsStart (cells : Memory Hidden) (trace : Array Float) :
    (start cells trace).Accounts where
  contents slot := by
    rw [World.read, start, Memory.findEmpty]
    rfl
  created := rfl
  origins handle held := by
    rcases held with ⟨name, bound⟩ | ⟨planted, listed, _⟩
    · cases bound
    · cases listed

/-- Names and trees can change freely as long as no handle comes from elsewhere. -/
theorem Accounts.keep {client next : Client Hidden} (accounts : client.Accounts)
    (slots : next.world.slots = client.world.slots) (log : next.log = client.log)
    (held : ∀ handle, next.Holds handle → client.Holds handle) : next.Accounts where
  contents slot := by
    rw [World.read, slots, log]
    exact accounts.contents slot
  created := by
    rw [slots, log]
    exact accounts.created
  origins handle holds := by
    rw [slots]
    exact accounts.origins handle (held handle holds)

theorem holdsUpdate {client : Client Hidden} {name : String} {bound : Option Handle}
    {handle : Handle}
    (held : Holds { client with names := Function.update client.names name bound } handle) :
    bound = some handle ∨ client.Holds handle := by
  rcases held with ⟨other, same⟩ | planted
  · by_cases equal : other = name
    · rw [equal] at same
      exact .inl ((Function.update_self name bound client.names).symm.trans same)
    · exact .inr (.inl ⟨other, (Function.update_of_ne equal bound client.names).symm.trans same⟩)
  · exact .inr (.inr planted)

/-- The number of a creation is the address that the world gives to the slot. -/
theorem Accounts.creations {client : Client Hidden} (accounts : client.Accounts) :
    client.creations = client.world.slots.next := by
  rw [Client.creations, accounts.created, List.length_map, List.length_range]

theorem Accounts.create {client : Client Hidden} (accounts : client.Accounts) (name : String)
    (value : Float) : (client.step (.create name value)).Accounts where
  contents slot := by
    have before := accounts.contents slot
    simp only [step, entries, List.map_append, lastWrittenAppend, ← before, accounts.creations]
    exact World.readNewSlot client.world value slot
  created := by
    simp only [step, entries, List.filterMap_append, accounts.created, accounts.creations]
    exact (List.map_append.symm.trans (congrArg _ List.range_succ.symm))
  origins handle held := by
    rcases holdsUpdate held with new | old
    · cases new
      refine ⟨congrArg Slot.mk accounts.creations.symm, ?_⟩
      show client.creations < client.world.slots.next + 1
      rw [accounts.creations]
      exact Nat.lt_succ_self _
    · obtain ⟨same, below⟩ := accounts.origins handle old
      exact ⟨same, Nat.lt_succ_of_lt below⟩

theorem Accounts.clone {client : Client Hidden} (accounts : client.Accounts)
    (name target : String) : (client.clone name target).Accounts := by
  unfold Client.clone
  split
  case h_1 => exact accounts
  case h_2 handle bound =>
    refine accounts.keep rfl rfl fun other held => ?_
    rcases holdsUpdate held with same | old
    · cases same
      exact .inl ⟨target, bound⟩
    · exact old

theorem Accounts.assign {client : Client Hidden} (accounts : client.Accounts) (name : String)
    (value : Float) : (client.step (.assign name value)).Accounts := by
  rw [step, act, Client.assign, entries]
  cases client.names name with
  | none =>
      rw [Option.toList_none, List.map_nil, List.append_nil]
      exact accounts
  | some handle =>
      refine ⟨fun slot => ?_, ?_, accounts.origins⟩
      · rw [List.map_append, lastWrittenAppend, ← accounts.contents, World.readWrite]
        rfl
      · rw [List.filterMap_append, accounts.created]
        exact List.append_nil _

theorem Accounts.evaluate {client : Client Hidden} (accounts : client.Accounts)
    (strategy : Strategy) (path : List Nat) :
    (client.step (.evaluate strategy path)).Accounts := by
  rw [step, act, Client.evaluate, entries]
  cases client.target? path with
  | none =>
      rw [Option.toList_none, List.flatMap_nil, List.append_nil]
      exact accounts
  | some node =>
      have leads := node.journalLeads [] client.world
      rw [← Node.eventsJournal strategy, ← Node.evaluateWithOutcome strategy] at leads
      have next := Event.nextLeads _ _ _ leads
      rw [Option.toList_some, List.flatMap_singleton]
      refine ⟨fun slot => ?_, ?_, ?_⟩
      · rw [Event.readLeads _ _ _ leads, List.map_append, lastWrittenAppend, ← accounts.contents,
          List.map_map]
        congr 1
        exact (List.map_id _).symm
      · have bare (writes : List (Slot × Float)) :
            (writes.map Entry.ofWrite).filterMap Entry.created? = [] := by
          rw [List.filterMap_map]
          exact List.filterMap_eq_nil_iff.mpr fun write _ => rfl
        rw [next, ← accounts.created, List.filterMap_append, bare, List.append_nil]
      · rw [next]
        exact accounts.origins

/-- A stack can be rearranged when the handles of its trees were held before. -/
theorem Accounts.restack {client : Client Hidden} (accounts : client.Accounts)
    (stack : List (Option (Planted Hidden)))
    (held : ∀ planted, some planted ∈ stack → ∀ handle ∈ planted.handles,
      client.Holds handle) : Accounts { client with stack := stack } := by
  refine accounts.keep rfl rfl fun handle holds => ?_
  rcases holds with bound | ⟨planted, listed, inside⟩
  · exact .inl bound
  · exact held planted listed handle inside

/-- A new tree on top of remaining ones has only handles that were held before. -/
theorem Accounts.grow {client : Client Hidden} (accounts : client.Accounts)
    (tree : Option (Planted Hidden)) (rest : List (Option (Planted Hidden)))
    (remains : rest ⊆ client.stack)
    (held : ∀ planted, tree = some planted → ∀ handle ∈ planted.handles,
      client.Holds handle) : Accounts { client with stack := tree :: rest } := by
  refine accounts.restack (tree :: rest) fun planted listed handle inside => ?_
  rcases List.mem_cons.mp listed with same | below
  · exact held planted same.symm handle inside
  · exact .inr ⟨planted, remains below, inside⟩

theorem Accounts.pushVariable {client : Client Hidden} (accounts : client.Accounts)
    (name : String) : (client.pushVariable name).Accounts := by
  unfold Client.pushVariable
  split
  case h_1 => exact accounts
  case h_2 handle bound =>
    refine accounts.grow _ _ (List.Subset.refl _) fun planted same other inside => ?_
    cases same
    cases List.mem_singleton.mp inside
    exact .inl ⟨name, bound⟩

theorem Accounts.lift {client : Client Hidden} (accounts : client.Accounts) (index : Nat) :
    (client.lift index).Accounts := by
  unfold Client.lift
  split
  case h_1 => exact accounts
  case h_2 tree found =>
    refine accounts.grow _ _ (List.eraseIdx_subset) fun planted same handle inside => ?_
    exact .inr ⟨planted, same ▸ List.mem_of_getElem? found, inside⟩

theorem Accounts.negate {client : Client Hidden} (accounts : client.Accounts) :
    client.negate.Accounts := by
  unfold Client.negate
  split
  case h_2 => exact accounts
  case h_1 operand rest stack =>
    have held (tree : Option (Planted Hidden)) (listed : tree ∈ some operand :: rest) :
        tree ∈ client.stack := stack ▸ listed
    refine accounts.grow _ _ (fun tree below => held tree (.tail _ below))
      fun planted same handle inside => ?_
    cases same
    obtain ⟨part, listed, inPart⟩ := List.mem_flatMap.mp inside
    cases List.mem_singleton.mp listed
    exact .inr ⟨operand, held _ (.head _), inPart⟩

theorem Accounts.combine {client : Client Hidden} (accounts : client.Accounts)
    (operation : Float → Float → Float) : (client.combine operation).Accounts := by
  unfold Client.combine
  split
  case h_2 => exact accounts
  case h_1 right left rest stack =>
    have held (tree : Option (Planted Hidden)) (listed : tree ∈ some right :: some left :: rest) :
        tree ∈ client.stack := stack ▸ listed
    refine accounts.grow _ _ (fun tree below => held tree (.tail _ (.tail _ below)))
      fun planted same handle inside => ?_
    cases same
    obtain ⟨part, listed, inPart⟩ := List.mem_flatMap.mp inside
    refine .inr ⟨part, held _ ?_, inPart⟩
    rcases List.mem_pair.mp listed with same | same
    · exact same ▸ .tail _ (.head _)
    · exact same ▸ .head _

theorem Accounts.assemble {client : Client Hidden} (accounts : client.Accounts)
    (builder : Builder Hidden) (count : Nat) : (client.assemble builder count).Accounts := by
  unfold Client.assemble
  split
  case isFalse => exact accounts
  case isTrue =>
    refine accounts.grow _ _ (List.drop_subset _ _) fun planted same handle inside => ?_
    obtain ⟨part, listed, inPart⟩ := builder.plantHandles _ planted same handle inside
    exact .inr ⟨part, List.mem_of_mem_take (List.mem_reverse.mp listed), inPart⟩

/-- Acting leaves the log to the entries, and a passive operation does not act on the world. -/
theorem actKeeps (client : Client Hidden) (operation : Operation Hidden) :
    (client.act operation).log = client.log ∧
      (operation.Passive → (client.act operation).world = client.world) := by
  cases operation with
  | create | prepare => exact ⟨rfl, False.elim⟩
  | forget | pushNumber | pushAbsent | inspect | drop => exact ⟨rfl, fun _ => rfl⟩
  | assign name value =>
      simp only [act, assign]
      split <;> exact ⟨rfl, False.elim⟩
  | evaluate strategy path =>
      simp only [act, evaluate]
      split <;> exact ⟨rfl, False.elim⟩
  | clone name target =>
      simp only [act, clone]
      split <;> exact ⟨rfl, fun _ => rfl⟩
  | pushVariable name =>
      simp only [act, pushVariable]
      split <;> exact ⟨rfl, fun _ => rfl⟩
  | lift index =>
      simp only [act, lift]
      split <;> exact ⟨rfl, fun _ => rfl⟩
  | negate =>
      simp only [act, negate]
      split <;> exact ⟨rfl, fun _ => rfl⟩
  | combine operation =>
      simp only [act, combine]
      split <;> exact ⟨rfl, fun _ => rfl⟩
  | assemble builder count =>
      simp only [act, assemble]
      split <;> exact ⟨rfl, fun _ => rfl⟩

/-- An operation without entries only acts. -/
theorem stepSilent (client : Client Hidden) (operation : Operation Hidden)
    (silent : client.entries operation = []) : client.step operation = client.act operation := by
  rw [step, silent, List.append_nil, ← (client.actKeeps operation).1]

/-- A passive operation only rearranges handles that are held before. -/
theorem Accounts.passive {client : Client Hidden} (accounts : client.Accounts)
    (operation : Operation Hidden) (passive : operation.Passive) :
    (client.act operation).Accounts := by
  cases operation with
  | create | assign | evaluate | prepare => cases passive
  | clone name target => exact accounts.clone name target
  | forget name =>
      refine accounts.keep rfl rfl fun handle held => ?_
      exact (holdsUpdate held).resolve_left nofun
  | pushNumber value =>
      refine accounts.grow _ _ (List.Subset.refl _) fun planted same handle inside => ?_
      cases same
      cases inside
  | pushAbsent => exact accounts.grow _ _ (List.Subset.refl _) nofun
  | pushVariable name => exact accounts.pushVariable name
  | lift index => exact accounts.lift index
  | negate => exact accounts.negate
  | combine operation => exact accounts.combine operation
  | assemble builder count => exact accounts.assemble builder count
  | inspect path => exact accounts
  | drop =>
      refine accounts.restack _ fun planted listed handle inside => ?_
      exact .inr ⟨planted, List.mem_of_mem_tail listed, inside⟩

/-- Every operation keeps the account. -/
theorem Accounts.step {client : Client Hidden} (accounts : client.Accounts)
    (operation : Operation Hidden) : (client.step operation).Accounts := by
  cases operation with
  | create name value => exact accounts.create name value
  | assign name value => exact accounts.assign name value
  | evaluate strategy path => exact accounts.evaluate strategy path
  | prepare cells trace => exact accounts.keep rfl (List.append_nil _) fun _ held => held
  | _ =>
      rw [client.stepSilent _ rfl]
      exact accounts.passive _ trivial

theorem Accounts.run {client : Client Hidden} (accounts : client.Accounts)
    (operations : List (Operation Hidden)) : (client.run operations).Accounts := by
  induction operations generalizing client with
  | nil => exact accounts
  | cons operation rest ih => exact ih (accounts.step operation)

theorem Accounts.sharing {client : Client Hidden} (accounts : client.Accounts)
    {one other : Handle} (held : client.Holds one) (heldOther : client.Holds other) :
    (one.slot == other.slot) = true ↔ one.origin = other.origin := by
  rw [beq_iff_eq, (accounts.origins one held).1, (accounts.origins other heldOther).1,
    Slot.mk.injEq]

end Client

end ExprTree
