/-
This file shows that every slot holds the value that was written to it last.
-/

import ExprTree.Proofs.Slots.Accounts
import ExprTree.Proofs.Slots.Sessions
import Mathlib.Data.List.Nodup

namespace ExprTree

theorem Entry.createdHead (slot : Slot) (value : Float) (rest : List Entry) :
    (Entry.created slot value :: rest).filterMap Entry.created? =
      slot :: rest.filterMap Entry.created? := rfl

/-- A created slot starts anew, and until the next creation only writes count. -/
theorem lastWrittenContent (slot : Slot) (entries : List Entry) (kept : Float)
    (absent : slot ∉ entries.filterMap Entry.created?) :
    lastWritten slot (entries.map Entry.content) kept =
      lastWritten slot (entries.filterMap Entry.written?) kept := by
  induction entries generalizing kept with
  | nil => rfl
  | cons entry rest ih =>
      cases entry with
      | written target value => exact ih _ absent
      | created target value =>
          rw [Entry.createdHead, List.mem_cons, not_or] at absent
          rw [List.filterMap_cons_none rfl, ← ih kept absent.2]
          exact congrArg (lastWritten slot (rest.map Entry.content)) (if_neg (Ne.symm absent.1))

/-- Inside an evaluation a variable also sees what the actions before it have written. -/
theorem Node.readEvent {Hidden : Type} (node : Node Hidden) (strategy : Strategy)
    (world : World Hidden) (earlier later : List (Event Hidden)) (event : Event Hidden)
    (slot : Slot) (split : node.events strategy world = earlier ++ event :: later)
    (read : event.action = .read slot) :
    event.result = lastWritten slot (earlier.flatMap Event.writes) (world.read slot) := by
  have leads := node.journalLeads [] world
  rw [← Node.eventsJournal strategy, split] at leads
  obtain ⟨middle, reached, found, _⟩ := (Event.leadsAppend _ _ _ _).mp leads
  rw [← Event.readLeads earlier world middle reached, ← found, Event.result, read]
  rfl

namespace Client
variable {Hidden : Type}

/-- A creation in the log has the number of its slot, and its slot is not created again. -/
theorem Accounts.createdOnce {client : Client Hidden} (accounts : client.Accounts)
    {before after : List Entry} {slot : Slot} {value : Float}
    (split : client.log = before ++ .created slot value :: after) :
    slot = ⟨(before.filterMap Entry.created?).length⟩ ∧
      slot ∉ after.filterMap Entry.created? := by
  have created := accounts.created
  rw [split, List.filterMap_append, Entry.createdHead] at created
  constructor
  · have found := congrArg (·[(before.filterMap Entry.created?).length]?) created
    simp only [List.getElem?_append_right (Nat.le_refl _), Nat.sub_self, List.getElem?_cons_zero,
      List.getElem?_map] at found
    obtain ⟨number, listed, same⟩ := Option.map_eq_some_iff.mp found.symm
    obtain ⟨_, position⟩ := List.getElem?_eq_some_iff.mp listed
    rw [← same, ← position, List.getElem_range]
  · have distinct : ((List.range client.world.slots.next).map Slot.mk).Nodup :=
      List.nodup_range.map fun _ _ => congrArg Slot.address
    rw [← created] at distinct
    exact (List.nodup_cons.mp (List.nodup_append.mp distinct).2.1).1

/-- Every slot below the next address was created. -/
theorem Accounts.creation {client : Client Hidden} (accounts : client.Accounts) (number : Nat)
    (below : number < client.world.slots.next) :
    ∃ before value after, client.log = before ++ .created ⟨number⟩ value :: after := by
  have listed : (⟨number⟩ : Slot) ∈ client.log.filterMap Entry.created? := by
    rw [accounts.created]
    exact List.mem_map_of_mem (List.mem_range.mpr below)
  obtain ⟨entry, member, same⟩ := List.mem_filterMap.mp listed
  cases entry with
  | written slot value => cases same
  | created slot value =>
      cases same
      obtain ⟨before, after, split⟩ := List.append_of_mem member
      exact ⟨before, value, after, split⟩

theorem Accounts.readCreated {client : Client Hidden} (accounts : client.Accounts)
    {before after : List Entry} {slot : Slot} {value : Float}
    (split : client.log = before ++ .created slot value :: after) :
    client.world.read slot = lastWritten slot (after.filterMap Entry.written?) value := by
  rw [accounts.contents, split, List.map_append, lastWrittenAppend, List.map_cons,
    ← lastWrittenContent slot after value (accounts.createdOnce split).2]
  exact congrArg (lastWritten slot (after.map Entry.content)) (if_pos rfl)

theorem passiveStep (client : Client Hidden) (operation : Operation Hidden)
    (passive : operation.Passive) :
    (client.step operation).world = client.world ∧ (client.step operation).log = client.log := by
  have silent : client.entries operation = [] := by
    cases operation with
    | create | assign | evaluate | prepare => cases passive
    | _ => rfl
  rw [client.stepSilent operation silent]
  obtain ⟨log, world⟩ := client.actKeeps operation
  exact ⟨world passive, log⟩

/--
Operations on slots do what they say. A new handle has a slot of its own, and every other handle
keeps its value. An assignment writes to the slot of the handle and to no other one.
An evaluation makes the writes of the actions that lead through it.
-/
structure Effective (client : Client Hidden) : Prop where
  create : ∀ name value, ∃ handle,
    (client.step (.create name value)).names =
      Function.update client.names name (some handle) ∧
    handle.origin = client.creations ∧
    (∀ other, client.Holds other → other.slot ≠ handle.slot) ∧
    (client.step (.create name value)).log = client.log ++ [.created handle.slot value] ∧
    ∀ slot, (client.step (.create name value)).world.read slot =
      if handle.slot = slot then value else client.world.read slot
  clone : ∀ name target handle, client.names target = some handle →
    (client.step (.clone name target)).names = Function.update client.names name (some handle)
  forget : ∀ name,
    (client.step (.forget name)).names = Function.update client.names name none
  assign : ∀ name value handle, client.names name = some handle →
    (client.step (.assign name value)).log = client.log ++ [.written handle.slot value] ∧
    ∀ slot, (client.step (.assign name value)).world.read slot =
      if handle.slot = slot then value else client.world.read slot
  place : ∀ name handle, client.names name = some handle →
    (client.step (.pushVariable name)).stack = some (.leaf handle) :: client.stack
  evaluate : ∀ strategy path node, client.target? path = some node →
    let events := node.events strategy client.world
    let next := client.step (.evaluate strategy path)
    Event.Perform events node.postOrder ∧ Event.Leads client.world events next.world ∧
      next.log = client.log ++ (events.flatMap Event.writes).map Entry.ofWrite

theorem Accounts.effective {client : Client Hidden} (accounts : client.Accounts) :
    client.Effective where
  create name value := by
    have number := accounts.creations
    refine ⟨⟨⟨client.world.slots.next⟩, client.creations⟩, rfl, rfl, fun other held same => ?_,
      ?_, client.world.readNewSlot value⟩
    · obtain ⟨origin, below⟩ := accounts.origins other held
      rw [origin] at same
      exact Nat.ne_of_lt below (congrArg Slot.address same)
    · rw [Client.step, entries, number]
  clone name target handle bound := by
    rw [client.stepSilent _ rfl, act, Client.clone, bound]
  forget name := rfl
  assign name value handle bound := by
    rw [Client.step, entries, act, Client.assign, bound]
    exact ⟨rfl, fun slot => client.world.readWrite handle.slot slot value⟩
  place name handle bound := by
    rw [client.stepSilent _ rfl, act, Client.pushVariable, bound]
  evaluate strategy path node found := by
    intro events next
    have leads := node.journalLeads [] client.world
    rw [← Node.eventsJournal strategy, ← Node.evaluateWithOutcome strategy] at leads
    have stepped : next = { client with
        world := (node.evaluateWith strategy client.world).outcome.2
        log := client.log ++ (events.flatMap Event.writes).map Entry.ofWrite } := by
      show client.step (.evaluate strategy path) = _
      rw [Client.step, entries, act, Client.evaluate, found, Option.toList_some,
        List.flatMap_singleton]
    rw [stepped]
    exact ⟨node.eventsPerform strategy client.world, leads, rfl⟩

end Client

/--
After any history a slot holds the value written to it last, or else its first value, and every
handle belongs to the slot of its creation. Two handles share a slot exactly when they descend
from one creation. Operations on slots are effective, passive operations write no slot, and names
change without any tree. A run of a session leads where the history of its commands leads a client,
and its replies are right for that client.
-/
theorem slotsHoldLastWritten {Hidden : Type} (cells : Memory Hidden) (trace : Array Float)
    (operations : List (Operation Hidden)) :
    let client := (Client.start cells trace).run operations
    (∀ before slot value after, client.log = before ++ .created slot value :: after →
      let current := lastWritten slot (after.filterMap Entry.written?) value
      slot ∉ after.filterMap Entry.created? ∧
      client.world.read slot = current ∧
      (∀ strategy, ((Node.var slot).evaluateWith strategy client.world).outcome.1 = current) ∧
      ∀ (node : Node Hidden) strategy earlier event later,
        node.events strategy client.world = earlier ++ event :: later →
        event.action = .read slot →
        event.result = lastWritten slot (earlier.flatMap Event.writes) current) ∧
    (∀ handle, client.Holds handle → ∃ before value after,
      client.log = before ++ .created handle.slot value :: after ∧
      (before.filterMap Entry.created?).length = handle.origin) ∧
    (∀ one other, client.Holds one → client.Holds other →
      ((one.slot == other.slot) = true ↔ one.origin = other.origin)) ∧
    client.Effective ∧
    (∀ operation : Operation Hidden, operation.Passive →
      (client.step operation).world = client.world ∧
      (client.step operation).log = client.log) ∧
    (∀ name value target, (client.step (.create name value)).stack = client.stack ∧
      (client.step (.clone name target)).stack = client.stack ∧
      (client.step (.forget name)).stack = client.stack) ∧
    (∀ commands replies final, Session.empty.run commands = .ok (replies, final) →
      (Session.client commands).Shows final ∧
      ∀ earlier command later, commands = earlier ++ command :: later →
        ∃ reply, replies[earlier.length]? = some reply ∧
          (Session.client earlier).Answers (Session.client (earlier ++ [command])) command
            reply.outcome) ∧
    ∀ (session : Session) command report, command.Passive →
      session.step command = .ok report → report.outcome.2.world = session.world := by
  intro client
  have accounts : client.Accounts := (Client.accountsStart cells trace).run operations
  refine ⟨fun before slot value after split => ?_, fun handle held => ?_,
    fun one other => accounts.sharing, accounts.effective, client.passiveStep,
    fun name value target => ⟨rfl, ?_, rfl⟩,
    fun commands replies final done => ⟨Session.runShows done, Session.runAnswers done⟩,
    fun session command report passive => Session.worldPassive passive⟩
  · have current := accounts.readCreated split
    refine ⟨(accounts.createdOnce split).2, current, fun strategy => ?_,
      fun node strategy earlier event later events read => ?_⟩
    · rw [Node.evaluateWithOutcome]
      exact current
    · rw [← current]
      exact node.readEvent strategy client.world earlier later event slot events read
  · obtain ⟨same, below⟩ := accounts.origins handle held
    obtain ⟨before, value, after, split⟩ := accounts.creation handle.origin below
    have number := (accounts.createdOnce split).1
    rw [same]
    exact ⟨before, value, after, split, (congrArg Slot.address number).symm⟩
  · rw [client.stepSilent _ rfl, Client.act]
    unfold Client.clone
    split <;> rfl

/--
A body writes through an alias, and a rebound name leaves the tree with the old variable.
A session with an alias of its own replies with the value that was written through it.
-/
theorem slotsHoldLastWrittenRebound :
    let body := fun argument : Float => Effect.write (⟨0⟩ : Slot) argument (.done argument)
    let client : Client Nat := (Client.start Memory.empty #[]).run
      [.create "x" 1.0, .clone "y" "x", .pushVariable "x", .create "x" 2.0, .assign "y" 3.0,
        .pushNumber 5.0, .assemble ⟨"set", .unary body⟩ 1, .evaluate .recursive [], .drop]
    let commands : List Session.Command :=
      [.bind "x" 1.0, .link "y" "x", .pushVariable "x", .bind "x" 2.0, .assign "y" 3.0,
        .evaluate .recursive [], .shares "x" "y"]
    client.stack = [some (.leaf ⟨⟨0⟩, 0⟩)] ∧
    client.world.read ⟨0⟩ = 5.0 ∧ client.world.read ⟨1⟩ = 2.0 ∧
    (∀ one other, client.names "x" = some one → client.names "y" = some other →
      (one.slot == other.slot) = false) ∧
    ∃ replies final, Session.empty.run commands = .ok (replies, final) ∧
      (Session.client commands).Shows final ∧
      (replies.map Reported.outcome)[5]? = some (.evaluated 3.0 []) ∧
      ∃ reply, replies[6]? = some reply ∧ reply.outcome = .shares false ∧
        (Session.client (commands.take 6)).Answers (Session.client commands) (.shares "x" "y")
          reply.outcome := by
  intro body client commands
  obtain ⟨contents, _, sharing, _, _, _, sessions, _⟩ :=
    slotsHoldLastWritten (Memory.empty : Memory Nat) #[]
      [.create "x" 1.0, .clone "y" "x", .pushVariable "x", .create "x" 2.0, .assign "y" 3.0,
        .pushNumber 5.0, .assemble ⟨"set", .unary body⟩ 1, .evaluate .recursive [], .drop]
  have first := contents [] ⟨0⟩ 1.0 [.created ⟨1⟩ 2.0, .written ⟨0⟩ 3.0, .written ⟨0⟩ 5.0] rfl
  have second := contents [.created ⟨0⟩ 1.0] ⟨1⟩ 2.0 [.written ⟨0⟩ 3.0, .written ⟨0⟩ 5.0] rfl
  have ran : Session.empty.run commands = .ok (_, _) := rfl
  obtain ⟨shows, answers⟩ := sessions commands _ _ ran
  obtain ⟨reply, listed, right⟩ := answers (commands.take 6) (.shares "x" "y") [] rfl
  refine ⟨rfl, first.2.1, second.2.1, fun one other bound boundOther => ?_,
    _, _, ran, shows, rfl, reply, listed, ?_, right⟩
  · have same := sharing one other (.inl ⟨"x", bound⟩) (.inl ⟨"y", boundOther⟩)
    cases bound
    cases boundOther
    exact Bool.eq_false_iff.mpr (mt same.mp nofun)
  · cases listed
    rfl

end ExprTree
