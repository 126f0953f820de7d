/-
This file shows that a client follows a session by the history of its commands.
-/

import ExprTree.Proofs.Session.Path
import ExprTree.Proofs.Slots.Accounts

namespace ExprTree

/-- A client shows a session when it has handles for the slots and planted trees for the trees. -/
structure Client.Shows (client : Client Nat) (session : Session) : Prop where
  world : client.world = session.world
  names : ∀ name, session.names[name]? = (client.names name).map Handle.slot
  stack : client.stack.map (·.map Planted.node) = session.stack.items

/-- The operation of a move is given by names and paths, and stored templates are no part of it. -/
def Session.Move.operation? : Session.Move → Option (Operation Nat)
  | .bind name value => some (.create name value)
  | .link name target => some (.clone name target)
  | .assign name _ value => some (.assign name value)
  | .prepare cells trace => some (.prepare cells trace)
  | .store _ _ => none
  | .number value => some (.pushNumber value)
  | .literal text =>
      match (readNumber text).outcome with
      | .ok value => some (.pushNumber value)
      | .error _ => some .pushAbsent
  | .absent => some .pushAbsent
  | .var name => some (.pushVariable name)
  | .negation => some .negate
  | .operator operation => some (.combine operation)
  | .swap => some (.lift 1)
  | .assemble builder parameters => some (.assemble builder parameters.length)
  | .evaluate strategy path _ => some (.evaluate strategy path)
  | .drop _ => some .drop

def Client.follow (client : Client Nat) (moves : List Session.Move) : Client Nat :=
  client.run (moves.filterMap Session.Move.operation?)

theorem Client.followAppend (client : Client Nat) (first second : List Session.Move) :
    client.follow (first ++ second) = (client.follow first).follow second := by
  rw [follow, List.filterMap_append, run, List.foldl_append]
  rfl

namespace Session

/-- Moves lead from a session to another one when every client that shows it follows them there. -/
def Leads (session : Session) (moves : List Move) (next : Session) : Prop :=
  ∀ client : Client Nat, client.Shows session → (client.follow moves).Shows next

theorem Leads.trans {first second third : Session} {moves next : List Move}
    (here : first.Leads moves second) (there : second.Leads next third) :
    first.Leads (moves ++ next) third := by
  intro client shows
  rw [Client.followAppend]
  exact there _ (here client shows)

/-- The log has no part in what a client shows. -/
theorem leadsBy {session next : Session} {move : Move} (operation : Operation Nat)
    (same : move.operation? = some operation)
    (follows : ∀ client : Client Nat, client.Shows session → (client.act operation).Shows next) :
    session.Leads [move] next := by
  intro client shows
  obtain ⟨world, names, stack⟩ := follows client shows
  rw [Client.follow, List.filterMap_cons_some same]
  exact ⟨world, names, stack⟩

/-- A client shows the insertion of a slot when it gives the name a handle of that slot. -/
theorem showsUpdate {client : Client Nat} {session : Session} (shows : client.Shows session)
    (name : String) (handle : Handle) (slot : Slot) (same : handle.slot = slot) (other : String) :
    (session.names.insert name slot)[other]? =
      (Function.update client.names name (some handle) other).map Handle.slot := by
  rw [Std.TreeMap.getElem?_insert]
  by_cases equal : name = other
  · rw [if_pos (Std.compare_eq_iff_eq.mpr equal), ← equal, Function.update_self, Option.map_some,
      same]
  · rw [if_neg (mt Std.compare_eq_iff_eq.mp equal), Function.update_of_ne (Ne.symm equal),
      shows.names]

theorem leadsBind (session : Session) (name : String) (value : Float) :
    session.Leads [.bind name value] (session.bind name value) := by
  refine leadsBy (.create name value) rfl fun client shows => ⟨?_, ?_, shows.stack⟩
  · show (client.world.newSlot value).2 = (session.world.newSlot value).2
    rw [shows.world]
  · refine showsUpdate shows name _ _ ?_
    show (client.world.newSlot value).1 = (session.world.newSlot value).1
    rw [shows.world]

/-- A name with a slot has a handle of that slot. -/
theorem showsNamed {client : Client Nat} {session : Session} (shows : client.Shows session)
    {name : String} {slot : Slot} (named : session.names[name]? = some slot) :
    ∃ handle, client.names name = some handle ∧ handle.slot = slot := by
  rw [shows.names] at named
  exact Option.map_eq_some_iff.mp named

theorem leadsLink (session : Session) (name target : String) (slot : Slot)
    (named : session.names[target]? = some slot) :
    session.Leads [.link name target]
      { session with names := session.names.insert name slot } := by
  refine leadsBy (.clone name target) rfl fun client shows => ?_
  obtain ⟨handle, bound, same⟩ := showsNamed shows named
  have cloned : client.clone name target =
      { client with names := Function.update client.names name (some handle) } := by
    rw [Client.clone, bound]
  rw [Client.act, cloned]
  exact ⟨shows.world, showsUpdate shows name handle slot same, shows.stack⟩

theorem leadsAssign (session : Session) (name : String) (value : Float) (slot : Slot)
    (named : session.names[name]? = some slot) :
    session.Leads [.assign name slot value]
      { session with world := session.world.write slot value } := by
  refine leadsBy (.assign name value) rfl fun client shows => ?_
  obtain ⟨handle, bound, same⟩ := showsNamed shows named
  rw [Client.act, Client.assign, bound, ← same]
  exact ⟨congrArg (World.write · handle.slot value) shows.world, shows.names, shows.stack⟩

/-- Private cells and the trace can change without any slot. -/
theorem leadsPrepare (session : Session) (cells : Memory Nat) (trace : Array Float) :
    session.Leads [.prepare cells trace]
      { session with world := ⟨session.world.slots, cells, trace⟩ } := by
  refine leadsBy (.prepare cells trace) rfl fun client shows => ⟨?_, shows.names, shows.stack⟩
  show (⟨client.world.slots, cells, trace⟩ : World Nat) = _
  rw [shows.world]

theorem leadsNumber (session : Session) {move : Move} (value : Float)
    (same : move.operation? = some (.pushNumber value)) :
    session.Leads [move] (session.push (some (.number value))) :=
  leadsBy (.pushNumber value) same fun _ shows =>
    ⟨shows.world, shows.names, congrArg (List.cons _) shows.stack⟩

theorem leadsAbsent (session : Session) {move : Move}
    (same : move.operation? = some .pushAbsent) : session.Leads [move] (session.push none) :=
  leadsBy .pushAbsent same fun _ shows =>
    ⟨shows.world, shows.names, congrArg (List.cons none) shows.stack⟩

theorem leadsLiteral (session : Session) (text : String) :
    session.Leads [.literal text]
      (session.push ((readNumber text).outcome.map Node.number).toOption) := by
  cases read : (readNumber text).outcome with
  | error error => exact session.leadsAbsent (by rw [Move.operation?, read])
  | ok value => exact session.leadsNumber value (by rw [Move.operation?, read])

theorem leadsVariable (session : Session) (name : String) (slot : Slot)
    (named : session.names[name]? = some slot) :
    session.Leads [.var name] (session.push (some (.var slot))) := by
  refine leadsBy (.pushVariable name) rfl fun client shows => ?_
  obtain ⟨handle, bound, same⟩ := showsNamed shows named
  rw [Client.act, Client.pushVariable, bound, ← same]
  exact ⟨shows.world, shows.names, congrArg (List.cons _) shows.stack⟩

theorem leadsDrop (session : Session) (tree : Option (Node Nat)) :
    (session.push tree).Leads [.drop tree] session := by
  refine leadsBy .drop rfl fun client shows => ⟨shows.world, shows.names, ?_⟩
  show client.stack.tail.map _ = _
  rw [List.map_tail, shows.stack]
  rfl

/-- The tree that a client has on top is planted. -/
theorem showsPushed {client : Client Nat} {session : Session} {node : Node Nat}
    (shows : client.Shows (session.push (some node))) :
    ∃ planted rest, client.stack = some planted :: rest ∧ planted.node = node ∧
      rest.map (·.map Planted.node) = session.stack.items := by
  obtain ⟨top, rest, stack, found, below⟩ := List.map_eq_cons_iff.mp shows.stack
  obtain ⟨planted, rfl, same⟩ := Option.map_eq_some_iff.mp found
  exact ⟨planted, rest, stack, same, below⟩

theorem leadsNegation (session : Session) (node : Node Nat) :
    (session.push (some node)).Leads [.negation] (session.push (some (.negation node))) := by
  refine leadsBy .negate rfl fun client shows => ?_
  obtain ⟨planted, rest, stack, rfl, below⟩ := showsPushed shows
  rw [Client.act, Client.negate, stack]
  exact ⟨shows.world, shows.names, congrArg (List.cons _) below⟩

theorem leadsOperator (session : Session) (operation : Float → Float → Float)
    (left right : Node Nat) :
    ((session.push (some left)).push (some right)).Leads [.operator operation]
      (session.push (some (.operator operation left right))) := by
  refine leadsBy (.combine operation) rfl fun client shows => ?_
  obtain ⟨upper, rest, stack, rfl, below⟩ := showsPushed shows
  obtain ⟨_, rest, rfl, found, remaining⟩ := List.map_eq_cons_iff.mp below
  obtain ⟨lower, rfl, rfl⟩ := Option.map_eq_some_iff.mp found
  rw [Client.act, Client.combine, stack]
  exact ⟨shows.world, shows.names, congrArg (List.cons _) remaining⟩

theorem leadsSwap (session : Session) (lower upper : Option (Node Nat)) :
    ((session.push lower).push upper).Leads [.swap] ((session.push upper).push lower) := by
  refine leadsBy (.lift 1) rfl fun client shows => ?_
  obtain ⟨high, rest, stack, rfl, below⟩ := List.map_eq_cons_iff.mp shows.stack
  obtain ⟨low, rest, rfl, rfl, remaining⟩ := List.map_eq_cons_iff.mp below
  have lifted : client.lift 1 = { client with stack := low :: high :: rest } := by
    simp only [Client.lift, stack, List.getElem?_cons_succ, List.getElem?_cons_zero,
      List.eraseIdx_cons_succ, List.eraseIdx_cons_zero]
  rw [Client.act, lifted]
  exact ⟨shows.world, shows.names, congrArg (fun below => _ :: _ :: below) remaining⟩

/-- A client assembles the same parameters, because its planted trees show them. -/
theorem leadsAssemble (session rest : Session) (builder : Builder Nat)
    (parameters : List (Option (Node Nat)))
    (stack : session.stack.items = parameters.reverse ++ rest.stack.items)
    (names : session.names = rest.names) (world : session.world = rest.world) :
    session.Leads [.assemble builder parameters]
      (rest.push (builder.setParameters parameters).outcome.toOption) := by
  refine leadsBy (.assemble builder parameters.length) rfl fun client shows => ?_
  have items := shows.stack
  rw [stack] at items
  have taken : (client.stack.take parameters.length).map (·.map Planted.node) =
      parameters.reverse := by
    rw [List.map_take, items, ← parameters.length_reverse, List.take_left]
  have kept : (client.stack.drop parameters.length).map (·.map Planted.node) =
      rest.stack.items := by
    rw [List.map_drop, items, ← parameters.length_reverse, List.drop_left]
  have enough : parameters.length ≤ client.stack.length := by
    have lengths := congrArg List.length items
    rw [List.length_map, List.length_append, List.length_reverse] at lengths
    omega
  have planted := builder.plantNode (client.stack.take parameters.length).reverse
  rw [List.map_reverse, taken, List.reverse_reverse] at planted
  rw [Client.act, Client.assemble, if_pos enough]
  refine ⟨world ▸ shows.world, names ▸ shows.names, ?_⟩
  rw [List.map_cons, planted, kept]
  rfl

/-- What a session finds on its top tree is the target of the client. -/
theorem showsTop {client : Client Nat} {session : Session} (shows : client.Shows session)
    {path : List Nat} {target : Option (Node Nat)} (found : session.top path = .ok target) :
    client.target? path = target := by
  unfold top at found
  split at found
  case h_1 => cases found
  case h_2 rest items =>
    cases found
    obtain ⟨top, _, stack, none, _⟩ := List.map_eq_cons_iff.mp (shows.stack.trans items)
    rw [Client.target?, stack, Option.map_eq_none_iff.mp none]
  case h_3 tree rest items =>
    split at found
    case h_1 => cases found
    case h_2 below reached =>
      cases found
      obtain ⟨top, _, stack, planted, _⟩ :=
        List.map_eq_cons_iff.mp (shows.stack.trans items)
      obtain ⟨planted, rfl, rfl⟩ := Option.map_eq_some_iff.mp planted
      rw [Client.target?, stack]
      exact reached

theorem leadsEvaluate (session : Session) (strategy : Strategy) (path : List Nat)
    (node : Node Nat) (found : session.top path = .ok (some node)) :
    session.Leads [.evaluate strategy path node] { session with
      world := (node.evaluateWith strategy session.world).outcome.2 } := by
  refine leadsBy (.evaluate strategy path) rfl fun client shows => ?_
  rw [Client.act, Client.evaluate, showsTop shows found]
  refine ⟨?_, shows.names, shows.stack⟩
  show (node.evaluateWith strategy client.world).outcome.2 = _
  rw [shows.world]

/-- A client can follow every single change. -/
theorem changeLeads {session next : Session} {move : Move} {emitted : List Diagnostic}
    (change : Change false session move emitted next) : session.Leads [move] next := by
  cases change with
  | bind _ name value => exact session.leadsBind name value
  | link _ name target slot named => exact session.leadsLink name target slot named
  | assign _ name value slot named => exact session.leadsAssign name value slot named
  | prepare _ cells trace => exact session.leadsPrepare cells trace
  | store => exact fun client shows => ⟨shows.world, shows.names, shows.stack⟩
  | number _ _ value => exact session.leadsNumber value rfl
  | literal _ _ text => exact session.leadsLiteral text
  | absent => exact session.leadsAbsent rfl
  | var _ name slot named => exact session.leadsVariable name slot named
  | negation _ rest node => exact rest.leadsNegation node
  | operator _ rest operation left right => exact rest.leadsOperator operation left right
  | swap _ rest lower upper => exact rest.leadsSwap lower upper
  | assemble _ _ rest builder parameters stack names world =>
      exact leadsAssemble session rest builder parameters stack names world
  | evaluate _ strategy path node found => exact session.leadsEvaluate strategy path node found
  | drop _ rest tree => exact next.leadsDrop tree

theorem pathLeads {session next : Session} {moves : List Move} {emitted : List Diagnostic}
    (path : Path false session moves emitted next) : session.Leads moves next :=
  path.related (fun session moves _ next => session.Leads moves next) (fun _ _ shows => shows)
    Leads.trans changeLeads

theorem worldPassive {session : Session} {command : Command} (passive : command.Passive)
    {report : Reported (Reply × Session)} (done : session.step command = .ok report) :
    report.outcome.2.world = session.world :=
  pathFrozen (session.stepPath command report (fun _ => passive) done)

theorem showsEmpty : (Client.start Memory.empty #[]).Shows empty where
  world := rfl
  names _ := Std.TreeMap.getElem?_emptyc
  stack := rfl

/-- The client of some commands has done from the start what these commands amount to. -/
def client (commands : List Command) : Client Nat :=
  (Client.start Memory.empty #[]).follow (empty.history commands)

theorem clientAccounts (commands : List Command) : (client commands).Accounts :=
  (Client.accountsStart _ _).run _

theorem runShows {commands : List Command} {replies : List (Reported Reply)} {final : Session}
    (done : empty.run commands = .ok (replies, final)) : (client commands).Shows final := by
  obtain ⟨_, _, path⟩ := runPath commands empty final #[] replies done
  exact pathLeads path _ showsEmpty

end Session

/--
A reply is right for the clients before and after the command.
A variable has the value in the slot of its handle, and names share a slot if their handles descend
from one creation. An evaluation starts with an empty trace.
-/
def Client.Answers (before after : Client Nat) : Session.Command → Session.Reply → Prop
  | .assign name value, reply =>
      reply = .value value ∧
        ∃ handle, after.names name = some handle ∧ after.world.read handle.slot = value
  | .get name, reply =>
      ∃ handle, after.names name = some handle ∧ reply = .value (after.world.read handle.slot)
  | .shares first second, reply =>
      ∃ one other, after.names first = some one ∧ after.names second = some other ∧
        reply = .shares (decide (one.origin = other.origin))
  | .evaluate strategy path, reply =>
      match before.target? path with
      | none => reply = .absentValue
      | some node =>
          let run := (node.evaluateWith strategy { before.world with trace := #[] }).outcome
          reply = .evaluated run.1 run.2.trace.toList ∧ after.world = run.2
  | _, _ => True

namespace Session

theorem slotKeeps {session : Session} {name : String} {slot : Slot}
    (named : session.names[name]? = some slot) (other : String) :
    (session.slot other).2.names[name]? = some slot := by
  unfold Session.slot
  split
  case h_1 => exact named
  case h_2 free =>
    have different : other ≠ name := by
      rintro rfl
      rw [free] at named
      cases named
    show (session.names.insert other _)[name]? = some slot
    rw [Std.TreeMap.getElem?_insert, if_neg (mt Std.compare_eq_iff_eq.mp different)]
    exact named

/-- Every command is answered rightly, because a client follows it. -/
theorem stepAnswers {before after : Client Nat} {session : Session} {command : Command}
    {report : Reported (Reply × Session)} (shows : before.Shows session)
    (accounts : after.Accounts) (done : session.step command = .ok report)
    (followed : after.Shows report.outcome.2) :
    before.Answers after command report.outcome.1 := by
  cases command with
  | assign name value =>
      cases done
      obtain ⟨handle, bound, same⟩ := showsNamed followed (session.slotNamed name)
      have written (slot : Slot) (world : World Nat) : (world.write slot value).read slot = value :=
        (world.readWrite slot slot value).trans (if_pos rfl)
      refine ⟨congrArg Reply.value (written _ _), handle, bound, ?_⟩
      rw [followed.world, same]
      exact written _ _
  | get name =>
      cases done
      obtain ⟨handle, bound, same⟩ := showsNamed followed (session.slotNamed name)
      refine ⟨handle, bound, ?_⟩
      rw [followed.world, same]
      rfl
  | shares first second =>
      cases done
      obtain ⟨one, bound, same⟩ :=
        showsNamed followed (slotKeeps (session.slotNamed first) second)
      obtain ⟨other, boundOther, sameOther⟩ := showsNamed followed (slotNamed _ second)
      refine ⟨one, other, bound, boundOther, congrArg Reply.shares ?_⟩
      have sharing := accounts.sharing (.inl ⟨first, bound⟩) (.inl ⟨second, boundOther⟩)
      rw [same, sameOther] at sharing
      exact Bool.eq_iff_iff.mpr (sharing.trans decide_eq_true_iff.symm)
  | evaluate strategy path =>
      obtain ⟨target, found, remaining⟩ := exceptBindOk done
      rw [Client.Answers, showsTop shows found, shows.world]
      cases target with
      | none =>
          cases remaining
          rfl
      | some node =>
          cases remaining
          exact ⟨rfl, followed.world⟩
  | _ => trivial

/-- Every reply of a run is right for the commands up to it. -/
theorem runAnswers {commands : List Command} {replies : List (Reported Reply)} {final : Session}
    (done : empty.run commands = .ok (replies, final)) (earlier : List Command)
    (command : Command) (later : List Command) (split : commands = earlier ++ command :: later) :
    ∃ reply, replies[earlier.length]? = some reply ∧
      (client earlier).Answers (client (earlier ++ [command])) command reply.outcome := by
  rw [split] at done
  obtain ⟨reached, middle, report, ran, stepped, listed, moves⟩ :=
    runSplit earlier command later empty final #[] replies done
  have shows := runShows ran
  have free : false = true → command.Passive := nofun
  have followed := pathLeads (middle.stepPath command report free stepped) _ shows
  have next : client (earlier ++ [command]) = (client earlier).follow (middle.moves command) := by
    rw [client, moves, Client.followAppend]
    rfl
  rw [List.size_toArray, List.length_nil, Nat.zero_add] at listed
  refine ⟨_, listed, ?_⟩
  rw [next]
  exact stepAnswers shows (next ▸ clientAccounts _) stepped followed

end Session

end ExprTree
