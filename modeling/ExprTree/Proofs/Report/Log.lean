/-
This file shows that the log follows the calls and their outcomes.
-/

import ExprTree.Proofs.Report.Recording
import ExprTree.Proofs.Session.Path

namespace ExprTree

/-- An outcome is an error, or it has none. -/
def AssemblyError.of? {Result : Type} : Except AssemblyError Result → Option AssemblyError
  | .error error => some error
  | .ok _ => none

theorem AssemblyError.ofMap {First Second : Type} (change : First → Second)
    (outcome : Except AssemblyError First) : of? (outcome.map change) = of? outcome := by
  cases outcome <;> rfl

/-- Literals and parameters are refused in every world alike, and other calls are not refused. -/
def Call.refusal? {Hidden : Type} : Call Hidden → Option AssemblyError
  | .read text => AssemblyError.of? (readNumber text).outcome
  | .assign builder parameters => AssemblyError.of? (builder.setParameters parameters).outcome
  | _ => none

theorem Call.performRefusal {Hidden : Type} (call : Call Hidden) (world : World Hidden) :
    AssemblyError.of? (call.perform world).outcome.1 = call.refusal? := by
  cases call with
  | read text =>
      rw [performRead, refusal?]
      generalize readNumber text = report
      exact AssemblyError.ofMap _ _
  | assign builder parameters =>
      rw [perform, Reported.map]
      exact AssemblyError.ofMap _ _
  | evaluate | depth | count | describe | release | create | write | prepare => rfl

theorem Recording.refusals {Hidden : Type} (world : World Hidden) (calls : List (Call Hidden)) :
    (of world calls).outcomes.map AssemblyError.of? = calls.map Call.refusal? := by
  induction calls generalizing world with
  | nil => rfl
  | cons call calls ih => rw [of, List.map_cons, List.map_cons, call.performRefusal, ih]

namespace Session

/-- A move is a call unless it only rearranges what the session has. -/
def Move.call? : Move → Option (Call Nat)
  | .bind _ value => some (.create value)
  | .assign _ slot value => some (.write slot value)
  | .prepare cells trace => some (.prepare cells trace)
  | .literal text => some (.read text)
  | .assemble builder parameters => some (.assign builder parameters)
  | .evaluate strategy _ node => some (.evaluate strategy node)
  | .drop tree => tree.map .release
  | .link _ _ | .store _ _ | .number _ | .absent | .var _ | .negation | .operator _ | .swap => none

/-- Moves emit diagnostics on the way to a session when their calls log them and lead there. -/
def Emits (session : Session) (moves : List Move) (diagnostics : List Diagnostic)
    (next : Session) : Prop :=
  let recording := Recording.of session.world (moves.filterMap Move.call?)
  recording.log = diagnostics.map Diagnostic.record ∧ recording.world = next.world

theorem Emits.trans {first second third : Session} {moves next : List Move}
    {before after : List Diagnostic} (here : first.Emits moves before second)
    (there : second.Emits next after third) :
    first.Emits (moves ++ next) (before ++ after) third := by
  obtain ⟨log, reached⟩ := here
  obtain ⟨logLater, ends⟩ := there
  obtain ⟨both, same⟩ := Recording.ofAppend first.world (moves.filterMap Move.call?)
    (next.filterMap Move.call?)
  rw [← List.filterMap_append, reached] at both same
  refine ⟨?_, same.trans ends⟩
  rw [both, log, logLater, List.map_append]

theorem emitsNothing {session next : Session} {move : Move} (none : move.call? = none)
    (same : next.world = session.world) : session.Emits [move] [] next := by
  rw [Emits, List.filterMap_cons_none none]
  exact ⟨rfl, same.symm⟩

/-- A single call emits its own diagnostics. -/
theorem emitsCall {session next : Session} {move : Move} (call : Call Nat)
    (made : move.call? = some call)
    (reached : (call.perform session.world).outcome.2 = next.world) :
    session.Emits [move] (call.perform session.world).diagnostics next := by
  rw [Emits, List.filterMap_cons_some made]
  exact ⟨List.append_nil _, reached⟩

theorem emitsLiteral (session : Session) (text : String) :
    session.Emits [.literal text] (readNumber text).diagnostics
      (session.push ((readNumber text).outcome.map Node.number).toOption) := by
  have call := Call.performRead session.world text
  have world : ((Call.read text).perform session.world).outcome.2 = session.world := by rw [call]
  have emits : session.Emits [.literal text] _ session := emitsCall (.read text) rfl world
  rw [call] at emits
  dsimp only at emits
  exact emits

theorem emitsDrop (session : Session) (tree : Option (Node Nat)) :
    (session.push tree).Emits [.drop tree] [] session := by
  cases tree with
  | none => exact emitsNothing rfl rfl
  | some node => exact emitsCall (.release node) rfl rfl

/-- Every single change emits what the call behind it logs. -/
theorem changeEmits {frozen : Bool} {session next : Session} {move : Move}
    {emitted : List Diagnostic} (change : Change frozen session move emitted next) :
    session.Emits [move] emitted next := by
  cases change with
  | bind _ name value => exact emitsCall (.create value) rfl rfl
  | assign _ name value slot => exact emitsCall (.write slot value) rfl rfl
  | prepare _ cells trace => exact emitsCall (.prepare cells trace) rfl rfl
  | literal _ _ text => exact session.emitsLiteral text
  | assemble _ _ _ builder parameters _ _ world =>
      exact emitsCall (.assign builder parameters) rfl world
  | evaluate _ strategy _ node => exact emitsCall (.evaluate strategy node) rfl rfl
  | drop _ _ tree => exact next.emitsDrop tree
  | link | store | number | absent | var | negation | operator | swap => exact emitsNothing rfl rfl

theorem pathEmits {frozen : Bool} {session next : Session} {moves : List Move}
    {emitted : List Diagnostic} (path : Path frozen session moves emitted next) :
    session.Emits moves emitted next :=
  path.related Emits (fun _ => ⟨rfl, rfl⟩) Emits.trans changeEmits

/-- Only a reply of this form refuses something. -/
def Reply.refusal? : Reply → Option AssemblyError
  | .refused error _ => some error
  | _ => none

/-- Moves are refused when their last call is, and with its error. -/
def lastRefusal (moves : List Move) (before : Option AssemblyError) : Option AssemblyError :=
  ((moves.filterMap Move.call?).map Call.refusal?).getLastD before

theorem lastAssemble (moves : List Move) (builder : Builder Nat)
    (parameters : List (Option (Node Nat))) :
    lastRefusal (moves ++ [.assemble builder parameters]) none =
      AssemblyError.of? (builder.setParameters parameters).outcome := by
  rw [lastRefusal, List.filterMap_append, List.map_append]
  exact List.getLastD_concat

/-- Only a literal or parameters are ever refused. -/
def Move.Plain : Move → Prop
  | .literal _ | .assemble _ _ => False
  | _ => True

theorem plainRefusal {move : Move} (plain : move.Plain) {call : Call Nat}
    (made : move.call? = some call) : call.refusal? = none := by
  cases move with
  | literal | assemble => cases plain
  | drop tree =>
      obtain ⟨node, _, rfl⟩ := Option.map_eq_some_iff.mp made
      rfl
  | bind | link | assign | prepare | store | number | absent | var | negation | operator | swap
  | evaluate => cases made <;> rfl

theorem lastPlain {moves : List Move} (plain : ∀ move ∈ moves, move.Plain) :
    lastRefusal moves none = none := by
  have last : lastRefusal moves none ∈ none :: (moves.filterMap Move.call?).map Call.refusal? :=
    List.getLastD_mem_cons
  rcases List.mem_cons.mp last with same | listed
  · exact same
  · obtain ⟨call, member, same⟩ := List.mem_map.mp listed
    obtain ⟨move, inside, made⟩ := List.mem_filterMap.mp member
    rw [← same]
    exact plainRefusal (plain move inside) made

/-- These commands read a literal or apply a function, and either can be refused. -/
def Command.Builds : Command → Prop
  | .pushLiteral _ | .call _ _ | .wrap _ _ | .callSample _ _ _ => True
  | _ => False

theorem touchPlain (session : Session) (name : String) :
    ∀ move ∈ session.touch name, move.Plain := by
  unfold touch
  split
  case h_1 => exact nofun
  case h_2 => exact List.forall_mem_singleton.mpr trivial

theorem movesPlain (session : Session) {command : Command} (plain : ¬command.Builds) :
    ∀ move ∈ session.moves command, move.Plain := by
  cases command with
  | pushLiteral | call | wrap | callSample => exact absurd trivial plain
  | pushNumber | pushAbsent | bind | combine | storeTemplate =>
      exact List.forall_mem_singleton.mpr trivial
  | inspect | applyOperation | describe => exact nofun
  | get name => exact session.touchPlain name
  | pushVariable name =>
      exact List.forall_mem_append.mpr
        ⟨session.touchPlain name, List.forall_mem_singleton.mpr trivial⟩
  | link name target =>
      exact List.forall_mem_append.mpr
        ⟨session.touchPlain target, List.forall_mem_singleton.mpr trivial⟩
  | assign name value =>
      exact List.forall_mem_append.mpr
        ⟨session.touchPlain name, List.forall_mem_singleton.mpr trivial⟩
  | shares first second =>
      exact List.forall_mem_append.mpr ⟨session.touchPlain first, touchPlain _ second⟩
  | negate times =>
      intro move member
      rw [List.eq_of_mem_replicate member]
      trivial
  | useTemplate name =>
      intro move member
      obtain ⟨operation, _, rfl⟩ := Option.map_eq_some_iff.mp (Option.mem_toList.mp member)
      trivial
  | spine op value growsLeft times =>
      intro move member
      obtain ⟨grown, listed, inside⟩ := List.mem_flatten.mp member
      rw [List.eq_of_mem_replicate listed] at inside
      cases growsLeft <;>
        simp only [growMoves, Bool.false_eq_true, if_false, if_true, List.mem_cons,
          List.not_mem_nil, or_false] at inside
      · rcases inside with rfl | rfl | rfl <;> trivial
      · rcases inside with rfl | rfl <;> trivial
  | evaluate strategy path =>
      refine List.forall_mem_cons.mpr ⟨trivial, fun move member => ?_⟩
      obtain ⟨node, _, rfl⟩ := Option.map_eq_some_iff.mp (Option.mem_toList.mp member)
      trivial
  | drop =>
      intro move member
      obtain ⟨tree, _, rfl⟩ := Option.map_eq_some_iff.mp (Option.mem_toList.mp member)
      trivial

/-- The top tree is answered about, and it is not refused. -/
theorem replyPlain {session : Session} {command : Command} (plain : ¬command.Builds)
    {report : Reported (Reply × Session)} (done : session.step command = .ok report) :
    report.outcome.1.refusal? = none := by
  cases command with
  | pushLiteral | call | wrap | callSample => exact absurd trivial plain
  | pushNumber | pushAbsent | pushVariable | bind | link | assign | get | shares
  | storeTemplate =>
      cases done
      rfl
  | negate times =>
      obtain ⟨_, _, pushed⟩ := exceptBindOk done
      cases pushed
      rfl
  | spine op value growsLeft times =>
      obtain ⟨_, _, pushed⟩ := exceptBindOk done
      cases pushed
      rfl
  | combine op =>
      obtain ⟨_, _, remaining⟩ := exceptBindOk done
      obtain ⟨_, _, pushed⟩ := exceptBindOk remaining
      cases pushed
      rfl
  | useTemplate name =>
      simp only [step] at done
      split at done
      case h_1 => cases done
      case h_2 =>
        obtain ⟨_, _, remaining⟩ := exceptBindOk done
        obtain ⟨_, _, pushed⟩ := exceptBindOk remaining
        cases pushed
        rfl
  | evaluate strategy path =>
      obtain ⟨target, _, replied⟩ := exceptBindOk done
      cases target <;> cases replied <;> rfl
  | inspect path =>
      obtain ⟨target, _, replied⟩ := exceptBindOk done
      cases target <;> cases replied <;> rfl
  | describe path =>
      obtain ⟨target, _, replied⟩ := exceptBindOk done
      cases target <;> cases replied <;> rfl
  | applyOperation left right path =>
      obtain ⟨target, _, replied⟩ := exceptBindOk done
      cases target with
      | none => cases replied
      | some node =>
          cases node <;> cases replied
          rfl
  | drop =>
      obtain ⟨_, _, answered⟩ := exceptBindOk done
      cases answered
      rfl

theorem pushOutcomeRefusal (session : Session) (outcome : Except AssemblyError (Node Nat))
    (reply : Nat → Reply) (plain : ∀ height, (reply height).refusal? = none) :
    (session.pushOutcome outcome reply).1.refusal? = AssemblyError.of? outcome := by
  cases outcome with
  | error error => rfl
  | ok node => exact plain _

theorem literalRefusal {session : Session} {text : String} {report : Reported (Reply × Session)}
    (done : session.step (.pushLiteral text) = .ok report) :
    report.outcome.1.refusal? = lastRefusal (session.moves (.pushLiteral text)) none := by
  rw [step] at done
  rw [← Except.ok.inj done, Reported.map, pushOutcomeRefusal _ _ _ fun _ => rfl,
    AssemblyError.ofMap]
  rfl

theorem builderRefusal {session : Session} {builder : Builder Nat} {count : Nat}
    {report : Reported (Reply × Session)}
    (done : session.applyBuilder builder count = .ok report) :
    report.outcome.1.refusal? =
      AssemblyError.of? (builder.setParameters (session.parameters count)).outcome := by
  obtain ⟨rest, _, _, _, rfl⟩ := applyBuilderOk done
  exact rest.pushOutcomeRefusal _ _ fun _ => rfl

/-- The last application of a wrapping decides, and without any there is the reply before it. -/
theorem wrapRefusal (builder : Builder Nat) (reply : Reply) (session : Session)
    (tree : Option (Node Nat)) (below : List (Option (Node Nat)))
    (top : session.stack.items = tree :: below) (before : Array Diagnostic) (times : Nat)
    (report : Reported (Reply × Session))
    (done : wrapFrom builder reply session before times = .ok report) :
    report.outcome.1.refusal? = lastRefusal (wrapMoves builder tree times) reply.refusal? := by
  induction times generalizing reply session tree below before with
  | zero =>
      cases done
      rfl
  | succ times ih =>
      obtain ⟨first, applied, remaining⟩ := exceptBindOk done
      obtain ⟨rest, next⟩ := applyTop top applied
      rw [ih _ _ _ _ next _ remaining, builderRefusal applied, parametersTop top]
      exact List.getLastD_cons.symm

theorem sampleRefusal {session : Session} {body : SampleBody String} {name : String} {count : Nat}
    {report : Reported (Reply × Session)}
    (done : session.step (.callSample body name count) = .ok report) :
    report.outcome.1.refusal? =
      lastRefusal (session.moves (.callSample body name count)) none := by
  have applied : report.outcome.1.refusal? =
      AssemblyError.of? ((session.sampleBuilder body name).1.setParameters
        ((session.sampleBuilder body name).2.parameters count)).outcome := builderRefusal done
  rw [parameters, stackSample] at applied
  have last := lastAssemble (session.touchBody body ++
    [.prepare (session.sampleBuilder body name).2.world.cells
      (session.sampleBuilder body name).2.world.trace])
    (session.sampleBuilder body name).1 (session.parameters count)
  rw [List.append_assoc] at last
  exact applied.trans last.symm

/-- A command is refused exactly when its last call is, and with the same error. -/
theorem stepRefusal {session : Session} {command : Command} {report : Reported (Reply × Session)}
    (done : session.step command = .ok report) :
    report.outcome.1.refusal? = lastRefusal (session.moves command) none := by
  by_cases builds : command.Builds
  · cases command with
    | pushLiteral text => exact literalRefusal done
    | call name count =>
        rcases callOk done with ⟨unknown, rfl⟩ | ⟨builder, found, applied⟩
        · rw [moves, unknown]
          rfl
        · rw [moves, found]
          exact builderRefusal applied
    | wrap name times =>
        rcases callOk done with ⟨unknown, rfl⟩ | ⟨builder, found, wrapped⟩
        · rw [moves, unknown]
          rfl
        · cases items : session.stack.items with
          | nil =>
              rw [wrapEmpty items wrapped]
              simp only [moves, found, items]
              rfl
          | cons tree below =>
              simp only [moves, found, items]
              exact wrapRefusal builder _ session tree below items #[] times report wrapped
    | callSample body name count => exact sampleRefusal done
    | _ => exact builds.elim
  · rw [replyPlain builds done, lastPlain (session.movesPlain builds)]

end Session

/--
The log of calls holds the records of each call in turn, and these follow from its outcome.
Refused calls are as many as debug events, assignments of parameters as spans, and evaluations
by the worklist as completions. Every command of a session emits the log of its calls, which lead
to the same world, and it is refused exactly when its last call is. So a run emits the log of its
history.
-/
theorem logFollowsCalls {Hidden : Type} (world : World Hidden) (calls : List (Call Hidden)) :
    let recording := Recording.of world calls
    Logged calls recording.outcomes recording.log ∧
    recording.log.countP Record.isDebug = recording.outcomes.countP (!·.isOk) ∧
    recording.log.countP Record.isSpan = calls.countP Call.isAssignment ∧
    recording.log.countP Record.isCompletion = calls.countP Call.isWorklist ∧
    (∀ (session : Session) command report, session.step command = .ok report →
      let commandCalls := (session.moves command).filterMap Session.Move.call?
      session.Emits (session.moves command) report.diagnostics report.outcome.2 ∧
      report.outcome.1.refusal? =
        ((Recording.of session.world commandCalls).outcomes.map AssemblyError.of?).getLastD none) ∧
    ∀ (session final : Session) commands replies,
      session.run commands = .ok (replies, final) →
      session.Emits (session.history commands) (replies.flatMap Reported.diagnostics) final := by
  have logged := Recording.logged world calls
  obtain ⟨refusals, spans, completions⟩ := logged.count
  refine ⟨logged, refusals, spans, completions, fun session command report done => ⟨?_, ?_⟩,
    fun session final commands replies done => ?_⟩
  · have free : false = true → command.Passive := nofun
    exact Session.pathEmits (session.stepPath command report free done)
  · rw [Recording.refusals]
    exact Session.stepRefusal done
  · obtain ⟨later, rfl, path⟩ := Session.runPath commands session final #[] replies done
    exact Session.pathEmits path

/-- A refused literal is logged, and so is the argument that is missing in its place. -/
theorem logFollowsCallsRefused :
    let builder : Builder Nat := ⟨"f", .unary .done⟩
    let calls := [.read "1x", .assign builder [], .evaluate .worklist (.number 2.0)]
    let recording := Recording.of World.empty calls
    let commands := [.pushLiteral "1x", .call "abs" 1]
    Logged calls recording.outcomes recording.log ∧
    recording.log.map Record.title =
      ["rejected numeric literal", "set_parameters",
        "rejected parameter list: wrong argument count", "worklist evaluation complete"] ∧
    recording.outcomes.countP (!·.isOk) = 2 ∧
    ∃ replies final, Session.empty.run commands = .ok (replies, final) ∧
      replies.flatMap Reported.diagnostics =
        [.rejectedLiteral "1x", .assigningParameters "abs" 1 1, .missingArgument 1] ∧
      Session.empty.Emits (Session.empty.history commands)
        (replies.flatMap Reported.diagnostics) final := by
  intro builder calls recording commands
  obtain ⟨logged, refusals, _, _, _, emits⟩ := logFollowsCalls World.empty calls
  have ran : Session.empty.run commands = .ok (_, _) := rfl
  refine ⟨logged, rfl, ?_, _, _, ran, rfl, emits _ _ _ _ ran⟩
  rw [← refusals]
  rfl

end ExprTree
