/-
This file shows that every run of a session is the history of its commands, change by change.
-/

import ExprTree.Proofs.Session.Move

namespace ExprTree

/-- A computation with an outcome has an outcome in both of its parts. -/
theorem exceptBindOk {Error First Second : Type} {first : Except Error First}
    {next : First → Except Error Second} {result : Second} (done : first >>= next = .ok result) :
    ∃ middle, first = .ok middle ∧ next middle = .ok result := by
  cases first with
  | error error => cases done
  | ok middle => exact ⟨middle, rfl, done⟩

namespace Session

/--
A change is what a move does to a session, together with the diagnostics that it emits.
Frozen changes leave the world as it is.
-/
inductive Change : Bool → Session → Move → List Diagnostic → Session → Prop where
  | bind (session : Session) (name : String) (value : Float) :
      Change false session (.bind name value) [] (session.bind name value)
  | link (session : Session) (name target : String) (slot : Slot)
      (named : session.names[target]? = some slot) :
      Change false session (.link name target) []
        { session with names := session.names.insert name slot }
  | assign (session : Session) (name : String) (value : Float) (slot : Slot)
      (named : session.names[name]? = some slot) :
      Change false session (.assign name slot value) []
        { session with world := session.world.write slot value }
  | prepare (session : Session) (cells : Memory Nat) (trace : Array Float) :
      Change false session (.prepare cells trace) []
        { session with world := ⟨session.world.slots, cells, trace⟩ }
  | store (frozen : Bool) (session : Session) (name : String)
      (operation : Float → Float → Float) :
      Change frozen session (.store name operation) []
        { session with templates := session.templates.insert name operation }
  | number (frozen : Bool) (session : Session) (value : Float) :
      Change frozen session (.number value) [] (session.push (some (.number value)))
  | literal (frozen : Bool) (session : Session) (text : String) :
      Change frozen session (.literal text) (readNumber text).diagnostics
        (session.push ((readNumber text).outcome.map Node.number).toOption)
  | absent (frozen : Bool) (session : Session) :
      Change frozen session .absent [] (session.push none)
  | var (session : Session) (name : String) (slot : Slot)
      (named : session.names[name]? = some slot) :
      Change false session (.var name) [] (session.push (some (.var slot)))
  | negation (frozen : Bool) (session : Session) (node : Node Nat) :
      Change frozen (session.push (some node)) .negation []
        (session.push (some (.negation node)))
  | operator (frozen : Bool) (session : Session) (operation : Float → Float → Float)
      (left right : Node Nat) :
      Change frozen ((session.push (some left)).push (some right)) (.operator operation) []
        (session.push (some (.operator operation left right)))
  | swap (frozen : Bool) (session : Session) (lower upper : Option (Node Nat)) :
      Change frozen ((session.push lower).push upper) .swap []
        ((session.push upper).push lower)
  | assemble (frozen : Bool) (session rest : Session) (builder : Builder Nat)
      (parameters : List (Option (Node Nat)))
      (stack : session.stack.items = parameters.reverse ++ rest.stack.items)
      (names : session.names = rest.names) (world : session.world = rest.world) :
      Change frozen session (.assemble builder parameters)
        (builder.setParameters parameters).diagnostics
        (rest.push (builder.setParameters parameters).outcome.toOption)
  | evaluate (session : Session) (strategy : Strategy) (path : List Nat) (node : Node Nat)
      (found : session.top path = .ok (some node)) :
      Change false session (.evaluate strategy path node)
        (node.evaluateWith strategy session.world).diagnostics
        { session with world := (node.evaluateWith strategy session.world).outcome.2 }
  | drop (frozen : Bool) (session : Session) (tree : Option (Node Nat)) :
      Change frozen (session.push tree) (.drop tree) [] session

/-- A path is a sequence of changes. -/
inductive Path (frozen : Bool) : Session → List Move → List Diagnostic → Session → Prop where
  | stay (session : Session) : Path frozen session [] [] session
  | change {first middle last : Session} {move : Move} {moves : List Move}
      {emitted later : List Diagnostic} (here : Change frozen first move emitted middle)
      (rest : Path frozen middle moves later last) :
      Path frozen first (move :: moves) (emitted ++ later) last

variable {frozen : Bool}

theorem Path.trans {first middle last : Session} {moves next : List Move}
    {before after : List Diagnostic} (here : Path frozen first moves before middle)
    (there : Path frozen middle next after last) :
    Path frozen first (moves ++ next) (before ++ after) last := by
  induction here with
  | stay => exact there
  | change change _ ih =>
      rw [List.append_assoc]
      exact .change change (ih there)

theorem Change.path {session next : Session} {move : Move} {emitted : List Diagnostic}
    (change : Change frozen session move emitted next) :
    Path frozen session [move] emitted next := by
  have path := Path.change change (.stay next)
  rwa [List.append_nil] at path

/-- What every change respects is respected by every path. -/
theorem Path.related (related : Session → List Move → List Diagnostic → Session → Prop)
    (refl : ∀ session, related session [] [] session)
    (trans : ∀ {first middle last moves next before after}, related first moves before middle →
      related middle next after last → related first (moves ++ next) (before ++ after) last)
    (each : ∀ {session move emitted next}, Change frozen session move emitted next →
      related session [move] emitted next)
    {session next : Session} {moves : List Move} {emitted : List Diagnostic}
    (path : Path frozen session moves emitted next) : related session moves emitted next := by
  induction path with
  | stay session => exact refl session
  | change change _ ih => exact trans (each change) ih

theorem pathSlot (session : Session) (name : String) :
    Path false session (session.touch name) [] (session.slot name).2 := by
  cases named : session.names[name]? with
  | some bound =>
      simp only [touch, slot, named]
      exact .stay session
  | none =>
      simp only [touch, slot, named]
      exact (Change.bind session name 0.0).path

/-- Afterwards the name belongs to the slot that was found or made for it. -/
theorem slotNamed (session : Session) (name : String) :
    (session.slot name).2.names[name]? = some (session.slot name).1 := by
  unfold slot
  split
  case h_1 slot found => exact found
  case h_2 => exact Std.TreeMap.getElem?_insert_self

/-- The popped tree was pushed last. -/
theorem popOk {session rest : Session} {tree : Option (Node Nat)}
    (popped : session.pop = .ok (tree, rest)) : session = rest.push tree := by
  unfold pop at popped
  split at popped
  case h_1 => cases popped
  case h_2 top stack found =>
    cases popped
    have same : session.stack = stack.push tree :=
      Stack.ext (session.stack.popSome stack tree found)
    rw [push, ← same]

theorem popTreeOk {session rest : Session} {node : Node Nat}
    (popped : session.popTree = .ok (node, rest)) : session = rest.push (some node) := by
  obtain ⟨⟨tree, below⟩, found, remaining⟩ := exceptBindOk popped
  cases tree with
  | none => cases remaining
  | some tree =>
      cases remaining
      exact popOk found

theorem pathRepeat (change : Node Nat → Node Nat) (moves : List Move) (session : Session)
    (each : ∀ node,
      Path frozen (session.push (some node)) moves [] (session.push (some (change node))))
    (times : Nat) (node : Node Nat) :
    Path frozen (session.push (some node)) (List.replicate times moves).flatten []
      (session.push (some (Nat.repeat change times node))) := by
  induction times with
  | zero => exact .stay _
  | succ times ih =>
      rw [List.replicate_succ', List.flatten_append, List.flatten_singleton]
      exact ih.trans (each _)

theorem pathGrow (operation : Float → Float → Float) (value : Float) (growsLeft : Bool)
    (session : Session) (node : Node Nat) :
    Path frozen (session.push (some node)) (growMoves operation value growsLeft) []
      (session.push (some (grow operation value growsLeft node))) := by
  have above := (Change.number frozen (session.push (some node)) value).path
  cases growsLeft with
  | true => exact above.trans (Change.operator frozen session operation node (.number value)).path
  | false =>
      exact above.trans ((Change.swap frozen session _ _).path.trans
        (Change.operator frozen session operation (.number value) node).path)

/-- A command that changes the top tree puts the new tree in its place. -/
theorem pathReplace {session : Session} (change : Node Nat → Node Nat) (moves : List Move)
    {report : Reported (Reply × Session)}
    (each : ∀ (rest : Session) node,
      Path frozen (rest.push (some node)) moves [] (rest.push (some (change node))))
    (done : (session.popTree >>= fun found => found.2.pushed (change found.1)) = .ok report) :
    Path frozen session moves report.diagnostics report.outcome.2 := by
  obtain ⟨⟨node, rest⟩, popped, pushed⟩ := exceptBindOk done
  cases pushed
  rw [popTreeOk popped]
  exact each rest node

theorem pathCombine {session : Session} {operation : Float → Float → Float}
    {report : Reported (Reply × Session)}
    (done : session.combineWith operation = .ok report) :
    Path frozen session [.operator operation] report.diagnostics report.outcome.2 := by
  obtain ⟨⟨right, upper⟩, popped, remaining⟩ := exceptBindOk done
  obtain ⟨⟨left, rest⟩, poppedLeft, pushed⟩ := exceptBindOk remaining
  cases pushed
  rw [popTreeOk popped, popTreeOk poppedLeft]
  exact (Change.operator frozen rest operation left right).path

/-- The popped trees stood on the rest of the stack, the last one on top. -/
theorem popManyOk (count : Nat) (popped parameters : List (Option (Node Nat)))
    (session rest : Session) (done : popMany.go count popped session = .ok (parameters, rest)) :
    ∃ fresh, parameters = fresh ++ popped ∧ fresh.length = count ∧
      session.stack.items = fresh.reverse ++ rest.stack.items ∧
      session.names = rest.names ∧ session.world = rest.world := by
  induction count generalizing popped session with
  | zero =>
      cases done
      exact ⟨[], rfl, rfl, rfl, rfl, rfl⟩
  | succ count ih =>
      obtain ⟨⟨tree, below⟩, found, remaining⟩ := exceptBindOk done
      obtain ⟨fresh, rfl, length, stack, names, world⟩ := ih (tree :: popped) below remaining
      rw [popOk found]
      refine ⟨fresh ++ [tree], (List.append_cons fresh tree popped), ?_, ?_, names, world⟩
      · rw [List.length_append, length, List.length_singleton]
      · rw [push, Stack.itemsPush, stack, List.reverse_append]
        rfl

theorem pushOutcomeSession (session : Session) (outcome : Except AssemblyError (Node Nat))
    (reply : Nat → Reply) :
    (session.pushOutcome outcome reply).2 = session.push outcome.toOption := by
  cases outcome <;> rfl

theorem pathLiteral {session : Session} {text : String} {report : Reported (Reply × Session)}
    (done : session.step (.pushLiteral text) = .ok report) :
    Path frozen session [.literal text] report.diagnostics report.outcome.2 := by
  have path := (Change.literal frozen session text).path
  rw [step] at done
  rw [← Except.ok.inj done, Reported.map, pushOutcomeSession]
  exact path

/-- An application pops its parameters, and its report is that of the assignment. -/
theorem applyBuilderOk {session : Session} {builder : Builder Nat} {count : Nat}
    {report : Reported (Reply × Session)}
    (done : session.applyBuilder builder count = .ok report) :
    ∃ rest : Session,
      session.stack.items = (session.parameters count).reverse ++ rest.stack.items ∧
      session.names = rest.names ∧ session.world = rest.world ∧
      report = (builder.setParameters (session.parameters count)).map fun outcome =>
        rest.pushOutcome outcome fun height => .built builder.name builder.arity height := by
  obtain ⟨⟨parameters, rest⟩, popped, applied⟩ := exceptBindOk done
  obtain ⟨fresh, rfl, length, stack, names, world⟩ :=
    popManyOk count [] parameters session rest popped
  have same : session.parameters count = fresh := by
    rw [Session.parameters, stack, List.take_left' (fresh.length_reverse.trans length),
      List.reverse_reverse]
  rw [List.append_nil] at applied
  rw [same]
  exact ⟨rest, stack, names, world, (Except.ok.inj applied).symm⟩

/-- An application pops its parameters and pushes the assembled tree, or an absent one. -/
theorem pathBuilder {session : Session} {builder : Builder Nat} {count : Nat}
    {report : Reported (Reply × Session)}
    (done : session.applyBuilder builder count = .ok report) :
    Path frozen session [.assemble builder (session.parameters count)] report.diagnostics
      report.outcome.2 := by
  obtain ⟨rest, stack, names, world, rfl⟩ := applyBuilderOk done
  rw [Reported.map, pushOutcomeSession]
  exact (Change.assemble frozen session rest builder _ stack names world).path

theorem parametersTop {session : Session} {tree : Option (Node Nat)}
    {below : List (Option (Node Nat))} (top : session.stack.items = tree :: below) :
    session.parameters 1 = [tree] := by
  rw [Session.parameters, top]
  rfl

/-- An application to the top tree alone leaves its outcome on top. -/
theorem applyTop {session : Session} {tree : Option (Node Nat)}
    {below : List (Option (Node Nat))} (top : session.stack.items = tree :: below)
    {builder : Builder Nat} {report : Reported (Reply × Session)}
    (applied : session.applyBuilder builder 1 = .ok report) :
    ∃ rest, report.outcome.2.stack.items =
      (builder.setParameters [tree]).outcome.toOption :: rest := by
  obtain ⟨rest, _, _, _, rfl⟩ := applyBuilderOk applied
  refine ⟨rest.stack.items, ?_⟩
  rw [Reported.map, pushOutcomeSession, push, Stack.itemsPush, parametersTop top]

/-- The diagnostics of a wrapping follow those from before it. -/
theorem pathWrap (builder : Builder Nat) (reply : Reply) (session : Session)
    (tree : Option (Node Nat)) (below : List (Option (Node Nat)))
    (top : session.stack.items = tree :: below)
    (before : Array Diagnostic) (times : Nat) (report : Reported (Reply × Session))
    (done : wrapFrom builder reply session before times = .ok report) :
    ∃ emitted, report.diagnostics = before.toList ++ emitted ∧
      Path frozen session (wrapMoves builder tree times) emitted report.outcome.2 := by
  induction times generalizing reply session tree below before with
  | zero =>
      cases done
      exact ⟨[], (List.append_nil _).symm, .stay session⟩
  | succ times ih =>
      obtain ⟨first, applied, remaining⟩ := exceptBindOk done
      have path : Path frozen session _ first.diagnostics first.outcome.2 := pathBuilder applied
      rw [parametersTop top] at path
      obtain ⟨rest, next⟩ := applyTop top applied
      obtain ⟨emitted, all, later⟩ := ih _ _ _ _ next _ remaining
      refine ⟨first.diagnostics ++ emitted, ?_, path.trans later⟩
      rw [all, Array.toList_append, List.append_assoc]

/-- Nothing can be wrapped on an empty stack. -/
theorem wrapEmpty {builder : Builder Nat} {reply : Reply} {session : Session}
    {before : Array Diagnostic} {times : Nat} {report : Reported (Reply × Session)}
    (empty : session.stack.items = [])
    (done : wrapFrom builder reply session before times = .ok report) :
    report = ⟨(reply, session), before.toList⟩ := by
  cases times with
  | zero => exact (Except.ok.inj done).symm
  | succ times =>
      obtain ⟨first, applied, _⟩ := exceptBindOk done
      obtain ⟨⟨parameters, rest⟩, popped, _⟩ := exceptBindOk applied
      obtain ⟨⟨tree, below⟩, found, _⟩ := exceptBindOk popped
      rw [popOk found, push, Stack.itemsPush] at empty
      cases empty

/-- A name without a function changes nothing, and any other name gives a builder. -/
theorem callOk {session : Session} {name : String} {apply : Builder Nat → Answer}
    {report : Reported (Reply × Session)} (done : session.call name apply = .ok report) :
    (Standard.builder? name = (none : Option (Builder Nat)) ∧
      report = .silent (.unknownFunction session.stack.height, session)) ∨
    ∃ builder, Standard.builder? name = some builder ∧ apply builder = .ok report := by
  unfold call at done
  split at done
  case h_1 unknown => exact .inl ⟨unknown, (Except.ok.inj done).symm⟩
  case h_2 builder found => exact .inr ⟨builder, found, done⟩

theorem pathCall {session : Session} {name : String} {count : Nat}
    {report : Reported (Reply × Session)} (done : session.step (.call name count) = .ok report) :
    Path frozen session (session.moves (.call name count)) report.diagnostics
      report.outcome.2 := by
  rcases callOk done with ⟨unknown, rfl⟩ | ⟨builder, found, applied⟩
  · rw [moves, unknown]
    exact .stay session
  · rw [moves, found]
    exact pathBuilder applied

theorem pathWrapping {session : Session} {name : String} {times : Nat}
    {report : Reported (Reply × Session)} (done : session.step (.wrap name times) = .ok report) :
    Path frozen session (session.moves (.wrap name times)) report.diagnostics
      report.outcome.2 := by
  rcases callOk done with ⟨unknown, rfl⟩ | ⟨builder, found, wrapped⟩
  · rw [moves, unknown]
    exact .stay session
  · cases items : session.stack.items with
    | nil =>
        rw [wrapEmpty items wrapped]
        simp only [moves, found, items]
        exact .stay session
    | cons tree below =>
        obtain ⟨emitted, all, path⟩ := pathWrap builder _ session tree below items #[] times
          report wrapped
        simp only [moves, found, items]
        rw [all]
        exact path

/-- The variable of a body is touched, and the prepared session has the new cell. -/
theorem pathSample (session : Session) (body : SampleBody String) (name : String) :
    let prepared := (session.sampleBuilder body name).2
    Path false session
      (session.touchBody body ++ [.prepare prepared.world.cells prepared.world.trace]) []
      prepared := by
  have resolved : Path false session (session.touchBody body) [] (session.resolve body).2 := by
    cases body with
    | setVariable name => exact session.pathSlot name
    | addVariable name => exact session.pathSlot name
    | identity | double | record | counter | difference | recordBoth | pickOrAverage
    | recordChoice => exact .stay session
  exact resolved.trans (Change.prepare _ _ _).path

theorem stackSlot (session : Session) (name : String) :
    (session.slot name).2.stack = session.stack := by
  unfold slot
  split <;> rfl

theorem stackSample (session : Session) (body : SampleBody String) (name : String) :
    (session.sampleBuilder body name).2.stack = session.stack := by
  cases body with
  | setVariable name => exact session.stackSlot name
  | addVariable name => exact session.stackSlot name
  | identity | double | record | counter | difference | recordBoth | pickOrAverage
  | recordChoice => rfl

theorem pathCallSample {session : Session} {body : SampleBody String} {name : String}
    {count : Nat} {report : Reported (Reply × Session)}
    (done : session.step (.callSample body name count) = .ok report) :
    Path false session (session.moves (.callSample body name count)) report.diagnostics
      report.outcome.2 := by
  have applied : Path false (session.sampleBuilder body name).2
      [.assemble (session.sampleBuilder body name).1
        ((session.sampleBuilder body name).2.parameters count)]
      report.diagnostics report.outcome.2 := pathBuilder done
  rw [parameters, stackSample] at applied
  have path := (session.pathSample body name).trans applied
  rw [List.append_assoc] at path
  exact path

theorem pathEvaluate {session : Session} {strategy : Strategy} {path : List Nat}
    {report : Reported (Reply × Session)}
    (done : session.evaluateTop strategy path = .ok report) :
    Path false session (session.moves (.evaluate strategy path)) report.diagnostics
      report.outcome.2 := by
  let cleared : Session := { session with world := { session.world with trace := #[] } }
  have clears : Path false session [.prepare session.world.cells #[]] [] cleared :=
    (Change.prepare session session.world.cells #[]).path
  obtain ⟨target, found, remaining⟩ := exceptBindOk done
  rw [moves, target?, found]
  cases target with
  | none =>
      cases remaining
      exact clears
  | some node =>
      cases remaining
      exact clears.trans (Change.evaluate cleared strategy path node found).path

/-- A question about the top tree leaves the session as it is. -/
theorem pathAsk {session : Session} {command : Command} {path : List Nat}
    (asks : command = .inspect path ∨ command = .describe path ∨
      ∃ left right, command = .applyOperation left right path)
    {report : Reported (Reply × Session)} (done : session.step command = .ok report) :
    Path frozen session (session.moves command) report.diagnostics report.outcome.2 := by
  rcases asks with rfl | rfl | ⟨left, right, rfl⟩ <;>
    obtain ⟨target, _, replied⟩ := exceptBindOk done
  · cases target <;> cases replied <;> exact .stay session
  · cases target <;> cases replied <;> exact .stay session
  · cases target with
    | none => cases replied
    | some node =>
        cases node <;> cases replied
        exact .stay session

/-- These commands build trees, ask about them or drop them. -/
def Command.Passive : Command → Prop
  | .pushVariable _ | .bind _ _ | .link _ _ | .assign _ _ | .get _ | .shares _ _
  | .callSample _ _ _ | .evaluate _ _ => False
  | _ => True

/-- Every command that succeeds takes the path of its moves, and a passive one a frozen path. -/
theorem stepPath (session : Session) (command : Command) (report : Reported (Reply × Session))
    (passive : frozen = true → command.Passive) (done : session.step command = .ok report) :
    Path frozen session (session.moves command) report.diagnostics report.outcome.2 := by
  cases command with
  | pushVariable name =>
      obtain rfl := Bool.eq_false_iff.mpr passive
      cases done
      exact (session.pathSlot name).trans (Change.var _ name _ (session.slotNamed name)).path
  | bind name value =>
      obtain rfl := Bool.eq_false_iff.mpr passive
      cases done
      exact (Change.bind session name value).path
  | link name target =>
      obtain rfl := Bool.eq_false_iff.mpr passive
      cases done
      exact (session.pathSlot target).trans
        (Change.link _ name target _ (session.slotNamed target)).path
  | assign name value =>
      obtain rfl := Bool.eq_false_iff.mpr passive
      cases done
      exact (session.pathSlot name).trans
        (Change.assign _ name value _ (session.slotNamed name)).path
  | get name =>
      obtain rfl := Bool.eq_false_iff.mpr passive
      cases done
      exact session.pathSlot name
  | shares first second =>
      obtain rfl := Bool.eq_false_iff.mpr passive
      cases done
      exact (session.pathSlot first).trans (pathSlot _ second)
  | callSample body name count =>
      obtain rfl := Bool.eq_false_iff.mpr passive
      exact pathCallSample done
  | evaluate strategy path =>
      obtain rfl := Bool.eq_false_iff.mpr passive
      exact pathEvaluate done
  | pushNumber value =>
      cases done
      exact (Change.number frozen session value).path
  | pushLiteral text => exact pathLiteral done
  | pushAbsent =>
      cases done
      exact (Change.absent frozen session).path
  | negate times =>
      have path := pathReplace (Nat.repeat Node.negation times) _ (fun rest =>
        pathRepeat Node.negation [.negation] rest
          (fun node => (Change.negation frozen rest node).path) times) done
      rwa [List.flatten_replicate_singleton] at path
  | combine op => exact pathCombine done
  | storeTemplate name source =>
      cases done
      exact (Change.store frozen session name _).path
  | useTemplate name =>
      simp only [step] at done
      split at done
      case h_1 => cases done
      case h_2 operation found =>
        rw [moves, found]
        exact pathCombine done
  | spine op value growsLeft times =>
      exact pathReplace (Nat.repeat (grow op.apply value growsLeft) times) _
        (fun rest => pathRepeat _ _ rest (pathGrow op.apply value growsLeft rest) times) done
  | call name count => exact pathCall done
  | wrap name times => exact pathWrapping done
  | inspect path => exact pathAsk (.inl rfl) done
  | describe path => exact pathAsk (.inr (.inl rfl)) done
  | applyOperation left right path => exact pathAsk (.inr (.inr ⟨left, right, rfl⟩)) done
  | drop =>
      obtain ⟨⟨tree, rest⟩, popped, answered⟩ := exceptBindOk done
      cases answered
      rw [popOk popped, moves, push, Stack.itemsPush]
      exact (Change.drop frozen rest tree).path

/-- A frozen change leaves the world as it is, whether it builds a tree or is refused one. -/
theorem changeFrozen {session next : Session} {move : Move} {emitted : List Diagnostic}
    (change : Change true session move emitted next) : next.world = session.world := by
  cases change with
  | assemble _ _ rest builder parameters stack names world => exact world.symm
  | _ => rfl

/-- A frozen path builds trees, asks about them or drops them. -/
theorem pathFrozen {session next : Session} {moves : List Move} {emitted : List Diagnostic}
    (path : Path true session moves emitted next) : next.world = session.world :=
  path.related (fun session _ _ next => next.world = session.world) (fun _ => rfl)
    (fun here there => there.trans here) changeFrozen

theorem historyCons {session : Session} {command : Command} {report : Reported (Reply × Session)}
    (stepped : session.step command = .ok report) (rest : List Command) :
    session.history (command :: rest) = session.moves command ++ report.outcome.2.history rest := by
  rw [history, stepped]

/-- A run takes the paths of its commands one after the other. -/
theorem runPath (commands : List Command) (session final : Session)
    (before : Array (Reported Reply)) (replies : List (Reported Reply))
    (done : run.go session before commands = .ok (replies, final)) :
    ∃ later, replies = before.toList ++ later ∧
      Path false session (session.history commands) (later.flatMap Reported.diagnostics) final := by
  induction commands generalizing session before with
  | nil =>
      cases done
      exact ⟨[], (List.append_nil _).symm, .stay _⟩
  | cons command rest ih =>
      obtain ⟨report, stepped, remaining⟩ := exceptBindOk done
      obtain ⟨later, all, path⟩ := ih _ _ remaining
      have free : false = true → command.Passive := nofun
      refine ⟨report.map Prod.fst :: later, ?_, ?_⟩
      · rw [all, Array.toList_push, List.append_assoc]
        rfl
      · rw [historyCons stepped]
        exact (session.stepPath command report free stepped).trans path

/-- Every command of a run is carried out in the state that the commands before it lead to. -/
theorem runSplit (earlier : List Command) (command : Command) (later : List Command)
    (session final : Session) (before : Array (Reported Reply)) (replies : List (Reported Reply))
    (done : run.go session before (earlier ++ command :: later) = .ok (replies, final)) :
    ∃ reached middle report, run.go session before earlier = .ok (reached, middle) ∧
      middle.step command = .ok report ∧
      replies[before.size + earlier.length]? = some (report.map Prod.fst) ∧
      session.history (earlier ++ [command]) = session.history earlier ++ middle.moves command := by
  induction earlier generalizing session before with
  | nil =>
      obtain ⟨report, stepped, remaining⟩ := exceptBindOk done
      obtain ⟨rest, all, _⟩ := runPath later _ final _ replies remaining
      refine ⟨_, session, report, rfl, stepped, ?_, ?_⟩
      · rw [all, Array.toList_push, List.append_assoc, ← Array.length_toList,
          List.getElem?_append_right (Nat.le_add_right _ _), Nat.add_sub_cancel_left]
        rfl
      · rw [List.nil_append, historyCons stepped, history, history, List.append_nil]
        rfl
  | cons first earlier ih =>
      obtain ⟨report, stepped, remaining⟩ := exceptBindOk done
      obtain ⟨reached, middle, answer, ran, answered, listed, moves⟩ := ih _ _ remaining
      refine ⟨reached, middle, answer, ?_, answered, ?_, ?_⟩
      · rw [run.go, stepped]
        exact ran
      · rw [← listed, Array.size_push, List.length_cons, Nat.add_right_comm, Nat.add_assoc]
      · rw [List.cons_append, historyCons stepped, historyCons stepped, moves, List.append_assoc]

end Session

end ExprTree
