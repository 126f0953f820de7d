/-
This file shows which parameters a builder accepts and what its function does with them.
-/

import ExprTree.Proofs.Evaluation.Agreement
import ExprTree.Proofs.Session.Path
import ExprTree.Proofs.Slots.Planted

namespace ExprTree

/-- A body takes one operand for each argument, and it reads a condition as a Boolean. -/
def Callable.applied? {Hidden : Type} :
    Callable Hidden → List Float → Option (Effect Hidden Float)
  | .unary body, [argument] => some (body argument)
  | .binary body, [first, second] => some (body first second)
  | .ternary body, [condition, first, second] =>
      some (body (Binary64.isTrue condition) first second)
  | _, _ => none

/-- A function evaluates its arguments from left to right and applies its body to the results. -/
theorem Node.evaluateFunction {Hidden : Type} (node : Node Hidden) (name : String)
    (callable : Callable Hidden) (function : node.function? = some (name, callable))
    (world : World Hidden) :
    node.children.length = callable.arity ∧
      ∃ effect, callable.applied? (evaluateAll node.children world).1 = some effect ∧
        node.evaluate world = effect.run (evaluateAll node.children world).2 := by
  cases node <;> cases function <;> exact ⟨rfl, _, rfl, rfl⟩

namespace Builder

section Presence
variable {Parameter : Type}

theorem presentAll (position : Nat) (arguments : List Parameter) :
    presentFrom position (arguments.map some) = .ok arguments := by
  induction arguments generalizing position with
  | nil => rfl
  | cons argument rest ih => rw [List.map_cons, presentFrom, ih, Except.map]

/-- The first absent parameter has the position after those that are present before it. -/
theorem presentGap (position : Nat) (present : List Parameter) (rest : List (Option Parameter)) :
    presentFrom position (present.map some ++ none :: rest) = .error (position + present.length) := by
  induction present generalizing position with
  | nil => rfl
  | cons parameter present ih =>
      rw [List.map_cons, List.cons_append, presentFrom, ih, Except.map, List.length_cons,
        Nat.add_right_comm, Nat.add_assoc]

/-- Either all parameters are present, or one of them is the first that is absent. -/
theorem presentOrGap (parameters : List (Option Parameter)) :
    (∃ arguments : List Parameter, parameters = arguments.map some) ∨
      ∃ (present : List Parameter) (rest : List (Option Parameter)),
        parameters = present.map some ++ none :: rest := by
  induction parameters with
  | nil => exact .inl ⟨[], rfl⟩
  | cons parameter parameters ih =>
      cases parameter with
      | none => exact .inr ⟨[], parameters, rfl⟩
      | some parameter =>
          rcases ih with ⟨arguments, rfl⟩ | ⟨present, rest, rfl⟩
          · exact .inl ⟨parameter :: arguments, rfl⟩
          · exact .inr ⟨parameter :: present, rest, rfl⟩

/-- The check of presence sees nothing else of a parameter. -/
theorem presentAlike {Other : Type} (position : Nat) (parameters : List (Option Parameter))
    (others : List (Option Other))
    (alike : others.map Option.isSome = parameters.map Option.isSome) :
    (presentFrom position others).map (fun _ => ()) =
      (presentFrom position parameters).map (fun _ => ()) := by
  have ignored {First Second : Type} (change : First → Second) (result : Except Nat First) :
      (result.map change).map (fun _ => ()) = result.map fun _ => () := by cases result <;> rfl
  induction parameters generalizing position others with
  | nil =>
      rw [List.map_eq_nil_iff.mp alike]
      rfl
  | cons parameter parameters ih =>
      obtain ⟨other, others, rfl, same, rest⟩ := List.map_eq_cons_iff.mp alike
      cases parameter with
      | none =>
          rw [Option.isSome_eq_false_iff.mp same |> Option.isNone_iff_eq_none.mp]
          rfl
      | some parameter =>
          obtain ⟨other, rfl⟩ := Option.isSome_iff_exists.mp same
          rw [presentFrom, presentFrom, ignored, ignored, ih (position + 1) others rest]

end Presence

section Report
variable {Hidden : Type} (builder : Builder Hidden)

theorem reportCount (parameters : List (Option (Node Hidden)))
    (unfit : parameters.length ≠ builder.arity) :
    builder.setParameters parameters =
      ⟨.error (.wrongCount builder.name builder.arity parameters.length),
        [.assigningParameters builder.name builder.arity parameters.length, .wrongCount]⟩ := by
  rw [setParameters, dif_neg unfit]

theorem reportGap (parameters : List (Option (Node Hidden)))
    (fits : parameters.length = builder.arity) (position : Nat)
    (absent : presentFrom 1 parameters = .error position) :
    builder.setParameters parameters =
      ⟨.error (.missingArgument builder.name position),
        [.assigningParameters builder.name builder.arity parameters.length,
          .missingArgument position]⟩ := by
  rw [setParameters, dif_pos fits]
  split
  case h_1 arguments present =>
    rw [absent] at present
    cases present
  case h_2 other found =>
    rw [absent] at found
    cases found
    rfl

/-- The conversion to a function does not fail after the checks. -/
theorem reportAssembled (parameters : List (Option (Node Hidden)))
    (fits : parameters.length = builder.arity) (arguments : List (Node Hidden))
    (present : presentFrom 1 parameters = .ok arguments) :
    ∃ node, builder.assemble? arguments = some node ∧
      builder.setParameters parameters =
        ⟨.ok node, [.assigningParameters builder.name builder.arity parameters.length]⟩ := by
  rw [setParameters, dif_pos fits]
  split
  case h_1 other found =>
    rw [present] at found
    cases found
    exact ⟨_, (Option.some_get _).symm, rfl⟩
  case h_2 position absent =>
    rw [present] at absent
    cases absent

/-- The assembled function is the only one with this name, this body and these arguments. -/
theorem assembleFunction (arguments : List (Node Hidden)) (node : Node Hidden) :
    builder.assemble? arguments = some node ↔
      node.children = arguments ∧ node.function? = some (builder.name, builder.callable) := by
  obtain ⟨name, callable⟩ := builder
  constructor
  · intro assembled
    refine ⟨(assembleChildren _ arguments node assembled).1, ?_⟩
    cases callable <;>
      rcases arguments with _ | ⟨first, _ | ⟨second, _ | ⟨third, _ | ⟨fourth, rest⟩⟩⟩⟩ <;>
      cases assembled <;> rfl
  · rintro ⟨rfl, function⟩
    cases node <;> cases function <;> rfl

theorem assembleCount (arguments : List (Node Hidden)) :
    (builder.assemble? arguments).isSome ↔ arguments.length = builder.arity := by
  refine ⟨fun assembled => ?_, builder.assembleSome arguments⟩
  obtain ⟨node, found⟩ := Option.isSome_iff_exists.mp assembled
  obtain ⟨rfl, function⟩ := (builder.assembleFunction arguments node).mp found
  exact (node.evaluateFunction _ _ function World.empty).1

/-- The parameters are miscounted, or one of them is the first absent one, or all are arguments. -/
theorem outcomeCases (parameters : List (Option (Node Hidden))) :
    (parameters.length ≠ builder.arity ∧ (builder.setParameters parameters).outcome =
        .error (.wrongCount builder.name builder.arity parameters.length)) ∨
      (parameters.length = builder.arity ∧
        ∃ (present : List (Node Hidden)) (rest : List (Option (Node Hidden))),
          parameters = present.map some ++ none :: rest ∧
          (builder.setParameters parameters).outcome =
            .error (.missingArgument builder.name (present.length + 1))) ∨
      (parameters.length = builder.arity ∧
        ∃ node : Node Hidden, parameters = node.children.map some ∧
          node.function? = some (builder.name, builder.callable) ∧
          (builder.setParameters parameters).outcome = .ok node) := by
  by_cases fits : parameters.length = builder.arity
  · rcases presentOrGap parameters with ⟨arguments, rfl⟩ | ⟨present, rest, rfl⟩
    · obtain ⟨node, assembled, accepted⟩ :=
        builder.reportAssembled _ fits arguments (presentAll 1 arguments)
      obtain ⟨rfl, function⟩ := (builder.assembleFunction arguments node).mp assembled
      exact .inr (.inr ⟨fits, node, rfl, function, congrArg Reported.outcome accepted⟩)
    · have refused := builder.reportGap _ fits _ (presentGap 1 present rest)
      rw [Nat.add_comm] at refused
      exact .inr (.inl ⟨fits, present, rest, rfl, congrArg Reported.outcome refused⟩)
  · exact .inl ⟨fits, congrArg Reported.outcome (builder.reportCount parameters fits)⟩

theorem outcomeCount (parameters : List (Option (Node Hidden))) (name : String)
    (expected supplied : Nat) :
    (builder.setParameters parameters).outcome = .error (.wrongCount name expected supplied) ↔
      parameters.length ≠ builder.arity ∧
        name = builder.name ∧ expected = builder.arity ∧ supplied = parameters.length := by
  rcases builder.outcomeCases parameters with ⟨unfit, refused⟩ | ⟨fits, _, _, _, refused⟩ |
    ⟨fits, _, _, _, accepted⟩
  · rw [refused]
    constructor
    · rintro ⟨⟩
      exact ⟨unfit, rfl, rfl, rfl⟩
    · rintro ⟨_, rfl, rfl, rfl⟩
      rfl
  · exact iff_of_false (by rw [refused]; nofun) fun ⟨unfit, _⟩ => unfit fits
  · exact iff_of_false (by rw [accepted]; nofun) fun ⟨unfit, _⟩ => unfit fits

/-- Two ways to part a list at its first absent parameter have the same number before it. -/
theorem outcomeGap (parameters : List (Option (Node Hidden))) (name : String) (position : Nat) :
    (builder.setParameters parameters).outcome = .error (.missingArgument name position) ↔
      parameters.length = builder.arity ∧ name = builder.name ∧
        ∃ (present : List (Node Hidden)) (rest : List (Option (Node Hidden))),
          parameters = present.map some ++ none :: rest ∧ position = present.length + 1 := by
  constructor
  · intro refused
    rcases builder.outcomeCases parameters with ⟨_, other⟩ | ⟨fits, present, rest, parted, other⟩ |
      ⟨_, _, _, _, other⟩ <;> rw [refused] at other <;> cases other
    exact ⟨fits, rfl, present, rest, parted, rfl⟩
  · rintro ⟨fits, rfl, present, rest, rfl, rfl⟩
    rw [builder.reportGap _ fits _ (presentGap 1 present rest), Nat.add_comm]

theorem outcomeOk (parameters : List (Option (Node Hidden))) (node : Node Hidden) :
    (builder.setParameters parameters).outcome = .ok node ↔
      parameters = node.children.map some ∧
        node.function? = some (builder.name, builder.callable) := by
  constructor
  · intro accepted
    rcases builder.outcomeCases parameters with ⟨_, other⟩ | ⟨_, _, _, _, other⟩ |
      ⟨_, _, listed, function, other⟩ <;> rw [accepted] at other <;> cases other
    exact ⟨listed, function⟩
  · rintro ⟨rfl, function⟩
    have assembled := (builder.assembleFunction node.children node).mpr ⟨rfl, function⟩
    have fits := (builder.assembleCount node.children).mp (Option.isSome_of_mem assembled)
    obtain ⟨other, same, accepted⟩ := builder.reportAssembled (node.children.map some)
      (by rw [List.length_map, fits]) node.children (presentAll 1 node.children)
    rw [assembled] at same
    cases same
    rw [accepted]

theorem outcomeLiteral (parameters : List (Option (Node Hidden))) (text : String)
    (fault : Literal.Fault) :
    (builder.setParameters parameters).outcome ≠ .error (.rejectedLiteral text fault) := by
  intro refused
  rcases builder.outcomeCases parameters with ⟨_, other⟩ | ⟨_, _, _, _, other⟩ |
    ⟨_, _, _, _, other⟩ <;> rw [refused] at other <;> cases other

/-- Nothing else than a wrong count and an absent parameter is refused. -/
theorem outcomeAccepted (parameters : List (Option (Node Hidden))) :
    (∃ node, (builder.setParameters parameters).outcome = .ok node) ↔
      parameters.length = builder.arity ∧ none ∉ parameters := by
  rcases builder.outcomeCases parameters with ⟨unfit, refused⟩ |
    ⟨_, present, rest, rfl, refused⟩ | ⟨fits, node, rfl, _, accepted⟩
  · exact iff_of_false (by rw [refused]; rintro ⟨_, ⟨⟩⟩) fun ⟨fits, _⟩ => unfit fits
  · refine iff_of_false (by rw [refused]; rintro ⟨_, ⟨⟩⟩) fun ⟨_, whole⟩ => whole ?_
    exact List.mem_append_right _ List.mem_cons_self
  · exact iff_of_true ⟨node, accepted⟩ ⟨fits, by simp⟩

/-- Apart from the function itself, a report tells nothing about the body or the parameters. -/
theorem reportAlike {Other : Type} (other : Builder Other)
    (parameters : List (Option (Node Hidden))) (others : List (Option (Node Other)))
    (name : other.name = builder.name) (arity : other.arity = builder.arity)
    (alike : others.map Option.isSome = parameters.map Option.isSome) :
    (other.setParameters others).map (·.map fun _ => ()) =
      (builder.setParameters parameters).map (·.map fun _ => ()) := by
  have length : others.length = parameters.length := by
    rw [← List.length_map Option.isSome, alike, List.length_map]
  by_cases fits : parameters.length = builder.arity
  · have fitsOther : others.length = other.arity := by rw [length, fits, arity]
    have presence := presentAlike 1 parameters others alike
    cases found : presentFrom 1 parameters with
    | ok arguments =>
        obtain ⟨node, _, accepted⟩ := builder.reportAssembled parameters fits arguments found
        cases foundOther : presentFrom 1 others with
        | ok argumentsOther =>
            obtain ⟨nodeOther, _, acceptedOther⟩ :=
              other.reportAssembled others fitsOther argumentsOther foundOther
            rw [accepted, acceptedOther, name, arity, length]
            rfl
        | error position =>
            rw [found, foundOther] at presence
            cases presence
    | error position =>
        cases foundOther : presentFrom 1 others with
        | ok argumentsOther =>
            rw [found, foundOther] at presence
            cases presence
        | error positionOther =>
            rw [found, foundOther] at presence
            cases presence
            rw [builder.reportGap parameters fits position found,
              other.reportGap others fitsOther position foundOther, name, arity, length]
            rfl
  · have unfit : others.length ≠ other.arity := by rwa [length, arity]
    rw [builder.reportCount parameters fits, other.reportCount others unfit, name, arity, length]
    rfl

end Report

end Builder

/--
A builder refuses a miscounted list first, and then the first absent parameter by its position.
Any other list becomes a function with the name and the body of the builder and with exactly these
arguments in order. Its evaluation applies the body to the values of the arguments.
The outcome depends on the presence of the parameters alone, and no world is touched.
-/
theorem parametersAreChecked {Hidden : Type} (builder : Builder Hidden)
    (parameters : List (Option (Node Hidden))) :
    let outcome := (builder.setParameters parameters).outcome
    (∀ name expected supplied, outcome = .error (.wrongCount name expected supplied) ↔
      parameters.length ≠ builder.arity ∧
        name = builder.name ∧ expected = builder.arity ∧ supplied = parameters.length) ∧
    (∀ name position, outcome = .error (.missingArgument name position) ↔
      parameters.length = builder.arity ∧ name = builder.name ∧
        ∃ (present : List (Node Hidden)) (rest : List (Option (Node Hidden))),
          parameters = present.map some ++ none :: rest ∧ position = present.length + 1) ∧
    (∀ text fault, outcome ≠ .error (.rejectedLiteral text fault)) ∧
    ((∃ node, outcome = .ok node) ↔ parameters.length = builder.arity ∧ none ∉ parameters) ∧
    (∀ node, outcome = .ok node ↔
      parameters = node.children.map some ∧
        node.function? = some (builder.name, builder.callable)) ∧
    (∀ node, outcome = .ok node → node.children.length = builder.arity ∧
      ∀ strategy world, ∃ effect,
        builder.callable.applied? (Node.evaluateAll node.children world).1 = some effect ∧
        (node.evaluateWith strategy world).outcome =
          effect.run (Node.evaluateAll node.children world).2) ∧
    (∀ arguments, (builder.assemble? arguments).isSome ↔ arguments.length = builder.arity) ∧
    (∀ (Other : Type) (other : Builder Other) (others : List (Option (Node Other))),
      other.name = builder.name → other.arity = builder.arity →
      others.map Option.isSome = parameters.map Option.isSome →
      (other.setParameters others).map (·.map fun _ => ()) =
        (builder.setParameters parameters).map (·.map fun _ => ())) ∧
    ∀ (session : Session) (applied : Builder Nat) count report,
      session.applyBuilder applied count = .ok report →
      report.outcome.2.world = session.world := by
  intro outcome
  refine ⟨builder.outcomeCount parameters, builder.outcomeGap parameters,
    builder.outcomeLiteral parameters, builder.outcomeAccepted parameters,
    builder.outcomeOk parameters, fun node accepted => ?_, builder.assembleCount,
    fun Other other others => builder.reportAlike other parameters others,
    fun session applied count report done => Session.pathFrozen (Session.pathBuilder done)⟩
  obtain ⟨_, function⟩ := (builder.outcomeOk parameters node).mp accepted
  refine ⟨(node.evaluateFunction _ _ function World.empty).1, fun strategy world => ?_⟩
  rw [Node.evaluateWithOutcome]
  exact (node.evaluateFunction _ _ function world).2

/-- The second of two gaps is not reported, and a function that is built later runs its body. -/
theorem parametersAreCheckedGap :
    let body := fun (condition : Bool) (first second : Float) =>
      Effect.record first (.done (if condition then first else second) : Effect Nat Float)
    let builder : Builder Nat := ⟨"if", .ternary body⟩
    let other : Builder Empty := ⟨"if", .ternary fun _ _ _ => .done 0.0⟩
    let parameters : List (Option (Node Nat)) := [some (.number 0.0), none, none]
    let others : List (Option (Node Empty)) := [some (.var ⟨0⟩), none, none]
    let node : Node Nat := .ternary "if" body (.number (-0.0)) (.number 1.0) (.var ⟨0⟩)
    let world : World Nat := World.empty.write ⟨0⟩ 7.0
    let session := Session.empty.push none
    (builder.setParameters parameters).outcome = .error (.missingArgument "if" 2) ∧
    (others.map Option.isSome = parameters.map Option.isSome ∧
      (other.setParameters others).map (·.map fun _ => ()) =
        (builder.setParameters parameters).map (·.map fun _ => ())) ∧
    ((builder.setParameters (node.children.map some)).outcome = .ok node ∧
      ∃ effect, builder.callable.applied? [-0.0, 1.0, 7.0] = some effect ∧
        (node.evaluateWith .worklist world).outcome = effect.run world) ∧
    ∃ report, session.applyBuilder builder 1 = .ok report ∧
      report.outcome.2.world = session.world := by
  intro body builder other parameters others node world session
  obtain ⟨_, gap, _, _, _, _, _, alike, untouched⟩ := parametersAreChecked builder parameters
  obtain ⟨_, _, _, _, accepted, evaluated, _⟩ :=
    parametersAreChecked builder (node.children.map some)
  have built := (accepted node).mpr ⟨rfl, rfl⟩
  exact ⟨(gap "if" 2).mpr ⟨rfl, rfl, [.number 0.0], [none], rfl, rfl⟩,
    ⟨rfl, alike Empty other others rfl rfl rfl⟩,
    ⟨built, (evaluated node built).2 .worklist world⟩,
    _, rfl, untouched session builder 1 _ rfl⟩

end ExprTree
