/-
This file shows that the choice of a strategy is never observed in a value or in a world.
-/

import ExprTree.Proofs.Evaluation.Visit
import ExprTree.Session.Run

namespace ExprTree

/-- The completion holds the outcome of the recursion and the peaks over all turns. -/
theorem Machine.completionStart {Hidden : Type} (node : Node Hidden) (world : World Hidden) :
    (start node world).completion? =
      some ⟨(node.evaluate world).1, (node.evaluate world).2,
        (start node world).turns.foldl (fun peaks turn => peaks.raise turn.after) ⟨0, 0⟩⟩ := by
  obtain ⟨turns, reached, same, _⟩ := node.startReaches world
  rw [completion?, runReaches reached, runBare (of [] _ _) _ rfl, same]
  rfl

theorem Node.evaluateIterativeEq {Hidden : Type} (node : Node Hidden) (world : World Hidden) :
    node.evaluateIterative world =
      ⟨(node.evaluate world).1, (node.evaluate world).2,
        (Machine.start node world).turns.foldl (fun peaks turn => peaks.raise turn.after)
          ⟨0, 0⟩⟩ := by
  simp only [evaluateIterative, Machine.completionStart, Option.get_some]

/-- Every strategy has the outcome of the recursion. -/
theorem Node.evaluateWithOutcome {Hidden : Type} (strategy : Strategy) (node : Node Hidden)
    (world : World Hidden) : (node.evaluateWith strategy world).outcome = node.evaluate world := by
  cases strategy with
  | recursive => rfl
  | worklist => rw [evaluateWith, evaluateIterativeEq]

/-- A request sets a variable or evaluates a tree. -/
inductive Request (Hidden : Type) where
  | assign (slot : Slot) (value : Float)
  | evaluate (strategy : Strategy) (node : Node Hidden)

namespace Request

/-- Only an evaluation answers with a value. -/
def answer {Hidden : Type} : Request Hidden → World Hidden → Option Float × World Hidden
  | .assign slot value, world => (none, world.write slot value)
  | .evaluate strategy node, world =>
      let (value, world) := (node.evaluateWith strategy world).outcome
      (some value, world)

/-- The history of a run holds every answer together with the world that it leaves. -/
def history {Hidden : Type} :
    List (Request Hidden) → World Hidden → List (Option Float × World Hidden)
  | [], _ => []
  | request :: rest, world =>
      let answer := request.answer world
      answer :: history rest answer.2

/-- Requests are alike when they differ at most in a strategy. -/
inductive Alike {Hidden : Type} : Request Hidden → Request Hidden → Prop
  | assign (slot : Slot) (value : Float) : Alike (.assign slot value) (.assign slot value)
  | evaluate (first second : Strategy) (node : Node Hidden) :
      Alike (.evaluate first node) (.evaluate second node)

theorem answerAlike {Hidden : Type} {first second : Request Hidden} (alike : Alike first second)
    (world : World Hidden) : first.answer world = second.answer world := by
  cases alike with
  | assign slot value => rfl
  | evaluate first second node => simp only [answer, Node.evaluateWithOutcome]

theorem historyAlike {Hidden : Type} {first second : List (Request Hidden)}
    (alike : List.Forall₂ Alike first second) (world : World Hidden) :
    history first world = history second world := by
  induction alike generalizing world with
  | nil => rfl
  | cons head _ ih => simp only [history, answerAlike head, ih]

end Request

namespace Session

/-- Commands are alike when they differ at most in a strategy. -/
inductive Command.Alike : Command → Command → Prop
  | refl (command : Command) : Alike command command
  | evaluate (first second : Strategy) (path : List Nat) :
      Alike (.evaluate first path) (.evaluate second path)

theorem stepAlike {first second : Command} (alike : Command.Alike first second)
    (session : Session) :
    (session.step first).map Reported.outcome = (session.step second).map Reported.outcome := by
  cases alike with
  | refl command => rfl
  | evaluate first second path =>
      simp only [step, evaluateTop]
      cases session.top path with
      | error fault => rfl
      | ok found =>
          cases found with
          | none => rfl
          | some node =>
              have same :=
                (node.evaluateWithOutcome first { session.world with trace := #[] }).trans
                  (node.evaluateWithOutcome second { session.world with trace := #[] }).symm
              exact congrArg (fun outcome => Except.ok (Reply.evaluated outcome.1
                outcome.2.trace.toList, { session with world := outcome.2 })) same

/-- The replies of a run and the session that it leaves, without the diagnostics. -/
def observed (result : Except Fault (List (Reported Reply) × Session)) :
    Except Fault (List Reply × Session) :=
  result.map fun (replies, session) => (replies.map Reported.outcome, session)

theorem goAlike {first second : List Command} (alike : List.Forall₂ Command.Alike first second)
    (session : Session) (replies others : Array (Reported Reply))
    (same : replies.toList.map Reported.outcome = others.toList.map Reported.outcome) :
    observed (run.go session replies first) = observed (run.go session others second) := by
  induction alike generalizing session replies others with
  | nil => simp only [run.go, observed, Except.map, same]
  | @cons command other rest _ head _ ih =>
      have stepped := stepAlike head session
      simp only [run.go]
      cases one : session.step command with
      | error fault =>
          rw [one] at stepped
          cases two : session.step other with
          | error fault =>
              rw [two] at stepped
              cases stepped
              rfl
          | ok report =>
              rw [two] at stepped
              cases stepped
      | ok report =>
          rw [one] at stepped
          cases two : session.step other with
          | error fault =>
              rw [two] at stepped
              cases stepped
          | ok otherReport =>
              rw [two] at stepped
              simp only [Except.map, Except.ok.injEq] at stepped
              have grown := ih report.outcome.2 (replies.push (report.map Prod.fst))
                (others.push (otherReport.map Prod.fst)) (by
                  simp only [Array.toList_push, List.map_append, same, List.map_cons, List.map_nil,
                    Reported.map, stepped])
              change _ = observed (run.go otherReport.outcome.2 _ _)
              rw [← stepped]
              exact grown

/-- A session gives the same replies and ends in the same state whichever strategies it uses. -/
theorem runAlike {first second : List Command} (alike : List.Forall₂ Command.Alike first second)
    (session : Session) : observed (session.run first) = observed (session.run second) :=
  goAlike alike session #[] #[] rfl

end Session

/--
The worklist gives the value of the recursion and leaves the same slots, cells and trace.
So no run shows which strategies were chosen for its evaluations, and no session shows it in its
replies or in the state it ends in.
-/
theorem strategiesAgree {Hidden : Type} :
    (∀ (node : Node Hidden) (world : World Hidden),
      (node.evaluateIterative world).value = (node.evaluate world).1 ∧
        (node.evaluateIterative world).world = (node.evaluate world).2) ∧
    (∀ first second : List (Request Hidden), List.Forall₂ Request.Alike first second →
      ∀ world, Request.history first world = Request.history second world) ∧
    ∀ first second : List Session.Command, List.Forall₂ Session.Command.Alike first second →
      ∀ session : Session,
        Session.observed (session.run first) = Session.observed (session.run second) := by
  refine ⟨fun node world => ?_, fun first second alike => Request.historyAlike alike,
    fun first second alike => Session.runAlike alike⟩
  rw [Node.evaluateIterativeEq]
  exact ⟨rfl, rfl⟩

/-- A counter called by both operands of an operator runs under either strategy. -/
theorem strategiesAgreeOnCounters :
    let body := fun argument : Float => Effect.load (⟨0⟩ : Cell) fun count =>
      Effect.store ⟨0⟩ (count.getD 0 + 1) (.write ⟨1⟩ argument (.done argument))
    let tree : Node Nat := .operator Float.sub (.unary "tick" body (.var ⟨0⟩))
      (.unary "tick" body (.var ⟨1⟩))
    let first : List (Request Nat) := [.assign ⟨0⟩ 2.0, .evaluate .recursive tree,
      .evaluate .worklist tree]
    let second : List (Request Nat) := [.assign ⟨0⟩ 2.0, .evaluate .worklist tree,
      .evaluate .recursive tree]
    List.Forall₂ Request.Alike first second ∧
      Request.history first World.empty = Request.history second World.empty := by
  intro body tree first second
  have alike : List.Forall₂ Request.Alike first second :=
    .cons (.assign _ _) (.cons (.evaluate _ _ _) (.cons (.evaluate _ _ _) .nil))
  exact ⟨alike, strategiesAgree.2.1 first second alike World.empty⟩

end ExprTree
