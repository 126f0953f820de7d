/-
This file counts the values and the turns of the worklist exactly.
-/

import ExprTree.Proofs.Evaluation.Agreement

namespace ExprTree

/-- A finished job changes the number of values by this much, a visit with all that it schedules. -/
def Job.net {Hidden : Type} : Job Hidden → Int
  | .visit _ => 1
  | .negate => 0
  | .combine _ => -1
  | .call callable => 1 - callable.arity

theorem Job.netOperands {Hidden : Type} (job : Job Hidden) : job.net = 1 - job.operands := by
  cases job <;> rfl

/-- From this height the pending jobs end with one value, and each of them finds its operands. -/
structure Job.Balanced {Hidden : Type} (jobs : List (Job Hidden)) (height : Nat) : Prop where
  total : (height : Int) + (jobs.map Job.net).sum = 1
  supplied : ∀ above job below, jobs = above ++ job :: below →
    (job.operands : Int) ≤ height + (above.map Job.net).sum

theorem Job.settlesBalanced {Hidden : Type} (jobs : List (Job Hidden)) (height : Nat)
    (settles : Job.Settles jobs height) : Job.Balanced jobs height := by
  induction jobs generalizing height with
  | nil =>
      refine ⟨?_, fun above job below split => ?_⟩
      · rw [show height = 1 from settles]
        rfl
      · simp only [List.nil_eq, List.append_eq_nil_iff, reduceCtorEq, and_false] at split
  | cons first rest ih =>
      obtain ⟨enough, later⟩ := settles
      have balanced := ih _ later
      have net := first.netOperands
      refine ⟨?_, fun above job below split => ?_⟩
      · have total := balanced.total
        rw [List.map_cons, List.sum_cons]
        omega
      · cases above with
        | nil =>
            cases split
            simpa using enough
        | cons top above =>
            cases split
            have supplied := balanced.supplied above job below rfl
            rw [List.map_cons, List.sum_cons]
            omega

namespace Machine

/-- A machine that settles and has a job left performs it and settles again. -/
theorem settlesTurn {Hidden : Type} {machine : Machine Hidden} {job : Job Hidden}
    {jobs : Stack (Job Hidden)} (settles : machine.Settles)
    (popped : machine.jobs.pop? = some (job, jobs)) :
    ∃ next, { machine with jobs := jobs }.perform? job = some next ∧ next.Settles := by
  have items := Stack.popSome machine.jobs jobs job popped
  simp only [Settles, items, Job.Settles] at settles
  exact settlesPerform { machine with jobs := jobs } job settles.1 settles.2

theorem settlesReaches {Hidden : Type} {machine final : Machine Hidden}
    {turns : List (Turn Hidden)} (reached : Reaches machine turns final)
    (settles : machine.Settles) : final.Settles := by
  induction reached with
  | rest machine => exact settles
  | turn popped performed _ ih =>
      obtain ⟨next, same, stillSettles⟩ := settlesTurn settles popped
      rw [performed] at same
      cases same
      exact ih stillSettles

/-- A machine proceeds when it has no job left or performs its top job. -/
def Proceeds {Hidden : Type} (machine : Machine Hidden) : Prop :=
  machine.jobs.items = [] ∨ ∃ turn, Reaches machine [turn] turn.after

theorem settlesProceeds {Hidden : Type} (machine : Machine Hidden) (settles : machine.Settles) :
    machine.Proceeds := by
  cases popped : machine.jobs.pop? with
  | none => exact .inl (Stack.popNone machine.jobs popped)
  | some top =>
      obtain ⟨next, performed, _⟩ := settlesTurn settles popped
      exact .inr ⟨⟨top.1, machine, next⟩, .turn popped performed (.rest next)⟩

end Machine

/-- A turn takes the operands of its job from the top and puts at most one value in their place. -/
def Turn.KeepsRest {Hidden : Type} (turn : Turn Hidden) : Prop :=
  turn.job.operands ≤ turn.before.values.height ∧
    ∃ pushed, pushed.length ≤ 1 ∧
      turn.after.values.items = pushed ++ turn.before.values.items.drop turn.job.operands

namespace Machine

/-- Whatever a job does to the values it does above the rest. -/
theorem performKeepsRest {Hidden : Type} (machine next : Machine Hidden) (job : Job Hidden)
    (performed : machine.perform? job = some next) :
    ∃ pushed, pushed.length ≤ 1 ∧
      next.values.items = pushed ++ machine.values.items.drop job.operands := by
  cases job with
  | visit node =>
      cases performed
      cases node with
      | number value => exact ⟨[value], Nat.le_refl 1, rfl⟩
      | var slot => exact ⟨[machine.world.read slot], Nat.le_refl 1, rfl⟩
      | _ => exact ⟨[], Nat.zero_le 1, rfl⟩
  | negate =>
      simp only [perform?, Option.bind_eq_bind, Option.bind_eq_some_iff] at performed
      obtain ⟨⟨operand, values⟩, popped, same⟩ := performed
      cases same
      exact ⟨[-operand], Nat.le_refl 1, by rw [Stack.popSome _ _ _ popped]; rfl⟩
  | combine operation =>
      simp only [perform?, Option.bind_eq_bind, Option.bind_eq_some_iff] at performed
      obtain ⟨⟨right, upper⟩, popped, ⟨left, values⟩, poppedNext, same⟩ := performed
      cases same
      refine ⟨[operation left right], Nat.le_refl 1, ?_⟩
      rw [Stack.popSome _ _ _ popped, Stack.popSome _ _ _ poppedNext]
      rfl
  | call callable =>
      cases callable with
      | unary body =>
          simp only [perform?, call?, Option.bind_eq_bind, Option.bind_eq_some_iff] at performed
          obtain ⟨⟨argument, values⟩, popped, same⟩ := performed
          cases same
          refine ⟨[((body argument).run machine.world).1], Nat.le_refl 1, ?_⟩
          rw [Stack.popSome _ _ _ popped]
          rfl
      | binary body =>
          simp only [perform?, call?, Option.bind_eq_bind, Option.bind_eq_some_iff] at performed
          obtain ⟨⟨second, upper⟩, popped, ⟨first, values⟩, poppedNext, same⟩ := performed
          cases same
          refine ⟨[((body first second).run machine.world).1], Nat.le_refl 1, ?_⟩
          rw [Stack.popSome _ _ _ popped, Stack.popSome _ _ _ poppedNext]
          rfl
      | ternary body =>
          simp only [perform?, call?, Option.bind_eq_bind, Option.bind_eq_some_iff] at performed
          obtain ⟨⟨second, upper⟩, popped, ⟨first, middle⟩, poppedNext, ⟨condition, values⟩,
            poppedLast, same⟩ := performed
          cases same
          refine ⟨[((body (Binary64.isTrue condition) first second).run machine.world).1],
            Nat.le_refl 1, ?_⟩
          rw [Stack.popSome _ _ _ popped, Stack.popSome _ _ _ poppedNext,
            Stack.popSome _ _ _ poppedLast]
          rfl

theorem reachesKeepRest {Hidden : Type} {machine final : Machine Hidden}
    {turns : List (Turn Hidden)} (reached : Reaches machine turns final)
    (settles : machine.Settles) : ∀ turn ∈ turns, turn.KeepsRest := by
  induction reached with
  | rest machine => simp
  | @turn machine next final job jobs turns popped performed _ ih =>
      have items := Stack.popSome machine.jobs jobs job popped
      obtain ⟨other, same, stillSettles⟩ := settlesTurn settles popped
      rw [performed] at same
      cases same
      intro turn member
      rcases List.mem_cons.mp member with first | later
      · rw [first]
        simp only [Settles, items, Job.Settles] at settles
        exact ⟨settles.1, performKeepsRest { machine with jobs := jobs } next job performed⟩
      · exact ih stillSettles turn later

end Machine

namespace Node

theorem workChildren {Hidden : Type} (node : Node Hidden) :
    node.work = (if node.isLeaf then 1 else 2) + (node.children.map work).sum := by
  cases node <;> simp [work, isLeaf, children] <;> omega

theorem workPreOrder {Hidden : Type} (node : Node Hidden) (depth : Nat) :
    ((node.preOrder depth).map fun entry => if entry.1.isLeaf then 1 else 2).sum = node.work := by
  induction node using childInduction generalizing depth with
  | step node each =>
      rw [preOrderSum (fun below => if below.isLeaf then 1 else 2), workChildren]
      congr 2
      exact List.map_congr_left fun child member => each child member (depth + 1)

/-- A visit takes one turn for every node and a second one for every inner node. -/
theorem workCount {Hidden : Type} (node : Node Hidden) :
    node.work = node.nodeCount + node.innerCount := by
  have inner : node.innerCount =
      node.walk (fun total below _ => total + if below.isLeaf then 0 else 1) 0 := by
    unfold innerCount
    congr 1
    funext count below _
    split <;> rfl
  rw [← workPreOrder node 1, inner, walkSum, nodeCount, walkSum (fun _ => 1), Nat.zero_add,
    Nat.zero_add, ← List.sum_map_add]
  congr 2
  funext entry
  split <;> rfl

end Node

/--
In every state of the loop the pending jobs account for the values, so none of them fails.
The loop takes one turn for each node and one more for each inner node, and one value remains.
-/
theorem worklistAccounts {Hidden : Type} (node : Node Hidden) (world : World Hidden) :
    (∀ turns machine, (Machine.start node world).Reaches turns machine →
      Job.Balanced machine.jobs.items machine.values.height ∧ machine.Proceeds ∧
        (∀ turn ∈ turns, turn.KeepsRest) ∧ turns.length ≤ node.nodeCount + node.innerCount ∧
        (machine.jobs.items = [] ↔ turns.length = node.nodeCount + node.innerCount) ∧
        (machine.jobs.items = [] → ∃ value, machine.values.items = [value])) ∧
    ∃ turns final peaks, (Machine.start node world).Reaches turns final ∧
      turns.length = node.nodeCount + node.innerCount ∧
      (Machine.start node world).run? ⟨0, 0⟩ = some (final, peaks) ∧
      final.jobs.items = [] ∧
      final.values.items = [(node.evaluateIterative world).value] := by
  have settled := Machine.settlesStart node world
  have total (turns : List (Turn Hidden)) (machine : Machine Hidden)
      (reached : (Machine.start node world).Reaches turns machine) :
      machine.work + turns.length = node.nodeCount + node.innerCount := by
    rw [Machine.workReaches reached, ← node.workCount]
    rfl
  constructor
  · intro turns machine reached
    have settles := Machine.settlesReaches reached settled
    have spent := total turns machine reached
    have balanced := Job.settlesBalanced _ _ settles
    refine ⟨balanced, Machine.settlesProceeds machine settles,
      Machine.reachesKeepRest reached settled, by omega, ?_, fun bare => ?_⟩
    · rw [← Machine.workZero]
      omega
    · rw [Machine.Settles, bare] at settles
      exact List.length_eq_one_iff.mp (machine.values.counted.symm.trans settles)
  · obtain ⟨turns, reached, _⟩ := node.startReaches world
    have spent := total turns _ reached
    rw [(Machine.workZero _).mpr rfl, Nat.zero_add] at spent
    have ran := (Machine.runReaches reached ⟨0, 0⟩).trans (Machine.runBare (.of [] _ _) _ rfl)
    refine ⟨turns, _, _, reached, spent, ran, rfl, ?_⟩
    rw [Node.evaluateIterativeEq]
    rfl

/-- Two turns into the difference of two numbers the right operand and the job itself remain. -/
theorem worklistAccountsDifference :
    let tree : Node Nat := .operator Float.sub (.number 2.0) (.number 3.0)
    ∃ turns machine, (Machine.start tree World.empty).Reaches turns machine ∧
      Job.Balanced machine.jobs.items machine.values.height ∧ turns.length = 2 ∧
      tree.nodeCount + tree.innerCount = 4 := by
  intro tree
  have reached : (Machine.start tree World.empty).Reaches [_, _] _ :=
    .turn rfl rfl (.turn rfl rfl (.rest _))
  refine ⟨_, _, reached, ((worklistAccounts tree World.empty).1 _ _ reached).1, rfl, ?_⟩
  rw [← tree.workCount]
  rfl

end ExprTree
