/-
This file evaluates trees with a stack of jobs and a stack of values.
-/

import ExprTree.Binary64.Truth
import ExprTree.Node.Walk
import ExprTree.Stack

namespace ExprTree

/-- A job visits a node or combines the values on top of the stack. -/
inductive Job (Hidden : Type) where
  | visit (node : Node Hidden)
  | negate
  | combine (operation : Float → Float → Float)
  | call (callable : Callable Hidden)

/-- A job takes its operands from the top of the values and leaves one value. -/
def Job.operands {Hidden : Type} : Job Hidden → Nat
  | .visit _ => 0
  | .negate => 1
  | .combine _ => 2
  | .call callable => callable.arity

/-- The machine owns the world while it runs. -/
structure Machine (Hidden : Type) where
  jobs : Stack (Job Hidden)
  values : Stack Float
  world : World Hidden

namespace Machine

def start {Hidden : Type} (node : Node Hidden) (world : World Hidden) : Machine Hidden :=
  ⟨Stack.empty.push (.visit node), Stack.empty, world⟩

def answer {Hidden : Type} (machine : Machine Hidden) (result : Float × World Hidden) :
    Machine Hidden :=
  { machine with values := machine.values.push result.1, world := result.2 }

/-- A leaf answers at once, and an inner node puts its children above its own job. -/
def schedule {Hidden : Type} (machine : Machine Hidden) : Node Hidden → Machine Hidden
  | .number value => machine.answer (value, machine.world)
  | .var slot => machine.answer (machine.world.read slot, machine.world)
  | .negation operand =>
      { machine with jobs := (machine.jobs.push .negate).push (.visit operand) }
  | .operator operation left right =>
      { machine with
        jobs := ((machine.jobs.push (.combine operation)).push (.visit right)).push
          (.visit left) }
  | .unary _ body argument =>
      { machine with jobs := (machine.jobs.push (.call (.unary body))).push (.visit argument) }
  | .binary _ body first second =>
      { machine with
        jobs := ((machine.jobs.push (.call (.binary body))).push (.visit second)).push
          (.visit first) }
  | .ternary _ body condition first second =>
      { machine with
        jobs := (((machine.jobs.push (.call (.ternary body))).push (.visit second)).push
          (.visit first)).push (.visit condition) }

/-- The last operand is on top, so operands are popped last to first. -/
def call? {Hidden : Type} (machine : Machine Hidden) : Callable Hidden → Option (Machine Hidden)
  | .unary body => do
      let (argument, values) ← machine.values.pop?
      return { machine with values := values }.answer ((body argument).run machine.world)
  | .binary body => do
      let (second, values) ← machine.values.pop?
      let (first, values) ← values.pop?
      return { machine with values := values }.answer ((body first second).run machine.world)
  | .ternary body => do
      let (second, values) ← machine.values.pop?
      let (first, values) ← values.pop?
      let (condition, values) ← values.pop?
      return { machine with values := values }.answer
        ((body (Binary64.isTrue condition) first second).run machine.world)

/-- A job fails when too few values are stacked. -/
def perform? {Hidden : Type} (machine : Machine Hidden) : Job Hidden → Option (Machine Hidden)
  | .visit node => some (machine.schedule node)
  | .negate => do
      let (operand, values) ← machine.values.pop?
      return { machine with values := values.push (-operand) }
  | .combine operation => do
      let (right, values) ← machine.values.pop?
      let (left, values) ← values.pop?
      return { machine with values := values.push (operation left right) }
  | .call callable => machine.call? callable

end Machine

/-- Visiting a node takes one job for each node and one more for each inner node. -/
def Node.work {Hidden : Type} : Node Hidden → Nat
  | .number _ | .var _ => 1
  | .negation operand => 2 + operand.work
  | .operator _ left right => 2 + left.work + right.work
  | .unary _ _ argument => 2 + argument.work
  | .binary _ _ first second => 2 + first.work + second.work
  | .ternary _ _ condition first second => 2 + condition.work + first.work + second.work

def Job.work {Hidden : Type} : Job Hidden → Nat
  | .visit node => node.work
  | _ => 1

def Job.workSum {Hidden : Type} : List (Job Hidden) → Nat
  | [] => 0
  | job :: rest => job.work + workSum rest

namespace Machine

def work {Hidden : Type} (machine : Machine Hidden) : Nat := Job.workSum machine.jobs.items

theorem workSchedule {Hidden : Type} (machine : Machine Hidden) (node : Node Hidden) :
    (machine.schedule node).work + 1 = node.work + machine.work := by
  cases node <;> simp [schedule, answer, work, Node.work, Job.work, Job.workSum] <;> omega

/-- Each job lowers the remaining work by exactly one. -/
theorem workPerform {Hidden : Type} (machine next : Machine Hidden) (job : Job Hidden)
    (performed : machine.perform? job = some next) :
    next.work + 1 = job.work + machine.work := by
  cases job with
  | visit node =>
      cases performed
      exact workSchedule machine node
  | negate =>
      simp only [perform?, Option.bind_eq_bind, Option.bind_eq_some_iff] at performed
      obtain ⟨_, _, same⟩ := performed
      cases same
      simp [work, Job.work, Nat.add_comm]
  | combine operation =>
      simp only [perform?, Option.bind_eq_bind, Option.bind_eq_some_iff] at performed
      obtain ⟨_, _, _, _, same⟩ := performed
      cases same
      simp [work, Job.work, Nat.add_comm]
  | call callable =>
      cases callable <;>
        simp only [perform?, call?, Option.bind_eq_bind, Option.bind_eq_some_iff] at performed
      · obtain ⟨_, _, same⟩ := performed
        cases same
        simp [work, answer, Job.work, Nat.add_comm]
      · obtain ⟨_, _, _, _, same⟩ := performed
        cases same
        simp [work, answer, Job.work, Nat.add_comm]
      · obtain ⟨_, _, _, _, _, _, same⟩ := performed
        cases same
        simp [work, answer, Job.work, Nat.add_comm]

end Machine

/-- The peaks are the largest heights of both stacks after any job. -/
structure Peaks where
  jobs : Nat
  values : Nat
deriving DecidableEq, Repr

def Peaks.raise {Hidden : Type} (peaks : Peaks) (machine : Machine Hidden) : Peaks :=
  ⟨max peaks.jobs machine.jobs.height, max peaks.values machine.values.height⟩

namespace Machine

/-- The machine performs the top job until none is left. -/
def run? {Hidden : Type} (machine : Machine Hidden) (peaks : Peaks) :
    Option (Machine Hidden × Peaks) :=
  match _popped : machine.jobs.pop? with
  | none => some (machine, peaks)
  | some (job, rest) =>
      match _performed : { machine with jobs := rest }.perform? job with
      | none => none
      | some next => next.run? (peaks.raise next)
termination_by machine.work
decreasing_by
  have smaller := workPerform { machine with jobs := rest } next job _performed
  have total : machine.work = job.work + { machine with jobs := rest : Machine Hidden }.work := by
    simp [work, Job.workSum, Stack.popSome machine.jobs rest job _popped]
  omega

end Machine

end ExprTree
