/-
This file shows that the value stack never runs short and evaluates any tree with a worklist.
-/

import ExprTree.Evaluation.Worklist

namespace ExprTree

/-- From this height every job finds its operands, and one value is left in the end. -/
def Job.Settles {Hidden : Type} : List (Job Hidden) → Nat → Prop
  | [], height => height = 1
  | job :: rest, height =>
      job.operands ≤ height ∧ Job.Settles rest (height + 1 - job.operands)

namespace Machine

def Settles {Hidden : Type} (machine : Machine Hidden) : Prop :=
  Job.Settles machine.jobs.items machine.values.height

theorem settlesStart {Hidden : Type} (node : Node Hidden) (world : World Hidden) :
    (start node world).Settles := by
  simp [start, Settles, Job.Settles, Job.operands, Stack.empty]

theorem popOfHeight {Item : Type} (stack : Stack Item) (enough : 1 ≤ stack.height) :
    ∃ item rest, stack.pop? = some (item, rest) ∧ rest.height = stack.height - 1 := by
  obtain ⟨items, height, counted⟩ := stack
  cases items with
  | nil => simp_all
  | cons item rest => exact ⟨item, ⟨rest, height - 1, by simp [counted]⟩, rfl, rfl⟩

/-- A job that finds its operands leaves a machine that still settles. -/
theorem settlesPerform {Hidden : Type} (machine : Machine Hidden) (job : Job Hidden)
    (enough : job.operands ≤ machine.values.height)
    (below : Job.Settles machine.jobs.items (machine.values.height + 1 - job.operands)) :
    ∃ next, machine.perform? job = some next ∧ next.Settles := by
  cases job with
  | visit node =>
      refine ⟨machine.schedule node, rfl, ?_⟩
      cases node <;>
        simpa [schedule, answer, Settles, Job.Settles, Job.operands, Callable.arity, Stack.push]
          using below
  | negate =>
      simp only [Job.operands] at enough below
      obtain ⟨operand, values, popped, height⟩ := popOfHeight machine.values enough
      refine ⟨_, by simp only [perform?, popped]; rfl, ?_⟩
      simpa [Settles, Stack.push, height, Nat.sub_add_cancel enough] using below
  | combine operation =>
      simp only [Job.operands] at enough below
      obtain ⟨right, upper, popped, height⟩ := popOfHeight machine.values (by omega)
      obtain ⟨left, values, poppedNext, heightNext⟩ := popOfHeight upper (by omega)
      refine ⟨_, by simp only [perform?, popped, Option.bind_eq_bind, Option.bind_some,
        poppedNext]; rfl, ?_⟩
      have same : values.height + 1 = machine.values.height + 1 - 2 := by omega
      simpa [Settles, Stack.push, same] using below
  | call callable =>
      cases callable with
      | unary body =>
          simp only [Job.operands, Callable.arity] at enough below
          obtain ⟨argument, values, popped, height⟩ := popOfHeight machine.values enough
          refine ⟨_, by simp only [perform?, call?, popped]; rfl, ?_⟩
          simpa [Settles, answer, Stack.push, height, Nat.sub_add_cancel enough] using below
      | binary body =>
          simp only [Job.operands, Callable.arity] at enough below
          obtain ⟨second, upper, popped, height⟩ := popOfHeight machine.values (by omega)
          obtain ⟨first, values, poppedNext, heightNext⟩ := popOfHeight upper (by omega)
          refine ⟨_, by simp only [perform?, call?, popped, Option.bind_eq_bind, Option.bind_some,
            poppedNext]; rfl, ?_⟩
          have same : values.height + 1 = machine.values.height + 1 - 2 := by omega
          simpa [Settles, answer, Stack.push, same] using below
      | ternary body =>
          simp only [Job.operands, Callable.arity] at enough below
          obtain ⟨second, upper, popped, height⟩ := popOfHeight machine.values (by omega)
          obtain ⟨first, middle, poppedNext, heightNext⟩ := popOfHeight upper (by omega)
          obtain ⟨condition, values, poppedLast, heightLast⟩ := popOfHeight middle (by omega)
          refine ⟨_, by simp only [perform?, call?, popped, Option.bind_eq_bind, Option.bind_some,
            poppedNext, poppedLast]; rfl, ?_⟩
          have same : values.height + 1 = machine.values.height + 1 - 3 := by omega
          simpa [Settles, answer, Stack.push, same] using below

/-- A machine that settles ends with a single value. -/
theorem runSettles {Hidden : Type} (machine : Machine Hidden) (peaks : Peaks)
    (settles : machine.Settles) :
    ∃ final last value, machine.run? peaks = some (final, last) ∧ final.values.items = [value] := by
  fun_induction run? machine peaks with
  | case1 machine peaks popped =>
      have bare := Stack.popNone machine.jobs popped
      simp only [Settles, bare, Job.Settles] at settles
      rw [machine.values.counted] at settles
      obtain ⟨value, single⟩ := List.length_eq_one_iff.mp settles
      exact ⟨machine, peaks, value, rfl, single⟩
  | case2 machine peaks job rest popped failed =>
      have items := Stack.popSome machine.jobs rest job popped
      simp only [Settles, items, Job.Settles] at settles
      obtain ⟨next, performed, _⟩ :=
        settlesPerform { machine with jobs := rest } job settles.1 settles.2
      rw [failed] at performed
      cases performed
  | case3 machine peaks job rest popped next performed ih =>
      have items := Stack.popSome machine.jobs rest job popped
      simp only [Settles, items, Job.Settles] at settles
      obtain ⟨other, same, stillSettles⟩ :=
        settlesPerform { machine with jobs := rest } job settles.1 settles.2
      rw [performed] at same
      cases same
      exact ih stillSettles

end Machine

/-- A completed evaluation has a value, the world it leaves and the peaks it reached. -/
structure Completion (Hidden : Type) where
  value : Float
  world : World Hidden
  peaks : Peaks

namespace Machine

def completion? {Hidden : Type} (machine : Machine Hidden) : Option (Completion Hidden) := do
  let (final, peaks) ← machine.run? ⟨0, 0⟩
  let (value, _) ← final.values.pop?
  return ⟨value, final.world, peaks⟩

theorem completionSome {Hidden : Type} (machine : Machine Hidden) (settles : machine.Settles) :
    machine.completion?.isSome := by
  obtain ⟨final, last, value, ran, single⟩ := runSettles machine ⟨0, 0⟩ settles
  obtain ⟨item, rest, popped, _⟩ := popOfHeight final.values (by simp [final.values.counted, single])
  simp [completion?, ran, popped]

end Machine

/-- The worklist evaluates every tree to an end. -/
def Node.evaluateIterative {Hidden : Type} (node : Node Hidden) (world : World Hidden) :
    Completion Hidden :=
  (Machine.start node world).completion?.get
    (Machine.completionSome _ (Machine.settlesStart node world))

end ExprTree
