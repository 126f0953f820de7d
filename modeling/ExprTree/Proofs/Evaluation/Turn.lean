/-
This file follows the loop of the worklist turn by turn.
-/

import ExprTree.Evaluation.Balance

namespace ExprTree

namespace Stack

def ofList {Item : Type} (items : List Item) : Stack Item := ⟨items, items.length, rfl⟩

@[simp] theorem popOfList {Item : Type} (item : Item) (items : List Item) :
    (ofList (item :: items)).pop? = some (item, ofList items) := rfl

theorem ofListItems {Item : Type} (stack : Stack Item) : ofList stack.items = stack := ext rfl

/-- A stack without items has no top. -/
theorem popBare {Item : Type} (stack : Stack Item) (bare : stack.items = []) :
    stack.pop? = none := by
  rw [← ofListItems stack, bare]
  rfl

end Stack

/-- A turn takes the top job and leads from one machine to the next. -/
structure Turn (Hidden : Type) where
  job : Job Hidden
  before : Machine Hidden
  after : Machine Hidden

namespace Machine

/-- A machine is determined by what lies on its stacks and by its world. -/
def of {Hidden : Type} (jobs : List (Job Hidden)) (values : List Float) (world : World Hidden) :
    Machine Hidden := ⟨.ofList jobs, .ofList values, world⟩

/-- A machine reaches another one by the turns that the loop takes in between. -/
inductive Reaches {Hidden : Type} : Machine Hidden → List (Turn Hidden) → Machine Hidden → Prop
  | rest (machine : Machine Hidden) : Reaches machine [] machine
  | turn {machine next final : Machine Hidden} {job : Job Hidden} {jobs : Stack (Job Hidden)}
      {turns : List (Turn Hidden)} (popped : machine.jobs.pop? = some (job, jobs))
      (performed : { machine with jobs := jobs }.perform? job = some next)
      (later : Reaches next turns final) : Reaches machine (⟨job, machine, next⟩ :: turns) final

theorem reachesTurn {Hidden : Type} {job : Job Hidden} {jobs : List (Job Hidden)}
    {values : List Float} {world : World Hidden} {next : Machine Hidden}
    (performed : (of jobs values world).perform? job = some next) :
    Reaches (of (job :: jobs) values world) [⟨job, of (job :: jobs) values world, next⟩] next :=
  .turn (Stack.popOfList job jobs) performed (.rest next)

theorem reachesAppend {Hidden : Type} {first middle last : Machine Hidden}
    {turns later : List (Turn Hidden)} (reached : Reaches first turns middle)
    (onward : Reaches middle later last) : Reaches first (turns ++ later) last := by
  induction reached with
  | rest machine => exact onward
  | turn popped performed _ ih => exact .turn popped performed (ih onward)

/-- Each turn lowers the remaining work by exactly one. -/
theorem workTurn {Hidden : Type} {machine next : Machine Hidden} {job : Job Hidden}
    {jobs : Stack (Job Hidden)} (popped : machine.jobs.pop? = some (job, jobs))
    (performed : { machine with jobs := jobs }.perform? job = some next) :
    next.work + 1 = machine.work := by
  have items := Stack.popSome machine.jobs jobs job popped
  have lower := workPerform { machine with jobs := jobs } next job performed
  simp only [work] at lower ⊢
  rw [lower, items]
  rfl

theorem workReaches {Hidden : Type} {machine final : Machine Hidden} {turns : List (Turn Hidden)}
    (reached : Reaches machine turns final) : final.work + turns.length = machine.work := by
  induction reached with
  | rest machine => rfl
  | turn popped performed _ ih =>
      have lower := workTurn popped performed
      rw [List.length_cons]
      omega

/-- Work remains exactly as long as jobs do. -/
theorem workZero {Hidden : Type} (machine : Machine Hidden) :
    machine.work = 0 ↔ machine.jobs.items = [] := by
  unfold work
  cases machine.jobs.items with
  | nil => simp [Job.workSum]
  | cons job rest =>
      have positive : 1 ≤ job.work := by
        cases job with
        | visit node => cases node <;> simp only [Job.work, Node.work] <;> omega
        | negate | combine operation | call callable => exact Nat.le_refl 1
      simp only [Job.workSum, reduceCtorEq, iff_false]
      omega

theorem runTurn {Hidden : Type} {machine next : Machine Hidden} {job : Job Hidden}
    {jobs : Stack (Job Hidden)} (popped : machine.jobs.pop? = some (job, jobs))
    (performed : { machine with jobs := jobs }.perform? job = some next) (peaks : Peaks) :
    machine.run? peaks = next.run? (peaks.raise next) := by
  rw [run?]
  split
  · rename_i bare
    rw [popped] at bare
    cases bare
  · rename_i top rest same
    rw [popped] at same
    cases same
    split
    · rename_i failed
      rw [performed] at failed
      cases failed
    · rename_i other same
      rw [performed] at same
      cases same
      rfl

theorem runBare {Hidden : Type} (machine : Machine Hidden) (peaks : Peaks)
    (bare : machine.jobs.items = []) : machine.run? peaks = some (machine, peaks) := by
  rw [run?]
  split
  · rfl
  · rename_i popped
    rw [Stack.popBare machine.jobs bare] at popped
    cases popped

/-- The loop goes on from every machine that it reaches, with the peaks of the turns so far. -/
theorem runReaches {Hidden : Type} {machine final : Machine Hidden} {turns : List (Turn Hidden)}
    (reached : Reaches machine turns final) (peaks : Peaks) :
    machine.run? peaks =
      final.run? (turns.foldl (fun peaks turn => peaks.raise turn.after) peaks) := by
  induction reached generalizing peaks with
  | rest machine => rfl
  | turn popped performed _ ih => rw [runTurn popped performed, ih, List.foldl_cons]

/-- The turns of a machine are the turns that the loop takes until no job is left. -/
def turns {Hidden : Type} (machine : Machine Hidden) : List (Turn Hidden) :=
  match _popped : machine.jobs.pop? with
  | none => []
  | some (job, jobs) =>
      match _performed : { machine with jobs := jobs }.perform? job with
      | none => []
      | some next => ⟨job, machine, next⟩ :: next.turns
termination_by machine.work
decreasing_by
  have lower := workTurn _popped _performed
  omega

theorem turnsTurn {Hidden : Type} {machine next : Machine Hidden} {job : Job Hidden}
    {jobs : Stack (Job Hidden)} (popped : machine.jobs.pop? = some (job, jobs))
    (performed : { machine with jobs := jobs }.perform? job = some next) :
    machine.turns = ⟨job, machine, next⟩ :: next.turns := by
  rw [turns]
  split
  · rename_i bare
    rw [popped] at bare
    cases bare
  · rename_i top rest same
    rw [popped] at same
    cases same
    split
    · rename_i failed
      rw [performed] at failed
      cases failed
    · rename_i other same
      rw [performed] at same
      cases same
      rfl

theorem turnsBare {Hidden : Type} (machine : Machine Hidden)
    (bare : machine.jobs.items = []) : machine.turns = [] := by
  rw [turns]
  split
  · rfl
  · rename_i popped
    rw [Stack.popBare machine.jobs bare] at popped
    cases popped

theorem turnsReaches {Hidden : Type} {machine final : Machine Hidden} {taken : List (Turn Hidden)}
    (reached : Reaches machine taken final) : machine.turns = taken ++ final.turns := by
  induction reached with
  | rest machine => rfl
  | turn popped performed _ ih => rw [turnsTurn popped performed, ih, List.cons_append]

end Machine

end ExprTree
