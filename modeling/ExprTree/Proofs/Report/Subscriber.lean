/-
This file shows that the first start of tracing decides and that its outcome stays true.
-/

import ExprTree.Subscriber

namespace ExprTree

namespace Host

/-- The setting changes, another party installs a subscriber, or tracing starts. -/
inductive Action where
  | changeSetting (setting : FilterSetting)
  | install
  | startTracing
deriving DecidableEq, Repr

def Action.setting? : Action → Option FilterSetting
  | .changeSetting setting => some setting
  | .install | .startTracing => none

/-- Only a start of tracing has an outcome. -/
def act (host : Host) : Action → List Bool × Host
  | .changeSetting setting => ([], host.changeSetting setting)
  | .install => ([], (host.install .foreign).2)
  | .startTracing => ([host.startTracing.1], host.startTracing.2)

def run (host : Host) : List Action → List Bool × Host
  | [] => ([], host)
  | action :: rest =>
      let next := host.act action
      (next.1 ++ (next.2.run rest).1, (next.2.run rest).2)

theorem runCons (host : Host) (action : Action) (rest : List Action) :
    host.run (action :: rest) = ((host.act action).1 ++ ((host.act action).2.run rest).1,
      ((host.act action).2.run rest).2) := rfl

theorem runAppend (host : Host) (first second : List Action) :
    host.run (first ++ second) =
      ((host.run first).1 ++ ((host.run first).2.run second).1, ((host.run first).2.run second).2) := by
  induction first generalizing host with
  | nil => rfl
  | cons action rest ih => simp only [List.cons_append, runCons, ih, List.append_assoc]

/-- Repeated starts are a run of starts. -/
theorem timesRun (host : Host) (count : Nat) :
    host.startTracingTimes count = (host.run (List.replicate count .startTracing)).1 := by
  induction count generalizing host with
  | zero => rfl
  | succ count ih => exact congrArg (host.startTracing.1 :: ·) (ih host.startTracing.2)

/-- Without a start a host stays undecided, and its state follows from the actions so far. -/
structure Undecided (host : Host) (actions : List Action) (next : Host) : Prop where
  outcome : next.outcome = none
  notOwn : next.subscriber ≠ some .own
  setting : next.setting = (actions.filterMap Action.setting?).getLastD host.setting
  free : next.subscriber = none ↔ host.subscriber = none ∧ .install ∉ actions

theorem undecidedAct (host : Host) (outcome : host.outcome = none)
    (notOwn : host.subscriber ≠ some .own) (action : Action) (other : action ≠ .startTracing) :
    (host.act action).1 = [] ∧ Undecided host [action] (host.act action).2 := by
  cases action with
  | changeSetting setting =>
      have kept : Action.install ∉ [.changeSetting setting] := mt List.mem_singleton.mp nofun
      exact ⟨rfl, outcome, notOwn, rfl, (and_iff_left kept).symm⟩
  | install =>
      cases party : host.subscriber with
      | none =>
          simp only [act, Host.install, party]
          exact ⟨trivial, outcome, nofun, rfl, by simp⟩
      | some _ =>
          simp only [act, Host.install, party]
          exact ⟨trivial, outcome, notOwn, rfl, by simp [party]⟩
  | startTracing => exact absurd rfl other

theorem Undecided.cons {host middle last : Host} {action : Action} {rest : List Action}
    (here : Undecided host [action] middle) (there : Undecided middle rest last) :
    Undecided host (action :: rest) last where
  outcome := there.outcome
  notOwn := there.notOwn
  setting := by
    rw [there.setting, here.setting, ← List.singleton_append, List.filterMap_append]
    cases action with
    | changeSetting setting => exact List.getLastD_cons.symm
    | install | startTracing => rfl
  free := by
    rw [there.free, here.free, List.mem_singleton, List.mem_cons, not_or, and_assoc]

theorem undecidedRun (host : Host) (outcome : host.outcome = none)
    (notOwn : host.subscriber ≠ some .own) (actions : List Action)
    (first : .startTracing ∉ actions) :
    (host.run actions).1 = [] ∧ Undecided host actions (host.run actions).2 := by
  induction actions generalizing host with
  | nil => exact ⟨rfl, outcome, notOwn, rfl, (and_iff_left List.not_mem_nil).symm⟩
  | cons action rest ih =>
      rw [List.mem_cons, not_or] at first
      obtain ⟨silent, here⟩ := host.undecidedAct outcome notOwn action (Ne.symm first.1)
      obtain ⟨later, there⟩ := ih _ here.outcome here.notOwn first.2
      refine ⟨?_, here.cons there⟩
      rw [runCons, silent, later, List.append_nil]

/-- A settled host repeats an outcome that tells whether the subscriber is its own. -/
structure Settled (outcome : Bool) (host : Host) : Prop where
  repeats : host.outcome = some outcome
  truthful : outcome = true ↔ host.subscriber = some .own

section Settled
variable {outcome : Bool} {host : Host}

theorem Settled.start (settled : Settled outcome host) : host.startTracing = (outcome, host) := by
  rw [startTracing, settled.repeats]

/-- No action unsettles a host, and each start has its outcome. -/
theorem Settled.act (settled : Settled outcome host) (action : Action) :
    (host.act action).1 = List.replicate ([action].count .startTracing) outcome ∧
      Settled outcome (host.act action).2 := by
  cases action with
  | changeSetting setting => exact ⟨rfl, settled.repeats, settled.truthful⟩
  | install =>
      cases party : host.subscriber with
      | none =>
          have refused : outcome ≠ true := by
            rw [ne_eq, settled.truthful, party]
            exact nofun
          simp only [Host.act, Host.install, party]
          exact ⟨rfl, settled.repeats, iff_of_false refused nofun⟩
      | some _ =>
          simp only [Host.act, Host.install, party]
          exact ⟨rfl, settled⟩
  | startTracing =>
      rw [Host.act, settled.start]
      exact ⟨rfl, settled⟩

theorem Settled.run (settled : Settled outcome host) (actions : List Action) :
    (host.run actions).1 = List.replicate (actions.count .startTracing) outcome ∧
      Settled outcome (host.run actions).2 := by
  induction actions generalizing host with
  | nil => exact ⟨rfl, settled⟩
  | cons action rest ih =>
      obtain ⟨here, next⟩ := settled.act action
      obtain ⟨later, last⟩ := ih next
      refine ⟨?_, last⟩
      rw [runCons, here, later, List.replicate_append_replicate, ← List.count_append,
        List.singleton_append]

end Settled

/-- The first start installs the own subscriber if a filter is set and no other one is there. -/
theorem settledStart (host : Host) (undecided : host.outcome = none)
    (notOwn : host.subscriber ≠ some .own) :
    (host.startTracing.1 = true ↔
      (∃ text, host.setting = .directives text) ∧ host.subscriber = none) ∧
    Settled host.startTracing.1 host.startTracing.2 := by
  cases filter : host.setting with
  | directives text =>
      cases party : host.subscriber with
      | none =>
          simp only [startTracing, undecided, filter, install, party]
          exact ⟨iff_of_true trivial ⟨⟨text, rfl⟩, trivial⟩, rfl, iff_of_true rfl rfl⟩
      | some other =>
          simp only [startTracing, undecided, filter, install, party]
          rw [party] at notOwn
          exact ⟨iff_of_false Bool.false_ne_true fun both => Option.some_ne_none other both.2, rfl,
            iff_of_false Bool.false_ne_true notOwn⟩
  | unset | unreadable =>
      simp only [startTracing, undecided, filter]
      exact ⟨iff_of_false Bool.false_ne_true fun both => both.1.elim nofun, rfl,
        iff_of_false Bool.false_ne_true notOwn⟩

end Host

/--
The first start of tracing succeeds exactly with a readable filter setting and no subscriber before
it. Whatever follows, each later start has the same outcome and leaves the host as it is, and the
outcome tells whether the global subscriber is the own one.
-/
theorem startsRepeatFirst (setting : FilterSetting) (before after : List Host.Action)
    (first : .startTracing ∉ before) :
    let run := (Host.start setting).run (before ++ .startTracing :: after)
    ∃ outcome : Bool,
      run.1 = List.replicate (after.count .startTracing + 1) outcome ∧
      (outcome = true ↔
        (∃ text, (before.filterMap Host.Action.setting?).getLastD setting = .directives text) ∧
          .install ∉ before) ∧
      (outcome = true ↔ run.2.subscriber = some .own) ∧
      run.2.startTracing = (outcome, run.2) ∧
      ∀ count, run.2.startTracingTimes count = List.replicate count outcome := by
  obtain ⟨silent, undecided⟩ := (Host.start setting).undecidedRun rfl nofun before first
  obtain ⟨succeeds, decided⟩ := Host.settledStart _ undecided.outcome undecided.notOwn
  rw [undecided.setting, undecided.free] at succeeds
  obtain ⟨repeated, settled⟩ := decided.run after
  intro run
  have split : run = (_, _) := Host.runAppend (Host.start setting) before (.startTracing :: after)
  rw [silent, Host.runCons, Host.act] at split
  rw [split]
  refine ⟨_, ?_, succeeds.trans (and_congr_right fun _ => and_iff_right rfl), settled.truthful,
    settled.start, fun count => ?_⟩
  · rw [repeated]
    rfl
  · rw [Host.timesRun, (settled.run _).1, List.count_replicate_self]

/-- A filter that is set after the first start comes too late, and another subscriber gets in. -/
theorem startsRepeatFirstLate :
    let before : List Host.Action := [.changeSetting .unreadable]
    let after : List Host.Action :=
      [.changeSetting (.directives "trace"), .startTracing, .install, .startTracing]
    let run := (Host.start .unset).run (before ++ .startTracing :: after)
    run.1 = [false, false, false] ∧ run.2.subscriber = some .foreign ∧
      run.2.startTracing = (false, run.2) ∧ run.2.startTracingTimes 2 = [false, false] := by
  intro before after run
  obtain ⟨outcome, outcomes, _, truthful, same, times⟩ :=
    startsRepeatFirst .unset before after (by decide)
  have party : run.2.subscriber = some .foreign := rfl
  have failed : outcome = false := by
    rw [← Bool.not_eq_true, truthful]
    exact nofun
  rw [failed] at outcomes same times
  exact ⟨outcomes, party, same, times 2⟩

end ExprTree
