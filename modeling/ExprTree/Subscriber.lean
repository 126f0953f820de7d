/-
This file installs the global subscriber of a host.
-/

namespace ExprTree

/-- The filter setting of the environment is unset, not readable as text, or a text. -/
inductive FilterSetting where
  | unset
  | unreadable
  | directives (text : String)
deriving DecidableEq, Repr

/-- The global subscriber is the one of this library or belongs to another party. -/
inductive Subscriber where
  | own
  | foreign
deriving DecidableEq, Repr

/-- A host keeps its global subscriber and the outcome of its first start of tracing. -/
structure Host where
  setting : FilterSetting
  subscriber : Option Subscriber
  outcome : Option Bool
deriving DecidableEq, Repr

namespace Host

def start (setting : FilterSetting) : Host := ⟨setting, none, none⟩

def changeSetting (host : Host) (setting : FilterSetting) : Host :=
  { host with setting := setting }

/-- Only the first subscriber of a host is installed. -/
def install (host : Host) (subscriber : Subscriber) : Bool × Host :=
  match host.subscriber with
  | none => (true, { host with subscriber := some subscriber })
  | some _ => (false, host)

/-- The first start of tracing decides, and each later one repeats its outcome. -/
def startTracing (host : Host) : Bool × Host :=
  match host.outcome, host.setting with
  | some outcome, _ => (outcome, host)
  | none, .directives _ =>
      let (installed, host) := host.install .own
      (installed, { host with outcome := some installed })
  | none, _ => (false, { host with outcome := some false })

/-- The outcomes of repeated starts stand in order. -/
def startTracingTimes : Nat → Host → List Bool
  | 0, _ => []
  | count + 1, host =>
      let (outcome, host) := host.startTracing
      outcome :: startTracingTimes count host

end Host

end ExprTree
