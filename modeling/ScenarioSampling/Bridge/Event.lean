import ScenarioSampling.Assignment

/-!
# Events and reports

What the exact search tells the worker, why the worker stops listening, and what it reports back.
-/

namespace ScenarioSampling

/-- What the search tells the worker about its progress. -/
inductive Event where
  /-- The search branched on a variable and restricted it. -/
  | choice (var : VarIndex) (min max : Int)
  | failure
  | globalFailure
  | strategyFound
  /-- The search shares its partial assignment. -/
  | shared (scenario : Scenario)
  deriving DecidableEq, Repr

/-- Why the worker's end of the bridge no longer listens. -/
inductive StopReason where
  | globalFailure
  | strategyFound
  /-- The owner of the worker asked for it, or is gone. -/
  | stopRequested
  | searchDisconnected
  deriving DecidableEq, Repr

namespace Event

/-- An event that ends the search. -/
def isTerminal : Event → Bool
  | globalFailure | strategyFound => true
  | _ => false

/-- What the worker's end stops with when it reads the event. -/
def stopReason? : Event → Option StopReason
  | globalFailure => some .globalFailure
  | strategyFound => some .strategyFound
  | _ => none

theorem isSome_stopReason? (e : Event) : e.stopReason?.isSome = e.isTerminal := by
  cases e <;> rfl

theorem exists_stopReason?_iff {e : Event} :
    (∃ reason, e.stopReason? = some reason) ↔ e.isTerminal = true := by
  rw [← isSome_stopReason?, Option.isSome_iff_exists]

theorem stopReason?_eq_none_iff {e : Event} : e.stopReason? = none ↔ e.isTerminal = false := by
  rw [← isSome_stopReason?, Option.isSome_eq_false_iff, Option.isNone_iff_eq_none]

/-- The name of the kind of event. -/
def name : Event → String
  | choice .. => "ChoiceMade"
  | failure => "FailureAtNode"
  | globalFailure => "GlobalFailure"
  | strategyFound => "StrategyFound"
  | shared _ => "ScenarioShared"

/-- The name of the event with what it carries. -/
def text : Event → String
  | choice var min max => s!"ChoiceMade({var.text} ∈ [{min}, {max}])"
  | shared scenario => "ScenarioShared" ++ scenario.text
  | e => e.name

end Event

namespace StopReason

/-- The search has come to its end, so that there is nothing left to report for. -/
def isTerminal : StopReason → Bool
  | globalFailure | strategyFound => true
  | _ => false

/-- The reason in two words. -/
def text : StopReason → String
  | globalFailure => "global failure"
  | strategyFound => "strategy found"
  | stopRequested => "stop requested"
  | searchDisconnected => "search disconnected"

end StopReason

/-- Whether the worker may go on sampling. -/
inductive Flow where
  | proceed
  | halt (reason : StopReason)
  deriving DecidableEq, Repr

/-- The worker is to stop. -/
def Flow.isHalt : Flow → Bool
  | .proceed => false
  | .halt _ => true

/-- A scenario on its way to the search. Sequence numbers increase along the reports of a worker,
and `observed` is how many events the worker had read when it wrote the report. -/
structure Report where
  scenario : Scenario
  score : Nat
  sequence : Nat
  observed : Nat
  deriving DecidableEq, Repr

namespace Report

/-- The scenario violates no constraint. -/
def isSatisfying (r : Report) : Bool := r.score == 0

/-- The sequence number, the score and the scenario. -/
def text (r : Report) : String :=
  s!"PromisingScenario(#{r.sequence}, score: {r.score}, {r.scenario.text})"

end Report

/-- What happens to an event or a report at the queues between the search and the worker. -/
inductive Transfer where
  | pushed (e : Event)
  | read (e : Event)
  | sent (r : Report)
  /-- The search had let go of its end when the worker turned to it with a report. -/
  | bounced (r : Report)
  deriving DecidableEq, Repr

/-- A report was attempted after the worker's end had stopped. -/
structure ProtocolViolation where
  sequence : Nat
  reason : StopReason
  deriving DecidableEq, Repr

/-- What is said to the owner of the worker. -/
def ProtocolViolation.message (e : ProtocolViolation) : String :=
  s!"protocol violation: scenario #{e.sequence} emitted after the bridge stopped ({e.reason.text})"

end ScenarioSampling
