import ScenarioSampling.Outcome
import ScenarioSampling.Scoring
import ScenarioSampling.Monitor.Call
import ScenarioSampling.Sampling.Region
import ScenarioSampling.Text.FixedPlaces
import ScenarioSampling.Worker.Config
import ScenarioSampling.Worker.Error

/-!
# The journal

Whatever is worth telling happens as a `Notice`. Most notices are log records, with a level, a text
and named fields; the draws of a run and the calls heard by a recorder are notices only.
-/

namespace ScenarioSampling

/-- Something worth telling, with all that its text is made of. -/
inductive Notice where
  | variableRegistered (x : Variable)
  | constraintRegistered (index : ConstraintIndex) (c : Constraint)
  | modelClosed (vars aux constraints : Nat)
  | choiceUnknown (x : VarIndex) (min max : Int)
  | choiceEmpty (x : VarIndex) (min max : Int) (declared : Domain)
  | choiceRecorded (choice : Choice) (depth : Nat)
  | sharedTooLong (scenarioLen modelLen : Nat)
  | sharedOutside (x : VarIndex) (value : Int) (declared : Domain)
  | candidateDiscarded (fault : Fault) (sample : Nat)
  | eventSent (e : Event)
  | duplicateDropped (sequence : Nat)
  | eventReceived (e : Event) (observed : Nat)
  | reportSent (sequence : Nat)
  | reportRefused (e : ProtocolViolation)
  | samplingStarted (model : Model)
  | progress (samples faults scenarios : Nat) (best : Option Nat)
  | samplingFinished
  | workerStarted (seed : Nat) (discipline : Discipline) (sampler : String)
  | stopRequested
  | workerStopped (outcome : Outcome)
  | workerFailed (e : WorkerError)
  | drawn (candidate : Candidate)
  | heard (listener : String) (call : Call)
  deriving DecidableEq, Repr

/-- Levels of a log, the least severe first. -/
inductive Level where
  | trace
  | debug
  | info
  | warn
  | error
  deriving DecidableEq, Repr

namespace Level

/-- The place of a level in the order of severity. -/
def rank : Level → Nat
  | trace => 0
  | debug => 1
  | info => 2
  | warn => 3
  | error => 4

/-- The name of a level. -/
def text : Level → String
  | trace => "TRACE"
  | debug => "DEBUG"
  | info => "INFO"
  | warn => "WARN"
  | error => "ERROR"

end Level

/-- A line of the log: its level, what it says, and named values. -/
structure LogRecord where
  level : Level
  message : String
  fields : List (String × String)
  deriving DecidableEq, Repr

namespace Notice

/-- The log record of a notice, if it is one. -/
def record? : Notice → Option LogRecord
  | variableRegistered x => some ⟨.debug, "registered variable",
      [("index", x.index.text), ("name", x.name), ("kind", x.kind.title),
        ("domain", x.domain.text)]⟩
  | constraintRegistered index c => some ⟨.debug, "registered constraint",
      [("index", index.text), ("constraint", c.text)]⟩
  | modelClosed vars aux constraints => some ⟨.debug, "model closed",
      [("variables", toString vars), ("aux_variables", toString aux),
        ("constraints", toString constraints)]⟩
  | choiceUnknown x min max => some ⟨.warn, "choice on unknown variable ignored",
      [("variable", x.text), ("min", toString min), ("max", toString max)]⟩
  | choiceEmpty x min max declared => some ⟨.warn, "empty choice ignored",
      [("variable", x.text), ("min", toString min), ("max", toString max),
        ("declared", declared.text)]⟩
  | choiceRecorded choice depth => some ⟨.trace, "choice recorded",
      [("choice", choice.text), ("depth", toString depth)]⟩
  | sharedTooLong scenarioLen modelLen => some ⟨.warn,
      "shared scenario is longer than the model, extra entries ignored",
      [("scenario_len", toString scenarioLen), ("model_len", toString modelLen)]⟩
  | sharedOutside x value declared => some ⟨.warn,
      "shared value outside the declared domain ignored",
      [("variable", x.text), ("value", toString value), ("declared", declared.text)]⟩
  | candidateDiscarded fault sample => some ⟨.warn, "candidate discarded",
      [("fault", fault.message), ("sample", toString sample)]⟩
  | eventSent e => some ⟨.trace, "search event sent", [("event", e.text)]⟩
  | duplicateDropped sequence => some ⟨.trace, "duplicate scenario dropped",
      [("sequence", toString sequence)]⟩
  | eventReceived e observed => some ⟨.debug, "search event received",
      [("event", e.text), ("observed", toString observed)]⟩
  | reportSent sequence => some ⟨.debug, "promising scenario emitted",
      [("sequence", toString sequence)]⟩
  | reportRefused e => some ⟨.error, "scenario emitted after the bridge stopped",
      [("sequence", toString e.sequence), ("reason", e.reason.text)]⟩
  | samplingStarted model => some ⟨.info, "sampling started",
      [("variables", toString model.numVariables), ("constraints", toString model.numConstraints),
        ("search_space_log10", Text.fixedPlaces 2 model.searchSpaceLog10)]⟩
  | progress samples faults scenarios best => some ⟨.info, "sampling progress",
      [("samples", toString samples), ("faults", toString faults),
        ("best_score", best.elim "Inf" toString), ("scenarios", toString scenarios)]⟩
  | samplingFinished => some ⟨.info, "sampling finished", []⟩
  | workerStarted seed discipline sampler => some ⟨.info, "sampling worker started",
      [("seed", toString seed), ("discipline", discipline.text), ("sampler", sampler)]⟩
  | stopRequested => some ⟨.debug, "stop requested", []⟩
  | workerStopped outcome => some ⟨.info, "sampling worker stopped",
      [("reason", outcome.reason.text), ("samples", toString outcome.statistics.samples),
        ("faults", toString outcome.statistics.faults),
        ("scenarios", toString outcome.statistics.emitted),
        ("best_score", optionText toString outcome.statistics.best)]⟩
  | workerFailed e => some ⟨.error, "sampling worker failed", [("error", e.message)]⟩
  | drawn _ => none
  | heard _ _ => none

/-- The notice comes from the worker's side, not from its owner or the search. -/
def isWorkers : Notice → Bool
  | variableRegistered _ | constraintRegistered .. | modelClosed .. | eventSent _
  | duplicateDropped _ | workerStarted .. | stopRequested => false
  | _ => true

end Notice

namespace Model

/-- What is told about a registration that gave `index` and left the model `m`. -/
def registrationNotices (m : Model) (index : Nat) : Registration → List Notice
  | .decision .. | .auxiliary .. =>
    (m.vars[index]?.map Notice.variableRegistered).toList
  | .linear .. | .product .. =>
    (m.constraints[index]?.map fun c => Notice.constraintRegistered ⟨index⟩ c).toList

/-- What is told when a model is closed. -/
def closeNotices (m : Model) : List Notice :=
  [.modelClosed m.numVariables m.numAux m.numConstraints]

/-- Registers one after the other, passing over what is refused. -/
def registerAll (m : Model) : List Registration → Model × List Notice
  | [] => (m, [])
  | r :: rest =>
    match m.register r with
    | .error _ => m.registerAll rest
    | .ok (index, m) =>
      let (final, notices) := m.registerAll rest
      (final, m.registrationNotices index r ++ notices)

/-- The closed model of a list of registrations, with what is told meanwhile. -/
def build (registrations : List Registration) : Model × List Notice :=
  let (m, notices) := empty.registerAll registrations
  match m.close with
  | .ok closed => (closed, notices ++ closed.closeNotices)
  | .error _ => (m, notices)

end Model

namespace Region

/-- What is told about a choice: why it was ignored, or what is on the stack with it. -/
def chooseNotices (d : Region) (x : VarIndex) (min max : Int) : List Notice :=
  match d.restrict x min max with
  | .error .unknownVariable => [.choiceUnknown x min max]
  | .error (.emptyDomain declared) => [.choiceEmpty x min max declared]
  | .ok domain => [.choiceRecorded ⟨x, domain⟩ (d.push ⟨x, domain⟩).depth]

/-- What is told about a shared scenario: that it is too long, and which values were ignored. -/
def shareNotices (d : Region) (s : Scenario) : List Notice :=
  let tooLong := if d.length < s.length then [Notice.sharedTooLong s.length d.length] else []
  tooLong ++ s.assigned.filterMap fun (x, v) =>
    match d.declared[x.val]? with
    | none => none
    | some declared =>
      if declared.contains v then none else some (Notice.sharedOutside x v declared)

/-- What is told about an event that the region follows. -/
def applyNotices (d : Region) : Event → List Notice
  | .choice x min max => d.chooseNotices x min max
  | .shared s => d.shareNotices s
  | .failure | .globalFailure | .strategyFound => []

end Region

end ScenarioSampling
