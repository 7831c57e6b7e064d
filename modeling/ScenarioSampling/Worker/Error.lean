import ScenarioSampling.Bridge.Event
import ScenarioSampling.Model.Error

/-!
# Worker errors

What the owner of a worker can be told instead of an outcome.
-/

namespace ScenarioSampling

/-- Why there is no outcome. -/
inductive WorkerError where
  | model (e : ModelError)
  | protocolViolation (e : ProtocolViolation)
  | alreadyStarted
  | spawn (cause : String)
  | crashed (cause : String)
  deriving DecidableEq, Repr

namespace WorkerError

/-- The crash of the thread, by its text if it left one. -/
def ofCrash (c : Crash) : WorkerError := crashed (c.message?.getD "unknown panic payload")

/-- The worker itself failed while it ran. -/
def isFatal : WorkerError → Bool
  | protocolViolation _ | crashed _ => true
  | _ => false

/-- The error as a sentence. -/
def message : WorkerError → String
  | model e => e.message
  | protocolViolation e => e.message
  | alreadyStarted => "the worker was already started"
  | spawn cause => "failed to spawn the worker thread: " ++ cause
  | crashed cause => "the worker thread panicked: " ++ cause

end WorkerError

end ScenarioSampling
