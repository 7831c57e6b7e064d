import ScenarioSampling.Model.Variable

/-!
# Model errors

What can be wrong with a registration or a query. Every cause is reported by the call that met it.
-/

namespace ScenarioSampling

/-- Why a model refuses a call. -/
inductive ModelError where
  | duplicateName (name : String)
  | unknownVariable (name : String)
  | modelClosed
  | alreadyClosed
  | notClosed
  | notFound (name : String)
  /-- The bounds are the wrong way round, or too wide for the type. -/
  | invalidDomain (name : String) (varType : VarType) (min max : Int)
  deriving DecidableEq, Repr

namespace ModelError

/-- The cause is the phase of the model, not its content. -/
def isPhaseError : ModelError → Bool
  | modelClosed | alreadyClosed | notClosed => true
  | _ => false

/-- The cause as a sentence. -/
def message : ModelError → String
  | duplicateName name => s!"variable `{name}` is already registered"
  | unknownVariable name => s!"constraint references unknown variable `{name}`"
  | modelClosed => "the model is closed; no further registration is allowed"
  | alreadyClosed => "the model is already closed"
  | notClosed => "the model is not closed yet"
  | notFound name => s!"no variable named `{name}`"
  | invalidDomain name varType min max =>
    s!"invalid domain [{min}, {max}] for {varType.text} variable `{name}`"

end ModelError

end ScenarioSampling
