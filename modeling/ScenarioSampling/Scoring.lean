import ScenarioSampling.Model.Registry

/-!
# Scoring

The score of a candidate is the sum of the penalties of the constraints, in registration order.
An evaluation or a sum without room in its format is a `Fault`, which costs the candidate and
nothing else.
-/

namespace ScenarioSampling

/-- Why a candidate has no score. -/
inductive Fault where
  | overflow (constraint : ConstraintIndex)
  | sizeMismatch (expected actual : Nat)
  | scoreOverflow (constraint : ConstraintIndex)
  deriving DecidableEq, Repr

/-- The fault as a sentence. -/
def Fault.message : Fault → String
  | .overflow c => s!"arithmetic overflow while evaluating {c.text}"
  | .sizeMismatch expected actual =>
    s!"instance has {actual} values but the model has {expected} variables"
  | .scoreOverflow c => s!"violation score overflowed at {c.text}"

/-- Gives a candidate for a model a score, or says what is wrong with it. -/
class Scorer (ν : Type) where
  name : ν → String
  score : ν → Model → Candidate → Except Crash (Except Fault Nat)

/-- The penalty of one constraint, whose evaluation may have no room. -/
def penaltyOf (index : ConstraintIndex) (c : Constraint) (values : List Int) :
    Except Crash (Except Fault Nat) := do
  match ← c.sides values with
  | none => return .error (.overflow index)
  | some (lhs, rhs) => return .ok (c.comparison.penalty lhs rhs)

/-- The sum of the penalties of constraints `i, i + 1, …` on top of `total`. -/
def scoreFrom (values : List Int) : Nat → List Constraint → Nat → Except Crash (Except Fault Nat)
  | _, [], total => .ok (.ok total)
  | i, c :: cs, total => do
    match ← penaltyOf ⟨i⟩ c values with
    | .error fault => return .error fault
    | .ok penalty =>
      if total + penalty ≤ maxCount then scoreFrom values (i + 1) cs (total + penalty)
      else return .error (.scoreOverflow ⟨i⟩)

/-- The penalties of constraints `i, i + 1, …`. -/
def breakdownFrom (values : List Int) :
    Nat → List Constraint → Except Crash (Except Fault (List Nat))
  | _, [] => .ok (.ok [])
  | i, c :: cs => do
    match ← penaltyOf ⟨i⟩ c values with
    | .error fault => return .error fault
    | .ok penalty =>
      match ← breakdownFrom values (i + 1) cs with
      | .error fault => return .error fault
      | .ok penalties => return .ok (penalty :: penalties)

/-- Adds up the penalties of the constraints. -/
inductive ConstraintScorer where
  | mk
  deriving DecidableEq, Repr

namespace ConstraintScorer

/-- The name of the scorer. -/
def title : String := "ConstraintScorer"

/-- The sum of all penalties for a candidate of the right length. -/
def score (m : Model) (c : Candidate) : Except Crash (Except Fault Nat) :=
  if c.length = m.numVariables then scoreFrom c.values 0 m.constraints 0
  else .ok (.error (.sizeMismatch m.numVariables c.length))

/-- The penalty of each constraint for a candidate of the right length. -/
def breakdown (m : Model) (c : Candidate) : Except Crash (Except Fault (List Nat)) :=
  if c.length = m.numVariables then breakdownFrom c.values 0 m.constraints
  else .ok (.error (.sizeMismatch m.numVariables c.length))

instance : Scorer ConstraintScorer := ⟨fun _ => title, fun _ => score⟩

end ConstraintScorer

end ScenarioSampling
