import ScenarioSampling.Crash
import ScenarioSampling.Number
import ScenarioSampling.Model.Index

/-!
# Constraints

Two relations: a linear sum `c₁·x₁ + … + cₙ·xₙ` compared with a variable, and a scaled product
`c·x·y` compared with a variable. Evaluation is exact or refused: it goes from left to right and
gives `none` at the first intermediate result that is no 64-bit integer. Reading a variable that the
values do not cover is a crash, at the moment it is read.

The penalty of a violated comparison is how far one side has to move for it to hold.
-/

namespace ScenarioSampling

/-- How the left side of a constraint is compared with its right side. -/
inductive Comparison where
  | eq
  | ne
  | lt
  | le
  | gt
  | ge
  deriving DecidableEq, Repr

namespace Comparison

/-- The comparison holds between these two numbers. -/
def holds (c : Comparison) (lhs rhs : Int) : Bool :=
  match c with
  | eq => lhs == rhs
  | ne => lhs != rhs
  | lt => lhs < rhs
  | le => lhs ≤ rhs
  | gt => rhs < lhs
  | ge => rhs ≤ lhs

/-- Zero if the comparison holds. A strict one that fails costs one more than the distance, so its
boundary is never free, and equal sides that should differ are one step from it. -/
def penalty (c : Comparison) (lhs rhs : Int) : Nat :=
  if c.holds lhs rhs then 0
  else
    let distance := (lhs - rhs).natAbs
    match c with
    | eq | le | ge => saturate distance
    | lt | gt => saturate (distance + 1)
    | ne => 1

/-- The sign for a comparison. -/
def symbol : Comparison → String
  | eq => "=="
  | ne => "!="
  | lt => "<"
  | le => "<="
  | gt => ">"
  | ge => ">="

end Comparison

/-- A variable times a coefficient. -/
structure Term where
  coefficient : Int
  var : VarIndex
  deriving DecidableEq, Repr

/-- A sum of terms that is compared with a variable. -/
structure LinearRelation where
  terms : List Term
  comparison : Comparison
  rhs : VarIndex
  deriving DecidableEq, Repr

/-- A product of two variables and a factor that is compared with a variable. -/
structure ProductRelation where
  factor : Int
  left : VarIndex
  right : VarIndex
  comparison : Comparison
  result : VarIndex
  deriving DecidableEq, Repr

/-- A relation between variables that a solution has to satisfy. -/
inductive Constraint where
  | linear (c : LinearRelation)
  | product (c : ProductRelation)
  deriving DecidableEq, Repr

/-- The value of a variable, in a list that should cover it. -/
def valueAt (values : List Int) (x : VarIndex) : Except Crash Int :=
  match values[x.val]? with
  | some v => .ok v
  | none => .error (.outOfRange values.length x.val)

namespace LinearRelation

/-- Adds the terms to `acc`, one after the other. -/
def sumFrom (values : List Int) : List Term → Int → Except Crash (Option Int)
  | [], acc => .ok (some acc)
  | t :: ts, acc => do
    let v ← valueAt values t.var
    match IntFormat.int64.checked (t.coefficient * v) with
    | none => return none
    | some product =>
      match IntFormat.int64.checked (acc + product) with
      | none => return none
      | some acc => sumFrom values ts acc

/-- The sum of all terms, added from left to right. -/
def lhsValue (c : LinearRelation) (values : List Int) : Except Crash (Option Int) :=
  sumFrom values c.terms 0

end LinearRelation

/-- The factor times the left value, and that times the right value. -/
def ProductRelation.lhsValue (c : ProductRelation) (values : List Int) :
    Except Crash (Option Int) := do
  let left ← valueAt values c.left
  match IntFormat.int64.checked (c.factor * left) with
  | none => return none
  | some scaled =>
    let right ← valueAt values c.right
    return IntFormat.int64.checked (scaled * right)

namespace Constraint

/-- How the two sides are compared. -/
def comparison : Constraint → Comparison
  | linear c => c.comparison
  | product c => c.comparison

/-- The variable on the right. -/
def target : Constraint → VarIndex
  | linear c => c.rhs
  | product c => c.result

/-- The value of the left side, if each step of its evaluation has room. -/
def lhsValue (c : Constraint) (values : List Int) : Except Crash (Option Int) :=
  match c with
  | linear c => c.lhsValue values
  | product c => c.lhsValue values

/-- Both sides; the right one is read only once the left one is known. -/
def sides (c : Constraint) (values : List Int) : Except Crash (Option (Int × Int)) := do
  match ← c.lhsValue values with
  | none => return none
  | some lhs =>
    let rhs ← valueAt values c.target
    return some (lhs, rhs)

/-- Every variable mentioned, in reading order. -/
def vars : Constraint → List VarIndex
  | linear c => c.terms.map Term.var ++ [c.rhs]
  | product c => [c.left, c.right, c.result]

/-- The variable with the largest index among those mentioned. -/
def maxVariable (c : Constraint) : Option VarIndex :=
  c.vars.foldl (fun best x => match best with
    | none => some x
    | some y => if y.val ≤ x.val then some x else some y) none

/-- The coefficient, a star and the variable. -/
def termText (t : Term) : String := s!"{t.coefficient}*x{t.var.val}"

/-- The left side, the sign of the comparison and the variable on the right. -/
def text : Constraint → String
  | linear c =>
    let sum := if c.terms.isEmpty then "0" else " + ".intercalate (c.terms.map termText)
    s!"{sum} {c.comparison.symbol} x{c.rhs.val}"
  | product c =>
    s!"{c.factor}*x{c.left.val}*x{c.right.val} {c.comparison.symbol} x{c.result.val}"

end Constraint

end ScenarioSampling
