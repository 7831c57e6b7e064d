import ScenarioSampling.Crash
import ScenarioSampling.Number

/-!
# Indices

Variables and constraints are numbered in the order of their registration, each kind on its own.
-/

namespace ScenarioSampling

/-- What is numbered. -/
inductive IndexKind where
  | ofVar
  | ofConstraint
  deriving DecidableEq, Repr

/-- A number among the variables or among the constraints, which cannot be mixed up. -/
structure Index (k : IndexKind) where
  val : Nat
  deriving DecidableEq, Repr

/-- The number of a variable. -/
abbrev VarIndex := Index .ofVar

/-- The number of a constraint. -/
abbrev ConstraintIndex := Index .ofConstraint

namespace Index

variable {k : IndexKind}

/-- The number after this one, which has to be a 64-bit count. -/
def next (i : Index k) : Except Crash (Index k) :=
  if i.val < maxCount then .ok ⟨i.val + 1⟩ else .error .overflow

/-- Indices are ordered as numbers. -/
def order (i j : Index k) : Ordering := compare i.val j.val

/-- The name of what is numbered. -/
def kindText : IndexKind → String
  | .ofVar => "VarIndex"
  | .ofConstraint => "ConstraintIndex"

/-- The number, behind the name of what is numbered. -/
def text (i : Index k) : String := s!"{kindText k}({i.val})"

end Index

end ScenarioSampling
