import ScenarioSampling.Interval
import ScenarioSampling.Model.Index

/-!
# Variables

A variable is quantified or auxiliary, ranges over integers or truth values, and keeps the domain
it was declared with.
-/

namespace ScenarioSampling

/-- Who chooses the value of a variable. -/
inductive Quantifier where
  /-- Chosen by the solver. -/
  | existential
  /-- Chosen by the adversary. -/
  | universal
  deriving DecidableEq, Repr

/-- The quantifier as a keyword. -/
def Quantifier.text : Quantifier → String
  | .existential => "exists"
  | .universal => "forall"

/-- The quantifier as a name. -/
def Quantifier.title : Quantifier → String
  | .existential => "Exists"
  | .universal => "Forall"

/-- What a variable ranges over. -/
inductive VarType where
  | int
  /-- Truth values are the integers `0` and `1`. -/
  | bool
  deriving DecidableEq, Repr

namespace VarType

/-- The name of a type. -/
def text : VarType → String
  | int => "int"
  | bool => "bool"

/-- The domain of all truth values. -/
def truthValues : Domain := ⟨0, 1, by decide, by decide, by decide⟩

/-- The widest domain that a variable of this type may declare, if it is restricted. -/
def admissible? : VarType → Option Domain
  | int => none
  | bool => some truthValues

end VarType

/-- Whether a variable belongs to the problem or helps to state it. -/
inductive VarKind where
  | decision (quantifier : Quantifier)
  /-- A helper quantity, such as the result of a product. -/
  | auxiliary
  deriving DecidableEq, Repr

/-- The kind as a name, with its quantifier. -/
def VarKind.title : VarKind → String
  | .decision q => s!"Decision({q.title})"
  | .auxiliary => "Auxiliary"

/-- A variable as it was declared. -/
structure Variable where
  name : String
  index : VarIndex
  kind : VarKind
  varType : VarType
  domain : Domain
  deriving DecidableEq, Repr

namespace Variable

/-- Who chooses the value, unless the variable is auxiliary. -/
def quantifier? (x : Variable) : Option Quantifier :=
  match x.kind with
  | .decision q => some q
  | .auxiliary => none

/-- The variable only helps to state the problem. -/
def isAuxiliary (x : Variable) : Bool := x.kind == .auxiliary

/-- The index, role, type, name and domain of a variable. -/
def text (x : Variable) : String :=
  let role := match x.kind with
    | .decision q => q.text
    | .auxiliary => "aux"
  s!"{x.index.text} {role} {x.varType.text}: {x.name} ∈ {x.domain.text}"

end Variable

end ScenarioSampling
