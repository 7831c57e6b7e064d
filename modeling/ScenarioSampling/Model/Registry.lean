import ScenarioSampling.Assignment
import ScenarioSampling.Model.Constraint
import ScenarioSampling.Model.Error

/-!
# The model

The variables and constraints of a quantified problem, registered one after the other and frozen by
`Model.close`. Names are resolved to indices as they arrive, through the table of names, so a
constraint never mentions a variable that is not there.
-/

namespace ScenarioSampling

/-- Whether a model still takes registrations. -/
inductive Phase where
  | building
  | closed
  deriving DecidableEq, Repr

/-- The name of a phase. -/
def Phase.text : Phase → String
  | .building => "Building"
  | .closed => "Closed"

/-- The variables and constraints of a problem, in the order of their registration. -/
structure Model where
  phase : Phase
  vars : List Variable
  constraints : List Constraint
  /-- The index of every name, latest first. -/
  names : List (String × VarIndex)
  numAux : Nat
  deriving DecidableEq, Repr

/-- A call that adds a variable or a constraint, which mentions variables by name. -/
inductive Registration where
  | decision (name : String) (quantifier : Quantifier) (varType : VarType) (min max : Int)
  | auxiliary (name : String) (varType : VarType) (min max : Int)
  | linear (terms : List (Int × String)) (comparison : Comparison) (rhs : String)
  | product (factor : Int) (left right : String) (comparison : Comparison) (result : String)
  deriving DecidableEq, Repr

namespace Model

/-- A model without variables or constraints, open for registration. -/
def empty : Model := ⟨.building, [], [], [], 0⟩

/-- The model takes no further registrations. -/
def isClosed (m : Model) : Bool := m.phase == .closed

/-- How many variables there are, auxiliary ones included. -/
def numVariables (m : Model) : Nat := m.vars.length

/-- How many variables are quantified. -/
def numDecision (m : Model) : Nat := m.vars.length - m.numAux

/-- How many constraints there are. -/
def numConstraints (m : Model) : Nat := m.constraints.length

/-- The declared domains, in index order. -/
def domains (m : Model) : List Domain := m.vars.map Variable.domain

/-- The index of a name, if it was registered. -/
def index? (m : Model) (name : String) : Option VarIndex := m.names.lookup name

/-- Refuses a registration once the model is closed. -/
def ensureBuilding (m : Model) : Except ModelError Unit :=
  if m.isClosed then .error .modelClosed else .ok ()

/-- The declared domain, if the type admits it. -/
def validDomain (name : String) (varType : VarType) (min max : Int) : Except ModelError Domain :=
  match Interval.of? .int64 min max with
  | none => .error (.invalidDomain name varType min max)
  | some domain =>
    match varType.admissible? with
    | none => .ok domain
    | some widest =>
      if domain.isSubsetOf widest then .ok domain
      else .error (.invalidDomain name varType min max)

/-- Adds a variable with the next index; the phase is checked first, then the domain, then the
name. -/
def addVariable (m : Model) (name : String) (kind : VarKind) (varType : VarType) (min max : Int) :
    Except ModelError (VarIndex × Model) := do
  m.ensureBuilding
  let domain ← validDomain name varType min max
  match m.index? name with
  | some _ => throw (.duplicateName name)
  | none =>
    let index : VarIndex := ⟨m.vars.length⟩
    return (index, { m with
      names := (name, index) :: m.names
      vars := m.vars ++ [⟨name, index, kind, varType, domain⟩] })

/-- Adds a quantified variable. -/
def addDecision (m : Model) (name : String) (quantifier : Quantifier) (varType : VarType)
    (min max : Int) : Except ModelError (VarIndex × Model) :=
  m.addVariable name (.decision quantifier) varType min max

/-- Adds an auxiliary variable, and counts it among these. -/
def addAuxiliary (m : Model) (name : String) (varType : VarType) (min max : Int) :
    Except ModelError (VarIndex × Model) := do
  let (index, m) ← m.addVariable name .auxiliary varType min max
  return (index, { m with numAux := m.numAux + 1 })

/-- The index of a name that a constraint mentions. -/
def resolve (m : Model) (name : String) : Except ModelError VarIndex :=
  match m.index? name with
  | some index => .ok index
  | none => .error (.unknownVariable name)

/-- The terms with their names resolved, up to the first name that is unknown. -/
def resolveTerms (m : Model) : List (Int × String) → Except ModelError (List Term)
  | [] => .ok []
  | (coefficient, name) :: rest => do
    let index ← m.resolve name
    let terms ← m.resolveTerms rest
    return ⟨coefficient, index⟩ :: terms

/-- Adds a constraint with the next index. -/
def post (m : Model) (c : Constraint) : ConstraintIndex × Model :=
  (⟨m.constraints.length⟩, { m with constraints := m.constraints ++ [c] })

/-- Adds a linear relation. The names of the terms are resolved first, from left to right. -/
def addLinear (m : Model) (terms : List (Int × String)) (comparison : Comparison) (rhs : String) :
    Except ModelError (ConstraintIndex × Model) := do
  m.ensureBuilding
  let terms ← m.resolveTerms terms
  let rhs ← m.resolve rhs
  return m.post (.linear ⟨terms, comparison, rhs⟩)

/-- Adds a product relation. The names are resolved from left to right. -/
def addProduct (m : Model) (factor : Int) (left right : String) (comparison : Comparison)
    (result : String) : Except ModelError (ConstraintIndex × Model) := do
  m.ensureBuilding
  let left ← m.resolve left
  let right ← m.resolve right
  let result ← m.resolve result
  return m.post (.product ⟨factor, left, right, comparison, result⟩)

/-- The number that the new entry got among its kind, and the model with it. -/
def register (m : Model) : Registration → Except ModelError (Nat × Model)
  | .decision name quantifier varType min max => do
    let (index, m) ← m.addDecision name quantifier varType min max
    return (index.val, m)
  | .auxiliary name varType min max => do
    let (index, m) ← m.addAuxiliary name varType min max
    return (index.val, m)
  | .linear terms comparison rhs => do
    let (index, m) ← m.addLinear terms comparison rhs
    return (index.val, m)
  | .product factor left right comparison result => do
    let (index, m) ← m.addProduct factor left right comparison result
    return (index.val, m)

/-- Closes the model, which can be done once. -/
def close (m : Model) : Except ModelError Model :=
  if m.isClosed then .error .alreadyClosed else .ok { m with phase := .closed }

/-- The index of a name, or the error of a query for one that is not there. -/
def lookupIndex (m : Model) (name : String) : Except ModelError VarIndex :=
  match m.index? name with
  | some index => .ok index
  | none => .error (.notFound name)

/-- The variable at an index, if there is one. -/
def getVariable? (m : Model) (x : VarIndex) : Option Variable := m.vars[x.val]?

/-- The variable at an index that should be there. -/
def variableAt (m : Model) (x : VarIndex) : Except Crash Variable :=
  match m.vars[x.val]? with
  | some v => .ok v
  | none => .error (.noVariable m.vars.length x.val)

/-- The decimal logarithm of the size of a domain; one whose size is no 64-bit count is taken to
have `2 ^ 64` values. -/
def domainLog10 (d : Domain) : Float :=
  match d.cardinality with
  | .ok (some n) => n.toUInt64.toFloat.log10
  | _ => 64.0 * 0.301029995663981195213738894724493027

/-- The decimal logarithm of the number of candidates, summed in index order. -/
def searchSpaceLog10 (m : Model) : Float := m.domains.foldl (fun acc d => acc + domainLog10 d) 0.0

/-- A line for each constraint, where the list starts with the one numbered `i`. -/
def constraintLines (i : Nat) : List Constraint → List String
  | [] => []
  | c :: cs =>
    let index : ConstraintIndex := ⟨i⟩
    s!"   {index.text}: {c.text}\n" :: constraintLines (i + 1) cs

/-- The phase, then a line for each variable and for each constraint. -/
def text (m : Model) : String :=
  s!"ModelMirror ({m.phase.text})\n"
    ++ String.join (m.vars.map fun x => s!"   {x.text}\n")
    ++ String.join (constraintLines 0 m.constraints)

end Model

end ScenarioSampling
