import ScenarioSampling.Bridge.Event
import ScenarioSampling.Model.Registry

/-!
# The sampled region

A `Region` is what candidates are drawn from: the declared domain of every variable, narrowed by
what the search has chosen. The choices form a stack in time order: one on a variable that is
already there takes the search back to that decision, so its entry and all above go first, and a
failure takes the latest one off.

A shared scenario pins the variables it assigns until the next choice or failure, when the current
domains are rebuilt from the stack. A choice that needs no rebuilding only changes its own variable.
-/

namespace ScenarioSampling

/-- A variable that the search branched on, with what it left of the domain. -/
structure Choice where
  var : VarIndex
  domain : Domain
  deriving DecidableEq, Repr

/-- The variable and the domain that was left. -/
def Choice.text (c : Choice) : String := s!"{c.var.text} ∈ {c.domain.text}"

/-- The domains that candidates are drawn from, with what led to them. -/
structure Region where
  declared : List Domain
  current : List Domain
  /-- The choice stack, oldest first. -/
  choices : List Choice
  pinned : List Bool
  numPinned : Nat
  deriving DecidableEq, Repr

/-- Why a choice is ignored. -/
inductive ChoiceRefusal where
  | unknownVariable
  /-- The bounds leave nothing of the declared domain. -/
  | emptyDomain (declared : Domain)
  deriving DecidableEq, Repr

namespace Region

/-- The region in which nothing was chosen or shared. -/
def ofDeclared (declared : List Domain) : Region where
  declared := declared
  current := declared
  choices := []
  pinned := declared.map fun _ => false
  numPinned := 0

/-- The region of all candidates for a model. -/
def ofModel (m : Model) : Region := ofDeclared m.domains

/-- How many variables there are. -/
def length (d : Region) : Nat := d.declared.length

/-- How many choices are on the stack. -/
def depth (d : Region) : Nat := d.choices.length

/-- The current domain of a variable that should be there. -/
def domainAt (d : Region) (x : VarIndex) : Except Crash Domain :=
  match d.current[x.val]? with
  | some a => .ok a
  | none => .error (.noDomain d.length x.val)

/-- Narrows the declared domains by a stack of choices, oldest first. -/
def narrow (declared : List Domain) (choices : List Choice) : List Domain :=
  choices.foldl (fun current c => current.set c.var.val c.domain) declared

/-- Takes the current domains from the stack again, without pins. -/
def rebuild (d : Region) : Region :=
  { d with
    current := narrow d.declared d.choices
    pinned := d.pinned.map fun _ => false
    numPinned := 0 }

/-- What is left of the declared domain of `x` within `[min, max]`. -/
def restrict (d : Region) (x : VarIndex) (min max : Int) : Except ChoiceRefusal Domain :=
  match d.declared[x.val]? with
  | none => .error .unknownVariable
  | some declared =>
    match (Interval.of? .int64 min max).bind fun a => a.intersection declared with
    | none => .error (.emptyDomain declared)
    | some domain => .ok domain

/-- Puts a choice on the stack, above the entries below an earlier one on the same variable. -/
def push (d : Region) (c : Choice) : Region :=
  match d.choices.findIdx? fun e => e.var == c.var with
  | some position => rebuild { d with choices := d.choices.take position ++ [c] }
  | none =>
    if 0 < d.numPinned then rebuild { d with choices := d.choices ++ [c] }
    else
      { d with
        choices := d.choices ++ [c]
        current := d.current.set c.var.val c.domain }

/-- Follows a choice, unless it leaves nothing of the declared domain. -/
def choose (d : Region) (x : VarIndex) (min max : Int) :
    Except ChoiceRefusal Region :=
  match d.restrict x min max with
  | .error refusal => .error refusal
  | .ok domain => .ok (d.push ⟨x, domain⟩)

/-- Drops the latest choice, and says whether there was one. -/
def fail (d : Region) : Region × Bool :=
  (rebuild { d with choices := d.choices.dropLast }, !d.choices.isEmpty)

/-- Pins a variable to a value of its declared domain; any other value is ignored. -/
def pin (d : Region) (x : VarIndex) (v : Int) : Option Region :=
  match d.declared[x.val]? with
  | none => none
  | some declared =>
    if h : declared.contains v = true then
      some { d with
        current := d.current.set x.val (Interval.singleton v (Interval.fits_of_contains h))
        pinned := d.pinned.set x.val true
        numPinned := if d.pinned[x.val]? = some false then d.numPinned + 1 else d.numPinned }
    else none

/-- Pins one entry after the other, counting those that are not ignored. -/
def pinAll : Region → List (VarIndex × Int) → Region × Nat
  | d, [] => (d, 0)
  | d, (x, v) :: rest =>
    match d.pin x v with
    | none => d.pinAll rest
    | some d =>
      let (d, count) := d.pinAll rest
      (d, count + 1)

/-- Pins what a scenario assigns, and says how many entries were taken over. -/
def share (d : Region) (s : Scenario) : Region × Nat := d.pinAll s.assigned

/-- Drops all choices and pins. -/
def reset (d : Region) : Region := rebuild { d with choices := [] }

/-- Follows an event; one that ends the search changes nothing. -/
def apply (d : Region) : Event → Region
  | .choice x min max =>
    match d.choose x min max with
    | .ok d => d
    | .error _ => d
  | .failure => d.fail.1
  | .shared s => (d.share s).1
  | .globalFailure | .strategyFound => d

end Region

end ScenarioSampling
