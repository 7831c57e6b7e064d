import ScenarioSampling.Crash
import ScenarioSampling.Model.Index

/-!
# Assignments

A `Candidate` gives a value to every variable, in index order. A `Scenario` has the same layout and
may leave variables open; it is what the exact search and the sampling worker exchange.
-/

namespace ScenarioSampling

/-- A value for every variable, in index order. -/
structure Candidate where
  values : List Int
  deriving DecidableEq, Repr

namespace Candidate

/-- The candidate that gives zero to each of `len` variables. -/
def zeroed (len : Nat) : Candidate := ⟨List.replicate len 0⟩

/-- How many variables the candidate has a value for. -/
def length (c : Candidate) : Nat := c.values.length

/-- The value of a variable that should have one; reading beyond the end crashes. -/
def get (c : Candidate) (x : VarIndex) : Except Crash Int :=
  match c.values[x.val]? with
  | some v => .ok v
  | none => .error (.candidateRead c.length x.val)

/-- Gives a variable another value; writing beyond the end crashes. -/
def set (c : Candidate) (x : VarIndex) (v : Int) : Except Crash Candidate :=
  if x.val < c.length then .ok ⟨c.values.set x.val v⟩ else .error (.candidateWrite c.length x.val)

/-- Cuts or pads with zeros. -/
def resize (c : Candidate) (len : Nat) : Candidate :=
  ⟨c.values.take len ++ List.replicate (len - c.length) 0⟩

/-- Gives every variable the value `v`. -/
def fill (c : Candidate) (v : Int) : Candidate := ⟨c.values.map fun _ => v⟩

/-- The values in parentheses. -/
def text (c : Candidate) : String := "(" ++ ", ".intercalate (c.values.map toString) ++ ")"

end Candidate

/-- `none` marks an open variable. -/
structure Scenario where
  values : List (Option Int)
  deriving DecidableEq, Repr

namespace Scenario

/-- The scenario that leaves all of `len` variables open. -/
def unassigned (len : Nat) : Scenario := ⟨List.replicate len none⟩

/-- The scenario that assigns what the candidate does, so that no variable is open. -/
def ofCandidate (c : Candidate) : Scenario := ⟨c.values.map some⟩

/-- How many variables the scenario covers, open ones included. -/
def length (s : Scenario) : Nat := s.values.length

/-- The value of a variable; one beyond the end is open. -/
def get? (s : Scenario) (x : VarIndex) : Option Int := s.values[x.val]?.join

/-- Assigns a value to a variable that the scenario covers; otherwise it crashes. -/
def assign (s : Scenario) (x : VarIndex) (v : Int) : Except Crash Scenario :=
  if x.val < s.length then .ok ⟨s.values.set x.val (some v)⟩
  else .error (.outOfRange s.length x.val)

/-- No variable is open. -/
def isComplete (s : Scenario) : Bool := s.values.all Option.isSome

/-- How many variables are not open. -/
def numAssigned (s : Scenario) : Nat := s.values.countP Option.isSome

/-- The variables with a value, where the list starts with the one numbered `i`. -/
def assignedFrom : Nat → List (Option Int) → List (VarIndex × Int)
  | _, [] => []
  | i, none :: vs => assignedFrom (i + 1) vs
  | i, some v :: vs => (⟨i⟩, v) :: assignedFrom (i + 1) vs

/-- The variables with a value, in index order. -/
def assigned (s : Scenario) : List (VarIndex × Int) := assignedFrom 0 s.values

/-- The candidate that a complete scenario stands for. -/
def toCandidate? (s : Scenario) : Option Candidate := (s.values.mapM id).map Candidate.mk

/-- The values in parentheses, with an underscore for an open variable. -/
def text (s : Scenario) : String :=
  "(" ++ ", ".intercalate (s.values.map fun v => v.elim "_" toString) ++ ")"

end Scenario

end ScenarioSampling
