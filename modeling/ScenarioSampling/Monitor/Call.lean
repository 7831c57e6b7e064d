import ScenarioSampling.Model.Registry

/-!
# What monitors hear and say

A run calls its monitor at fixed moments and asks it for a command before every draw. A monitor may
look at its surroundings: the clock and the interrupt flag.
-/

namespace ScenarioSampling

/-- A moment of a run that its monitor is told about. -/
inductive Call where
  | entered (model : Model)
  | left
  /-- A candidate was drawn; it has a score unless it was discarded. -/
  | sampled (score : Option Nat)
  | reported (candidate : Candidate) (score : Nat)
  deriving DecidableEq, Repr

/-- What a monitor wants of the run. -/
inductive Command where
  | proceed
  | terminate (cause : String)
  deriving DecidableEq, Repr

namespace Command

/-- The run is to end. -/
def isTerminate : Command → Bool
  | proceed => false
  | terminate _ => true

/-- The command in words, with the cause of an end. -/
def text : Command → String
  | proceed => "Continue"
  | terminate cause => "Terminate: " ++ cause

end Command

/-- What a monitor can see beyond its run. -/
structure Surroundings where
  /-- Nanoseconds on the clock. -/
  now : Nat
  interrupted : Bool
  deriving DecidableEq, Repr

end ScenarioSampling
