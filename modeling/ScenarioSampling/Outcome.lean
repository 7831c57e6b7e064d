import ScenarioSampling.Statistics

/-!
# Outcomes

Why a run ended, the best candidate it has seen, its statistics, and the seed it sampled with.
-/

namespace ScenarioSampling

/-- Why a run ended: its end of the bridge has stopped, or the monitor wanted it. -/
inductive TerminationReason where
  | stopped (reason : StopReason)
  | aborted (cause : String)
  deriving DecidableEq, Repr

namespace TerminationReason

/-- The search has come to its end. -/
def isTerminal : TerminationReason → Bool
  | stopped reason => reason.isTerminal
  | aborted _ => false

/-- The reason as a title, with the cause of an abort. -/
def text : TerminationReason → String
  | stopped .globalFailure => "Global Failure"
  | stopped .strategyFound => "Strategy Found"
  | stopped .stopRequested => "Stop Requested"
  | stopped .searchDisconnected => "Search Disconnected"
  | aborted cause => "Aborted: " ++ cause

end TerminationReason

/-- What is left of a run that has ended. -/
structure Outcome where
  reason : TerminationReason
  /-- The first candidate with the lowest score, and that score. -/
  best : Option (Candidate × Nat)
  seed : Option Nat
  statistics : Statistics
  deriving DecidableEq, Repr

namespace Outcome

/-- The best candidate, if any had a score. -/
def bestCandidate? (o : Outcome) : Option Candidate := o.best.map Prod.fst

/-- The lowest score, if there was one. -/
def bestScore? (o : Outcome) : Option Nat := o.best.map Prod.snd

/-- The reason, the seed if there is one, the best candidate and the statistics. -/
def text (o : Outcome) : String :=
  let seed := match o.seed with
    | some s => s!"Seed: {s}\n"
    | none => ""
  let best := match o.best with
    | some (c, score) => s!"Best: {c.text} (score {score})\n"
    | none => "Best: none\n"
  s!"Termination: {o.reason.text}\n" ++ seed ++ best ++ o.statistics.text

end Outcome

end ScenarioSampling
