import ScenarioSampling.Duration
import ScenarioSampling.Number
import ScenarioSampling.Bridge.Event

/-!
# Statistics of a run

Counters that stop at the largest count, the lowest score seen and the time spent.
-/

namespace ScenarioSampling

/-- What a run counts. -/
structure Statistics where
  /-- Candidates drawn, discarded ones included. -/
  samples : Nat
  /-- Candidates discarded because of a fault. -/
  faults : Nat
  emitted : Nat
  choices : Nat
  failures : Nat
  shared : Nat
  best : Option Nat
  time : Duration
  deriving DecidableEq, Repr

/-- `score` is lower than the best one so far. -/
def improves (best : Option Nat) (score : Nat) : Bool :=
  match best with
  | none => true
  | some b => score < b

namespace Statistics

/-- Statistics of a run that has done nothing. -/
def zero : Statistics := ⟨0, 0, 0, 0, 0, 0, none, .zero⟩

/-- Counts a draw. -/
def onSample (s : Statistics) : Statistics := { s with samples := countSucc s.samples }

/-- Counts a candidate that was discarded. -/
def onFault (s : Statistics) : Statistics := { s with faults := countSucc s.faults }

/-- Counts a report that was sent. -/
def onEmitted (s : Statistics) : Statistics := { s with emitted := countSucc s.emitted }

/-- Keeps the lower one of the best score and `score`, and says whether it is a new one. -/
def onScore (s : Statistics) (score : Nat) : Statistics × Bool :=
  if improves s.best score then ({ s with best := some score }, true) else (s, false)

/-- Counts an event; one that ends the search is not counted. -/
def onEvent (s : Statistics) : Event → Statistics
  | .choice .. => { s with choices := countSucc s.choices }
  | .failure => { s with failures := countSucc s.failures }
  | .shared _ => { s with shared := countSucc s.shared }
  | .globalFailure | .strategyFound => s

/-- How many candidates had a score. -/
def scored (s : Statistics) : Nat := s.samples - s.faults

/-- Draws per second, or zero if no time has passed. -/
def throughput (s : Statistics) : Float :=
  let seconds := s.time.toFloatSeconds
  if 0.0 < seconds then s.samples.toUInt64.toFloat / seconds else 0.0

/-- A line for each counter, then the best score and the time. -/
def text (s : Statistics) : String :=
  let best := s.best.elim "none" toString
  "Scout-MC Statistics:\n"
    ++ s!"   Samples:            {s.samples}\n"
    ++ s!"   Faults:             {s.faults}\n"
    ++ s!"   Scenarios Emitted:  {s.emitted}\n"
    ++ s!"   Choices Observed:   {s.choices}\n"
    ++ s!"   Failures Observed:  {s.failures}\n"
    ++ s!"   Shared Scenarios:   {s.shared}\n"
    ++ s!"   Best Score:         {best}\n"
    ++ s!"   Total Time:         {s.time.text}\n"

end Statistics

end ScenarioSampling
