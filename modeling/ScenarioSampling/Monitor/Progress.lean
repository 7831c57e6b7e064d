import ScenarioSampling.Journal
import ScenarioSampling.Monitor.Limits
import ScenarioSampling.Statistics

/-!
# Progress lines

A monitor that counts along with a run and tells the journal how far it is: at its beginning and end
and, whenever the clock is read and `interval` has passed, in between.
-/

namespace ScenarioSampling

/-- What is known of a run and when the last line about it was written. -/
structure ProgressLog where
  interval : Duration
  mask : Nat
  start : Nat
  lastLine : Nat
  samples : Nat
  faults : Nat
  scenarios : Nat
  best : Option Nat
  deriving DecidableEq, Repr

namespace ProgressLog

/-- The name of progress logs. -/
def title : String := "LogMonitor"

/-- The clock is read at every 4096th sample. -/
def standardMask : Nat := 4095

/-- A line every second. -/
def standardInterval : Duration := .ofParts 1 0

/-- A log that has counted nothing, with the clock at `now`. -/
def ofInterval (interval : Duration) (mask now : Nat) : ProgressLog :=
  ⟨interval, mask, now, now, 0, 0, 0, none⟩

/-- The interval in whole seconds and the mask. -/
def text (m : ProgressLog) : String :=
  s!"LogMonitor(log_interval: {m.interval.seconds}s, clock_check_mask: {m.mask})"

/-- The line for the counts so far. -/
def line (m : ProgressLog) : Notice := .progress m.samples m.faults m.scenarios m.best

/-- Counts a draw, and keeps its score if it is lower than all before. -/
def count (m : ProgressLog) (score : Option Nat) : ProgressLog :=
  let m := { m with samples := countSuccWrapping m.samples }
  match score with
  | none => { m with faults := countSucc m.faults }
  | some score => if improves m.best score then { m with best := some score } else m

/-- Counts what is heard, and writes a line where one is due. -/
def hear (m : ProgressLog) (s : Surroundings) : Call → ProgressLog × List Notice
  | .entered model =>
    (ofInterval m.interval m.mask s.now, [.samplingStarted model])
  | .left => ({ m with lastLine := s.now }, [m.line, .samplingFinished])
  | .sampled score =>
    let m := m.count score
    if isClockCheck m.samples m.mask && m.interval.nanos ≤ s.now - m.lastLine then
      ({ m with lastLine := s.now }, [m.line])
    else (m, [])
  | .reported .. => ({ m with scenarios := countSucc m.scenarios }, [])

end ProgressLog

end ScenarioSampling
