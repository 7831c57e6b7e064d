import ScenarioSampling.Duration
import ScenarioSampling.Monitor.Call

/-!
# Limits

Monitors that end a run: after a number of samples, after some time, or when the interrupt flag is
raised. The clock is read only when the sample count has none of the bits of a mask, so with a mask
of `2 ^ k - 1` one sample in `2 ^ k` pays for it.
-/

namespace ScenarioSampling

/-- The clock is read at this sample count. -/
def isClockCheck (samples mask : Nat) : Bool := samples &&& mask == 0

/-- Ends a run once `limit` candidates were drawn, discarded ones included. -/
structure SampleLimit where
  limit : Nat
  samples : Nat
  deriving DecidableEq, Repr

namespace SampleLimit

/-- The name of sample limits. -/
def title : String := "SampleLimitMonitor"

/-- A limit of so many samples, none of which was drawn. -/
def ofLimit (limit : Nat) : SampleLimit := ⟨limit, 0⟩

/-- Counts the draws of a run from its beginning on. -/
def hear (m : SampleLimit) : Call → SampleLimit
  | .entered _ => { m with samples := 0 }
  | .sampled _ => { m with samples := countSucc m.samples }
  | .reported .. | .left => m

/-- Wants an end once there are as many samples as the limit says. -/
def command (m : SampleLimit) : Command :=
  if m.limit ≤ m.samples then .terminate "sample limit reached" else .proceed

end SampleLimit

/-- Ends a run when it has taken `limit`, looking at the clock now and then. -/
structure TimeLimit where
  limit : Duration
  mask : Nat
  samples : Nat
  start : Nat
  deriving DecidableEq, Repr

namespace TimeLimit

/-- The name of time limits. -/
def title : String := "TimeLimitMonitor"

/-- The clock is read at every 1024th sample. -/
def standardMask : Nat := 1023

/-- A limit that counts time from `start` on. -/
def ofLimit (limit : Duration) (mask start : Nat) : TimeLimit := ⟨limit, mask, 0, start⟩

/-- Counts the draws of a run and reads the clock at its beginning. -/
def hear (m : TimeLimit) (s : Surroundings) : Call → TimeLimit
  | .entered _ => { m with samples := 0, start := s.now }
  | .sampled _ => { m with samples := countSuccWrapping m.samples }
  | .reported .. | .left => m

/-- Wants an end if the clock is read at this sample and shows that the time is over. -/
def command (m : TimeLimit) (s : Surroundings) : Command :=
  if isClockCheck m.samples m.mask && m.limit.nanos ≤ s.now - m.start then
    .terminate "time limit reached"
  else .proceed

end TimeLimit

namespace Interrupt

/-- The name of the monitor that obeys the interrupt flag. -/
def title : String := "InterruptMonitor"

/-- Follows the flag, which may be lowered again. -/
def command (s : Surroundings) : Command :=
  if s.interrupted then .terminate "Interrupt signal received" else .proceed

end Interrupt

end ScenarioSampling
