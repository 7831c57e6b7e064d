/-!
# Durations

A span of time in whole nanoseconds, and its text in the largest unit that it fills.
-/

namespace ScenarioSampling

/-- A span of time. -/
structure Duration where
  nanos : Nat
  deriving DecidableEq, Repr

namespace Duration

/-- No time at all. -/
def zero : Duration := ⟨0⟩

/-- A span of whole seconds and nanoseconds. -/
def ofParts (seconds nanos : Nat) : Duration := ⟨seconds * 1000000000 + nanos⟩

/-- The whole seconds of the span. -/
def seconds (d : Duration) : Nat := d.nanos / 1000000000

/-- The nanoseconds beyond the whole seconds. -/
def subsecondNanos (d : Duration) : Nat := d.nanos % 1000000000

/-- The span in seconds, as a double. -/
def toFloatSeconds (d : Duration) : Float :=
  d.seconds.toUInt64.toFloat + d.subsecondNanos.toUInt64.toFloat / 1000000000.0

/-- The fraction `n / 10 ^ places` behind a point, without its last zeros; nothing if it is zero. -/
def fractionText (places n : Nat) : String :=
  if n = 0 then ""
  else
    let digits := (toString n).toList
    let padded := List.replicate (places - digits.length) '0' ++ digits
    "." ++ String.ofList (padded.reverse.dropWhile (· == '0')).reverse

/-- `1.5s`, `250ms`, `1.5µs`, `7ns`. -/
def text (d : Duration) : String :=
  let n := d.nanos
  if 1000000000 ≤ n then s!"{n / 1000000000}{fractionText 9 (n % 1000000000)}s"
  else if 1000000 ≤ n then s!"{n / 1000000}{fractionText 6 (n % 1000000)}ms"
  else if 1000 ≤ n then s!"{n / 1000}{fractionText 3 (n % 1000)}µs"
  else s!"{n}ns"

end Duration

end ScenarioSampling
