import ScenarioSampling.Duration

/-!
# Worker configuration

What a worker is told before it starts: how it is shut down, its seed and limits, and which
candidates it reports.
-/

namespace ScenarioSampling

/-- What the owner of a worker does on shutdown. -/
inductive Discipline where
  /-- Wait until the worker has stopped. -/
  | join
  /-- Leave the worker to wind down on its own. -/
  | detach
  deriving DecidableEq, Repr

namespace Discipline

/-- The discipline as a word. -/
def text : Discipline → String
  | join => "join"
  | detach => "detach"

/-- The discipline as a name. -/
def title : Discipline → String
  | join => "Join"
  | detach => "Detach"

end Discipline

/-- What a worker is told before it starts. -/
structure WorkerConfig where
  discipline : Discipline
  /-- A fixed seed; without one a fresh seed is taken at the start. -/
  seed : Option Nat
  sampleLimit : Option Nat
  timeLimit : Option Duration
  /-- Candidates with at most this score are reported. -/
  threshold : Nat
  /-- Every new best candidate is reported as well. -/
  improvements : Bool
  /-- Room for reports on their way to the search. -/
  capacity : Nat
  logInterval : Option Duration
  /-- The worker obeys an interrupt flag. -/
  interrupt : Bool
  deriving DecidableEq, Repr

/-- One field of a configuration with its value. -/
inductive WorkerSetting where
  | discipline (d : Discipline)
  | seed (s : Nat)
  | sampleLimit (n : Nat)
  | timeLimit (d : Duration)
  | threshold (n : Nat)
  | improvements (b : Bool)
  | capacity (n : Nat)
  | logInterval (d : Duration)
  | interrupt
  deriving DecidableEq, Repr

/-- `Some(…)` around the text of a value, `None` without one. -/
def optionText {α : Type} (text : α → String) : Option α → String
  | some a => s!"Some({text a})"
  | none => "None"

namespace WorkerConfig

/-- Waits on shutdown, has no seed and no limits, reports solutions only and has room for 64 of
them. -/
def standard : WorkerConfig := ⟨.join, none, none, none, 0, false, 64, none, false⟩

/-- Gives one field its value. -/
def set (c : WorkerConfig) : WorkerSetting → WorkerConfig
  | .discipline d => { c with discipline := d }
  | .seed s => { c with seed := some s }
  | .sampleLimit n => { c with sampleLimit := some n }
  | .timeLimit d => { c with timeLimit := some d }
  | .threshold n => { c with threshold := n }
  | .improvements b => { c with improvements := b }
  | .capacity n => { c with capacity := n }
  | .logInterval d => { c with logInterval := some d }
  | .interrupt => { c with interrupt := true }

/-- Applies settings in order, so the last one of a field counts. -/
def ofSettings (settings : List WorkerSetting) : WorkerConfig := settings.foldl set standard

/-- The configuration, but for the channel, the progress log and the interrupt flag. -/
def text (c : WorkerConfig) : String :=
  s!"WorkerConfig(discipline: {c.discipline.text}, "
    ++ s!"seed: {optionText toString c.seed}, "
    ++ s!"sample_limit: {optionText toString c.sampleLimit}, "
    ++ s!"time_limit: {optionText Duration.text c.timeLimit}, "
    ++ s!"report_threshold: {c.threshold}, "
    ++ s!"report_improvements: {c.improvements})"

end WorkerConfig

end ScenarioSampling
