import ScenarioSampling.Monitor.Progress
import ScenarioSampling.Text.Quoted

/-!
# Monitors

A run is generic in its monitor. `Monitor` is the usual one: a limit, a progress log, a recorder
that puts every call into the journal, or several monitors that hear everything in order. The first
of several that asks for an end is the one that is obeyed.
-/

namespace ScenarioSampling

/-- Something that watches a run and may end it. -/
class SamplingMonitor (μ : Type) where
  hear : Surroundings → Call → μ → μ × List Notice
  command : Surroundings → μ → Command

/-- The monitors there are, and several of them as one. -/
inductive Monitor where
  | sampleLimit (m : SampleLimit)
  | timeLimit (m : TimeLimit)
  | interrupt
  | progressLog (m : ProgressLog)
  | recorder (name : String)
  | composite (ms : List Monitor)
  deriving Repr

namespace Monitor

/-- The name of a monitor; a recorder has one of its own. -/
def name : Monitor → String
  | sampleLimit _ => SampleLimit.title
  | timeLimit _ => TimeLimit.title
  | interrupt => Interrupt.title
  | progressLog _ => ProgressLog.title
  | recorder name => name
  | composite _ => "CompositeMonitor"

mutual

/-- Tells a monitor about a moment of the run, and collects what it has to say. -/
def hear (s : Surroundings) (c : Call) : Monitor → Monitor × List Notice
  | sampleLimit m => (sampleLimit (m.hear c), [])
  | timeLimit m => (timeLimit (m.hear s c), [])
  | interrupt => (interrupt, [])
  | progressLog m =>
    let (m, notices) := m.hear s c
    (progressLog m, notices)
  | recorder name => (recorder name, [.heard name c])
  | composite ms =>
    let (ms, notices) := hearAll s c ms
    (composite ms, notices)

/-- Tells several monitors, the first one first. -/
def hearAll (s : Surroundings) (c : Call) : List Monitor → List Monitor × List Notice
  | [] => ([], [])
  | m :: ms =>
    let (m, first) := hear s c m
    let (ms, rest) := hearAll s c ms
    (m :: ms, first ++ rest)

end

/-- Tells a monitor the same several times. -/
def hearTimes (m : Monitor) (s : Surroundings) (c : Call) : Nat → Monitor × List Notice
  | 0 => (m, [])
  | n + 1 =>
    let (m, first) := m.hear s c
    let (m, rest) := m.hearTimes s c n
    (m, first ++ rest)

mutual

/-- What a monitor wants. Progress logs and recorders never want an end. -/
def command (s : Surroundings) : Monitor → Command
  | sampleLimit m => m.command
  | timeLimit m => m.command s
  | interrupt => Interrupt.command s
  | progressLog _ => .proceed
  | recorder _ => .proceed
  | composite ms => firstCommand s ms

/-- What several monitors want: the end that the first one of them asks for, if any does. -/
def firstCommand (s : Surroundings) : List Monitor → Command
  | [] => .proceed
  | m :: ms =>
    match command s m with
    | .terminate cause => .terminate cause
    | .proceed => firstCommand s ms

end

instance : SamplingMonitor Monitor := ⟨hear, command⟩

/-- The names of several monitors, with commas between them. -/
def namesText (ms : List Monitor) : String := ", ".intercalate (ms.map name)

/-- Several monitors by their names. -/
def compositeText (ms : List Monitor) : String := s!"CompositeMonitor([{namesText ms}])"

/-- Several monitors by the quoted text of their names. -/
def compositeLongText (ms : List Monitor) : String :=
  s!"CompositeMonitor \x7b monitors: {Text.quoted (namesText ms)} \x7d"

/-- Any monitor by its name. -/
def generalText (m : Monitor) : String := s!"SamplingMonitor({m.name})"

end Monitor

end ScenarioSampling
