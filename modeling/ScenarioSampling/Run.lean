import ScenarioSampling.Bridge.Endpoint
import ScenarioSampling.Monitor.Tree
import ScenarioSampling.Sampling.Uniform

/-!
# Runs

A run draws candidates from the current domains, scores them, and reports the promising ones, while
the events it reads keep the domains up to date. `Run.step` is one turn of that loop: it polls, asks
the monitor, draws, scores and perhaps reports. A report that has to wait leaves the run in the
middle of a turn, and the next step goes on with it.

A run ends when the bridge stops or the monitor wants it. A candidate that cannot be scored is
discarded; a sampler or scorer that crashes ends the run without an outcome.
-/

namespace ScenarioSampling

/-- Where events go: into the domains and the statistics. -/
structure Sink where
  region : Region
  statistics : Statistics
  deriving DecidableEq, Repr

/-- Follows an event and counts it. -/
def Sink.handle : Handler Sink := fun e sink =>
  (⟨sink.region.apply e, sink.statistics.onEvent e⟩, sink.region.applyNotices e)

/-- Which candidates are reported: scores up to a threshold, and perhaps every new best. -/
structure ReportPolicy where
  threshold : Nat
  improvements : Bool
  deriving DecidableEq, Repr

/-- A score is low enough to be reported, or is a new best that counts. -/
def ReportPolicy.isReportable (p : ReportPolicy) (score : Nat) (improved : Bool) : Bool :=
  score ≤ p.threshold || (p.improvements && improved)

/-- Where a run is between two turns. -/
inductive Stage where
  | looping
  /-- With a report that has to wait. -/
  | reporting (report : Report)
  | ended (reason : TerminationReason)
  | violated (e : ProtocolViolation)
  | crashed (c : Crash)
  deriving DecidableEq, Repr

/-- A run with its model, its parts, the last candidate and the best one so far. -/
structure Run (σ ρ ν μ : Type) where
  policy : ReportPolicy
  model : Model
  sampler : σ
  source : ρ
  scorer : ν
  monitor : μ
  sink : Sink
  candidate : Candidate
  best : Option (Candidate × Nat)
  start : Nat
  stage : Stage

namespace Run

variable {σ ρ ν μ : Type} [Sampler σ ρ] [Scorer ν] [SamplingMonitor μ]

/-- Tells the monitor about a moment of the run; what it says goes into the journal. -/
def tell (w : World) (r : Run σ ρ ν μ) (c : Call) : World × Run σ ρ ν μ :=
  let (monitor, notices) := SamplingMonitor.hear w.surroundings c r.monitor
  (w.noteAll notices, { r with monitor := monitor })

/-- A run on a closed model, before its first turn. -/
def begin (w : World) (policy : ReportPolicy) (model : Model) (sampler : σ) (source : ρ)
    (scorer : ν) (monitor : μ) : Except Crash (World × Run σ ρ ν μ) :=
  if model.isClosed then
    .ok (tell w {
      policy := policy
      model := model
      sampler := sampler
      source := source
      scorer := scorer
      monitor := monitor
      sink := ⟨.ofModel model, .zero⟩
      candidate := .zeroed model.numVariables
      best := none
      start := w.surroundings.now
      stage := .looping } (.entered model))
  else .error .openModel

/-- Ends the run, noting the time it took and telling the monitor. -/
def finish (w : World) (r : Run σ ρ ν μ) (reason : TerminationReason) : World × Run σ ρ ν μ :=
  let time : Duration := ⟨w.surroundings.now - r.start⟩
  let sink := { r.sink with statistics := { r.sink.statistics with time := time } }
  tell w { r with sink := sink, stage := .ended reason } .left

/-- Goes on after an attempt to report: counts a report that was sent, ends, fails or waits. -/
def afterEmission (r : Run σ ρ ν μ) (score : Nat) :
    Emission × World × Sink → World × Run σ ρ ν μ
  | (.flow .proceed, w, sink) =>
    let sink := { sink with statistics := sink.statistics.onEmitted }
    tell w { r with sink := sink, stage := .looping } (.reported r.candidate score)
  | (.flow (.halt reason), w, sink) => finish w { r with sink := sink } (.stopped reason)
  | (.refused e, w, sink) => (w, { r with sink := sink, stage := .violated e })
  | (.waiting report, w, sink) => (w, { r with sink := sink, stage := .reporting report })

/-- Keeps the current candidate if its score is lower than all before. -/
def keepBest (r : Run σ ρ ν μ) (score : Nat) : Run σ ρ ν μ × Bool :=
  let (statistics, improved) := r.sink.statistics.onScore score
  let r := { r with sink := { r.sink with statistics := statistics } }
  (if improved then { r with best := some (r.candidate, score) } else r, improved)

/-- Goes on after scoring: discards a candidate with a fault, and reports a promising one. -/
def afterScore (w : World) (r : Run σ ρ ν μ) : Except Fault Nat → World × Run σ ρ ν μ
  | .error fault =>
    let r := { r with sink := { r.sink with statistics := r.sink.statistics.onFault } }
    let w := w.note (.candidateDiscarded fault r.sink.statistics.samples)
    tell w r (.sampled none)
  | .ok score =>
    let (w, r) := tell w r (.sampled (some score))
    let (r, improved) := r.keepBest score
    if r.policy.isReportable score improved then
      afterEmission r score (w.emit Sink.handle r.sink (.ofCandidate r.candidate) score)
    else (w, r)

/-- Draws a candidate and scores it. -/
def drawAndScore (w : World) (r : Run σ ρ ν μ) : World × Run σ ρ ν μ :=
  let w := w.visit .draw
  match Sampler.draw r.sampler r.sink.region r.source r.candidate with
  | .error crash => (w, { r with stage := .crashed crash })
  | .ok (candidate, sampler, source) =>
    let w := w.note (.drawn candidate)
    let statistics := r.sink.statistics.onSample
    let r := { r with
      candidate := candidate
      sampler := sampler
      source := source
      sink := { r.sink with statistics := statistics } }
    match Scorer.score r.scorer r.model candidate with
    | .error crash => (w, { r with stage := .crashed crash })
    | .ok result => afterScore w r result

/-- One turn of the loop, or the rest of one; a run that is over stays as it is. -/
def step (w : World) (r : Run σ ρ ν μ) : World × Run σ ρ ν μ :=
  match r.stage with
  | .looping =>
    match w.poll Sink.handle r.sink with
    | (.halt reason, w, sink) => finish w { r with sink := sink } (.stopped reason)
    | (.proceed, w, sink) =>
      let r := { r with sink := sink }
      match SamplingMonitor.command w.surroundings r.monitor with
      | .terminate cause => finish w r (.aborted cause)
      | .proceed => drawAndScore w r
  | .reporting report =>
    afterEmission r report.score (w.resume Sink.handle r.sink report)
  | .ended _ | .violated _ | .crashed _ => (w, r)

/-- The run takes no further turn. -/
def isOver (r : Run σ ρ ν μ) : Bool :=
  match r.stage with
  | .looping | .reporting _ => false
  | .ended _ | .violated _ | .crashed _ => true

/-- The run waits, and stays so unless others act. -/
def isAsleep (w : World) (r : Run σ ρ ν μ) : Bool :=
  match r.stage with
  | .reporting _ => w.readyBranch?.isNone
  | _ => false

/-- Steps until the run is over or asleep, at most `n` times. -/
def advance : Nat → World → Run σ ρ ν μ → World × Run σ ρ ν μ
  | 0, w, r => (w, r)
  | n + 1, w, r =>
    let (w, r) := step w r
    if r.isOver || isAsleep w r then (w, r) else advance n w r

/-- What a run that has ended leaves; the seed is not known to it. -/
def outcome? (r : Run σ ρ ν μ) : Option Outcome :=
  match r.stage with
  | .ended reason => some ⟨reason, r.best, none, r.sink.statistics⟩
  | _ => none

end Run

end ScenarioSampling
