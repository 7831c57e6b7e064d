import ScenarioSampling.Run

/-!
# Workers

A worker owns a thread that samples next to the search. Its state goes from idle over running and
stopping to stopped, and never back. The owner starts it once, may ask it to stop at any time, and
waits for its result if the discipline says so; the thread takes its own steps in between.

When sampling is over the thread first lets go of the bridge, so that the search sees the end of the
reports, and only then becomes stopped, whether it ended well, with an error or by a crash.
-/

namespace ScenarioSampling

/-- What the owner of a worker can see of its life. -/
inductive WorkerState where
  | idle
  | running
  | stopping
  | stopped
  deriving DecidableEq, Repr

/-- The name of a state. -/
def WorkerState.text : WorkerState → String
  | .idle => "Idle"
  | .running => "Running"
  | .stopping => "Stopping"
  | .stopped => "Stopped"

/-- What the thread of a worker comes to. -/
abbrev WorkerResult := Except WorkerError Outcome

/-- How far the thread of a worker is; the sampler is of type `σ`. -/
inductive ThreadStage (σ : Type) where
  | sampling (run : Run σ ChaCha ConstraintScorer Monitor)
  | leaving (outcome : Outcome)
  /-- About to let go of the bridge. -/
  | releasing (result : WorkerResult)
  | publishing (result : WorkerResult)
  | done (result : WorkerResult)

/-- The thread of a worker, with the world it lives in. -/
structure WorkerThread (σ : Type) where
  world : World
  seed : Nat
  stage : ThreadStage σ
  /-- The owner has not taken the result yet. -/
  joinable : Bool

/-- A worker as its owner holds it; there is a thread once it was started. -/
structure Worker (σ : Type) where
  config : WorkerConfig
  state : WorkerState
  thread : Option (WorkerThread σ)

namespace Worker

variable {σ : Type}

/-- A worker that was not started. -/
def ofConfig (config : WorkerConfig) : Worker σ := ⟨config, .idle, none⟩

/-- The worker has come to its end. -/
def isStopped (w : Worker σ) : Bool := w.state == .stopped

/-- The discipline and the state, behind the name of the type. -/
def longText (w : Worker σ) : String :=
  s!"AsyncWorker \x7b discipline: {w.config.discipline.title}, state: {w.state.text} \x7d"

/-- The monitors that a configuration asks for: the interrupt, the limits, then the progress log. -/
def monitors (config : WorkerConfig) (now : Nat) : List Monitor :=
  (if config.interrupt then [Monitor.interrupt] else [])
    ++ (config.sampleLimit.map fun n => Monitor.sampleLimit (.ofLimit n)).toList
    ++ (config.timeLimit.map fun d =>
        Monitor.timeLimit (.ofLimit d TimeLimit.standardMask now)).toList
    ++ (config.logInterval.map fun d =>
        Monitor.progressLog (.ofInterval d ProgressLog.standardMask now)).toList

section Thread

variable [Sampler σ ChaCha]

/-- Starts a worker on a model, at the worker's end of the channel of `world`; without a configured
seed it takes `freshSeed`. The stop signal of `world` is a new one of the worker's own. -/
def start (w : Worker σ) (model : Model) (world : World) (sampler : σ) (freshSeed : Nat) :
    Except WorkerError (Worker σ) :=
  if !model.isClosed then .error (.model .notClosed)
  else if w.state ≠ .idle then .error .alreadyStarted
  else
    let seed := w.config.seed.getD freshSeed
    let world := { world with stop := .initial }
    let title := @Sampler.name σ ChaCha _ sampler
    let world := world.note (.workerStarted seed w.config.discipline title)
    let policy : ReportPolicy := ⟨w.config.threshold, w.config.improvements⟩
    let monitor := Monitor.composite (monitors w.config world.surroundings.now)
    let (world, stage) :=
      match Run.begin world policy model sampler (ChaCha.ofSeed seed.toUInt64)
          ConstraintScorer.mk monitor with
      | .ok (world, run) => (world, ThreadStage.sampling run)
      | .error crash => (world, ThreadStage.releasing (.error (.ofCrash crash)))
    .ok { w with state := .running, thread := some ⟨world, seed, stage, true⟩ }

/-- One step of the thread: a turn of its run, or one of those that end its life. -/
def threadStep (w : Worker σ) : Worker σ :=
  match w.thread with
  | none => w
  | some t =>
    match t.stage with
    | .sampling run =>
      let (world, run) := run.step t.world
      let stage := match run.stage with
        | .looping | .reporting _ => ThreadStage.sampling run
        | .ended reason =>
          .leaving ⟨reason, run.best, some t.seed, run.sink.statistics⟩
        | .violated e => .releasing (.error (.protocolViolation e))
        | .crashed c => .releasing (.error (.ofCrash c))
      { w with thread := some { t with world := world, stage := stage } }
    | .leaving outcome =>
      let state := if w.state = .running then .stopping else w.state
      { w with state := state, thread := some { t with stage := .releasing (.ok outcome) } }
    | .releasing result =>
      let world := t.world.dropWorker
      let world := match result with
        | .ok outcome => world.note (.workerStopped outcome)
        | .error e => world.note (.workerFailed e)
      { w with thread := some { t with world := world, stage := .publishing result } }
    | .publishing result =>
      { w with state := .stopped, thread := some { t with stage := .done result } }
    | .done _ => w

/-- The thread takes no further step by itself: it is done, or asleep with a report. -/
def isResting (w : Worker σ) : Bool :=
  match w.thread with
  | none => true
  | some t =>
    match t.stage with
    | .sampling run => run.isAsleep t.world
    | .done _ => true
    | _ => false

/-- Lets the thread take steps until it rests or `enough` holds, at most `n` of them. -/
def advance (enough : Worker σ → Bool) : Nat → Worker σ → Worker σ
  | 0, w => w
  | n + 1, w =>
    if enough w then w
    else
      let w := w.threadStep
      if w.isResting then w else advance enough n w

end Thread

/-- Does something to the world of the thread, if there is one. -/
def onWorld (w : Worker σ) (f : World → World) : Worker σ :=
  { w with thread := w.thread.map fun t => { t with world := f t.world } }

/-- Asks the worker to stop, which does nothing before the start. -/
def requestStop (w : Worker σ) : Worker σ :=
  match w.thread with
  | none => w
  | some _ =>
    let w :=
      if w.state = .running then { w with state := .stopping }.onWorld (·.note .stopRequested)
      else w
    w.onWorld (·.onStop .request)

/-- What an owner that waits for the worker gets, once the thread is done or at once if there is
nothing to wait for; `none` means that it has to wait. A result is given once. -/
def collect? (w : Worker σ) : Option (Except WorkerError (Option Outcome) × Worker σ) :=
  match w.config.discipline, w.thread with
  | .detach, _ | .join, none => some (.ok none, w)
  | .join, some t =>
    if t.joinable then
      match t.stage with
      | .done result =>
        some (result.map some, { w with thread := some { t with joinable := false } })
      | _ => none
    else some (.ok none, w)

end Worker

end ScenarioSampling
