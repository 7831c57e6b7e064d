import ScenarioSampling.Worker.Lifecycle

/-!
# Hosts

A host owns a worker and the search's end of the channel it made last. Until the worker is started
on that channel the host holds both ends; afterwards the channel is part of the worker's world.
Making a new channel lets go of the old one.

The thread of the worker takes its steps when the host waits for something.
-/

namespace ScenarioSampling

/-- An owner of a worker, with the channel it may start it on. -/
structure Host (σ : Type) where
  worker : Worker σ
  released : Bool
  /-- The last channel, as long as no worker was started on it. -/
  spare : Option World
  interrupted : Bool

namespace Host

variable {σ : Type}

/-- A host that has made no channel yet. -/
def ofConfig (config : WorkerConfig) : Host σ := ⟨.ofConfig config, false, none, false⟩

/-- The world that holds the last channel. -/
def world? (h : Host σ) : Option World :=
  match h.spare with
  | some w => some w
  | none => h.worker.thread.map WorkerThread.world

/-- Does something to the world that holds the last channel. -/
def onWorld (h : Host σ) (f : World → World) : Host σ :=
  match h.spare with
  | some w => { h with spare := some (f w) }
  | none => { h with worker := h.worker.onWorld f }

/-- Makes a new channel, whose both ends the host holds. -/
def openChannel (h : Host σ) : Host σ :=
  { h.onWorld World.dropSearch with spare := some (.ofCapacity h.worker.config.capacity) }

/-- Raises or lowers the interrupt flag, for the worker and for one that is started later. -/
def setInterrupted (h : Host σ) (flag : Bool) : Host σ :=
  { h with interrupted := flag, worker := h.worker.onWorld (·.setInterrupted flag) }

/-- Takes what was told since the last time. -/
def takeNotices (h : Host σ) : Array Notice × Host σ :=
  let spare := (h.spare.map World.journal).getD #[]
  let thread := (h.worker.thread.map fun t => t.world.journal).getD #[]
  let clear := fun (w : World) => { w with journal := #[] }
  (spare ++ thread, { h with spare := h.spare.map clear, worker := h.worker.onWorld clear })

section Owner

variable [Sampler σ ChaCha]

/-- Starts the worker on the last channel, or on a new one of which the host keeps nothing, not even
the search's end. A start that fails has let go of the worker's end all the same. -/
def start (h : Host σ) (model : Model) (sampler : σ) (onLast : Bool) (freshSeed : Nat) :
    Except WorkerError Unit × Host σ :=
  let fresh := World.ofCapacity h.worker.config.capacity
  let world := if onLast then h.spare.getD fresh else fresh.dropSearch
  match h.worker.start model (world.setInterrupted h.interrupted) sampler freshSeed with
  | .ok worker => (.ok (), { h with worker := worker, spare := if onLast then none else h.spare })
  | .error e =>
    (.error e, if onLast then { h with spare := h.spare.map World.dropWorker } else h)

/-- Lets the thread go as far as it can, in at most `n` steps. -/
def runOut (h : Host σ) (n : Nat) : Host σ :=
  { h with worker := h.worker.advance (fun _ => false) n }

/-- Waits for the worker as its discipline says. -/
def await (h : Host σ) (n : Nat) : Except WorkerError (Option Outcome) × Host σ :=
  let h := if h.worker.config.discipline = .join then h.runOut n else h
  match h.worker.collect? with
  | none => (.ok none, h)
  | some (result, worker) => (result, { h with worker := worker })

/-- A report has arrived, or none will. -/
def hasReport (w : Worker σ) : Bool :=
  match w.thread with
  | none => true
  | some t => !t.world.channel.outbound.isEmpty || !t.world.channel.workerAlive

/-- The host holds the search's end of the last channel. -/
def isSearchAlive (h : Host σ) : Bool := h.world?.any fun w => w.channel.searchAlive

/-- How many reports wait in the last channel, if the host holds the search's end of it. -/
def pending? (h : Host σ) : Option Nat :=
  if h.isSearchAlive then h.world?.map fun w => w.channel.pending else none

/-- Waits for the next report; there is none once either side has let go of its end. -/
def nextReport (h : Host σ) (n : Nat) : Option Report × Host σ :=
  if h.isSearchAlive then
    let h := h.onWorld (·.setReceiving true)
    let h := match h.spare with
      | some _ => h
      | none => { h with worker := h.worker.advance hasReport n }
    match h.world? with
    | none => (none, h)
    | some w =>
      let (r, w) := w.tryNext
      (r, h.onWorld fun _ => w.setReceiving false)
  else (none, h)

/-- Lets go of the worker, which is asked to stop and waited for if the discipline says so. -/
def release (h : Host σ) (n : Nat) : Host σ :=
  if h.released then h
  else
    let h := { h with worker := h.worker.requestStop, released := true }
    let h := if h.worker.config.discipline = .join then h.runOut n else h
    { h with worker := h.worker.onWorld (·.onStop .dropOwner) }

end Owner

end Host

end ScenarioSampling
