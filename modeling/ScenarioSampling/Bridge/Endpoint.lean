import ScenarioSampling.Bridge.World

/-!
# The worker's end of the bridge

`World.poll` reads a batch of events and then looks at the stop signal. `World.emit` polls and then
sends a report; while the outbound queue is full it waits for room, an event or a stop, whichever
comes first, so an event that ends the search and a stop request win over a report that waits.

The first reason to stop is recorded. From then on nothing is read or sent: a poll repeats the
reason, and an attempt to report is a protocol violation.

Events that do not end the search go to a handler with a state of its own.
-/

namespace ScenarioSampling

/-- What is done with an event that does not end the search, and what is told about it. -/
abbrev Handler (η : Type) := Event → η → η × List Notice

/-- What becomes of an attempt to report. -/
inductive Emission where
  | flow (f : Flow)
  | refused (e : ProtocolViolation)
  /-- The report still waits, and nothing it waits for is there. -/
  | waiting (report : Report)
  deriving DecidableEq, Repr

namespace World

/-- The most events that one poll reads. -/
def pollBatch : Nat := 1024

/-- Records a reason to stop; an earlier one stays. -/
def halt (w : World) (reason : StopReason) : Flow × World :=
  let reason := w.channel.stopped.getD reason
  (.halt reason, { w with channel := { w.channel with stopped := some reason } })

/-- Asks the stop signal: first the flag, then the token, which raises the flag when it is found. -/
def isStopRequested (w : World) : Bool × World :=
  let w := w.visit .readFlag
  if w.stop.raised then (true, w)
  else
    let w := w.visit .takeToken
    if w.stop.token then (true, { w with stop := { w.stop with token := false, raised := true } })
    else (w.stop.owners == 0, w)

section Calls

variable {η : Type} (handle : Handler η)

/-- The world with these events left to read. -/
def withInbound (w : World) (es : List Event) : World :=
  { w with channel := { w.channel with inbound := es } }

/-- Counts an event that was read, and hands it on or stops. -/
def dispatch (w : World) (h : η) (e : Event) : Flow × World × η :=
  let w := w.record (.read e)
  let observed := countSucc w.channel.observed
  let w := { w with channel := { w.channel with observed := observed } }
  let w := w.note (.eventReceived e observed)
  match e.stopReason? with
  | some reason =>
    let (flow, w) := w.halt reason
    (flow, w, h)
  | none =>
    let (h, notices) := handle e h
    (.proceed, w.noteAll notices, h)

/-- Stops if there is a stop request, and else goes on. -/
def checkStop (w : World) (h : η) : Flow × World × η :=
  match w.isStopRequested with
  | (true, w) =>
    let (flow, w) := w.halt .stopRequested
    (flow, w, h)
  | (false, w) => (.proceed, w, h)

/-- Reads at most `n` events and then looks at the stop signal. -/
def readBatch : Nat → World → η → Flow × World × η
  | 0, w, h => w.checkStop h
  | n + 1, w, h =>
    let w := w.visit .receive
    match w.channel.inbound with
    | e :: rest =>
      match dispatch handle (w.withInbound rest) h e with
      | (.halt reason, w, h) => (.halt reason, w, h)
      | (.proceed, w, h) => readBatch n w h
    | [] =>
      if w.channel.searchAlive then w.checkStop h
      else
        let (flow, w) := w.halt .searchDisconnected
        (flow, w, h)

/-- Reads a batch unless the worker's end has stopped, which repeats the reason. -/
def poll (w : World) (h : η) : Flow × World × η :=
  match w.channel.stopped with
  | some reason => (.halt reason, w, h)
  | none => readBatch handle pollBatch w h

/-- Puts a report into the queue, which takes its sequence number. -/
def send (w : World) (r : Report) : World :=
  let w := (w.record (.sent r)).note (.reportSent w.channel.emitted)
  { w with channel := { w.channel with
      outbound := w.channel.outbound ++ [r]
      emitted := w.channel.emitted + 1 } }

/-- A waiting worker can wake up to this branch. -/
def isReady (w : World) : Branch → Bool
  | .inbound => !w.channel.inbound.isEmpty || !w.channel.searchAlive
  | .stop => w.stop.isReady
  | .send => w.channel.hasRoom || !w.channel.searchAlive

/-- A branch that is ready: the favoured one, or else an event before a stop before room. -/
def readyBranch? (w : World) : Option Branch :=
  (w.favoured.toList ++ [Branch.inbound, Branch.stop, Branch.send]).find? w.isReady

/-- Stops because the search has let go of its end, with a report that it will not get. -/
def bounce (w : World) (r : Report) : Flow × World :=
  (w.record (.bounced r)).halt .searchDisconnected

/-- Sends a report if there is room for it, and stops if the search is gone. -/
def sendAtOnce (w : World) (r : Report) : Option Flow × World :=
  let w := w.visit .offer
  if !w.channel.searchAlive then
    let (flow, w) := w.bounce r
    (some flow, w)
  else if w.channel.hasRoom then (some .proceed, w.send r)
  else (none, w)

/-- What a waiting worker meets when it wakes up. -/
inductive Waking where
  | over (flow : Flow)
  /-- An event was handed on, and the report still waits. -/
  | again
  | asleep
  deriving DecidableEq, Repr

/-- Takes the branch that is ready, if there is one. The report is dropped if that stops the worker.
-/
def wake (w : World) (h : η) (r : Report) : Waking × World × η :=
  let w := w.visit .wait
  match w.readyBranch? with
  | none => (.asleep, w, h)
  | some .stop =>
    let (flow, w) := { w with stop := { w.stop with token := false } }.halt .stopRequested
    (.over flow, w, h)
  | some .send =>
    if w.channel.searchAlive then (.over .proceed, w.send r, h)
    else
      let (flow, w) := w.bounce r
      (.over flow, w, h)
  | some .inbound =>
    match w.channel.inbound with
    | [] =>
      let (flow, w) := w.halt .searchDisconnected
      (.over flow, w, h)
    | e :: rest =>
      match dispatch handle (w.withInbound rest) h e with
      | (.halt reason, w, h) => (.over (.halt reason), w, h)
      | (.proceed, w, h) => (.again, w, h)

/-- Wakes up at most `n` times, and tries to send after every event. -/
def settle : Nat → World → η → Report → Emission × World × η
  | 0, w, h, r => (.waiting r, w, h)
  | n + 1, w, h, r =>
    match wake handle w h r with
    | (.over flow, w, h) => (.flow flow, w, h)
    | (.asleep, w, h) => (.waiting r, w, h)
    | (.again, w, h) =>
      match w.sendAtOnce r with
      | (some flow, w) => (.flow flow, w, h)
      | (none, w) => settle n w h r

/-- More often than this a report does not wake up: every time but the last takes an event. -/
def wakings (w : World) : Nat := w.channel.inbound.length + scriptedEvents w.script + 1

/-- Goes on waiting with a report. -/
def resume (w : World) (h : η) (r : Report) : Emission × World × η :=
  settle handle w.wakings w h r

/-- Reports a scenario. Pending events come first, and one of them may discard it. -/
def emit (w : World) (h : η) (scenario : Scenario) (score : Nat) : Emission × World × η :=
  match w.channel.stopped with
  | some reason =>
    let e : ProtocolViolation := ⟨w.channel.emitted, reason⟩
    (.refused e, w.note (.reportRefused e), h)
  | none =>
    match poll handle w h with
    | (.halt reason, w, h) => (.flow (.halt reason), w, h)
    | (.proceed, w, h) =>
      let r : Report := ⟨scenario, score, w.channel.emitted, w.channel.observed⟩
      match w.sendAtOnce r with
      | (some flow, w) => (.flow flow, w, h)
      | (none, w) => resume handle w h r

end Calls

end World

end ScenarioSampling
