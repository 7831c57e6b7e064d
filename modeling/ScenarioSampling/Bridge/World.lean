import ScenarioSampling.Journal
import ScenarioSampling.Bridge.Channel

/-!
# The world around a worker

A `World` is all that a worker shares with others: the channel, the stop signal, the clock and the
interrupt flag. Others act on it between any two accesses of the worker. What they will do is a
script: each turn names the point that the worker has to reach for it, and how many times to let it
pass. With an empty script nobody interferes, and every interleaving is some script.
-/

namespace ScenarioSampling

/-- Where a worker is about to touch the world. -/
inductive Point where
  | receive
  | readFlag
  | takeToken
  | offer
  /-- Waiting for room, an event or the token. -/
  | wait
  | draw
  deriving DecidableEq, Repr

/-- What a waiting worker can wake up to. -/
inductive Branch where
  | inbound
  | stop
  | send
  deriving DecidableEq, Repr

/-- What others do to the world in one step. -/
inductive Action where
  | notify (e : Event)
  | readReport
  | drain
  | startReceiving
  | stopReceiving
  | dropSearch
  | raiseStop
  | leaveToken
  | addOwner
  | dropOwner
  | interrupt (flag : Bool)
  | tick (nanos : Nat)
  /-- Makes a waiting worker prefer a branch, when several are ready. -/
  | favour (branch : Branch)
  deriving DecidableEq, Repr

/-- What others do when the worker reaches a point, after they have let it pass `skip` times. -/
structure Turn where
  point : Point
  skip : Nat
  actions : List Action
  deriving DecidableEq, Repr

/-- What a worker shares with the search and with its owner, and what is kept of the past. -/
structure World where
  channel : Channel
  stop : StopSignal
  surroundings : Surroundings
  favoured : Option Branch
  script : List Turn
  /-- The reports that the search has accepted, oldest first. -/
  delivered : List Report
  /-- What happened at the queues, oldest first. -/
  history : Array Transfer
  journal : Array Notice
  deriving DecidableEq, Repr

namespace World

/-- A world in which nothing has happened and nobody will interfere. -/
def ofCapacity (capacity : Nat) : World where
  channel := .ofCapacity capacity
  stop := .initial
  surroundings := ⟨0, false⟩
  favoured := none
  script := []
  delivered := []
  history := #[]
  journal := #[]

/-- Puts a notice into the journal. -/
def note (w : World) (n : Notice) : World := { w with journal := w.journal.push n }

/-- Puts several notices into the journal, the first one first. -/
def noteAll (w : World) (ns : List Notice) : World := ns.foldl note w

/-- Puts what happened at the queues into the history. -/
def record (w : World) (t : Transfer) : World := { w with history := w.history.push t }

section Search

/-- Pushes an event, which fails if the worker is gone. -/
def notify (w : World) (e : Event) : Bool × World :=
  let w := w.note (.eventSent e)
  if w.channel.workerAlive then
    let w := w.record (.pushed e)
    (true, { w with channel := { w.channel with inbound := w.channel.inbound ++ [e] } })
  else (false, w)

/-- Pushes an event several times, and says whether all of them were. -/
def notifyTimes (w : World) (e : Event) : Nat → Bool × World
  | 0 => (true, w)
  | n + 1 =>
    let (first, w) := w.notify e
    let (rest, w) := w.notifyTimes e n
    (first && rest, w)

/-- Takes the first report of a queue that is fresh; those before it are dropped. -/
def takeFresh (w : World) : List Report → Option Report × World
  | [] => (none, { w with channel := { w.channel with outbound := [] } })
  | r :: rest =>
    if w.channel.isFresh r then
      (some r, { w with
        channel := { w.channel with
          outbound := rest
          lastSequence := some r.sequence
          receiving := false }
        delivered := w.delivered ++ [r] })
    else (w.note (.duplicateDropped r.sequence)).takeFresh rest

/-- Takes the next fresh report, if there is one. -/
def tryNext (w : World) : Option Report × World := w.takeFresh w.channel.outbound

/-- Takes reports one by one, at most `n` of them. -/
def drainAtMost : Nat → World → List Report × World
  | 0, w => ([], w)
  | n + 1, w =>
    match w.tryNext with
    | (none, w) => ([], w)
    | (some r, w) =>
      let (rs, w) := drainAtMost n w
      (r :: rs, w)

/-- Takes all fresh reports that are there. -/
def drain (w : World) : List Report × World := drainAtMost (w.channel.outbound.length + 1) w

/-- The search begins or ceases to wait for a report. -/
def setReceiving (w : World) (flag : Bool) : World :=
  { w with channel := { w.channel with receiving := flag } }

/-- The search lets go of its end and no longer waits for a report. -/
def dropSearch (w : World) : World :=
  { w with channel := { w.channel with searchAlive := false, receiving := false } }

/-- The worker lets go of its end. -/
def dropWorker (w : World) : World :=
  { w with channel := { w.channel with workerAlive := false } }

/-- Does something to the stop signal. -/
def onStop (w : World) (f : StopSignal → StopSignal) : World := { w with stop := f w.stop }

/-- Raises or lowers the interrupt flag. -/
def setInterrupted (w : World) (flag : Bool) : World :=
  { w with surroundings := { w.surroundings with interrupted := flag } }

/-- Lets time pass on the clock. -/
def tick (w : World) (nanos : Nat) : World :=
  { w with surroundings := { w.surroundings with now := w.surroundings.now + nanos } }

/-- What an action does. Only a search that still holds its end can push and read. -/
def act (w : World) : Action → World
  | .notify e => if w.channel.searchAlive then (w.notify e).2 else w
  | .readReport => if w.channel.searchAlive then w.tryNext.2 else w
  | .drain => if w.channel.searchAlive then w.drain.2 else w
  | .startReceiving => if w.channel.searchAlive then w.setReceiving true else w
  | .stopReceiving => w.setReceiving false
  | .dropSearch => w.dropSearch
  | .raiseStop => w.onStop .raise
  | .leaveToken => w.onStop .leaveToken
  | .addOwner => w.onStop .addOwner
  | .dropOwner => w.onStop .dropOwner
  | .interrupt flag => w.setInterrupted flag
  | .tick nanos => w.tick nanos
  | .favour branch => { w with favoured := some branch }

/-- What actions do, one after the other. -/
def actAll (w : World) (actions : List Action) : World := actions.foldl act w

/-- The worker reaches a point, and the next turn of the script is taken if it waits for that. -/
def visit (w : World) (p : Point) : World :=
  match w.script with
  | [] => w
  | turn :: rest =>
    if turn.point = p then
      match turn.skip with
      | 0 => actAll { w with script := rest } turn.actions
      | skip + 1 => { w with script := { turn with skip := skip } :: rest }
    else w

end Search

end World

/-- The action pushes an event. -/
def Action.isNotify : Action → Bool
  | .notify _ => true
  | _ => false

/-- How many events the rest of a script can push. -/
def scriptedEvents (script : List Turn) : Nat :=
  (script.flatMap Turn.actions).countP Action.isNotify

end ScenarioSampling
