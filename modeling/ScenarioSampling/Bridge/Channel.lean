import ScenarioSampling.Number
import ScenarioSampling.Bridge.Event

/-!
# The channel and the stop signal

Events go from the search to the worker through a queue without bound, reports come back through one
of fixed capacity; both are first in, first out. A queue of capacity zero holds nothing: a report
passes only while the search waits for it.

The stop signal is a flag together with a queue for one token. Its owners request a stop by raising
the flag and then leaving a token, so that a worker which only waits for the token wakes up too.
-/

namespace ScenarioSampling

/-- The two queues between the search and a worker, with what either end remembers. -/
structure Channel where
  capacity : Nat
  /-- Events on their way to the worker, oldest first. -/
  inbound : List Event
  /-- Reports on their way to the search, oldest first. -/
  outbound : List Report
  searchAlive : Bool
  workerAlive : Bool
  receiving : Bool
  /-- The highest sequence number that the search has accepted. -/
  lastSequence : Option Nat
  /-- How many events the worker has read. -/
  observed : Nat
  /-- How many reports the worker has sent, which is also the next sequence number. -/
  emitted : Nat
  stopped : Option StopReason
  deriving DecidableEq, Repr

namespace Channel

/-- An empty channel both ends of which are held. -/
def ofCapacity (capacity : Nat) : Channel where
  capacity := capacity
  inbound := []
  outbound := []
  searchAlive := true
  workerAlive := true
  receiving := false
  lastSequence := none
  observed := 0
  emitted := 0
  stopped := none

/-- A report can be sent: the queue is not full, or the search waits for just this report. -/
def hasRoom (c : Channel) : Bool :=
  c.outbound.length < c.capacity || (c.receiving && c.outbound.isEmpty)

/-- How many reports the search could read without waiting. -/
def pending (c : Channel) : Nat := c.outbound.length

/-- The search has not seen a report with this sequence number or a later one. -/
def isFresh (c : Channel) (r : Report) : Bool :=
  match c.lastSequence with
  | none => true
  | some last => last < r.sequence

end Channel

/-- A flag, a token and how many hold on to the signal. -/
structure StopSignal where
  raised : Bool
  token : Bool
  owners : Nat
  /-- How many requests have raised the flag and not left their token yet. -/
  underway : Nat
  deriving DecidableEq, Repr

namespace StopSignal

/-- The signal of a new worker, which has one owner. -/
def initial : StopSignal := ⟨false, false, 1, 0⟩

/-- The first half of a request. -/
def raise (s : StopSignal) : StopSignal :=
  if 0 < s.owners then { s with raised := true, underway := s.underway + 1 } else s

/-- The second half of a request; a token that is already there is enough. -/
def leaveToken (s : StopSignal) : StopSignal :=
  if 0 < s.underway then { s with token := true, underway := s.underway - 1 } else s

/-- A whole request by one owner: the flag first, then the token. -/
def request (s : StopSignal) : StopSignal := s.raise.leaveToken

/-- An owner shares the signal with another one; nobody else can. -/
def addOwner (s : StopSignal) : StopSignal :=
  if 0 < s.owners then { s with owners := s.owners + 1 } else s

/-- An owner in the middle of a request does not let go. -/
def dropOwner (s : StopSignal) : StopSignal :=
  if s.underway < s.owners then { s with owners := s.owners - 1 } else s

/-- Waiting for the token ends: it is there, or nobody is left to bring it. -/
def isReady (s : StopSignal) : Bool := s.token || s.owners == 0

end StopSignal

end ScenarioSampling
