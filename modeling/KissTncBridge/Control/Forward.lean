import Mathlib.Logic.Function.Basic
import KissTncBridge.Lib.Broadcast
import KissTncBridge.Lib.Runs

namespace KissTncBridge.Control
open Lib

inductive Topic where
  | state
  | activity
  | frames
deriving DecidableEq, Repr

/-- Events a slow subscriber can fall behind by before it misses some. -/
def BACKLOG : Nat := 256

/-- Lines queued for a connection's writer. -/
def OUTBOX : Nat := 256

/-- A line for the client: an event or a lagged notice of a topic, or anything else that
is sent to the connection. -/
inductive Line (ε : Type) where
  | event (topic : Topic) (got : Received ε)
  | other
deriving DecidableEq, Repr

/-- The task that streams one topic: where it subscribed, where its receiver is, and
the event it has taken and not yet queued. -/
structure Forwarder (ε : Type) where
  since : Nat
  next : Nat
  hand : Option (Received ε) := none
deriving DecidableEq, Repr

/-- A control connection and the hub's channels: what was published on each, the
forwarders, all lines queued so far, and how many of them its writer has taken. -/
structure Connection (ε : Type) where
  sent : Topic → List ε := fun _ => []
  forwarders : Topic → Option (Forwarder ε) := fun _ => none
  lines : List (Line ε) := []
  written : Nat := 0

inductive ConnStep (ε : Type) where
  | publish (topic : Topic) (event : ε)
  | subscribe (topics : List Topic)
  | recv (topic : Topic)
  | trySend (topic : Topic)
  | send
  | write
deriving DecidableEq, Repr

namespace Connection

variable {ε : Type}

def outbox (s : Connection ε) : List (Line ε) := s.lines.drop s.written

def hasRoom (s : Connection ε) : Bool := s.outbox.length < OUTBOX

/-- One step of the connection's tasks. A reply waits for room in the queue; a client
that doesn't read its events loses them rather than holding up the daemon. -/
def step (s : Connection ε) : ConnStep ε → Option (Connection ε)
  | .publish topic event =>
    some { s with sent := Function.update s.sent topic (s.sent topic ++ [event]) }
  | .subscribe topics =>
    some { s with forwarders := fun topic =>
      if topic ∈ topics then
        (s.forwarders topic).or (some ⟨(s.sent topic).length, (s.sent topic).length, none⟩)
      else s.forwarders topic }
  | .recv topic =>
    (s.forwarders topic).bind fun f =>
      if f.hand.isSome then none
      else (recv BACKLOG (s.sent topic) f.next).map fun (got, next) =>
        { s with
          forwarders :=
            Function.update s.forwarders topic (some { f with next := next, hand := some got }) }
  | .trySend topic =>
    (s.forwarders topic).bind fun f => f.hand.map fun got =>
      { s with
        forwarders := Function.update s.forwarders topic (some { f with hand := none })
        lines := if s.hasRoom then s.lines ++ [.event topic got] else s.lines }
  | .send => if s.hasRoom then some { s with lines := s.lines ++ [.other] } else none
  | .write => if s.written < s.lines.length then some { s with written := s.written + 1 } else none

end Connection

end KissTncBridge.Control
