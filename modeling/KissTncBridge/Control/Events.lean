import Mathlib.Logic.Function.Basic
import KissTncBridge.Lib.Runs

namespace KissTncBridge.Control

/-- Toward the bridge, or away from it. -/
inductive Dir where
  | rx
  | tx
deriving DecidableEq, Repr

/-- A time on the monotonic clock, and a span of it, in nanoseconds. -/
abbrev Instant := Int

/-- At most one activity event per port or session this often. -/
def ACTIVITY_INTERVAL : Int := 100000000

/-- How long an object that has been quiet is remembered. -/
def FORGET_AFTER : Int := 60000000000

/-- What activity is summed for: an object and a direction. -/
abbrev ActivityKey := String × Dir

/-- The bytes since the last event. -/
structure Slot where
  last : Instant
  pending : UInt64
deriving DecidableEq, Repr

/-- An `activity` event, with the time it is sent. -/
structure Activity where
  time : Instant
  key : ActivityKey
  bytes : UInt64
deriving DecidableEq, Repr

/-- The coalescer. `clock` is when it last ran, and `out` what it has sent so far. -/
structure Coalescer where
  slots : ActivityKey → Option Slot := fun _ => none
  clock : Instant := 0
  out : List Activity := []

/-- What wakes the coalescer: bytes on an object, or its timer. The slots are gone
through in some order. -/
inductive CoalesceEvent where
  | raw (now : Instant) (key : ActivityKey) (bytes : UInt64)
  | tick (now : Instant) (order : List ActivityKey)
deriving DecidableEq, Repr

def CoalesceEvent.now : CoalesceEvent → Instant
  | raw now .. | tick now _ => now

def Slot.due (slot : Slot) (now : Instant) : Bool :=
  0 < slot.pending && ACTIVITY_INTERVAL ≤ now - slot.last

/-- A slot after its timer: what was due has been sent, and one that has been quiet
for a while is forgotten. -/
def Slot.afterTick (slot : Slot) (now : Instant) : Option Slot :=
  let slot := if slot.due now then ⟨now, 0⟩ else slot
  if 0 < slot.pending ∨ now - slot.last < FORGET_AFTER then some slot else none

namespace Coalescer

/-- Sum bytes per object and direction, and emit at most one event per interval for
each. -/
def step (s : Coalescer) : CoalesceEvent → Option Coalescer
  | .raw now key bytes =>
    let slot := (s.slots key).getD ⟨now - ACTIVITY_INTERVAL, 0⟩
    let pending := slot.pending + bytes
    if ACTIVITY_INTERVAL ≤ now - slot.last then
      some {
        slots := Function.update s.slots key (some ⟨now, 0⟩)
        clock := now
        out := s.out ++ [⟨now, key, pending⟩] }
    else
      some { s with
        slots := Function.update s.slots key (some { slot with pending := pending })
        clock := now }
  | .tick now order =>
    some {
      slots := fun key => (s.slots key).bind (fun slot => slot.afterTick now)
      clock := now
      out := s.out ++ order.filterMap (fun key => (s.slots key).bind (fun slot =>
        if slot.due now then some ⟨now, key, slot.pending⟩ else none)) }

end Coalescer

end KissTncBridge.Control
