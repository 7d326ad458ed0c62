import Mathlib.Data.List.Basic

namespace KissTncBridge.Lib

/-- A bounded channel as its sender sees it: what is queued, how much fits,
and whether the receiver is still there. -/
structure Chan (α : Type) where
  queue : List α
  cap : Nat
  alive : Bool
deriving DecidableEq, Repr

namespace Chan

def empty (cap : Nat) : Chan α := ⟨[], cap, true⟩

/-- Free slots; a channel whose receiver is gone still reports them. -/
def capacity (c : Chan α) : Nat := c.cap - c.queue.length

/-- Queue `x` at once, or fail because the channel is full or closed. -/
def trySend (c : Chan α) (x : α) : Option (Chan α) :=
  if c.alive ∧ c.queue.length < c.cap then some { c with queue := c.queue ++ [x] } else none

/-- The receiver takes the oldest message. -/
def recv (c : Chan α) : Option (α × Chan α) :=
  match c.queue with
  | [] => none
  | x :: xs => some (x, { c with queue := xs })

/-- The receiver goes away. -/
def close (c : Chan α) : Chan α := { c with alive := false }

theorem trySend_some {c d : Chan α} (h : c.trySend x = some d) :
    d.queue = c.queue ++ [x] ∧ d.cap = c.cap ∧ d.alive = c.alive := by
  unfold trySend at h
  split at h
  · cases h
    exact ⟨rfl, rfl, rfl⟩
  · cases h

end Chan
end KissTncBridge.Lib
