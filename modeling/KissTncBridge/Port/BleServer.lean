import KissTncBridge.Bridge.Run

namespace KissTncBridge.Port
open Bridge

/-- What the loop of a `ble-server` port is in the middle of: telling the bridge
of a new phone, telling it that a phone has gone, or stopping. Dropping the
links of phones that are kicked or served to the end takes its time first. -/
inductive Doing where
  | waiting
  | opening (addr : Mac) (generation : Nat)
  | closing (addr : Mac) (generation : Nat)
  | leaving
deriving DecidableEq, Repr

/-- The task of a `ble-server` port. Its clients are known by the generation
they were registered in. -/
structure BleServerPort where
  portId : String
  maxClients : Nat
  clients : AList (fun _ : Mac => Nat) := ∅
  generation : Nat := 0
  doing : Doing := .waiting
  shutdown : Bool := false
deriving DecidableEq

namespace BleServerPort

def sessionId (p : BleServerPort) (addr : Mac) : SessionId := ⟨p.portId, .ble addr⟩

/-- Known devices may always attach, new ones while below `max_clients`. -/
def admits (p : BleServerPort) (addr : Mac) : Bool :=
  (p.clients.lookup addr).isSome || p.clients.entries.length < p.maxClients

/-- Register a client for `addr` if there isn't one. -/
def ensureClient (p : BleServerPort) (addr : Mac) : BleServerPort :=
  match p.clients.lookup addr with
  | some _ => p
  | none =>
    let generation := p.generation + 1
    { p with
      generation := generation
      clients := p.clients.insert addr generation
      doing := .opening addr generation }

/-- A phone writes or subscribes. -/
def attach (p : BleServerPort) (addr : Mac) : Option BleServerPort :=
  if p.doing = .waiting then some (if p.admits addr then p.ensureClient addr else p) else none

/-- A report that a client was kicked or has gone. One from a session already
replaced is stale. -/
def report (p : BleServerPort) (addr : Mac) (generation : Nat) : Option BleServerPort :=
  if p.doing = .waiting then
    some (if p.clients.lookup addr = some generation then
      { p with clients := p.clients.erase addr, doing := .closing addr generation } else p)
  else none

/-- Out of the loop, on shutdown or when BlueZ ends a control stream. -/
def exit (p : BleServerPort) : Option BleServerPort :=
  if p.doing = .waiting then some { p with doing := .leaving } else none

/-- The generation of the client at `addr` that the bridge has been told of and
not yet that it is over. -/
def owes (p : BleServerPort) (addr : Mac) : Option Nat :=
  match p.doing with
  | .waiting | .leaving => p.clients.lookup addr
  | .opening a _ => if addr = a then none else p.clients.lookup addr
  | .closing a generation => if addr = a then some generation else p.clients.lookup addr

end BleServerPort
end KissTncBridge.Port
