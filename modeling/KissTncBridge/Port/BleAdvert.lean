import KissTncBridge.Port.BleServer
import KissTncBridge.Supervisor.Ble

namespace KissTncBridge.Port
open Bridge Supervisor.Ble

/-- After a phone's link drops, how long to wait before advertising again. -/
def ADV_ROTATION_WAIT : Nat := 3000

/-- The event loop of a `ble-server` port between two events: its clients, and the
advertisement it holds, known by the name it was registered with. -/
structure BleLoop where
  port : BleServerPort
  publicName : String
  adv : Option String
  refreshAt : Option Nat := none
  followMax : Bool := true
  followName : Bool := true
  watched : List Mac := []
  state : BleState := .advertising
deriving DecidableEq

/-- What wakes the loop. Where the handler may call `advertise`, `ok` is what BlueZ
answers; a watch channel that is closed brings no new value, and `accepted` is
whether a write request could be accepted. -/
inductive BleLoopEvent where
  | maxChanged (max : Option UInt32) (ok : Bool)
  | refresh (now : Nat) (ok : Bool)
  | nameChanged (name : Option String) (ok : Bool)
  | write (addr : Mac) (accepted ok : Bool)
  | notify (addr : Mac) (ok : Bool)
  | gone (addr : Mac) (generation : Nat) (ok : Bool)
  | kicked (addr : Mac) (generation : Nat) (ok : Bool)
  | unwatched (addr : Mac)
  | check (addr : Mac)
  | linkDown (addr : Mac) (now : Nat)
  | shutdown
  | streamEnded (why : String)
deriving DecidableEq, Repr

namespace BleLoop

/-- The loop is entered with the service and the advertisement registered. -/
def start (portId publicName : String) (maxClients : UInt32) : BleLoop :=
  { port := ⟨portId, maxClients.toNat, ∅, 0, .waiting, false⟩
    publicName := publicName
    adv := some publicName }

def len (l : BleLoop) : Nat := l.port.clients.entries.length

/-- Advertise again, unless BlueZ refuses. -/
def resume (l : BleLoop) (ok : Bool) : BleLoop :=
  if ok then { l with adv := some l.publicName, state := .advertising } else l

/-- Withdraw the advertisement, if one is held. -/
def withdraw (l : BleLoop) : BleLoop :=
  if l.adv.isSome then { l with adv := none, state := .full } else l

/-- Below `max_clients`, a new phone's connection is followed by a new
advertisement; the old one is dropped only once the new one is in. -/
def readvertise (l : BleLoop) (ok : Bool) : BleLoop :=
  if l.adv.isNone then l
  else if ok then { l with adv := some l.publicName } else l

/-- Register a session for `addr` if there isn't one, and tell the bridge. -/
def ensureClient (l : BleLoop) (addr : Mac) : BleLoop :=
  { l with port := { l.port.ensureClient addr with doing := .waiting } }

def knows (l : BleLoop) (addr : Mac) : Bool := (l.port.clients.lookup addr).isSome

/-- A client's session is over. -/
def leave (l : BleLoop) (addr : Mac) (generation : Nat) (ok : Bool) : BleLoop :=
  if l.port.clients.lookup addr ≠ some generation then l
  else
    let l := { l with
      port := { l.port with clients := l.port.clients.erase addr }
      watched := l.watched.insert addr }
    if l.len < l.port.maxClients ∧ l.adv.isNone ∧ l.refreshAt.isNone then l.resume ok else l

/-- One turn of the select loop; `none` if the arm's guard is off or the loop has
been left. -/
def step (l : BleLoop) (e : BleLoopEvent) : Option BleLoop :=
  if l.port.doing = .leaving then none
  else match e with
    | .maxChanged max ok =>
      if !l.followMax then none
      else match max with
        | none => some { l with followMax := false }
        | some max =>
          let l := { l with port := { l.port with maxClients := max.toNat } }
          if l.len ≥ l.port.maxClients then some l.withdraw
          else if l.adv.isNone ∧ l.refreshAt.isNone then some (l.resume ok)
          else some l
    | .refresh now ok =>
      match l.refreshAt with
      | some due =>
        if now < due then none
        else
          let l := { l with refreshAt := none }
          if l.len < l.port.maxClients then some (l.resume ok) else some { l with state := .full }
      | none => none
    | .nameChanged name ok =>
      if !l.followName then none
      else match name with
        | none => some { l with followName := false }
        | some name =>
          let l := { l with publicName := name }
          if l.adv.isSome then some { l with adv := if ok then some name else none } else some l
    | .write addr accepted ok =>
      if !l.port.admits addr || !accepted then some l
      else
        let known := l.knows addr
        let l := l.ensureClient addr
        if !known ∧ l.len < l.port.maxClients then some (l.readvertise ok) else some l
    | .notify addr ok =>
      if !l.port.admits addr then some l
      else
        let known := l.knows addr
        let l := l.ensureClient addr
        if l.len ≥ l.port.maxClients then some l.withdraw
        else if !known then some (l.readvertise ok) else some l
    | .gone addr generation ok | .kicked addr generation ok => some (l.leave addr generation ok)
    | .unwatched addr => some { l with watched := l.watched.erase addr }
    | .check _ => some l
    | .linkDown _ now => some { l with adv := none, refreshAt := some (now + ADV_ROTATION_WAIT) }
    | .shutdown =>
      some { l with port := { l.port with doing := .leaving }, adv := none, state := .stopped }
    | .streamEnded _ =>
      -- The failure is shown only until the port has stopped.
      some { l with port := { l.port with doing := .leaving }, adv := none, state := .stopped }

end BleLoop
end KissTncBridge.Port
