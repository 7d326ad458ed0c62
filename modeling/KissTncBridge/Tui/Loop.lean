import Mathlib.Logic.Function.Basic
import KissTncBridge.Tui.App

namespace KissTncBridge.Tui
open KissTncBridge.Pairing (PairingStep)

/-- A connection's requests. `writes` is how many lines it will still take before
writing to it fails. -/
structure Client where
  nextId : Nat := 1
  writes : Nat
deriving DecidableEq, Repr

def Client.send (c : Client) : Option (Nat × Client) :=
  if c.writes = 0 then none else some (c.nextId, ⟨c.nextId + 1, c.writes - 1⟩)

/-- The connections to the daemon: the status request that waits for its answer, whether
state changed again meanwhile, and the other requests that wait for theirs. -/
structure Conn where
  requests : Client
  statusPending : Option Nat := none
  statusStale : Bool := false
  pending : Nat → Option Then := fun _ => none

/-- Ask for `status`, or if it's already asked for, again when that answer comes. -/
def Conn.refresh (c : Conn) : Option Conn :=
  if c.statusPending.isSome then some { c with statusStale := true }
  else c.requests.send.map
    (fun (id, requests) => { c with requests := requests, statusPending := some id })

def Conn.add (c : Conn) (id : Nat) (requests : Client) (andThen : Then) : Conn :=
  { c with requests := requests, pending := Function.update c.pending id (some andThen) }

def Conn.open (writes : Nat) : Option Conn :=
  let client : Client := { writes := writes }
  client.send.bind
    (fun (models, requests) => ({ requests := requests : Conn }.add models requests .other).refresh)

structure Response (σ : Type) where
  id : Option Nat
  result : Except String (Value σ)

/-- An event on the events connection, as it matters to the status. -/
inductive Event where
  | state
  | activity
  | frame
  | lagged
deriving DecidableEq, Repr

/-- Take in an event. True if `status` should be read again. -/
def onEvent : Event → Bool
  | .state => true
  | .activity | .frame | .lagged => false

/-- What a key asks where it goes to a dialog, a menu or a form, or to a view. -/
inductive Asked where
  | none
  | request (command : Command)
  | run
deriving DecidableEq, Repr

inductive ViewKey where
  | asks (asked : Asked)
  | scan (adapter : Option String) (target : Option Target)
deriving DecidableEq, Repr

def Asked.action : Asked → Action
  | none => .none
  | request command => .request ⟨command, .other⟩
  | run => .run

/-- A key. It goes to what is in front, if something is, then to the box of a pairing
that isn't put away or of a scan, then to the view. -/
def App.key (app : App σ) (front : Option Asked) (k : Key) (view : ViewKey) : App σ × Action :=
  match front with
  | some asked => (app, asked.action)
  | none =>
    if app.pairing.any (fun p => !p.hidden) then app.pairingKey k
    else if app.scan.isSome then app.scanKey k
    else
      match view with
      | .asks asked => (app, asked.action)
      | .scan adapter target => app.startScan adapter target

/-- The TUI: what it shows, and its connections while it has them. -/
structure Loop (σ : Type) where
  app : App σ := {}
  conn : Option Conn := none

/-- What wakes the loop. -/
inductive Woke (σ : Type) where
  | key (front : Option Asked) (k : Key) (view : ViewKey)
  | response (r : Response σ)
  | found (request : Nat) (device : BtDevice)
  | pairing (request : Nat) (step : PairingStep)
  | event (e : Event)
  | closed
  | retry (writes : Nat)

namespace Loop

variable {σ : Type}

/-- Do what a key or an answer asks. Where the connection fails, what is left of the
app. -/
def act (app : App σ) (conn : Option Conn) : Action → Except (App σ) (Loop σ)
  | .none => .ok ⟨app, conn⟩
  -- Only keys hand off, and the loop does that.
  | .run => .ok ⟨app, conn⟩
  | .request req =>
    match conn with
    | none => .ok ⟨app.lost "not connected to the daemon", none⟩
    | some c =>
      match c.requests.send with
      | none => .error app
      | some (id, requests) => .ok ⟨app.sent id req.andThen, some (c.add id requests req.andThen)⟩

/-- An answer on the requests connection. -/
def answered (app : App σ) (c : Conn) (r : Response σ) : Except (App σ) (Loop σ) :=
  if r.id.isSome ∧ r.id = c.statusPending then
    let c := { c with statusPending := none }
    let app := app.statusAnswer r.result
    if c.statusStale then
      match { c with statusStale := false }.refresh with
      | some c => .ok ⟨app, some c⟩
      | none => .error app
    else .ok ⟨app, some c⟩
  else
    match r.id.bind (fun id => (c.pending id).map (fun andThen => (id, andThen))) with
    | none => .ok ⟨app, some c⟩
    | some (id, andThen) =>
      let c := { c with pending := Function.update c.pending id none }
      let (app, next) := app.onAnswer andThen r.result
      -- Not every change sends a state event, so look again.
      match c.refresh with
      | none => .error app
      | some c => act app (some c) next

/-- Any trouble with the daemon: show it, and try again shortly. -/
def settle : Except (App σ) (Loop σ) → Loop σ
  | .ok t => t
  | .error app => ⟨app.lost "the daemon closed the connection", none⟩

/-- One turn of the loop. Keys come at any time, messages while there are connections,
and new connections while there are none. -/
def step (t : Loop σ) : Woke σ → Option (Loop σ)
  | .key front k view =>
    let (app, action) := t.app.key front k view
    match action with
    | .run => some ⟨app, none⟩
    | action => some (settle (act app t.conn action))
  | .response r => t.conn.map (fun c => settle (answered t.app c r))
  | .found request device =>
    t.conn.map fun c =>
      let (app, action) := t.app.found request device
      settle (act app (some c) action)
  | .pairing request step => t.conn.map (fun c => ⟨t.app.pairingStep request step, some c⟩)
  | .event e =>
    t.conn.map fun c =>
      if onEvent e then
        match c.refresh with
        | some c => ⟨t.app, some c⟩
        | none => settle (.error t.app)
      else t
  | .closed => t.conn.map (fun _ => settle (.error t.app))
  | .retry writes => if t.conn.isSome then none else some ⟨t.app, Conn.open writes⟩

end Loop

end KissTncBridge.Tui
