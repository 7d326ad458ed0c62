import Mathlib.Data.List.AList
import KissTncBridge.Bridge.Policy
import KissTncBridge.Lib.Chan
import KissTncBridge.Lib.Runs

namespace KissTncBridge.Bridge
open Conf Lib

/-- Who a session belongs to. Its text form, the peer part of a session id, is
a socket address for a TCP client and a MAC for a phone. -/
inductive Peer where
  | tcp (addr : SocketAddr)
  | ble (mac : Mac)
deriving DecidableEq, Repr

def Peer.text : Peer → String
  | .tcp a => Text.socketAddr a
  | .ble m => Text.mac m

/-- What parsing the text form as a socket address recovers. -/
def Peer.ip : Peer → Option IpAddr
  | .tcp a => some a.ip
  | .ble _ => none

/-- One live connection on an app port. -/
structure SessionId where
  port : String
  peer : Peer
deriving DecidableEq, Repr

/-- A reading of the two clocks: monotonic and wall time. -/
structure Now where
  instant : Nat
  system : Nat
deriving DecidableEq, Repr

/-- The TNC port's settings, from config. All of them apply live. -/
structure TncSettings where
  portId : String
  connect : ConnectPolicy
  idleTimeout : Duration
  appParams : AppParams
  exitKissOnDisconnect : Bool
deriving DecidableEq, Repr

/-- How a bridge reaches its TNC: what the connector of each port type is
built from. -/
inductive Connector where
  | tcp (host : String) (port : UInt16)
  | serial (tncId : String) (device : SerialDevice) (model : TncModel)
  | spp (tncId : String) (spp : Spp) (model : TncModel)
  | ble (tncId : String) (ble : Ble) (model : TncModel)
deriving DecidableEq, Repr

/-- Why connecting failed. `unpaired` and `deviceAbsent` mean "wait and check
again", anything else "back off and retry". -/
inductive Error where
  | unpaired (why : String)
  | deviceAbsent (why : String)
  | other (why : String)
deriving DecidableEq, Repr

/-- The TNC port's state, as published for `status`. -/
inductive TncState where
  | idle
  | connecting
  | connected
  | backoff (attempt : Nat) (retryIn : Duration)
  | unpaired (why : String)
  | waitingForDevice (why : String)
deriving DecidableEq, Repr

def TncState.name : TncState → String
  | .idle => "idle"
  | .connecting => "connecting"
  | .connected => "connected"
  | .backoff .. => "backoff"
  | .unpaired _ => "unpaired"
  | .waitingForDevice _ => "waiting for device"

inductive WriterMsg where
  | frame (f : Frame)
  | exitKiss (steps : List (List UInt8))
deriving DecidableEq, Repr

structure Counters where
  framesUp : Nat := 0
  framesDown : Nat := 0
  dropped : Nat := 0
  sessions : Nat := 0
  tncConnects : Nat := 0
deriving DecidableEq, Repr

/-- `tx` carries frames from the TNC to the client; cancelling the token
`kick` makes the port drop the session. -/
structure Session where
  tx : Chan Frame
  kick : Nat
  seq : Nat
  since : Nat
deriving DecidableEq, Repr

structure SessionInfo where
  id : SessionId
  seq : Nat
  since : Nat
deriving DecidableEq, Repr

structure Snapshot where
  tnc : TncState
  tncSince : Nat
  held : Option Bool
  sessions : List SessionInfo
deriving DecidableEq, Repr

inductive AppEvent where
  | sessionOpened (id : SessionId) (tx : Chan Frame) (kick : Nat)
  | sessionClosed (id : SessionId)
  | frame (id : SessionId) (frame : Frame)
deriving DecidableEq, Repr

inductive BridgeCmd where
  | settings (s : TncSettings)
  | connector (c : Connector)
  | kick (id : SessionId)
  | hold (h : Option Bool)
  | snapshot
deriving DecidableEq, Repr

inductive TncEvent where
  | frame (generation : Nat) (frame : Frame)
  | closed (generation : Nat) (error : Error)
deriving DecidableEq, Repr

/-- The link to the TNC. A connect task is named by the generation it was
spawned in, a link by how many links came up before and with it. -/
inductive TncLink where
  | idle
  | connecting (task : Nat)
  | connected (link : Nat)
  | backoff (sleep : Duration)
deriving DecidableEq, Repr

def TncLink.isWaiting : TncLink → Bool
  | .connecting _ | .backoff _ => true
  | .idle | .connected _ => false

/-- A connect that succeeded hands over the way out of KISS mode. -/
inductive LinkEvent where
  | connected (res : Except Error (List (List UInt8)))
  | backoffOver

inductive Wait where
  | unpaired
  | device
deriving DecidableEq, Repr

/-- What a bridge does to the tasks and channels around it. -/
inductive Out where
  | spawnConnect (was : TncLink) (task : Nat)
  | abortConnect (task : Nat)
  | connectDone (task : Nat)
  | spawnLink (link generation : Nat)
  | toWriter (link : Nat) (msg : WriterMsg)
  | offer (link : TncLink) (id : SessionId) (frame : Frame)
  | cancel (token : Nat)
  | reply (s : Snapshot)
deriving DecidableEq, Repr

def UPLINK_QUEUE_FRAMES : Nat := 32
def UPLINK_QUEUE_AGE : Duration := 5000
def BACKOFF_MIN : Duration := 1000
def BACKOFF_MAX : Duration := 30000
def UNPAIRED_POLL : Duration := 5000
def DEVICE_POLL : Duration := 2000
def WRITER_QUEUE : Nat := 256

/-- `None` once the product no longer fits a duration's 64-bit seconds. -/
def checkedMul (d : Duration) (n : Nat) : Option Duration :=
  if d * n / 1000 < UInt64.size then some (d * n) else none

/-- The registered sessions, at most one for an id. -/
abbrev Sessions := AList (fun _ : SessionId => Session)

/-- The bridge task's own state, with `out` recording what it did.
`attempt` is a `u32` in the source and agrees with it while fewer than 2^32
connects fail in a row. -/
structure Run where
  id : String
  connector : Connector
  settings : TncSettings
  sessions : Sessions := ∅
  nextSeq : Nat := 0
  link : TncLink := .idle
  writerTx : Option (Chan WriterMsg) := none
  exitKiss : List (List UInt8) := []
  generation : Nat := 0
  attempt : Nat := 0
  pending : List (Nat × Frame × Option SessionId) := []
  idleTimer : Option Duration := none
  waiting : Option Wait := none
  linkStart : Nat × Nat := (0, 0)
  state : TncState := .idle
  stateSince : Nat
  held : Option Bool := none
  counters : Counters := {}
  out : List Out := []

namespace Run

def setState (r : Run) (now : Now) (state : TncState) : Run :=
  { r with
    state := state
    stateSince := if r.state.name = state.name then r.stateSince else now.system }

def startConnect (r : Run) (now : Now) : Run :=
  let task := r.generation + 1
  let r := { r with
    generation := task
    out := r.out ++ [Out.spawnConnect r.link task]
    link := .connecting task }
  -- A poll while waiting keeps showing what it waits for.
  if r.waiting.isNone then r.setState now .connecting else r

def startWait (r : Run) (now : Now) (kind : Wait) (why : String) : Run :=
  let (delay, state) : Duration × TncState := match kind with
    | .unpaired => (UNPAIRED_POLL, .unpaired why)
    | .device => (DEVICE_POLL, .waitingForDevice why)
  { r with waiting := some kind, attempt := 0, link := .backoff delay }.setState now state

def startBackoff (r : Run) (now : Now) : Run :=
  let attempt := r.attempt + 1
  let delay :=
    min ((checkedMul BACKOFF_MIN (1 <<< min (attempt - 1) 16)).getD BACKOFF_MAX) BACKOFF_MAX
  { r with attempt := attempt, link := .backoff delay }.setState now (.backoff attempt delay)

/-- Let go of whatever the link was. A connected link's writer is told to take
the TNC out of KISS mode if that is wanted and its queue has room. -/
def release (r : Run) : Run :=
  match r.link with
  | .connecting task => { r with out := r.out ++ [.abortConnect task] }
  | .connected link =>
    let steps := WriterMsg.exitKiss r.exitKiss
    let sent := match r.writerTx with
      | some tx =>
        r.settings.exitKissOnDisconnect && !r.exitKiss.isEmpty && (tx.trySend steps).isSome
      | none => false
    { r with writerTx := none, out := r.out ++ if sent then [.toWriter link steps] else [] }
  | .backoff _ | .idle => r

/-- Close the link on purpose, whatever state it is in, and go idle. -/
def disconnect (r : Run) (now : Now) : Run :=
  let r :=
    { r.release with link := .idle, generation := r.generation + 1, pending := [], waiting := none }
  r.setState now .idle

def close (r : Run) (now : Now) : Run := r.disconnect now

def wantsLink (r : Run) : Bool :=
  match r.held with
  | some up => up
  | none => r.settings.connect == .always || !r.sessions.entries.isEmpty

def dropFrame (r : Run) : Run :=
  { r with counters := { r.counters with dropped := r.counters.dropped + 1 } }

def queuePending (r : Run) (now : Now) (frame : Frame) (src : Option SessionId) : Run :=
  let r :=
    if r.pending.length ≥ UPLINK_QUEUE_FRAMES then { r with pending := r.pending.tail }.dropFrame
    else r
  { r with pending := r.pending ++ [(now.instant, frame, src)] }

def uplink (r : Run) (now : Now) (frame : Frame) (src : Option SessionId) : Run :=
  match r.link with
  | .connected link =>
    match r.writerTx.bind (fun tx => tx.trySend (.frame frame)) with
    | some tx => { r with
        writerTx := some tx
        counters := { r.counters with framesUp := r.counters.framesUp + 1 }
        out := r.out ++ [.toWriter link (.frame frame)] }
    | none => r.dropFrame
  | .idle =>
    if r.held = some false then r.dropFrame
    else (r.queuePending now frame src).startConnect now
  | .connecting _ | .backoff _ => r.queuePending now frame src

/-- Nobody is left: let go at once, or after `idle_timeout`. -/
def letGo (r : Run) (now : Now) : Run :=
  if r.settings.idleTimeout = 0 then r.close now
  else { r with idleTimer := some r.settings.idleTimeout }

def countSessions (r : Run) : Run :=
  { r with counters := { r.counters with sessions := r.sessions.entries.length } }

def onApp (r : Run) (now : Now) : AppEvent → Run
  | .sessionOpened id tx kick =>
    let seq := r.nextSeq + 1
    let r := { r with
      nextSeq := seq
      sessions := r.sessions.insert id ⟨tx, kick, seq, now.system⟩ }.countSessions
    let r := { r with idleTimer := none }
    if r.link = .idle ∧ r.wantsLink then r.startConnect now else r
  | .sessionClosed id =>
    let r := { r with sessions := r.sessions.erase id }.countSessions
    if r.sessions.entries.isEmpty ∧ !r.wantsLink then r.letGo now else r
  | .frame id frame =>
    if (r.sessions.lookup id).isNone then r.dropFrame
    else match filterAppFrame frame r.settings.appParams with
      | .drop _ => r.dropFrame
      | .pass => r.uplink now frame (some id)

def applySettings (r : Run) (now : Now) (new : TncSettings) : Run :=
  let old := r.settings
  let r := { r with settings := new }
  if old = new then r
  else match old.connect, new.connect with
    | .onDemand, .always =>
      let r := { r with idleTimer := none }
      if r.link = .idle then r.startConnect now else r
    | .always, .onDemand => if r.sessions.entries.isEmpty then r.letGo now else r
    | _, _ => r

def snapshot (r : Run) : Snapshot where
  tnc := r.state
  tncSince := r.stateSince
  held := r.held
  sessions := (r.sessions.entries.map (fun s => ⟨s.1, s.2.seq, s.2.since⟩)).mergeSort
    (fun a b => a.seq ≤ b.seq)

def onCmd (r : Run) (now : Now) : BridgeCmd → Run
  | .settings new => r.applySettings now new
  | .connector c =>
    let r := { r.close now with connector := c, attempt := 0 }
    if r.wantsLink then r.startConnect now else r
  | .hold hold =>
    let r := { r with held := hold, idleTimer := none }
    if r.wantsLink then
      if r.link = .idle then r.startConnect now else r
    else if hold.isSome ∨ r.settings.idleTimeout = 0 then r.close now
    else { r with idleTimer := some r.settings.idleTimeout }
  | .kick id =>
    match r.sessions.lookup id with
    | some s => { r with out := r.out ++ [.cancel s.kick] }
    | none => r
  | .snapshot => { r with out := r.out ++ [.reply r.snapshot] }

/-- Offer a frame to one session; a session that cannot keep up misses it. -/
def offer (frame : Frame) (r : Run) (id : SessionId) : Run :=
  match r.sessions.lookup id with
  | none => r
  | some s =>
    let r := { r with out := r.out ++ [Out.offer r.link id frame] }
    match s.tx.trySend frame with
    | some tx => { r with sessions := r.sessions.replace id { s with tx := tx } }
    | none => r.dropFrame

def onTnc (r : Run) (now : Now) : TncEvent → Run
  | .frame generation frame =>
    if generation ≠ r.generation then r
    else
      let r := { r with counters := { r.counters with framesDown := r.counters.framesDown + 1 } }
      r.sessions.keys.foldl (offer frame) r
  | .closed generation _ =>
    match r.link with
    | .connected _ =>
      if generation ≠ r.generation then r
      else
        let r := { r with link := .idle, writerTx := none, generation := r.generation + 1 }
        if r.wantsLink then { r with attempt := 0 }.startBackoff now else r.setState now .idle
    | _ => r

/-- Hand a frame that waited for the link to it, if it is still fresh. -/
def uplinkPending (now : Now) (r : Run) (p : Nat × Frame × Option SessionId) : Run :=
  if p.1 + UPLINK_QUEUE_AGE < now.instant then r.dropFrame else r.uplink now p.2.1 p.2.2

/-- The new link's number. -/
def nextLink (r : Run) : Nat := r.counters.tncConnects + 1

/-- The link is up: its reader and writer are spawned with this generation. -/
def linkUp (r : Run) (now : Now) (exitKiss : List (List UInt8)) : Run :=
  { r with
    waiting := none
    exitKiss := exitKiss
    link := .connected r.nextLink
    writerTx := some (.empty WRITER_QUEUE)
    attempt := 0
    counters := { r.counters with tncConnects := r.nextLink }
    linkStart := (r.counters.framesUp, r.counters.framesDown)
    out := r.out ++ [Out.spawnLink r.nextLink r.generation] }.setState now .connected

/-- Nobody is waiting for the link any more. -/
def giveUp (r : Run) (now : Now) : Run :=
  { r with pending := [], waiting := none }.setState now .idle

def onLink (r : Run) (now : Now) : LinkEvent → Run
  | .connected (.ok exitKiss) =>
    let pending := r.pending
    let r := pending.foldl (uplinkPending now) { r.linkUp now exitKiss with pending := [] }
    if !r.wantsLink ∧ r.settings.idleTimeout = 0 then r.close now else r
  | .connected (.error e) =>
    let r := { r with link := .idle }
    if !r.wantsLink then r.giveUp now
    else match e with
      | .unpaired why => r.startWait now .unpaired why
      | .deviceAbsent why => r.startWait now .device why
      | .other _ => { r with waiting := none }.startBackoff now
  | .backoffOver =>
    let r := { r with link := .idle }
    if r.wantsLink then r.startConnect now else r.giveUp now

/-- App events are taken only while the TNC writer has room. -/
def appReady (r : Run) : Bool :=
  match r.writerTx with
  | some tx => 0 < tx.capacity
  | none => true

def onIdle (r : Run) (now : Now) : Run :=
  let r := { r with idleTimer := none }
  if !r.wantsLink then r.close now else r

/-- A bridge's state when its task starts. -/
def new (id : String) (connector : Connector) (settings : TncSettings) (now : Now) : Run :=
  { id := id, connector := connector, settings := settings, stateSince := now.system }

/-- The state the select loop is entered in. -/
def start (id : String) (connector : Connector) (settings : TncSettings) (now : Now) : Run :=
  let r := new id connector settings now
  if settings.connect = .always then r.startConnect now else r

end Run

/-- What wakes the select loop, and what the tasks at the other end of its
channels do meanwhile. -/
inductive Event where
  | app (now : Now) (ev : AppEvent)
  | writerSlot
  | tnc (now : Now) (ev : TncEvent)
  | cmd (now : Now) (cmd : BridgeCmd)
  | link (now : Now) (ev : LinkEvent)
  | idleElapsed (now : Now)
  | sessionTakes (id : SessionId)
  | sessionGone (id : SessionId)
  | writerTakes
  | writerGone

namespace Run

/-- The connect task has been awaited to its end. -/
def connectDone (r : Run) : Run :=
  match r.link with
  | .connecting task => { r with out := r.out ++ [.connectDone task] }
  | _ => r

/-- One turn of the select loop, or one step of a task it talks to; `none` if
the arm's guard is off. -/
def step (r : Run) : Event → Option Run
  | .app now ev => if r.appReady then some (r.onApp now ev) else none
  | .writerSlot => if r.appReady then none else some r
  | .tnc now ev => some (r.onTnc now ev)
  | .cmd now cmd => some (r.onCmd now cmd)
  | .link now ev =>
    match r.link, ev with
    | .connecting _, .connected res => some (r.connectDone.onLink now (.connected res))
    | .backoff _, .backoffOver => some (r.onLink now .backoffOver)
    | _, _ => none
  | .idleElapsed now => if r.idleTimer.isSome then some (r.onIdle now) else none
  | .sessionTakes id => do
    let s ← r.sessions.lookup id
    let (_, tx) ← s.tx.recv
    some { r with sessions := r.sessions.replace id { s with tx := tx } }
  | .sessionGone id => do
    let s ← r.sessions.lookup id
    some { r with sessions := r.sessions.replace id { s with tx := s.tx.close } }
  | .writerTakes => do
    let tx ← r.writerTx
    let (_, tx) ← tx.recv
    some { r with writerTx := some tx }
  | .writerGone => do
    let tx ← r.writerTx
    some { r with writerTx := some tx.close }

end Run
end KissTncBridge.Bridge
