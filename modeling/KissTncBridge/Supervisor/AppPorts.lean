import Mathlib.Data.Nat.Pairing
import KissTncBridge.Bridge.Apps
import KissTncBridge.Port.BleServer
import KissTncBridge.Port.TcpServer

namespace KissTncBridge.Supervisor.AppPorts
open Lib Conf Bridge Reconcile KissTncBridge.Port

/-- Whose session a kick token is for: that of a TCP client's task, or that of
the client of one generation in a `ble-server` port's task. -/
inductive Owner where
  | tcp (task : Nat)
  | ble (server generation : Nat)
deriving DecidableEq, Repr

/-- Tokens are numbered so that no two owners share one. -/
def Owner.token : Owner → Nat
  | .tcp task => 2 * task
  | .ble server generation => 2 * Nat.pair server generation + 1

/-- An event on its way to the bridge. `sender` is the token of the session it
is sent for; the bridge is not told it. -/
structure Mail where
  sender : Nat
  event : AppEvent
deriving DecidableEq, Repr

/-- What a reload does to a `tcp-server` port that stays as it is. -/
structure Update where
  server : Nat
  live : TcpLive
  announce : Bool
  kicks : List SessionId
deriving DecidableEq, Repr

/-- How far the daemon is with a reload: waiting for the bridge's snapshot,
having it, or applying the plan made of it, with the kicks it has still to send
for the port it is at. `seen` are the sessions of the snapshot with their
tokens. -/
inductive Reload where
  | idle
  | asked
  | answered (snap : Snapshot) (seen : List (SessionId × Nat))
  | applying (seen : List (SessionId × Nat)) (kicks : List SessionId) (rest : List Update)
deriving DecidableEq, Repr

def CMD_QUEUE : Nat := 16

/-- A bridge with the tasks of its app ports and of their clients, those that
are over included, and the daemon as far as it reloads the ports' settings. -/
structure Sys where
  run : Run
  queue : List Mail := []
  cmds : List BridgeCmd := []
  tcp : List TcpServerPort := []
  sessions : List TcpSession := []
  ble : List BleServerPort := []
  reload : Reload := .idle

/-- What the bridge's task does, and what its readers and the daemon send it
beside what is told below. -/
inductive BridgeStep where
  | takes (now : Now)
  | takesCmd (now : Now)
  | turn (e : Event)
  | frame (sender : Nat) (id : SessionId) (f : Frame)
  | command (c : BridgeCmd)

/-- A `tcp-server` port is started or told to stop, its accept loop takes a
client and lets it in or not; the client's task tells the bridge, leaves its
loop (for whatever reason), is no longer counted, and says that it is over. -/
inductive TcpStep where
  | starts (portId : String) (listen : Listen) (announce : Bool) (live : TcpLive)
  | stops (server : Nat)
  | accepts (server : Nat) (peer : SocketAddr)
  | admits (server : Nat)
  | opens (task : Nat)
  | breaks (task : Nat)
  | uncounts (task : Nat)
  | closes (task : Nat)

/-- The adapter manager starts a `ble-server` port's task or tells it to stop;
the task takes word of its phones and tells the bridge. -/
inductive BleStep where
  | starts (portId : String) (maxClients : Nat)
  | stops (server : Nat)
  | limits (server maxClients : Nat)
  | attaches (server : Nat) (addr : Mac)
  | opens (server : Nat)
  | reports (server : Nat) (addr : Mac) (generation : Nat)
  | closes (server : Nat)
  | exits (server : Nat)
  | leaves (server : Nat) (addr : Mac)

/-- The daemon asks for a snapshot, plans with it, and goes through the ports
that are updated: their settings first, then the kicks. -/
inductive ReloadStep where
  | asks
  | plans (ports : List (Nat × Conf.Port))
  | updates
  | kicks
  | applied

inductive Step where
  | bridge (e : BridgeStep)
  | tcp (e : TcpStep)
  | ble (e : BleStep)
  | reload (e : ReloadStep)

namespace Sys

/-- Send the bridge an event, which waits while the queue is full. -/
def send (s : Sys) (sender : Nat) (event : AppEvent) : Option Sys :=
  if s.queue.length < APP_QUEUE then some { s with queue := s.queue ++ [⟨sender, event⟩] } else none

def sendCmd (s : Sys) (c : BridgeCmd) : Option Sys :=
  if s.cmds.length < CMD_QUEUE then some { s with cmds := s.cmds ++ [c] } else none

/-- What the snapshot shows, with each session's token. -/
def seen (s : Sys) : List (SessionId × Nat) := s.run.sessions.entries.map (fun e => (e.1, e.2.kick))

def bridgeStep (s : Sys) : BridgeStep → Option Sys
  | .takes now =>
    match s.queue with
    | [] => none
    | m :: queue =>
      (s.run.step (.app now m.event)).map (fun run => { s with run := run, queue := queue })
  | .takesCmd now =>
    match s.cmds with
    | [] => none
    | c :: cmds =>
      (s.run.step (.cmd now c)).map (fun run => { s with
        run := run
        cmds := cmds
        reload :=
          if c = .snapshot ∧ s.reload = .asked then .answered s.run.snapshot s.seen
          else s.reload })
  | .turn (.app _ _) | .turn (.cmd _ _) => none
  | .turn e => (s.run.step e).map (fun run => { s with run := run })
  | .frame sender session f => s.send sender (.frame session f)
  | .command c => if c = .snapshot then none else s.sendCmd c

/-- The tasks of a port that was stopped have been told to shut down when
another one is started for it. -/
def tcpStep (net : IpNetLib) (s : Sys) : TcpStep → Option Sys
  | .starts portId listen announce live =>
    if s.tcp.any (fun p => p.portId == portId && !p.shutdown) then none
    else some { s with tcp := s.tcp ++ [⟨portId, listen, announce, live, 0, none, false⟩] }
  | .stops server => do
    let p ← s.tcp[server]?
    some { s with tcp := s.tcp.set server { p with shutdown := true } }
  | .accepts server peer => do
    let p ← s.tcp[server]?
    let p ← p.accept peer
    some { s with tcp := s.tcp.set server p }
  | .admits server => do
    let p ← s.tcp[server]?
    let (peer, live) ← p.taken
    if p.admits net peer live then
      some { s with
        tcp := s.tcp.set server { p with taken := none, sessions := p.sessions + 1 }
        sessions := s.sessions ++ [⟨server, ⟨p.portId, .tcp peer⟩, .opening⟩] }
    else some { s with tcp := s.tcp.set server { p with taken := none } }
  | .opens task => do
    let t ← s.sessions[task]?
    if t.phase = .opening then
      let token := (Owner.tcp task).token
      send { s with sessions := s.sessions.set task { t with phase := .serving } } token
        (.sessionOpened t.id (.empty SESSION_QUEUE) token)
    else none
  | .breaks task => do
    let t ← s.sessions[task]?
    if t.phase = .serving then
      some { s with sessions := s.sessions.set task { t with phase := .leaving } }
    else none
  | .uncounts task => do
    let t ← s.sessions[task]?
    let p ← s.tcp[t.server]?
    if t.phase = .leaving then
      some { s with
        sessions := s.sessions.set task { t with phase := .closing }
        tcp := s.tcp.set t.server { p with sessions := p.sessions - 1 } }
    else none
  | .closes task => do
    let t ← s.sessions[task]?
    if t.phase = .closing then
      send { s with sessions := s.sessions.set task { t with phase := .done } }
        (Owner.tcp task).token (.sessionClosed t.id)
    else none

/-- A port's earlier tasks have been told to shut down, or have given up, when
another one is started for it; nobody waits for them to end. -/
def bleStep (s : Sys) : BleStep → Option Sys
  | .starts portId maxClients =>
    if s.ble.any (fun p => p.portId == portId && !p.shutdown && p.doing != .leaving) then none
    else some { s with ble := s.ble ++ [⟨portId, maxClients, ∅, 0, .waiting, false⟩] }
  | .stops server => do
    let p ← s.ble[server]?
    some { s with ble := s.ble.set server { p with shutdown := true } }
  | .limits server maxClients => do
    let p ← s.ble[server]?
    if p.doing = .waiting then
      some { s with ble := s.ble.set server { p with maxClients := maxClients } }
    else none
  | .attaches server addr => do
    let p ← s.ble[server]?
    let p ← p.attach addr
    some { s with ble := s.ble.set server p }
  | .opens server => do
    let p ← s.ble[server]?
    match p.doing with
    | .opening addr generation =>
      let token := (Owner.ble server generation).token
      send { s with ble := s.ble.set server { p with doing := .waiting } } token
        (.sessionOpened (p.sessionId addr) (.empty SESSION_QUEUE) token)
    | _ => none
  | .reports server addr generation => do
    let p ← s.ble[server]?
    let p ← p.report addr generation
    some { s with ble := s.ble.set server p }
  | .closes server => do
    let p ← s.ble[server]?
    match p.doing with
    | .closing addr generation =>
      send { s with ble := s.ble.set server { p with doing := .waiting } }
        (Owner.ble server generation).token (.sessionClosed (p.sessionId addr))
    | _ => none
  | .exits server => do
    let p ← s.ble[server]?
    let p ← p.exit
    some { s with ble := s.ble.set server p }
  | .leaves server addr => do
    let p ← s.ble[server]?
    match p.doing, p.clients.lookup addr with
    | .leaving, some generation =>
      send { s with ble := s.ble.set server { p with clients := p.clients.erase addr } }
        (Owner.ble server generation).token (.sessionClosed (p.sessionId addr))
    | _, _ => none

/-- What the plan sees of the bridge. -/
def runtime (s : Sys) (snap : Snapshot) : Runtime where
  bridges := (∅ : Std.TreeMap String BridgeView).insert s.run.id
    ⟨snap.tnc == .connected, snap.sessions.map (fun x => ⟨x.id, x.seq⟩)⟩
  adapterMac := none

/-- What the plan makes of a `tcp-server` port, if it updates it. -/
def update (net : IpNetLib) (s : Sys) (snap : Snapshot) (np : Nat × Conf.Port) : Option Update := do
  let p ← s.tcp[np.1]?
  let plan := comparePort net (s.runtime snap) s.run.id p.port np.2
  match plan.action, np.2.kind with
  | .updated, .tcpServer _ maxClients allow announce =>
    some ⟨np.1, ⟨maxClients, allow⟩, announce, plan.disconnects⟩
  | _, _ => none

def reloadStep (net : IpNetLib) (s : Sys) : ReloadStep → Option Sys
  | .asks => if s.reload = .idle then sendCmd { s with reload := .asked } .snapshot else none
  | .plans ports =>
    match s.reload with
    | .answered snap seen =>
      if (ports.map Prod.fst).Nodup then
        some { s with reload := .applying seen [] (ports.filterMap (s.update net snap)) }
      else none
    | _ => none
  | .updates =>
    match s.reload with
    | .applying seen [] (u :: rest) => do
      let p ← s.tcp[u.server]?
      some { s with
        tcp := s.tcp.set u.server { p with live := u.live, announce := u.announce }
        reload := .applying seen u.kicks rest }
    | _ => none
  | .kicks =>
    match s.reload with
    | .applying seen (session :: kicks) rest =>
      sendCmd { s with reload := .applying seen kicks rest } (.kick session)
    | _ => none
  | .applied =>
    match s.reload with
    | .applying _ [] [] => some { s with reload := .idle }
    | _ => none

def step (net : IpNetLib) (s : Sys) : Step → Option Sys
  | .bridge e => s.bridgeStep e
  | .tcp e => s.tcpStep net e
  | .ble e => s.bleStep e
  | .reload e => s.reloadStep net e

/-- A bridge that has just started, with no port yet. -/
def start (id : String) (connector : Connector) (settings : TncSettings) (now : Now) : Sys where
  run := Run.start id connector settings now

/-- The token of the session registered under an id. -/
def registered (s : Sys) (id : SessionId) : Option Nat :=
  (s.run.sessions.lookup id).map Session.kick

end Sys
end KissTncBridge.Supervisor.AppPorts
