import KissTncBridge.Config.Load
import KissTncBridge.Reconcile

namespace KissTncBridge.Supervisor
open Conf Bridge Reconcile

/-- The settings a reload changes without closing the listener. -/
structure TcpLive where
  maxClients : Option UInt32
  allow : List IpNet
deriving DecidableEq, Repr

/-- A running port. A `tcp-server` port follows its listening state for the
announcer while it announces; a `ble-server` port is with the adapter its slot
was given. -/
inductive RunningPort where
  | tnc
  | tcp (listen : Listen) (live : TcpLive) (follow : Bool)
  | ble (adapter : AdapterSel) (maxClients : UInt32)
deriving DecidableEq, Repr

structure RunningBridge where
  cfg : Conf.Bridge
  name : String
  ports : Std.TreeMap String RunningPort

inductive AnnounceCmd where
  | bridge (id configured : String)
  | down (bridge port : String)
  | forget (id : String)
deriving DecidableEq, Repr

/-- The bridge a command is about. -/
def AnnounceCmd.about : AnnounceCmd → String
  | .bridge b _ | .down b _ | .forget b => b

/-- What the daemon does to the tasks around it. `announceLater` leaves it to a
task of its own to register a bridge with the announcer at some time. -/
inductive Effect where
  | cmd (bridge : String) (c : BridgeCmd)
  | startBridge (bridge : String) (connector : Connector) (settings : TncSettings)
  | stopBridge (bridge : String)
  | startPort (bridge port : String) (rp : RunningPort)
  | stopPort (bridge port : String) (rp : RunningPort)
  | announce (c : AnnounceCmd)
  | announceLater (bridge configured : String)
  | logLevel (level : String)
deriving DecidableEq, Repr

/-- `bluezErrors` are the BlueZ failures while a plan is applied. -/
structure Daemon (Doc : Type) where
  cfg : Config
  sources : Sources
  store : DynamicStore Doc
  bridges : Std.TreeMap String RunningBridge
  state : State
  disk : Disk
  announcer : Bool
  bluezErrors : List String
  log : List Effect

/-- How the daemon's surroundings answer during one call: the crates it calls,
the host, BlueZ, Avahi and the file system. -/
structure Env (Doc : Type) where
  net : IpNetLib
  toml : TomlLib Doc
  host : Host
  adapters : List (String × Mac)
  btSession : String → String → Except String Unit
  addBle : String → String → Except String Unit
  startAnnouncer : Bool
  statics : StaticFiles
  stateDir : String
  readDynamic : Except String Unit
  readState : Except String Unit
  writeDynamic : Except String Unit
  writeState : Except String Unit

/-- The bridge's TNC settings from its config. -/
def settingsFor (b : Conf.Bridge) : Option TncSettings := do
  let tnc ← b.tncPorts.head?
  let (connect, idleTimeout) ← tnc.connectPolicy
  let exitKissOnDisconnect := match tnc.kind with
    | .sppClient _ _ _ _ _ e | .bleClient _ _ _ _ _ e | .serial _ _ _ _ _ e => e
    | _ => false
  some ⟨tnc.id, connect, idleTimeout, b.appParams, exitKissOnDisconnect⟩

def announces (b : Conf.Bridge) : Bool :=
  b.ports.any (fun p => match p.kind with
    | .tcpServer _ _ _ announce => announce
    | _ => false)

variable {Doc : Type}

namespace Daemon

def port (d : Daemon Doc) (bridge port : String) : Option RunningPort :=
  (d.bridges[bridge]?).bind (fun rb => rb.ports[port]?)

def hasPort (d : Daemon Doc) (bridge port : String) : Bool := (d.port bridge port).isSome

def emit (d : Daemon Doc) (e : Effect) : Daemon Doc := { d with log := d.log ++ [e] }

def bluezFailed (d : Daemon Doc) (e : String) : Daemon Doc :=
  { d with bluezErrors := d.bluezErrors ++ [e] }

def modifyBridge (d : Daemon Doc) (id : String) (f : RunningBridge → RunningBridge) : Daemon Doc :=
  match d.bridges[id]? with
  | some rb => { d with bridges := d.bridges.insert id (f rb) }
  | none => d

def setPort (d : Daemon Doc) (bridge port : String) (rp : RunningPort) : Daemon Doc :=
  d.modifyBridge bridge (fun rb => { rb with ports := rb.ports.insert port rp })

def bridgeCmd (d : Daemon Doc) (bridge : String) (c : BridgeCmd) : Daemon Doc :=
  if d.bridges.contains bridge then d.emit (.cmd bridge c) else d

/-- Change the state and write it if anything changed. A write that fails
changes nothing. -/
def updateState (env : Env Doc) (d : Daemon Doc) (f : State → State) :
    Except String Unit × Daemon Doc :=
  let next := f d.state
  if next.same d.state then (.ok (), d)
  else match env.toml.stateText next with
    | .error e => (.error e, d)
    | .ok body =>
      match env.writeState with
      | .error e => (.error e, d)
      | .ok _ =>
        (.ok (), { d with
          state := next
          disk := { d.disk with state := some (STATE_HEADER ++ body) } })

def announceDown (d : Daemon Doc) (bridge port : String) : Daemon Doc :=
  if d.announcer then d.emit (.announce (.down bridge port)) else d

/-- The announcer, started the first time a port announces. -/
def withAnnouncer (env : Env Doc) (d : Daemon Doc) : Daemon Doc :=
  { d with announcer := d.announcer || env.startAnnouncer }

def announceBridge (env : Env Doc) (d : Daemon Doc) (b : Conf.Bridge) : Daemon Doc :=
  if d.bridges.contains b.id then
    let d := d.withAnnouncer env
    if d.announcer then d.emit (.announce (.bridge b.id b.publicName)) else d
  else d

/-- The port with a task that follows its listening state, if there is an
announcer to tell. -/
def startFollowing (env : Env Doc) (d : Daemon Doc) (rp : RunningPort) : Daemon Doc × RunningPort :=
  let d := d.withAnnouncer env
  (d, match rp with
    | .tcp listen live follow => .tcp listen live (d.announcer || follow)
    | other => other)

/-- The TNC side of a bridge. -/
def connectorFor (env : Env Doc) (b : Conf.Bridge) (p : Port) : Except String Connector :=
  match p.kind with
  | .tcpClient host port _ _ => .ok (.tcp host port)
  | .serial tnc model device _ _ _ => .ok (.serial tnc device model)
  | .sppClient tnc model spp _ _ _ => (env.btSession b.id p.id).map (fun _ => .spp tnc spp model)
  | .bleClient tnc model ble _ _ _ => (env.btSession b.id p.id).map (fun _ => .ble tnc ble model)
  | .tcpServer .. | .bleServer .. =>
    .error ("bridge " ++ b.id ++ ": a " ++ p.typeName ++ " TNC port isn't supported")

/-- The TNC side could not be had. Only a Bluetooth TNC asks BlueZ for it. -/
def connectorFailed (d : Daemon Doc) (p : Port) (e : String) : Daemon Doc :=
  { d with bluezErrors := d.bluezErrors ++ match p.kind with
    | .sppClient .. | .bleClient .. => [e]
    | .tcpClient .. | .serial .. | .tcpServer .. | .bleServer .. => [] }

/-- What a port runs as once started; a client port does not run as an app
port. -/
def startPort (env : Env Doc) (d : Daemon Doc) (b : Conf.Bridge) (p : Port) : Daemon Doc :=
  if !d.bridges.contains b.id then d
  else match p.kind with
    | .tcpServer listen maxClients allow announce =>
      let rp := RunningPort.tcp listen ⟨maxClients, allow⟩ false
      let (d, rp) := if announce then d.startFollowing env rp else (d, rp)
      (d.setPort b.id p.id rp).emit (.startPort b.id p.id rp)
    | .bleServer adapter maxClients =>
      match env.addBle b.id p.id with
      | .ok _ =>
        let rp := RunningPort.ble adapter maxClients
        (d.setPort b.id p.id rp).emit (.startPort b.id p.id rp)
      | .error e => d.bluezFailed e
    | .tcpClient .. | .sppClient .. | .bleClient .. | .serial .. => d

def stopPort (d : Daemon Doc) (bridge port : String) : Daemon Doc :=
  match d.port bridge port with
  | none => d
  | some rp =>
    let d := d.modifyBridge bridge (fun rb => { rb with ports := rb.ports.erase port })
    let d := match rp with
      | .tcp .. => d.announceDown bridge port
      | .tnc | .ble .. => d
    d.emit (.stopPort bridge port rp)

/-- Apply a port's live settings. TNC ports update through
`BridgeCmd.settings`. -/
def updatePort (env : Env Doc) (d : Daemon Doc) (b : Conf.Bridge) (p : Port) : Daemon Doc :=
  match p.kind, d.port b.id p.id with
  | .tcpServer _ maxClients allow announce, some (.tcp listen _ follow) =>
    let live : TcpLive := ⟨maxClients, allow⟩
    if !announce && follow then
      (d.setPort b.id p.id (.tcp listen live false)).announceDown b.id p.id
    else if announce && !follow then
      let d := (d.setPort b.id p.id (.tcp listen live false)).announceBridge env b
      let (d, rp) := d.startFollowing env (.tcp listen live false)
      d.setPort b.id p.id rp
    else d.setPort b.id p.id (.tcp listen live follow)
  | .bleServer _ maxClients, some (.ble adapter _) => d.setPort b.id p.id (.ble adapter maxClients)
  | _, _ => d

/-- The public name in use: the configured one, unless it was adjusted after a
collision. An adjustment of another name is dropped. -/
def effectivePublicName (env : Env Doc) (d : Daemon Doc) (bridge configured : String) :
    String × Daemon Doc :=
  match d.state.adjustedPublicName bridge configured with
  | some name => (name, d)
  | none =>
    (configured,
      if (d.state.bridges[bridge]?).any (fun b => b.publicName.isSome) then
        (d.updateState env (fun s => s.clearAdjustedPublicName bridge)).2
      else d)

def startBridge (env : Env Doc) (d : Daemon Doc) (b : Conf.Bridge) : Daemon Doc :=
  match b.tncPorts.head? with
  | none => d
  | some tnc =>
    match connectorFor env b tnc, settingsFor b with
    | .ok connector, some settings =>
      let (name, d) := d.effectivePublicName env b.id b.publicName
      let d := { d with
        bridges := d.bridges.insert b.id ⟨b, name, .ofList [(tnc.id, RunningPort.tnc)]⟩ }
      let d := d.emit (.startBridge b.id connector settings)
      let d := if announces b then d.announceBridge env b else d
      b.appPorts.foldl (fun d p => d.startPort env b p) d
    | .ok _, none => d
    | .error e, _ => d.connectorFailed tnc e

def stopBridge (d : Daemon Doc) (id : String) : Daemon Doc :=
  match d.bridges[id]? with
  | none => d
  | some rb =>
    let d := rb.ports.keys.foldl (fun d p => d.stopPort id p) d
    let d := { d with bridges := d.bridges.erase id }.emit (.stopBridge id)
    if d.announcer then d.emit (.announce (.forget id)) else d

/-- A new configured name drops any collision adjustment. -/
def publicNameChanged (env : Env Doc) (d : Daemon Doc) (b : Conf.Bridge) : Daemon Doc :=
  let d := (d.updateState env (fun s => s.clearAdjustedPublicName b.id)).2
  let d := d.modifyBridge b.id (fun rb => { rb with name := b.publicName })
  if announces b && d.announcer && d.bridges.contains b.id then
    d.emit (.announceLater b.id b.publicName)
  else d

/-- First pass of a plan: stop what it stops, and app ports it restarts. -/
def stopOne (bridge : String) (d : Daemon Doc) (pp : PortPlan) : Daemon Doc :=
  let appRestart := pp.action == .restarted && d.port bridge pp.id != some .tnc
  if pp.action == .stopped || appRestart then d.stopPort bridge pp.id else d

def applyStop (d : Daemon Doc) (bp : BridgePlan) : Daemon Doc :=
  match bp.action with
  | .stopped => d.stopBridge bp.id
  | .updated => bp.ports.foldl (stopOne bp.id) d
  | _ => d

def stops (d : Daemon Doc) (plan : Plan) : Daemon Doc :=
  plan.bridges.foldl applyStop d

/-- What a port's plan does to what runs under its id: a TNC port that
restarts gets a new connector, anything else that is updated its live
settings. -/
def touchPort (env : Env Doc) (bridge : String) (nb : Conf.Bridge) (np : Port) (d : Daemon Doc)
    (pp : PortPlan) : Daemon Doc :=
  match pp.action, d.port bridge pp.id with
  | .restarted, some .tnc =>
    match connectorFor env nb np with
    | .ok c => d.bridgeCmd bridge (.connector c)
    | .error e => d.connectorFailed np e
  | .updated, some _ => d.updatePort env nb np
  | _, _ => d

def kickAll (d : Daemon Doc) (bridge : String) (sessions : List SessionId) : Daemon Doc :=
  sessions.foldl (fun d s => d.bridgeCmd bridge (.kick s)) d

/-- One port of the second pass. -/
def applyPort (env : Env Doc) (bridge : String) (nb : Conf.Bridge) (d : Daemon Doc)
    (pp : PortPlan) : Daemon Doc :=
  match nb.ports.find? (fun p => p.id == pp.id) with
  | none => d
  | some np =>
    let d := d.touchPort env bridge nb np pp
    if pp.action = .updated then d.kickAll bridge pp.disconnects else d

/-- Whether a bridge's TNC settings are sent again. -/
def tncUpdated (d : Daemon Doc) (bp : BridgePlan) : Bool :=
  bp.changes.contains "app_params" ||
    bp.ports.any (fun p => p.action == .updated && d.port bp.id p.id == some .tnc)

def sendSettings (d : Daemon Doc) (bp : BridgePlan) (nb : Conf.Bridge) : Daemon Doc :=
  match settingsFor nb with
  | some settings => if d.tncUpdated bp then d.bridgeCmd bp.id (.settings settings) else d
  | none => d

/-- Second pass of a plan, for one bridge: what applies live. -/
def applyLive (env : Env Doc) (new : Config) (d : Daemon Doc) (bp : BridgePlan) : Daemon Doc :=
  match new.bridges.find? (fun b => b.id == bp.id) with
  | none => d
  | some nb =>
    let d := if bp.changes.contains "public_name" then d.publicNameChanged env nb else d
    let d := bp.ports.foldl (applyPort env bp.id nb) (d.sendSettings bp nb)
    d.modifyBridge bp.id (fun rb => { rb with cfg := nb })

def lives (env : Env Doc) (new : Config) (d : Daemon Doc) (plan : Plan) : Daemon Doc :=
  let d := if plan.global.contains "log_level" then d.emit (.logLevel new.global.logLevel) else d
  (plan.bridges.filter (fun bp => bp.action == .updated)).foldl (applyLive env new) d

/-- One port of the third pass. -/
def restartPort (env : Env Doc) (bridge : String) (nb : Conf.Bridge) (d : Daemon Doc)
    (pp : PortPlan) : Daemon Doc :=
  if pp.action == .started || (pp.action == .restarted && !d.hasPort bridge pp.id) then
    match nb.ports.find? (fun p => p.id == pp.id) with
    | some np => d.startPort env nb np
    | none => d
  else d

/-- Third pass of a plan, for one bridge: start what it starts, and what was
stopped to be restarted. -/
def applyStart (env : Env Doc) (new : Config) (d : Daemon Doc) (bp : BridgePlan) : Daemon Doc :=
  match new.bridges.find? (fun b => b.id == bp.id) with
  | none => d
  | some nb =>
    match bp.action with
    | .started => d.startBridge env nb
    | .updated => bp.ports.foldl (restartPort env bp.id nb) d
    | _ => d

def starts (env : Env Doc) (new : Config) (d : Daemon Doc) (plan : Plan) : Daemon Doc :=
  plan.bridges.foldl (applyStart env new) d

/-- Display-only changes land too. -/
def adopt (d : Daemon Doc) (new : Config) : Daemon Doc :=
  { d with
    bridges := d.bridges.map (fun id rb =>
      match new.bridges.find? (fun b => b.id == id) with
      | some nb => { rb with cfg := nb }
      | none => rb)
    cfg := new }

def apply (env : Env Doc) (d : Daemon Doc) (plan : Plan) (new : Config) : Daemon Doc :=
  (((d.stops plan).lives env new plan).starts env new plan).adopt new

/-- Which MAC an adapter value means among the adapters present. -/
def adapterMac (adapters : List (String × Mac)) : AdapterSel → Option Mac
  | .mac m => some m
  | .default => adapters.head?.map Prod.snd
  | .hci h => (adapters.find? (fun a => a.1 == h)).map Prod.snd

/-- What the plan needs to know, from what each bridge task answers; a task
that is gone answers nothing. -/
def runtime (env : Env Doc) (d : Daemon Doc) (snapshot : String → Option Snapshot) : Runtime where
  bridges := d.bridges.filterMap (fun id _ => (snapshot id).map (fun snap =>
    ⟨snap.tnc == .connected, snap.sessions.map (fun s => ⟨s.id, s.seq⟩)⟩))
  adapterMac := some (adapterMac env.adapters)

/-- The plan for moving from the config in effect to `new`. -/
def planFor (env : Env Doc) (d : Daemon Doc) (snapshot : String → Option Snapshot) (new : Config) :
    Plan :=
  plan env.net d.cfg new (d.runtime env snapshot)

end Daemon
end KissTncBridge.Supervisor
