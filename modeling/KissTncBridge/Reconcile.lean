import Std.Data.TreeMap
import Mathlib.Data.List.Destutter
import KissTncBridge.Bridge.Run
import KissTncBridge.Config.Resolve

namespace KissTncBridge.Reconcile
open Conf Bridge

/-- One live app session, as the plan sees it. Higher `seq` is newer. -/
structure SessionView where
  id : SessionId
  seq : Nat
deriving DecidableEq, Repr

/-- A running bridge, as the plan sees it. -/
structure BridgeView where
  tncActive : Bool
  sessions : List SessionView
deriving DecidableEq, Repr

/-- What the plan needs to know about the running daemon. `adapterMac` says
which MAC an adapter value means right now, if known. -/
structure Runtime where
  bridges : Std.TreeMap String BridgeView
  adapterMac : Option (AdapterSel → Option Mac)

namespace Runtime

def sameAdapter (rt : Runtime) (a b : AdapterSel) : Bool :=
  if a = b then true
  else match rt.adapterMac with
    | some f => match f a, f b with
      | some x, some y => x == y
      | _, _ => false
    | none => false

def sessions (rt : Runtime) (bridge port : String) : List SessionView :=
  ((rt.bridges[bridge]?).map (fun b => b.sessions.filter (fun s => s.id.port == port))).getD []

def tncActive (rt : Runtime) (bridge : String) : Bool :=
  (rt.bridges[bridge]?).any (fun b => b.tncActive)

end Runtime

inductive Action where
  | unchanged
  | updated
  | restarted
  | started
  | stopped
deriving DecidableEq, Repr

structure PortPlan where
  id : String
  action : Action
  changes : List String
  disconnects : List SessionId
  dropsTncLink : Bool
deriving DecidableEq, Repr

structure BridgePlan where
  id : String
  action : Action
  changes : List String
  ports : List PortPlan
  stopsInUse : Bool
deriving DecidableEq, Repr

structure Plan where
  global : List String
  bridges : List BridgePlan
deriving DecidableEq, Repr

def sessionText (s : SessionId) : String := s.port ++ "/" ++ s.peer.text

/-- "a", "a and b", "a, b and c". -/
def joinAnd : List String → String
  | [] => ""
  | [one] => one
  | items => String.intercalate ", " items.dropLast ++ " and " ++ items.getLastD ""

namespace Plan

def isNoop (p : Plan) : Bool :=
  p.global.isEmpty && p.bridges.all (fun b => b.action == .unchanged)

/-- Why the plan is disruptive, each a phrase that completes "this would …". -/
def disruptions (p : Plan) : List String :=
  p.bridges.flatMap (fun b =>
    (if b.stopsInUse then ["stop bridge " ++ b.id ++ " while it's in use"] else []) ++
    b.ports.flatMap (fun q =>
      q.disconnects.map (fun s => "disconnect session " ++ b.id ++ "/" ++ sessionText s) ++
      (if q.dropsTncLink then
        ["restart TNC port " ++ b.id ++ "/" ++ q.id ++ " while its link is up"] else [])))

def describeDisruptions (p : Plan) : String := joinAnd p.disruptions

def disruptive (p : Plan) : Bool := !p.disruptions.isEmpty

end Plan

def startedPort (p : Port) : PortPlan := ⟨p.id, .started, [], [], false⟩

def stoppedPort (rt : Runtime) (bridge : String) (p : Port) : PortPlan :=
  ⟨p.id, .stopped, [], (rt.sessions bridge p.id).map SessionView.id, false⟩

def stopBridge (b : Conf.Bridge) (rt : Runtime) : BridgePlan :=
  let ports := b.ports.map (stoppedPort rt b.id)
  { id := b.id
    action := .stopped
    changes := []
    ports := ports
    stopsInUse := rt.tncActive b.id || ports.any (fun p => !p.disconnects.isEmpty) }

/-- Whether a peer may connect. An empty list allows any peer that can reach
the socket. IPv4 peers of a dual-stack listener arrive as mapped IPv6
addresses and are matched as IPv4. -/
def allowed (net : IpNetLib) (allow : List IpNet) (peer : IpAddr) : Bool :=
  allow.isEmpty || allow.any (fun n => net.contains n (peer.toIpv4Mapped.getD peer))

/-- The newest sessions over `max`, oldest first. -/
def newestBeyond (sessions : List SessionView) (max : Nat) : List SessionId :=
  if sessions.length ≤ max then []
  else ((sessions.mergeSort (fun a b => a.seq ≤ b.seq)).drop max).map SessionView.id

/-- What comparing two versions of a port of one type finds. -/
structure Diff where
  changes : List String := []
  restart : Bool := false
  kick : List SessionId := []
deriving DecidableEq, Repr

namespace Diff

def note (d : Diff) (c : Bool) (name : String) : Diff :=
  if c then { d with changes := d.changes ++ [name] } else d

/-- A change of the link itself. -/
def relink (d : Diff) (c : Bool) (name : String) : Diff :=
  if c then { d with changes := d.changes ++ [name], restart := true } else d

end Diff

/-- What the three kinds of port that use a `[[tnc]]` have in common. -/
def compareTncPort (d : Diff) (om nm : TncModel) (ot nt : String) (oc nc : ConnectPolicy)
    (oi ni : Duration) (oe ne : Bool) : Diff :=
  ((((d.relink (om != nm) "model").note (ot != nt) "tnc").note (oc != nc) "connect").note
    (oi != ni) "idle_timeout").note (oe != ne) "exit_kiss_on_disconnect"

def compareKind (net : IpNetLib) (rt : Runtime) (bridge : String) (old new : Port) : Diff :=
  match old.kind, new.kind with
  | .tcpClient oh op oc oi, .tcpClient nh np nc ni =>
    ((({} : Diff).relink ((oh, op) != (nh, np)) "address").note (oc != nc) "connect").note
      (oi != ni) "idle_timeout"
  | .sppClient ot om os oc oi oe, .sppClient nt nm ns nc ni ne =>
    let d : Diff :=
      if os.address ≠ ns.address ∨ os.channel ≠ ns.channel then ({} : Diff).relink true "spp"
      else ({} : Diff).relink (!rt.sameAdapter os.adapter ns.adapter) "spp.adapter"
    compareTncPort d om nm ot nt oc nc oi ni oe ne
  | .bleClient ot om ob oc oi oe, .bleClient nt nm nb nc ni ne =>
    let d : Diff :=
      if ob.address ≠ nb.address then ({} : Diff).relink true "ble"
      else ({} : Diff).relink (!rt.sameAdapter ob.adapter nb.adapter) "ble.adapter"
    compareTncPort d om nm ot nt oc nc oi ni oe ne
  | .serial ot om os oc oi oe, .serial nt nm ns nc ni ne =>
    compareTncPort (({} : Diff).relink (os != ns) "serial") om nm ot nt oc nc oi ni oe ne
  | .tcpServer ol om oa on, .tcpServer nl nm na nn =>
    let d : Diff :=
      if ol ≠ nl then ({} : Diff).relink true "listen"
      else
        let sessions := rt.sessions bridge old.id
        -- Sessions the new list no longer allows go, then the newest beyond the new limit.
        let strangers := sessions.filter (fun s => s.id.peer.ip.any (fun ip => !allowed net na ip))
        let d := ({} : Diff).note (oa != na) "allow"
        let d := { d with kick := if oa != na then strangers.map SessionView.id else [] }
        let d := d.note (om != nm) "max_clients"
        { d with kick := d.kick ++
          match nm with
          | some max => if om != nm then newestBeyond sessions max.toNat else []
          | none => [] }
    d.note (on != nn) "announce"
  | .bleServer oa om, .bleServer na nm =>
    if !rt.sameAdapter oa na then ({} : Diff).relink true "adapter"
    else
      { ({} : Diff).note (om != nm) "max_clients" with
        kick := if om != nm then newestBeyond (rt.sessions bridge old.id) nm.toNat else [] }
  | _, _ => ({} : Diff).relink true "type"

def comparePort (net : IpNetLib) (rt : Runtime) (bridge : String) (old new : Port) : PortPlan :=
  let d := if old.role ≠ new.role then ({} : Diff).relink true "role"
    else compareKind net rt bridge old new
  { id := new.id
    action := if d.restart then .restarted else if d.changes.isEmpty then .unchanged else .updated
    changes := d.changes
    disconnects :=
      if d.restart then
        if new.role = .tnc then [] else (rt.sessions bridge old.id).map SessionView.id
      else (d.kick.mergeSort (fun a b => a.peer.text ≤ b.peer.text)).destutter (· ≠ ·)
    dropsTncLink := d.restart && new.role == .tnc && rt.tncActive bridge }

/-- A port of the new version of a bridge. -/
def planPort (net : IpNetLib) (rt : Runtime) (old : Conf.Bridge) (np : Port) : PortPlan :=
  match old.ports.find? (fun p => p.id == np.id) with
  | some op => comparePort net rt old.id op np
  | none => startedPort np

def comparePorts (net : IpNetLib) (rt : Runtime) (old new : Conf.Bridge) : List PortPlan :=
  (old.ports.filter (fun op => !new.ports.any (fun p => p.id == op.id))).map
    (stoppedPort rt old.id) ++
  new.ports.map (planPort net rt old)

def compareBridge (net : IpNetLib) (rt : Runtime) (old new : Conf.Bridge) : BridgePlan :=
  let changes := (if old.name ≠ new.name then ["name"] else []) ++
    (if old.publicName ≠ new.publicName then ["public_name"] else []) ++
    (if old.appParams ≠ new.appParams then ["app_params"] else [])
  let ports := comparePorts net rt old new
  { id := new.id
    action := if changes.isEmpty && ports.all (fun p => p.action == .unchanged) then .unchanged
      else .updated
    changes := changes
    ports := ports
    stopsInUse := false }

/-- The enabled bridges by id. -/
def running (c : Config) : Std.TreeMap String Conf.Bridge :=
  .ofList ((c.bridges.filter (·.enabled)).map (fun b => (b.id, b)))

/-- What applying `new` over `old` would do to the running daemon. -/
def plan (net : IpNetLib) (old new : Config) (rt : Runtime) : Plan :=
  let before := running old
  let after := running new
  { global := (if old.global.logLevel ≠ new.global.logLevel then ["log_level"] else []) ++
      (if old.control.group ≠ new.control.group then ["control.group"] else [])
    bridges :=
      -- Stopped bridges first, the order they're applied in.
      (before.toList.filter (fun b => !after.contains b.1)).map (fun b => stopBridge b.2 rt) ++
      after.toList.map (fun b =>
        match before[b.1]? with
        | some ob => compareBridge net rt ob b.2
        | none => ⟨b.1, .started, [], b.2.ports.map startedPort, false⟩) }

end KissTncBridge.Reconcile
