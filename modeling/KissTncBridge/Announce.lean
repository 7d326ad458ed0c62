import KissTncBridge.Config.Resolved
import Std.Data.TreeMap

namespace KissTncBridge.Announce
open Conf

/-- Which interfaces a service is announced on. -/
inductive Iface where
  | any
  | index (i : UInt32)
deriving DecidableEq, Repr

inductive Proto where
  | any
  | v4
  | v6
deriving DecidableEq, Repr

/-- One announced `tcp-server` port. -/
structure Service where
  port : UInt16
  iface : Iface
  proto : Proto
deriving DecidableEq, Repr

/-- What the host says of its interfaces: the index of the one with a name, and
of the one that has an address assigned. -/
structure Interfaces where
  ifIndex : String → Option UInt32
  ifaceHolding : IpAddr → Option UInt32

def isIpv6 : SocketAddr → Bool
  | .v4 .. => false
  | .v6 .. => true

/-- Where a port bound as `listen`, now listening on `bound`, is announced. -/
def Service.forListen (ifs : Interfaces) (listen : Listen) (bound : SocketAddr) : Service :=
  match listen with
  | .interface n _ => ⟨bound.port, ((ifs.ifIndex n).map .index).getD .any, .v4⟩
  | .addr a =>
    if a.ip.isUnspecified then ⟨bound.port, .any, if isIpv6 a then .any else .v4⟩
    else ⟨bound.port, ((ifs.ifaceHolding a.ip).map .index).getD .any, if isIpv6 a then .v6 else .v4⟩

/-- What the supervisor tells the announcer. -/
inductive Cmd where
  | bridge (id configured : String)
  | forget (id : String)
  | up (bridge port : String) (service : Service)
  | down (bridge port : String)
deriving DecidableEq, Repr

/-- A bridge that may announce. Its name and the group it has with Avahi are
left out: they play no part in what is registered. -/
structure BridgeAnn where
  configured : String
  services : Std.TreeMap String Service

structure Announcer where
  bridges : Std.TreeMap String BridgeAnn

namespace Announcer

def new : Announcer := ⟨∅⟩

def modify (a : Announcer) (bridge : String) (f : BridgeAnn → BridgeAnn) : Announcer :=
  match a.bridges[bridge]? with
  | some b => ⟨a.bridges.insert bridge (f b)⟩
  | none => a

/-- Take a command. A service of a bridge that is not known is ignored. -/
def onCmd (a : Announcer) : Cmd → Announcer
  | .bridge n configured =>
    match a.bridges[n]? with
    | some b => ⟨a.bridges.insert n { b with configured := configured }⟩
    | none => ⟨a.bridges.insert n ⟨configured, ∅⟩⟩
  | .forget n => ⟨a.bridges.erase n⟩
  | .up bridge port service =>
    a.modify bridge (fun b => { b with services := b.services.insert port service })
  | .down bridge port => a.modify bridge (fun b => { b with services := b.services.erase port })

def knows (a : Announcer) (bridge : String) : Bool := a.bridges.contains bridge

/-- The service a port has in its bridge's entry. -/
def service (a : Announcer) (bridge port : String) : Option Service :=
  (a.bridges[bridge]?).bind (fun b => b.services[port]?)

end Announcer

end KissTncBridge.Announce
