import KissTncBridge.Supervisor.Daemon

namespace KissTncBridge.Port
open Conf Bridge Reconcile Supervisor

def SESSION_QUEUE : Nat := 64

/-- Where the task of a TCP client is: it has not told the bridge yet, it is in
its loop, it is out of it, it is no longer counted, or it has told the bridge
that it is over. -/
inductive Phase where
  | opening
  | serving
  | leaving
  | closing
  | done
deriving DecidableEq, Repr

/-- The task of a TCP client, with the number of the port task that accepted
it. -/
structure TcpSession where
  server : Nat
  id : SessionId
  phase : Phase
deriving DecidableEq, Repr

namespace TcpSession

/-- Whether the bridge has been told of it and not yet that it is over. -/
def owes (t : TcpSession) : Bool :=
  match t.phase with
  | .serving | .leaving | .closing => true
  | .opening | .done => false

/-- Whether its client is still with it. -/
def running (t : TcpSession) : Bool :=
  match t.phase with
  | .opening | .serving => true
  | .leaving | .closing | .done => false

/-- Whether the port's counter counts it. -/
def counted (t : TcpSession) : Bool :=
  match t.phase with
  | .opening | .serving | .leaving => true
  | .closing | .done => false

end TcpSession

/-- The task of a `tcp-server` port: `taken` is a client the accept loop has
just taken, with the settings it read then; `sessions` counts its clients. -/
structure TcpServerPort where
  portId : String
  listen : Listen
  announce : Bool
  live : TcpLive
  sessions : Nat := 0
  taken : Option (SocketAddr × TcpLive) := none
  shutdown : Bool := false
deriving DecidableEq, Repr

namespace TcpServerPort

/-- The port as the config in effect has it. -/
def port (p : TcpServerPort) : Conf.Port :=
  ⟨p.portId, .app, .tcpServer p.listen p.live.maxClients p.live.allow p.announce⟩

/-- Take a client and read the settings. -/
def accept (p : TcpServerPort) (peer : SocketAddr) : Option TcpServerPort :=
  if p.taken.isSome then none else some { p with taken := some (peer, p.live) }

/-- Whether a client is let in, by the settings read for it. -/
def admits (net : IpNetLib) (p : TcpServerPort) (peer : SocketAddr) (live : TcpLive) : Bool :=
  allowed net live.allow peer.ip && !live.maxClients.any (fun max => p.sessions ≥ max.toNat)

end TcpServerPort
end KissTncBridge.Port
