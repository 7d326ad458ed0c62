import KissTncBridge.Announce
import KissTncBridge.Supervisor.Change

namespace KissTncBridge.Supervisor.Announcing
open Conf Daemon Announce

/-- What a `tcp-server` port says of itself. -/
inductive ServerState where
  | starting
  | listening (bound : SocketAddr)
  | waitingForInterface (n : String)
  | failed (e : String)
  | stopped
deriving DecidableEq, Repr

namespace ServerState

def isListening : ServerState → Bool
  | .listening _ => true
  | _ => false

/-- The port's task is over. -/
def ended : ServerState → Bool
  | .failed _ | .stopped => true
  | _ => false

/-- What the port's task can say next: it binds, waiting for its interface as
long as need be, and then listens until it is shut down. -/
def next : ServerState → ServerState → Bool
  | .starting, st | .waitingForInterface _, st => st != .starting
  | .listening _, st => st == .stopped
  | .failed _, _ | .stopped, _ => false

end ServerState

/-- The task that tells the announcer of one port: whether there is a state it
has not read, the command it is about to send, and whether it is over. One that
does not run is as it will be when it is spawned. -/
structure Follow where
  unseen : Bool := true
  hand : Option Cmd := none
  done : Bool := false
deriving DecidableEq, Repr

/-- What the daemon's announcing goes through: the state of each `tcp-server`
port, the tasks that follow them, the commands that tasks of their own will send
at some time, and the announcer with its queue. `sent` keeps all that was ever
queued. -/
structure Side where
  server : String × String → ServerState
  follow : String × String → Follow
  late : List Cmd
  queue : List Cmd
  announcer : Announcer
  sent : List Cmd

def cmdOf : AnnounceCmd → Cmd
  | .bridge n configured => .bridge n configured
  | .down bridge port => .down bridge port
  | .forget n => .forget n

namespace Side

def new : Side := ⟨fun _ => .starting, fun _ => {}, [], [], .new, []⟩

def push (w : Side) (c : Cmd) : Side := { w with queue := w.queue ++ [c], sent := w.sent ++ [c] }

/-- Abort the task that follows a port. A command it has in hand is dropped,
unless the task is just then running on another thread (`slips`) and sends it
all the same. -/
def abort (slips : String × String → Bool) (w : Side) (k : String × String) : Side :=
  { w with
    follow := Function.update w.follow k {}
    late := w.late ++ if slips k then (w.follow k).hand.toList else [] }

/-- What something the daemon does changes. -/
def effect (slips : String × String → Bool) (w : Side) : Effect → Side
  | .announce (.down bridge port) => (w.abort slips (bridge, port)).push (.down bridge port)
  | .announce c => w.push (cmdOf c)
  | .announceLater n configured => { w with late := w.late ++ [.bridge n configured] }
  | .startPort bridge port _ =>
    { w with server := Function.update w.server (bridge, port) .starting }
  | _ => w

/-- The task that follows a port reads its state, or finds that it is over. -/
def report (ifs : Interfaces) (listen : Listen) (w : Side) (k : String × String) : Option Side :=
  let f := w.follow k
  if f.done || f.hand.isSome then none
  else if f.unseen then
    let c := match w.server k with
      | .listening bound => Cmd.up k.1 k.2 (.forListen ifs listen bound)
      | _ => .down k.1 k.2
    some { w with follow := Function.update w.follow k { f with unseen := false, hand := some c } }
  else if (w.server k).ended then
    some { w with
      follow := Function.update w.follow k { f with hand := some (.down k.1 k.2), done := true } }
  else none

end Side

variable {Doc : Type}

/-- Whether a task follows a port for the announcer, and what it listens on. -/
def followed (d : Daemon Doc) (k : String × String) : Option Listen :=
  match d.port k.1 k.2 with
  | some (.tcp listen _ true) => some listen
  | _ => none

/-- The daemon with what its announcing goes through. -/
structure Sys (Doc : Type) where
  daemon : Daemon Doc
  side : Side

/-- What happens next: the daemon acts, a port's task says something new of
itself, the task that follows a port reads its state or sends what it has in
hand, a command left to a task of its own is sent, or the announcer takes the
next command. -/
inductive Step (Doc : Type) where
  | act (a : Act Doc) (slips : String × String → Bool)
  | publish (bridge port : String) (st : ServerState)
  | report (ifs : Interfaces) (bridge port : String)
  | send (bridge port : String)
  | sendLate (i : Nat)
  | take

/-- The daemon with what it has started. -/
def Sys.started (d : Daemon Doc) : Sys Doc := ⟨d, d.log.foldl (Side.effect (fun _ => false)) .new⟩

def Sys.step (s : Sys Doc) : Step Doc → Option (Sys Doc)
  | .act a slips => do
    let d ← { s.daemon with log := [] }.act a
    some ⟨d, d.log.foldl (Side.effect slips) s.side⟩
  | .publish bridge port st =>
    let k := (bridge, port)
    match s.daemon.port bridge port with
    | some (.tcp ..) =>
      if (s.side.server k).next st then
        some { s with side := { s.side with
          server := Function.update s.side.server k st
          follow := Function.update s.side.follow k { s.side.follow k with unseen := true } } }
      else none
    | _ => none
  | .report ifs bridge port => do
    let listen ← followed s.daemon (bridge, port)
    let side ← s.side.report ifs listen (bridge, port)
    some { s with side := side }
  | .send bridge port =>
    let k := (bridge, port)
    match followed s.daemon k, (s.side.follow k).hand with
    | some _, some c =>
      some { s with side := { s.side.push c with
        follow := Function.update s.side.follow k { s.side.follow k with hand := none } } }
    | _, _ => none
  | .sendLate i =>
    match s.side.late[i]? with
    | some c => some { s with side := { s.side.push c with late := s.side.late.eraseIdx i } }
    | none => none
  | .take =>
    match s.side.queue with
    | c :: queue =>
      some { s with side := { s.side with queue := queue, announcer := s.side.announcer.onCmd c } }
    | [] => none

end KissTncBridge.Supervisor.Announcing
