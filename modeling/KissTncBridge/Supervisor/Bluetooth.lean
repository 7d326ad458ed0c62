import KissTncBridge.Pairing
import KissTncBridge.Supervisor.Change
import Mathlib.Logic.Function.Basic

namespace KissTncBridge.Bluetooth
open Supervisor
open KissTncBridge.Pairing (Reply REPLIES)

/-- Who asks: a connection's number, and the number it gave its request. -/
structure Requester where
  conn : Nat
  request : Nat
deriving DecidableEq, Repr

inductive Work where
  | scan
  | pair (tnc : Option String)
deriving DecidableEq, Repr

def Work.isScan : Work → Bool
  | scan => true
  | pair _ => false

/-- How far the task of a scan or a pairing is. It is in its table from when it has
registered itself to when it has taken itself out, and holds the lock until its end. -/
inductive Phase where
  | spawned
  | locked
  | running
  | ended (res : Except String Unit)
  | over (res : Except String Unit)
  | answered
  | gone

namespace Phase

def holds : Phase → Bool
  | spawned | gone => false
  | _ => true

def listed : Phase → Bool
  | running | ended _ => true
  | _ => false

def isAnswered : Phase → Bool
  | answered | gone => true
  | _ => false

end Phase

/-- A scan's or a pairing's task. `ticket` is the number of its command among all that
the daemon took; `stoppedBy` and `replies` keep the request that was named with them. -/
structure Job where
  ticket : Nat
  source : Requester
  work : Work
  phase : Phase := .spawned
  stoppedBy : Option Requester := none
  replies : List (Requester × Reply) := []

/-- A `bluetooth.*` command, with what became of the adapter or the device it names. -/
inductive Command where
  | scan (target : Except ApiError Unit)
  | scanStop (request : Nat)
  | pair (target : Except ApiError (Option String))
  | pairReply (request : Nat) (reply : Reply)
  | unpair (res : Except ApiError Unit)

/-- A reply that the daemon is handing to a pairing. -/
structure Handing where
  ticket : Nat
  job : Nat
  named : Requester
  reply : Reply
deriving DecidableEq, Repr

/-- The daemon's part in scans and pairings: the tasks it started, which of them holds
`bt_busy`, the tables that its commands look in, and the answers given. -/
structure State where
  jobs : List Job := []
  busy : Option Nat := none
  scans : Requester → Option Nat := fun _ => none
  pairings : Requester → Option Nat := fun _ => none
  taken : Nat := 0
  handing : Option Handing := none
  answers : List (Nat × Except ApiError Unit) := []

inductive Event where
  | command (source : Requester) (c : Command)
  | hand
  | tryLock (i : Nat)
  | register (i : Nat)
  | takeReply (i : Nat)
  | requesterGone (i : Nat)
  | finish (i : Nat) (res : Except String Unit)
  | unregister (i : Nat)
  | answer (i : Nat)
  | unlock (i : Nat)

def busyError : ApiError :=
  { code := .busy
    message := "another Bluetooth scan or pairing is running; try again when it's done" }

def noScan (request : Nat) : ApiError :=
  { code := .notFound
    message := "no scan started by this connection's request " ++ toString request ++
      " is running" }

def noPairing (request : Nat) : ApiError :=
  { code := .notFound
    message := "no pairing started by this connection's request " ++ toString request ++
      " is waiting for a reply" }

def pairingOver : ApiError := { code := .notFound, message := "that pairing is over" }

def failed (why : String) : ApiError := { code := .failed, message := why }

namespace State

def reply (s : State) (ticket : Nat) (res : Except ApiError Unit) : State :=
  { s with answers := s.answers ++ [(ticket, res)] }

def spawn (s : State) (ticket : Nat) (source : Requester) (work : Work) : State :=
  { s with jobs := s.jobs ++ [{ ticket := ticket, source := source, work := work }] }

def setJob (s : State) (i : Nat) (j : Job) : State := { s with jobs := s.jobs.set i j }

/-- Put a job into its table, or take it out. -/
def list (s : State) (j : Job) (entry : Option Nat) : State :=
  if j.work.isScan then { s with scans := Function.update s.scans j.source entry }
  else { s with pairings := Function.update s.pairings j.source entry }

/-- The daemon takes a command. -/
def onCommand (s : State) (source : Requester) (c : Command) : State :=
  let ticket := s.taken
  let s := { s with taken := ticket + 1 }
  match c with
  | .scan (.error e) | .pair (.error e) => s.reply ticket (.error e)
  | .scan (.ok _) => s.spawn ticket source .scan
  | .pair (.ok tnc) => s.spawn ticket source (.pair tnc)
  | .unpair res => s.reply ticket res
  | .scanStop request =>
    let named : Requester := ⟨source.conn, request⟩
    match s.scans named with
    | some i =>
      let s := { s with jobs := s.jobs.modify i (fun j => { j with stoppedBy := some named }) }
      s.reply ticket (.ok ())
    | none => s.reply ticket (.error (noScan request))
  | .pairReply request reply =>
    let named : Requester := ⟨source.conn, request⟩
    match s.pairings named with
    | some i => { s with handing := some ⟨ticket, i, named, reply⟩ }
    | none => s.reply ticket (.error (noPairing request))

/-- The daemon takes its commands one at a time, and waits while a pairing has no room for
a reply. The tasks go on by themselves. -/
def step (s : State) : Event → Option State
  | .command source c => if s.handing.isSome then none else some (s.onCommand source c)
  | .hand =>
    s.handing.bind fun h => (s.jobs[h.job]?).bind fun j =>
      let s := { s with handing := none }
      match j.phase with
      | .running =>
        if j.replies.length < REPLIES then
          let j := { j with replies := j.replies ++ [(h.named, h.reply)] }
          some ((s.setJob h.job j).reply h.ticket (.ok ()))
        else none
      | _ => some (s.reply h.ticket (.error pairingOver))
  | .tryLock i =>
    (s.jobs[i]?).bind fun j =>
      match j.phase with
      | .spawned =>
        if s.busy.isSome then
          some ((s.setJob i { j with phase := .gone }).reply j.ticket (.error busyError))
        else some { s.setJob i { j with phase := .locked } with busy := some i }
      | _ => none
  | .register i =>
    (s.jobs[i]?).bind fun j =>
      match j.phase with
      | .locked => some ((s.setJob i { j with phase := .running }).list j (some i))
      | _ => none
  | .takeReply i =>
    (s.jobs[i]?).bind fun j =>
      match j.phase, j.replies with
      | .running, _ :: replies => some (s.setJob i { j with replies := replies })
      | _, _ => none
  | .requesterGone i =>
    (s.jobs[i]?).bind fun j =>
      match j.work, j.phase with
      | .scan, .running => some (s.setJob i { j with stoppedBy := some j.source })
      | _, _ => none
  | .finish i res =>
    (s.jobs[i]?).bind fun j =>
      match j.phase with
      | .running => some (s.setJob i { j with phase := .ended res })
      | _ => none
  | .unregister i =>
    (s.jobs[i]?).bind fun j =>
      match j.phase with
      | .ended res => some ((s.setJob i { j with phase := .over res }).list j none)
      | _ => none
  | .answer i =>
    (s.jobs[i]?).bind fun j =>
      match j.phase with
      | .over res =>
        some ((s.setJob i { j with phase := .answered }).reply j.ticket (res.mapError failed))
      | _ => none
  | .unlock i =>
    (s.jobs[i]?).bind fun j =>
      match j.phase with
      | .answered => some { s.setJob i { j with phase := .gone } with busy := none }
      | _ => none

end State

end KissTncBridge.Bluetooth
