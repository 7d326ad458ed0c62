import KissTncBridge.Ctl.Client
import KissTncBridge.Lib.Runs

namespace KissTncBridge.Ctl
open Control Lib Protocol
open Server (Asked Serving respond)

/-- A client, its connection to the daemon with the lines on their way on both sides, and
the logs of what the daemon took and what it made of it. On a
connection that is closed nothing moves any more but what the client can still read. -/
structure Session where
  client : Client := {}
  up : List Json := []
  serving : Serving := {}
  down : List Json := []
  closed : Bool := false
  taken : List Asked := []
  answers : List (Asked × Response) := []

/-- What happens next. The daemon works on what it took in any order; `write` is the
connection's writer, and `close` the end of the connection, whoever ends it. -/
inductive SessionStep where
  | send (c : Protocol.Command)
  | call (c : Protocol.Command)
  | read
  | queue
  | take
  | answer (i : Nat) (res : Option (Except ApiError Json))
  | reply (i : Nat)
  | event (m : EventMessage)
  | write
  | next
  | close

/-- What serde makes of JSON: the length of a value's text, and what it says of a request
or a message that can't be read. -/
structure Serde where
  length : Json → Nat
  complaint : Json → String

namespace Session

variable (serde : Serde)

def sending (s : Session) (sent : Client × Json) : Session :=
  { s with client := sent.1, up := s.up ++ [sent.2] }

/-- The reader takes the next line, and answers a `subscribe` itself. -/
def onLine (s : Session) (line : Json) (rest : List Json) : Session :=
  let serving := s.serving.onLine serde.complaint (serde.length line + 1) line
  if serving.last then { s with serving := serving }
  else
    let asked := (Server.parse serde.complaint (.ok line)).toOption.map fun q =>
      (⟨q.id, q.command⟩ : Asked)
    { s with
      serving := serving
      up := rest
      answers := s.answers ++ (asked.bind fun a => serving.holding.map fun r => (a, r)).toList }

def step (s : Session) : SessionStep → Option Session
  | .send c => some (s.sending (s.client.send c))
  | .call c => some (s.sending (s.client.call c))
  | .read =>
    if s.closed ∨ s.serving.last ∨ s.serving.holding.isSome then none
    else match s.up with
      | [] => none
      | line :: rest => some (s.onLine serde line rest)
  | .queue =>
    if s.closed ∨ ¬ s.serving.hasRoom then none
    else s.serving.holding.map fun r =>
      { s with serving := { s.serving with holding := none }.push r.json }
  | .take =>
    match s.serving.queue with
    | [] => none
    | a :: queue => some { s with
        serving := { s.serving with queue := queue, working := s.serving.working ++ [a] }
        taken := s.taken ++ [a] }
  | .answer i res =>
    (s.serving.working[i]?).map fun a =>
      let r := respond a.id res
      { s with
        serving := { s.serving with
          working := s.serving.working.eraseIdx i
          replies := s.serving.replies ++ [r] }
        answers := s.answers ++ [(a, r)] }
  | .reply i =>
    if s.closed ∨ ¬ s.serving.hasRoom then none
    else (s.serving.replies[i]?).map fun r =>
      { s with serving := { s.serving with replies := s.serving.replies.eraseIdx i }.push r.json }
  | .event m =>
    if s.closed then none
    else some (if s.serving.hasRoom then { s with serving := s.serving.push m.json } else s)
  | .write =>
    if s.closed then none
    else match s.serving.outbox with
      | [] => none
      | line :: outbox =>
        some { s with serving := { s.serving with outbox := outbox }, down := s.down ++ [line] }
  | .next =>
    match s.down with
    | line :: down => some { s with client := s.client.onLine serde.complaint line, down := down }
    | [] => if s.closed then some { s with client := s.client.giveBack (.error .closed) } else none
  | .close => some { s with closed := true }

end Session

end KissTncBridge.Ctl
