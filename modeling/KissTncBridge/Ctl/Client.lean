import KissTncBridge.Control.Server

namespace KissTncBridge.Ctl
open Control Lib Protocol
open Server (Asked)

/-- What goes wrong with a request: no connection any more, something unexpected from the
daemon, or the daemon refused or failed it. -/
inductive CtlError where
  | closed
  | protocol (why : String)
  | api (error : ApiError)

/-- Something the daemon sent. -/
inductive Message where
  | response (r : Response)
  | event (m : EventMessage)

/-- A response's result, or its error. -/
def result (res : Response) : Except CtlError Json :=
  match res.ok, res.error with
  | true, _ => .ok (res.result.getD .null)
  | false, some e => .error (.api e)
  | false, none => .error (.protocol "an error with no detail")

/-- What a line from the daemon is. `complaint` is what serde says of one that can't be
read. -/
def message (complaint : Json → String) (msg : Json) : Except CtlError Message :=
  match msg with
  | .object es =>
    let read := if (Entries.get "event" es).isSome then (readEvent es).map Message.event
      else (readResponse es).map Message.response
    match read with
    | some m => .ok m
    | none => .error (.protocol (complaint msg))
  | _ => .error (.protocol (complaint msg))

/-- The client: the requests it has sent, the call that waits for its response, the
messages it has read, and what its calls returned. -/
structure Client where
  nextId : UInt64 := 1
  sent : List Asked := []
  waiting : Option UInt64 := none
  received : List Message := []
  returned : List (UInt64 × Except CtlError Json) := []

namespace Client

/-- Send a command, and say what goes on the wire. A call that was waiting is given up. -/
def send (s : Client) (c : Protocol.Command) : Client × Json :=
  ({ s with nextId := s.nextId + 1, sent := s.sent ++ [⟨s.nextId, c⟩], waiting := none },
    Request.json ⟨VERSION, s.nextId, c⟩)

/-- Send a command and wait for its result. -/
def call (s : Client) (c : Protocol.Command) : Client × Json :=
  let (t, line) := s.send c
  ({ t with waiting := some s.nextId }, line)

/-- The call that waits returns. -/
def giveBack (s : Client) (res : Except CtlError Json) : Client :=
  match s.waiting with
  | some id => { s with waiting := none, returned := s.returned ++ [(id, res)] }
  | none => s

/-- A line from the daemon. A call skips the events and the responses to other requests. -/
def onLine (complaint : Json → String) (s : Client) (line : Json) : Client :=
  match message complaint line with
  | .error e => s.giveBack (.error e)
  | .ok (.event m) => { s with received := s.received ++ [.event m] }
  | .ok (.response r) =>
    let t := { s with received := s.received ++ [.response r] }
    if s.waiting.isSome ∧ r.id = s.waiting then t.giveBack (result r) else t

end Client

end KissTncBridge.Ctl
