import KissTncBridge.Control.Forward
import KissTncBridge.Control.Protocol

namespace KissTncBridge.Server
open Conf Control Lib Protocol

/-- An object's entry. -/
def get (k : String) : Json → Option Json
  | .object es => Entries.get k es
  | _ => none

def badRequest (id : Option UInt64) (msg : String) : Response :=
  .err id { code := .badRequest, message := msg }

def unsupported (id : Option UInt64) (v : UInt64) : Response :=
  .err id
    { code := .unsupportedVersion
      message := "protocol version " ++ toString v.toNat ++
        " isn't supported; this daemon speaks " ++ toString VERSION.toNat }

def unknown (id : Option UInt64) (cmd : String) : Response :=
  .err id
    { code := .unknownCommand
      message := "no command " ++ Text.quoted cmd ++ "; the commands are " ++
        String.intercalate ", " Command.NAMES }

/-- The id of a line, if it has one that can be read. -/
def lineId (value : Json) : Option UInt64 := (get "id" value).bind u64.read

def lineCmd (value : Json) : String := ((get "cmd" value).bind string.read).getD ""

/-- A request, or the error response for a line that isn't one. `line` is the line's JSON,
or why it is none; `complaint` is what serde says of a request that can't be read. -/
def parse (complaint : Json → String) (line : Except String Json) : Except Response Request :=
  match line with
  | .error e => .error (badRequest none ("not JSON: " ++ e))
  | .ok value =>
    let id := lineId value
    match (get "v" value).bind u64.read with
    | none => .error (badRequest id "a request needs \"v\": 1")
    | some v =>
      if v ≠ VERSION.toUInt64 then .error (unsupported id v)
      else if id.isNone then .error (badRequest none "a request needs a numeric \"id\"")
      else if lineCmd value ∉ Command.NAMES then .error (unknown id (lineCmd value))
      else
        match readRequest value with
        | none => .error (badRequest id (lineCmd value ++ ": " ++ complaint value))
        | some r => .ok r

/-- The longest request line accepted. -/
def MAX_LINE : Nat := 2 ^ 20

def tooLong : Response := badRequest none "request too long"

/-- A command under the number that its connection gave it. -/
structure Asked where
  id : UInt64
  command : Protocol.Command

def shuttingDown : ApiError := { code := .internal, message := "the daemon is shutting down" }

/-- One connection of the control socket: the response that its reader waits to queue, the
requests handed to the daemon and those that the daemon works on, the responses that wait
for room, and the lines queued for the writer. The reader leaves after its `last`. -/
structure Serving where
  subscribed : List Topic := []
  holding : Option Response := none
  last : Bool := false
  queue : List Asked := []
  working : List Asked := []
  replies : List Response := []
  outbox : List Json := []

/-- The topics subscribed to, as a response lists them. -/
def topicsJson (subscribed : List Topic) : Json :=
  .object [Record.field "topics" (array topic)
    ([Topic.state, .activity, .frames].filter (· ∈ subscribed))]

namespace Serving

/-- The reader takes a request, or what `parse` refuses a line with. Commands go to the
daemon in the order they arrive. -/
def onRequest (s : Serving) : Except Response Request → Serving
  | .error refused => { s with holding := some refused }
  | .ok ⟨_, id, .subscribe topics⟩ =>
    let all := s.subscribed ++ topics.filter (· ∉ s.subscribed)
    { s with subscribed := all, holding := some (.success id (topicsJson all)) }
  | .ok ⟨_, id, c⟩ => { s with queue := s.queue ++ [⟨id, c⟩] }

/-- The reader takes a line of `length` bytes, its end among them. -/
def onLine (complaint : Json → String) (s : Serving) (length : Nat) (line : Json) : Serving :=
  if MAX_LINE < length then { s with holding := some tooLong, last := true }
  else s.onRequest (parse complaint (.ok line))

def hasRoom (s : Serving) : Bool := s.outbox.length < OUTBOX

/-- Queue a line for the writer. -/
def push (s : Serving) (line : Json) : Serving := { s with outbox := s.outbox ++ [line] }

end Serving

/-- The response with what the daemon made of a command; `none` if it went away. -/
def respond (id : UInt64) : Option (Except ApiError Json) → Response
  | some (.ok result) => .success id result
  | some (.error e) => .err (some id) e
  | none => .err (some id) shuttingDown

end KissTncBridge.Server
