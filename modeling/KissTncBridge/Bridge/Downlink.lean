import KissTncBridge.Bridge.Links
import KissTncBridge.Lib.Chunks
import KissTncBridge.Port.Stream
import KissTncBridge.Port.TcpServer

namespace KissTncBridge.Bridge
open Conf Lib Kiss Wire
open KissTncBridge.Port (SESSION_QUEUE)

def errorText : ReadError → String
  | .io why => "IO error: " ++ why
  | .linkClosed => "link closed by peer"
  | .kissFrame why => "KISS frame error: " ++ why

/-- The task that reads a link. It stops at the first error, which it reports once the
frames before it are sent. -/
structure LinkReader where
  generation : Nat
  reader : KissReader := .new
  error : Option Error := none
  done : Bool := false
deriving DecidableEq, Repr

namespace LinkReader

/-- A read, made only once all frames of the reads before it are sent. -/
def read (t : LinkReader) (data : List UInt8) : Option LinkReader :=
  if t.error.isSome ∨ t.reader.pending ≠ [] ∨ data = [] ∨ data.length > READ_BUF then none
  else match t.reader.reassembly.push data with
    | (.error e, buffer) =>
      some { t with reader := ⟨buffer, []⟩, error := some (.other (errorText (.kissFrame e))) }
    | (.ok _, buffer) =>
      let (frames, buffer) := buffer.drainFrames
      some { t with reader := ⟨buffer, frames⟩ }

/-- The read fails, or the stream is at its end. -/
def fail (t : LinkReader) (why : ReadError) : Option LinkReader :=
  if t.error.isSome ∨ t.reader.pending ≠ [] then none
  else some { t with error := some (.other (errorText why)) }

/-- What the task sends next. -/
def next (t : LinkReader) : Option (TncEvent × LinkReader) :=
  match t.reader.pending, t.error with
  | f :: rest, _ =>
    some (.frame t.generation f, { t with reader := { t.reader with pending := rest } })
  | [], some e => if t.done then none else some (.closed t.generation e, { t with done := true })
  | [], none => none

end LinkReader

/-- What a session's task sends its app for a frame: a phone gets it in pieces of its MTU. -/
def pieces (mtu : Nat) (f : Frame) : Peer → List (List UInt8)
  | .tcp _ => [writeFrame f]
  | .ble _ => chunksOf (if mtu > 0 then mtu else 20) (writeFrame f)

/-- A bridge with the tasks that read its links, and with the sessions it serves. A session
is known by its kick token, which is new for each. `left` are the queues of sessions that
the bridge has let go of, with what their tasks may still take from them. -/
structure Downlink where
  links : Links
  readers : AList (fun _ : Nat => LinkReader) := ∅
  opened : Nat := 0
  left : List (Nat × List Frame) := []

inductive DownlinkEvent where
  | spawns (link generation : Nat)
  | reads (link : Nat) (data : List UInt8)
  | fails (link : Nat) (why : ReadError)
  | sends (link : Nat)
  | writerFails (link generation : Nat) (error : Error)
  | opens (now : Now) (id : SessionId)
  | closes (now : Now) (id : SessionId)
  | drains (i : Nat)
  | takes (now : Now)
  | turn (e : Event)

namespace Downlink

/-- The queue of the session registered under an id, which it takes along when the bridge
lets go of it. -/
def leaving (d : Downlink) (id : SessionId) : List (Nat × List Frame) :=
  ((d.links.run.sessions.lookup id).map (fun s => (s.kick, s.tx.queue))).toList

def step (d : Downlink) : DownlinkEvent → Option Downlink
  | .spawns link generation =>
    if .spawnLink link generation ∈ d.links.run.out ∧ (d.readers.lookup link).isNone then
      some { d with readers := d.readers.insert link { generation := generation } }
    else none
  | .reads link data => do
    let t ← d.readers.lookup link
    let t ← t.read data
    some { d with readers := d.readers.replace link t }
  | .fails link why => do
    let t ← d.readers.lookup link
    let t ← t.fail why
    some { d with readers := d.readers.replace link t }
  | .sends link => do
    let t ← d.readers.lookup link
    let (ev, t') ← t.next
    let links ← d.links.send link t.generation ev
    some { d with links := links, readers := d.readers.replace link t' }
  | .writerFails link generation error =>
    (d.links.step (.fails link generation error)).map (fun links => { d with links := links })
  | .opens now id =>
    let token := d.opened + 1
    let opened : AppEvent := .sessionOpened id (.empty SESSION_QUEUE) token
    (d.links.step (.turn (.app now opened))).map (fun links =>
      { d with links := links, opened := token, left := d.left ++ d.leaving id })
  | .closes now id =>
    (d.links.step (.turn (.app now (.sessionClosed id)))).map (fun links =>
      { d with links := links, left := d.left ++ d.leaving id })
  | .drains i => do
    let (k, queue) ← d.left[i]?
    match queue with
    | [] => none
    | _ :: rest => some { d with left := d.left.set i (k, rest) }
  | .takes now => (d.links.step (.takes now)).map (fun links => { d with links := links })
  | .turn (.app _ (.sessionOpened ..)) | .turn (.app _ (.sessionClosed _)) => none
  | .turn e => (d.links.step (.turn e)).map (fun links => { d with links := links })

/-- A bridge that has just started. -/
def start (id : String) (connector : Connector) (settings : TncSettings) (now : Now) :
    Downlink where
  links := ⟨Run.start id connector settings now, []⟩

end Downlink
end KissTncBridge.Bridge
