import KissTncBridge.Bridge.Run
import KissTncBridge.Port.Stream

namespace KissTncBridge.Bridge
open Conf Lib Kiss Wire

def APP_QUEUE : Nat := 256

/-- The limit and the read size of a phone's reassembly. -/
def BLE_FRAME_BYTES : Nat := 4096
def BLE_READ_BUF : Nat := 512

/-- The task that reads one app's bytes. A TCP session ends when a push fails,
a phone's reader goes on. -/
structure AppReader where
  id : SessionId
  reader : KissReader
  ended : Bool
deriving DecidableEq, Repr

namespace AppReader

def goesOn (a : AppReader) : Bool :=
  match a.id.peer with
  | .tcp _ => false
  | .ble _ => true

def new (id : SessionId) : AppReader where
  id := id
  reader := match id.peer with
    | .tcp _ => .new
    | .ble _ => .withMaxFrame BLE_FRAME_BYTES
  ended := false

/-- How much one read brings at most. -/
def readBuf (a : AppReader) : Nat :=
  match a.id.peer with
  | .tcp _ => READ_BUF
  | .ble _ => BLE_READ_BUF

/-- A read, made only once all frames of the reads before it are sent. -/
def read (a : AppReader) (data : List UInt8) : Option AppReader :=
  if a.ended ∨ a.reader.pending ≠ [] ∨ data = [] ∨ data.length > a.readBuf then none
  else match a.reader.reassembly.push data with
    | (.error _, buffer) => some { a with reader := ⟨buffer, []⟩, ended := !a.goesOn }
    | (.ok _, buffer) =>
      let (frames, buffer) := buffer.drainFrames
      some { a with reader := ⟨buffer, frames⟩ }

end AppReader

/-- A bridge with its apps: the tasks that read their bytes, and the queue all
of them send to. -/
structure Apps where
  run : Run
  readers : List AppReader := []
  queue : List AppEvent := []

/-- An app connects and sends bytes, which its task reads in pieces and turns
into events; the bridge takes them one by one, and does all else it does. -/
inductive AppsEvent where
  | connects (id : SessionId)
  | reads (task : Nat) (data : List UInt8)
  | sends (task : Nat)
  | ends (task : Nat)
  | opened (id : SessionId) (tx : Chan Frame) (kick : Nat)
  | closed (id : SessionId)
  | takes (now : Now)
  | turn (e : Event)

namespace Apps

/-- An event for the bridge, which waits while the queue is full. -/
def send (a : Apps) (ev : AppEvent) : Option Apps :=
  if a.queue.length < APP_QUEUE then some { a with queue := a.queue ++ [ev] } else none

def step (a : Apps) : AppsEvent → Option Apps
  | .connects id => some { a with readers := a.readers ++ [.new id] }
  | .reads task data => do
    let reader ← a.readers[task]?
    let reader ← reader.read data
    some { a with readers := a.readers.set task reader }
  | .sends task => do
    let reader ← a.readers[task]?
    match reader.reader.pending with
    | [] => none
    | f :: rest =>
      if reader.ended then none
      else
        let sent := { reader with reader := { reader.reader with pending := rest } }
        { a with readers := a.readers.set task sent }.send (.frame reader.id f)
  | .ends task => do
    let reader ← a.readers[task]?
    some { a with readers := a.readers.set task { reader with ended := true } }
  | .opened id tx kick => a.send (.sessionOpened id tx kick)
  | .closed id => a.send (.sessionClosed id)
  | .takes now =>
    match a.queue with
    | [] => none
    | ev :: rest => (a.run.step (.app now ev)).map (fun run => { a with run := run, queue := rest })
  | .turn (.app _ _) => none
  | .turn e => (a.run.step e).map (fun run => { a with run := run })

/-- A bridge that has just started, with no app connected. -/
def start (id : String) (connector : Connector) (settings : TncSettings) (now : Now) : Apps where
  run := Run.start id connector settings now

end Apps
end KissTncBridge.Bridge
