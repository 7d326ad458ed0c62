import KissTncBridge.Control.Forward
import KissTncBridge.Tui.Loop

namespace KissTncBridge.Tui
open Control (Connection ConnStep Line Topic)

def Loop.statusPending (t : Loop σ) : Option Nat := t.conn.bind Conn.statusPending

/-- The TUI and its daemon. A status is stood for by the number of state events that had
been published when it was asked for. `handled` counts the lines of the events connection
that the TUI has taken in, and `asked` is the number for the last status request.
`opening` is while the TUI waits for the answer to its subscription. -/
structure World (ε : Type) where
  tui : Loop Nat := {}
  events : Connection ε := {}
  opening : Bool := false
  handled : Nat := 0
  asked : Nat := 0

inductive WorldStep (ε : Type) where
  | serve (a : ConnStep ε)
  | read
  | answer (id : Option Nat) (result : Except String (Value Unit))
  | key (front : Option Asked) (k : Key) (view : ViewKey)
  | found (request : Nat) (device : BtDevice)
  | pairing (request : Nat) (step : KissTncBridge.Pairing.PairingStep)
  | closed
  | subscribe
  | retry (writes skipped : Nat)

/-- What a line of the events connection is to the TUI. -/
def eventOf : Line ε → Option Event
  | .event .state (.message _) => some .state
  | .event .activity (.message _) => some .activity
  | .event .frames (.message _) => some .frame
  | .event _ (.lagged _) => some .lagged
  | .other => none

/-- What the daemon answers, with the number for a status that was asked for then. -/
def stamped (asked : Nat) (result : Except String (Value Unit)) : Except String (Value Nat) :=
  result.map fun value => match value with
    | .status _ => .status asked
    | .devices list => .devices list
    | .other => .other

namespace World

variable {ε : Type}

/-- The state events published so far. -/
def published (w : World ε) : Nat := (w.events.sent .state).length

/-- The TUI after a turn of its loop, where it may have asked for a new status. -/
def took (w : World ε) (tui : Loop Nat) : World ε :=
  { w with
    tui := tui
    asked := match tui.statusPending with
      | some id => if w.tui.statusPending = some id then w.asked else w.published
      | none => w.asked }

/-- One step of the daemon or the TUI. The daemon answers a request with whatever it has,
or with an error. A new events connection is subscribed to every topic, and what arrives
on it before the answer to that is skipped, before a status is asked for. -/
def step (w : World ε) : WorldStep ε → Option (World ε)
  | .serve (.subscribe _) => none
  | .serve a => (w.events.step a).map (fun events => { w with events := events })
  | .read =>
    if w.handled < w.events.written then
      w.events.lines[w.handled]?.bind fun line =>
        (match eventOf line with
          | some e => w.tui.step (.event e)
          | none => some w.tui).map fun tui => { w.took tui with handled := w.handled + 1 }
    else none
  | .answer id result => (w.tui.step (.response ⟨id, stamped w.asked result⟩)).map w.took
  | .key front k view => (w.tui.step (.key front k view)).map w.took
  | .found request device => (w.tui.step (.found request device)).map w.took
  | .pairing request step => (w.tui.step (.pairing request step)).map w.took
  | .closed => (w.tui.step .closed).map w.took
  | .subscribe =>
    if w.tui.conn.isSome then none
    else
      some { w with
        events := {
          sent := w.events.sent
          forwarders := fun topic =>
            some ⟨(w.events.sent topic).length, (w.events.sent topic).length, none⟩ }
        opening := true
        handled := 0 }
  | .retry writes skipped =>
    if w.opening ∧ skipped ≤ w.events.written then
      (w.tui.step (.retry writes)).map fun tui =>
        { w.took tui with opening := false, handled := skipped }
    else none

end World

end KissTncBridge.Tui
