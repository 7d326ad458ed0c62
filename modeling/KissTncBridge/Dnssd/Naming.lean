import KissTncBridge.Dnssd.Announcer

namespace KissTncBridge.Dnssd
open Announce Conf

/-- A report on its way to the announcer. It is kept with the registration of the
group that it is about and with the name that had, which D-Bus does not carry. -/
structure Signal where
  ev : Event
  registration : Option Nat := none
  name : String := ""
deriving DecidableEq, Repr

/-- The announcer with all that names go through: the watch channel of each bridge
that runs, the commands in the queue and those that tasks of their own will send
at some time, and Avahi's reports. `base` is the configured name that the
supervisor last put in a channel, or made its name from, which the source does not
keep. -/
structure Naming where
  announcer : Announcer
  running : String → Option Nat := fun _ => none
  channels : Nat := 0
  base : Nat → String
  queue : List Cmd := []
  late : List Cmd := []
  signals : List Signal := []

/-- What happens next. `written` is whether the state file could be written. -/
inductive NamingEvent where
  | startBridge (bridge configured : String) (announces written : Bool)
  | stopBridge (bridge : String)
  | publicNameChanged (bridge configured : String) (announces written : Bool)
  | retryPublicName (bridge : String) (configured : Option String) (announces written : Bool)
  | announceBridge (bridge configured : String)
  | setEnabled (bridge : String) (enabled : Option Bool) (written : Bool)
  | follow (bridge port : String) (service : Option Service)
  | sendLate (i : Nat)
  | signal (ev : Event)
  | takeCmd
  | takeEvent (written : Bool)
  | published (calls : Calls) (written : Bool)
  | exits
  | restart (available : Bool)
deriving DecidableEq, Repr

/-- The public name a bridge starts with: an adjustment from an earlier collision
if it was made from the name configured now, otherwise the configured name, and a
stale adjustment is dropped. -/
def effectivePublicName (state : State) (bridge configured : String) (written : Bool) :
    String × State :=
  match state.adjustedPublicName bridge configured with
  | some adjusted => (adjusted, state)
  | none =>
    (configured,
      if (state.bridges[bridge]?).any (fun b => b.publicName.isSome) && written then
        state.clearAdjustedPublicName bridge
      else state)

namespace Naming

def start (available : Bool) : Naming :=
  { announcer := .new available .empty (fun _ => ""), base := fun _ => "" }

/-- Change the state and write it; a change that can't be written is not made. -/
def updateState (s : Naming) (written : Bool) (f : State → State) : Naming :=
  if written then { s with announcer := { s.announcer with state := f s.announcer.state } } else s

/-- The supervisor puts a configured name in a running bridge's channel. -/
def sendName (s : Naming) (bridge configured : String) : Naming :=
  match s.running bridge with
  | some ch => { s with
      announcer := { s.announcer with names := Function.update s.announcer.names ch configured }
      base := Function.update s.base ch configured }
  | none => s

def announceBridge (s : Naming) (bridge configured : String) : Naming :=
  match s.running bridge with
  | some ch => { s with queue := s.queue ++ [.bridge bridge configured ch] }
  | none => s

def startBridge (s : Naming) (bridge configured : String) (announces written : Bool) : Naming :=
  let (name, state) := effectivePublicName s.announcer.state bridge configured written
  let ch := s.channels
  let s := { s with
    announcer :=
      { s.announcer with state := state, names := Function.update s.announcer.names ch name }
    channels := ch + 1
    base := Function.update s.base ch configured
    running := Function.update s.running bridge (some ch) }
  if announces then s.announceBridge bridge configured else s

/-- A new configured name drops any collision adjustment. -/
def publicNameChanged (s : Naming) (bridge configured : String) (announces written : Bool) :
    Naming :=
  let s := s.updateState written (fun st => st.clearAdjustedPublicName bridge)
  let s := s.sendName bridge configured
  match s.running bridge with
  | some ch => if announces then { s with late := s.late ++ [.bridge bridge configured ch] } else s
  | none => s

def retryPublicName (s : Naming) (bridge : String) (configured : Option String)
    (announces written : Bool) : Naming :=
  let s := s.updateState written (fun st => st.clearAdjustedPublicName bridge)
  match configured with
  | none => s
  | some configured =>
    let s := s.sendName bridge configured
    if announces then s.announceBridge bridge configured else s

/-- What Avahi says of a group that it has registered, or of itself. -/
def report (s : Naming) (ev : Event) : Option Signal :=
  match ev with
  | .established g | .collision g | .failure g _ =>
    match s.announcer.backend.groups g with
    | some group => group.registration.map (fun r => ⟨ev, some r, group.name⟩)
    | none => none
  | .serverUp | .serverDown => some { ev := ev }

def step (s : Naming) : NamingEvent → Option Naming
  | .startBridge bridge configured announces written =>
    some (s.startBridge bridge configured announces written)
  | .stopBridge bridge =>
    some { s with
      running := Function.update s.running bridge none, queue := s.queue ++ [.forget bridge] }
  | .publicNameChanged bridge configured announces written =>
    some (s.publicNameChanged bridge configured announces written)
  | .retryPublicName bridge configured announces written =>
    some (s.retryPublicName bridge configured announces written)
  | .announceBridge bridge configured => some (s.announceBridge bridge configured)
  | .setEnabled bridge enabled written =>
    some (s.updateState written (fun st => st.setEnabledOverride bridge enabled))
  | .follow bridge port service =>
    some { s with queue := s.queue ++ [match service with
      | some service => .up bridge port service
      | none => .down bridge port] }
  | .sendLate i =>
    match s.late[i]? with
    | some c => some { s with queue := s.queue ++ [c], late := s.late.eraseIdx i }
    | none => none
  | .signal ev => (s.report ev).map (fun sig => { s with signals := s.signals ++ [sig] })
  | .takeCmd =>
    match s.announcer.doing, s.queue with
    | none, c :: queue => some { s with announcer := s.announcer.onCmd c, queue := queue }
    | _, _ => none
  | .takeEvent written =>
    match s.announcer.doing, s.signals with
    | none, sig :: signals =>
      some { s with announcer := s.announcer.onEvent written sig.ev, signals := signals }
    | _, _ => none
  | .published calls written =>
    s.announcer.doing.map (fun p => { s with announcer := s.announcer.published p calls written })
  | .exits =>
    let backend := { s.announcer.backend with groups := fun _ => none }
    some { s with announcer := { s.announcer with backend := backend } }
  | .restart available =>
    -- A daemon that ends takes its channels, queues and groups with it; the state
    -- file stays.
    some { s with
      announcer := { Announcer.new available s.announcer.state s.announcer.names with
        backend := { s.announcer.backend with groups := fun _ => none } }
      running := fun _ => none, queue := [], late := [], signals := [] }

/-- The bridge that a step moves to its next name, and the name that collided. -/
def moves (s : Naming) : NamingEvent → Option (String × String)
  | .takeEvent _ =>
    match s.signals with
    | ⟨.collision g, _, name⟩ :: _ => (s.announcer.bridgeFor g).map (fun id => (id, name))
    | _ => none
  | .published calls _ =>
    s.announcer.doing.bind (fun p =>
      match (s.announcer.backend.publish p.group p.name p.services calls).1 with
      | .error .collision => some (p.id, p.name)
      | _ => none)
  | _ => none

end Naming
end KissTncBridge.Dnssd
