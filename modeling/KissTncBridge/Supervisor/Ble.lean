import KissTncBridge.Supervisor.Change
import Mathlib.Data.List.Sort

namespace KissTncBridge.Supervisor.Ble
open Conf Bridge Daemon

/-- An adapter whose address can be read. -/
structure Present where
  mac : Mac
  powered : Bool
deriving DecidableEq, Repr

/-- What BlueZ answers while the adapter manager reconciles: the adapters'
names, and what it says of each one it can give a handle and an address of.
`order` is the order in which the manager's map of them is walked. -/
structure Adapters where
  names : List String
  read : String → Option Present
  order : List String
  ordered : order.Perm names

namespace Adapters

def sorted (a : Adapters) : List String := a.names.insertionSort (fun m n => m ≤ n)

/-- The map of the adapters present. -/
def present (a : Adapters) (name : String) : Option Present :=
  if name ∈ a.names then a.read name else none

/-- The adapter a slot is to run on. -/
def want (a : Adapters) : AdapterSel → Option String
  | .default => a.sorted.head?
  | .hci h => a.sorted.find? (fun n => n == h)
  | .mac m => a.order.find? (fun n => (a.present n).any (fun p => p.mac == m))

end Adapters

inductive BleState where
  | starting
  | advertising
  | full
  | failed (e : String)
  | stopped
deriving DecidableEq, Repr

def BleState.finished : BleState → Bool
  | .failed _ | .stopped => true
  | _ => false

structure PortState where
  state : String
  detail : Option String
deriving DecidableEq, Repr

/-- A port that runs on an adapter. `task` tells the tasks that ever ran
apart. -/
structure Running where
  adapter : String
  state : BleState
  task : Nat
deriving DecidableEq, Repr

/-- A `ble-server` port the manager looks after. -/
structure BleSlot where
  bridgeId : String
  portId : String
  adapter : AdapterSel
  status : PortState
  running : Option Running
  lastAdapter : Option String
  seenOff : Bool
deriving DecidableEq, Repr

def BleSlot.new (bridge port : String) (adapter : AdapterSel) : BleSlot :=
  ⟨bridge, port, adapter, ⟨"starting", none⟩, none, none, false⟩

inductive Cmd where
  | add (slot : BleSlot)
  | remove (bridge port : String)
deriving DecidableEq, Repr

inductive Event where
  | added (name : String)
  | removed (name : String)
  | powered (name : String) (on : Bool)
  | tick
deriving DecidableEq, Repr

structure Manager where
  slots : List BleSlot
  spawned : Nat
deriving DecidableEq, Repr

/-- Stop a port that is not on the adapter it is to be on, or that gave up. -/
def stopSlot (a : Adapters) (slot : BleSlot) : BleSlot :=
  match slot.running with
  | none => slot
  | some r =>
    if a.want slot.adapter ≠ some r.adapter ∨ (a.present r.adapter).isNone ∨ r.state.finished then
      { slot with running := none }
    else slot

/-- Start a port that does not run on the adapter it is to be on. Indexing the
map of the adapters present with one that is not in it panics. -/
def startSlot (a : Adapters) (slot : BleSlot) (task : Nat) : Option (BleSlot × Nat) :=
  if slot.running.isSome then some (slot, task)
  else match a.want slot.adapter with
    | some name =>
      match a.present name with
      | none => none
      | some p =>
        if p.powered || !slot.seenOff then
          some ({ slot with running := some ⟨name, .starting, task⟩, lastAdapter := some name },
            task + 1)
        else some ({ slot with status := ⟨"adapter off", some name⟩ }, task)
    | none => some ({ slot with status := ⟨"waiting for adapter", some slot.adapter.text⟩ }, task)

def reconcileSlots (a : Adapters) : List BleSlot → Nat → Option (List BleSlot × Nat)
  | [], task => some ([], task)
  | slot :: rest, task => do
    let (slot, task) ← startSlot a (stopSlot a slot) task
    let (rest, task) ← reconcileSlots a rest task
    some (slot :: rest, task)

namespace Manager

def reconcile (a : Adapters) (m : Manager) : Option Manager :=
  (reconcileSlots a m.slots m.spawned).map (fun r => ⟨r.1, r.2⟩)

/-- Take a command from the daemon. -/
def onCmd (m : Manager) : Cmd → Manager
  | .add slot => { m with slots := m.slots ++ [slot] }
  | .remove bridge port =>
    { m with slots := m.slots.eraseP (fun s => s.bridgeId == bridge && s.portId == port) }

/-- Take word of an adapter. A port on one that was powered off waits until it
is powered on or appears again. -/
def onEvent (m : Manager) : Event → Manager
  | .added n | .powered n true =>
    { m with slots := m.slots.map (fun s =>
        if s.lastAdapter = some n then { s with seenOff := false } else s) }
  | .powered n false =>
    { m with slots := m.slots.map (fun s =>
        if s.running.any (fun r => r.adapter == n) then { s with running := none, seenOff := true }
        else s) }
  | .removed _ | .tick => m

/-- The task of a port reports its state. -/
def report (m : Manager) (task : Nat) (state : BleState) : Manager :=
  { m with slots := m.slots.map (fun s =>
      { s with
        running :=
          s.running.map (fun r => if r.task = task then { r with state := state } else r) }) }

end Manager

/-- What the adapter manager is told of what the daemon does. -/
def bleCmd : Effect → Option Cmd
  | .startPort bridge port (.ble adapter _) => some (.add (.new bridge port adapter))
  | .stopPort bridge port (.ble _ _) => some (.remove bridge port)
  | _ => none

variable {Doc : Type}

/-- The daemon and its adapter manager, with the commands on their way. -/
structure Host (Doc : Type) where
  daemon : Daemon Doc
  queue : List Cmd
  manager : Manager

/-- What happens next: the daemon acts, the manager takes a command or word of
an adapter and reconciles with the adapters it then finds, or the task of a
port reports its state. -/
inductive Step (Doc : Type) where
  | act (a : Act Doc)
  | cmd (adapters : Adapters)
  | event (e : Event) (adapters : Adapters)
  | report (task : Nat) (state : BleState)

/-- The daemon with what it has started. -/
def Host.started (d : Daemon Doc) : Host Doc := ⟨d, d.log.filterMap bleCmd, ⟨[], 0⟩⟩

/-- The daemon sends its commands in the order of what it does; a port it stops
has stopped once the command is taken. -/
def Host.step (h : Host Doc) : Step Doc → Option (Host Doc)
  | .act a => do
    let d ← h.daemon.act a
    some { h with
      daemon := d
      queue := h.queue ++ (d.log.drop h.daemon.log.length).filterMap bleCmd }
  | .cmd adapters =>
    match h.queue with
    | [] => none
    | c :: queue => do
      let m ← (h.manager.onCmd c).reconcile adapters
      some { h with queue := queue, manager := m }
  | .event e adapters => do
    let m ← (h.manager.onEvent e).reconcile adapters
    some { h with manager := m }
  | .report task state => some { h with manager := h.manager.report task state }

end KissTncBridge.Supervisor.Ble
