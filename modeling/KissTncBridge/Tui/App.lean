import KissTncBridge.Pairing

namespace KissTncBridge.Tui
open KissTncBridge.Pairing (PairingStep)

/-- How long a scan looks. -/
def SCAN_SECS : Nat := 60

inductive Key where
  | up
  | down
  | enter
  | esc
  | backspace
  | char (c : Char)
  | other
deriving DecidableEq, Repr

structure BtDevice where
  address : String
  knownTnc : Option String := none
deriving DecidableEq, Repr

/-- A TNC to pair: its id, and its radio's address. -/
structure Target where
  id : String
  address : Option String
deriving DecidableEq, Repr

inductive Command where
  | status
  | tncModels
  | bluetoothScan (adapter : Option String) (seconds : Option Nat)
  | bluetoothScanStop (request : Nat)
  | bluetoothPair (tnc address adapter : Option String)
  | bluetoothPairReply (request : Nat) (accept : Option Bool) (pin : Option String)
      (passkey : Option Nat)
  | other
deriving DecidableEq, Repr

/-- What to do with an answer: it ends the pairing or the scan, or it is something that
touches neither. `number` is the pairing or scan that the request started. -/
inductive Then where
  | pair (number : Nat)
  | scan (number : Nat)
  | other
deriving DecidableEq, Repr

structure Req where
  command : Command
  andThen : Then
deriving DecidableEq, Repr

/-- What a key asks of the loop that runs the TUI. -/
inductive Action where
  | none
  | request (req : Req)
  | run
deriving DecidableEq, Repr

/-- What a pairing waits for from the person at the radio. -/
inductive Ask where
  | confirm (passkey : String)
  | authorize
  | pin
  | passkey
deriving DecidableEq, Repr

/-- A pairing under way. `ended` is whether it worked, once it is over. -/
structure Pairing where
  number : Nat
  request : Option Nat := none
  ask : Option Ask := none
  typed : String := ""
  ended : Option Bool := none
  hidden : Bool := false
deriving DecidableEq, Repr

/-- A Bluetooth scan. With a target it looks for that TNC's radio; `thenPair` is what to
pair with once the scan lets go of the adapter. -/
structure Scan where
  number : Nat
  target : Option Target := none
  adapter : Option String := none
  request : Option Nat := none
  devices : List BtDevice := []
  selected : Option String := none
  isOver : Bool := false
  error : Option String := none
  thenPair : Option BtDevice := none
deriving DecidableEq, Repr

/-- A result from the daemon, as what it can be read as. -/
inductive Value (σ : Type) where
  | status (s : σ)
  | devices (list : List BtDevice)
  | other
deriving DecidableEq, Repr

/-- What the screen shows of the daemon's status, scan and pairing, and how many scans
and pairings were started so far. -/
structure App (σ : Type) where
  status : Option σ := none
  scan : Option Scan := none
  pairing : Option Pairing := none
  scans : Nat := 0
  pairings : Nat := 0
deriving DecidableEq, Repr

namespace Scan

/-- The same scan, from the start. -/
def again (s : Scan) (number : Nat) : Scan :=
  { number := number, target := s.target, adapter := s.adapter }

def selectedIndex (s : Scan) : Option Nat :=
  if s.devices.isEmpty then none
  else some ((s.selected.bind (fun a => s.devices.findIdx? (fun d => d.address == a))).getD 0)

def selectedDevice (s : Scan) : Option BtDevice := s.selectedIndex.bind (fun i => s.devices[i]?)

def command (s : Scan) : Req := ⟨.bluetoothScan s.adapter (some SCAN_SECS), .scan s.number⟩

/-- A device found, or found again with news; likely TNCs come first. -/
def listed (s : Scan) (device : BtDevice) : List BtDevice :=
  let devices := match s.devices.findIdx? (fun d => d.address == device.address) with
    | some i => s.devices.set i device
    | none => s.devices ++ [device]
  devices.filter (fun d => d.knownTnc.isSome) ++ devices.filter (fun d => d.knownTnc.isNone)

def wants (s : Scan) (device : BtDevice) : Bool :=
  s.target.any (fun t => t.address.any (fun a => a.toLower == device.address.toLower))

/-- Stop it, if it's been sent. -/
def stop (s : Scan) : Action :=
  match s.request with
  | some id => .request ⟨.bluetoothScanStop id, .other⟩
  | none => .none

end Scan

def askOf : PairingStep → Option Ask
  | .confirm passkey => some (.confirm passkey)
  | .authorize => some .authorize
  | .enterPin => some .pin
  | .enterPasskey => some .passkey
  | _ => none

namespace App

variable {σ : Type}

/-- A request went to the daemon as `id`. -/
def sent (app : App σ) (id : Nat) : Then → App σ
  | .pair _ => { app with pairing := app.pairing.map (fun p => { p with request := some id }) }
  | .scan _ => { app with scan := app.scan.map (fun s => { s with request := some id }) }
  | .other => app

/-- The connection to the daemon went, taking a pairing or scan with it. -/
def lost (app : App σ) (why : String) : App σ :=
  { app with
    pairing := app.pairing.map (fun p =>
      if p.ended.isNone then { p with ask := none, hidden := false, ended := some false } else p)
    scan := app.scan.map (fun s =>
      if s.isOver then s
      else { s with isOver := true, thenPair := none, error := some why }) }

def setStatus (app : App σ) (s : σ) : App σ := { app with status := some s }

/-- The answer to a `status` request that the loop sent itself. -/
def statusAnswer (app : App σ) (res : Except String (Value σ)) : App σ :=
  match res with
  | .ok (.status s) => app.setStatus s
  | _ => app

def startPairing (app : App σ) (command : Command) : App σ × Action :=
  ({ app with pairing := some { number := app.pairings }, pairings := app.pairings + 1 },
    .request ⟨command, .pair app.pairings⟩)

/-- Pair with a device a scan found. -/
def pairDevice (app : App σ) (d : BtDevice) (adapter : Option String) : App σ × Action :=
  app.startPairing (.bluetoothPair none (some d.address) adapter)

/-- Pair a TNC, its radio found. -/
def pairFoundTnc (app : App σ) (t : Target) : App σ × Action :=
  app.startPairing (.bluetoothPair (some t.id) none none)

/-- Open the box of a scan, and ask the daemon for it. -/
def begin (app : App σ) (scan : Scan) : App σ × Action :=
  ({ app with scan := some scan, scans := app.scans + 1 }, .request scan.command)

/-- `n` and `p` in the TNCs view, where these come to a scan. -/
def startScan (app : App σ) (adapter : Option String) (target : Option Target) : App σ × Action :=
  if app.pairing.isSome then (app, .none)
  else app.begin { number := app.scans, target := target, adapter := adapter }

def found (app : App σ) (request : Nat) (device : BtDevice) : App σ × Action :=
  match app.scan with
  | none => (app, .none)
  | some s =>
    if s.request ≠ some request then (app, .none)
    else
      let wanted := s.wants device
      let s := { s with
        selected := if wanted then some device.address else s.selected
        devices := s.listed device }
      if wanted && !s.isOver && s.thenPair.isNone then
        ({ app with scan := some { s with thenPair := some device } }, s.stop)
      else ({ app with scan := some s }, .none)

def scanKey (app : App σ) (k : Key) : App σ × Action :=
  match app.scan with
  | none => (app, .none)
  | some s =>
    match k with
    | .up | .down =>
      match s.selectedIndex with
      | some i =>
        let next := if k = .up then i - 1 else min (i + 1) (s.devices.length - 1)
        ({ app with scan := some { s with selected := s.devices[next]?.map BtDevice.address } },
          .none)
      | none => (app, .none)
    | .enter =>
      -- Looking for a TNC's radio, pairing starts on its own.
      if s.target.isSome then (app, .none)
      else
        match s.selectedDevice with
        | none => (app, .none)
        | some d =>
          if s.isOver then { app with scan := none }.pairDevice d s.adapter
          else if s.thenPair.isNone then
            ({ app with scan := some { s with thenPair := some d } }, s.stop)
          else (app, .none)
    | .esc => ({ app with scan := none }, if s.isOver then .none else s.stop)
    | .char c =>
      -- Handing a device to setup closes the connection on the way out.
      if c = 'a' ∧ s.target.isNone ∧ s.selectedDevice.isSome then ({ app with scan := none }, .run)
      else if c = 'n' ∧ s.isOver then app.begin (s.again app.scans)
      else (app, .none)
    | _ => (app, .none)

def pairingStep (app : App σ) (request : Nat) (step : PairingStep) : App σ :=
  match app.pairing with
  | none => app
  | some p =>
    if p.request ≠ some request then app
    else
      match askOf step with
      | none => app
      | some ask =>
        { app with pairing := some { p with ask := some ask, typed := "", hidden := false } }

/-- Answer the pairing's question. -/
def reply (app : App σ) (p : Pairing) (id : Nat) (accept : Option Bool) (pin : Option String)
    (passkey : Option Nat) : App σ × Action :=
  ({ app with pairing := some { p with ask := none } },
    .request ⟨.bluetoothPairReply id accept pin passkey, .other⟩)

def answerKey (app : App σ) (p : Pairing) (id : Nat) : Ask → Key → App σ × Action
  | .confirm _, k | .authorize, k =>
    if k = .char 'y' ∨ k = .enter then app.reply p id (some true) none none
    else if k = .char 'n' ∨ k = .esc then app.reply p id (some false) none none
    else (app, .none)
  | .pin, .esc | .passkey, .esc => app.reply p id none none none
  | .pin, .backspace | .passkey, .backspace =>
    ({ app with pairing := some { p with typed := (p.typed.dropEnd 1).toString } }, .none)
  | .pin, .char c => ({ app with pairing := some { p with typed := p.typed.push c } }, .none)
  | .passkey, .char c =>
    if c.isDigit then ({ app with pairing := some { p with typed := p.typed.push c } }, .none)
    else (app, .none)
  | .pin, .enter => app.reply { p with typed := "" } id none (some p.typed) none
  | .passkey, .enter =>
    match p.typed.toNat? with
    | some n =>
      if n < UInt32.size then app.reply { p with typed := "" } id none none (some n)
      else (app, .none)
    | none => (app, .none)
  | _, _ => (app, .none)

def pairingKey (app : App σ) (k : Key) : App σ × Action :=
  match app.pairing with
  | none => (app, .none)
  | some p =>
    if p.ended.isSome then
      if k = .enter ∨ k = .esc then ({ app with pairing := none }, .none) else (app, .none)
    else
      match p.ask with
      | none =>
        if k = .esc then ({ app with pairing := some { p with hidden := true } }, .none)
        else (app, .none)
      | some ask =>
        match p.request with
        | none => (app, .none)
        | some id => app.answerKey p id ask k

/-- The answer to `bluetooth.pair`. -/
def paired (app : App σ) (res : Except String (Value σ)) : App σ :=
  match app.pairing with
  | none => app
  | some p =>
    if p.hidden then { app with pairing := none }
    else { app with pairing := some { p with ask := none, ended := some res.toBool } }

/-- A scan's end, with the list of what it found. -/
def ended (s : Scan) (res : Except String (Value σ)) : Scan :=
  match res with
  | .ok (.devices list) => { s with isOver := true, devices := list }
  | .ok _ =>
    { s with
      isOver := true
      thenPair := none
      error := some "the daemon sent something unexpected" }
  | .error e => { s with isOver := true, thenPair := none, error := some e }

def notFound (t : Target) : String :=
  t.address.getD "" ++
    s!" didn't turn up in {SCAN_SECS} s. Is the radio on, nearby, and in pairing mode?"

/-- The answer to `bluetooth.scan`: the whole list, likely TNCs first. -/
def scanned (app : App σ) (res : Except String (Value σ)) : App σ × Action :=
  match app.scan with
  | none => (app, .none)
  | some s =>
    let s := ended s res
    match s.thenPair, s.target with
    | some _, some t => { app with scan := none }.pairFoundTnc t
    | some d, none => { app with scan := none }.pairDevice d s.adapter
    | none, some t =>
      ({ app with scan := some { s with error := s.error.or (some (notFound t)) } }, .none)
    | none, none => ({ app with scan := some s }, .none)

/-- What the daemon answered to a request, and anything that sends next. -/
def onAnswer (app : App σ) (andThen : Then) (res : Except String (Value σ)) : App σ × Action :=
  match andThen with
  | .pair _ => (app.paired res, .none)
  | .scan _ => app.scanned res
  | .other => (app, .none)

end App

end KissTncBridge.Tui
