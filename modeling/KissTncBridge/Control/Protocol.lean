import KissTncBridge.Ax25
import KissTncBridge.Control.Edit
import KissTncBridge.Control.Events
import KissTncBridge.Control.Forward
import KissTncBridge.Lib.Codec
import KissTncBridge.Pairing

namespace KissTncBridge.Protocol
open Control Lib Record
open KissTncBridge.Pairing (PairingStep)
open Supervisor (ErrorCode Kind)

def VERSION : UInt32 := 1

def string : Codec String Json := ⟨.string, Json.asStr, fun _ => rfl⟩

def boolean : Codec Bool Json where
  write := .boolean
  read
    | .boolean b => some b
    | _ => none
  read_write _ := rfl

/-- An integer type without a sign. -/
def unsigned (size : Nat) (toNat : α → Nat) (ofNat : Nat → α) (hlt : ∀ a, toNat a < size)
    (hof : ∀ a, ofNat (toNat a) = a) : Codec α Json where
  write a := .integer (toNat a)
  read
    | .integer n => if 0 ≤ n ∧ n < size then some (ofNat n.toNat) else none
    | _ => none
  read_write a := by
    dsimp only
    rw [if_pos ⟨Int.natCast_nonneg _, Int.ofNat_lt.mpr (hlt a)⟩, Int.toNat_natCast, hof]

def u64 : Codec UInt64 Json :=
  unsigned UInt64.size UInt64.toNat UInt64.ofNat UInt64.toNat_lt (fun _ => UInt64.ofNat_toNat)

def u32 : Codec UInt32 Json :=
  unsigned UInt32.size UInt32.toNat UInt32.ofNat UInt32.toNat_lt (fun _ => UInt32.ofNat_toNat)

def u8 : Codec UInt8 Json :=
  unsigned UInt8.size UInt8.toNat UInt8.ofNat UInt8.toNat_lt (fun _ => UInt8.ofNat_toNat)

def i16 : Codec Int16 Json where
  write n := .integer n.toInt
  read
    | .integer n => if -32768 ≤ n ∧ n < 32768 then some (Int16.ofInt n) else none
    | _ => none
  read_write n := by
    have hlo := n.le_toInt
    have hhi := n.toInt_lt
    simp only [Int16.ofInt_toInt]
    exact if_pos ⟨by omega, by omega⟩

def array (c : Codec α Json) : Codec (List α) Json :=
  c.list.comp ⟨.array, fun v => match v with | .array vs => some vs | _ => none, fun _ => rfl⟩

def object (c : Codec α (List (String × Json))) : Codec α Json :=
  c.comp ⟨.object, fun v => match v with | .object es => some es | _ => none, fun _ => rfl⟩

def topic : Codec Topic Json :=
  (Codec.names
    (fun t => match t with | .state => "state" | .activity => "activity" | .frames => "frames")
    [("state", .state), ("activity", .activity), ("frames", .frames)]
    (by intro t; cases t <;> rfl)).comp string

def kind : Codec Kind Json :=
  (Codec.names Control.key [("adapter", .adapter), ("tnc", .tnc), ("bridge", .bridge)]
    (by intro k; cases k <;> rfl)).comp string

/-- What a `bluetooth.scan` listens on. -/
inductive ScanTransport where
  | classic
  | le
deriving DecidableEq, Repr

def transport : Codec ScanTransport Json :=
  (Codec.names (fun t => match t with | .classic => "classic" | .le => "le")
    [("classic", .classic), ("le", .le)]
    (by intro t; cases t <;> rfl)).comp string

instance : HasNull Json := ⟨.null, Json.isNull, rfl⟩

instance : string.Solid := ⟨fun _ => rfl⟩

instance : boolean.Solid := ⟨fun _ => rfl⟩

instance : u64.Solid := ⟨fun _ => rfl⟩

instance : u32.Solid := ⟨fun _ => rfl⟩

instance : i16.Solid := ⟨fun _ => rfl⟩

instance : kind.Solid := ⟨fun _ => rfl⟩

instance : transport.Solid := ⟨fun _ => rfl⟩

/-- What a request asks for, by `cmd`. -/
inductive Command where
  | status
  | subscribe (topics : List Topic)
  | reload (nonDisruptive : Bool)
  | configCheck (dynamic : Option String)
  | configGet (kind : Option Kind) (object : Option String)
  | configPut (kind : Option Kind) (object : Option String) (toml revision : String)
      (nonDisruptive : Bool)
  | bridgeCreate (definition : Json) (nonDisruptive : Bool)
  | bridgeUpdate (bridge : String) (definition : Json) (nonDisruptive : Bool)
  | bridgeDelete (bridge : String) (nonDisruptive : Bool)
  | bridgeClone (bridge : String) (newId : Option String) (name : String) (nonDisruptive : Bool)
  | bridgeEnable (bridge : String) (reset nonDisruptive : Bool)
  | bridgeDisable (bridge : String) (nonDisruptive : Bool)
  | bridgeSwitch (bridge : String) (nonDisruptive : Bool)
  | bridgeRetryPublicName (bridge : String)
  | portAdd (bridge : String) (definition : Json) (nonDisruptive : Bool)
  | portUpdate (bridge port : String) (definition : Json) (nonDisruptive : Bool)
  | portRemove (bridge port : String) (nonDisruptive : Bool)
  | portConnect (bridge port : String)
  | portDisconnect (bridge port : String)
  | portRelease (bridge port : String)
  | sessionKick (session : String)
  | tncCreate (definition : Json) (nonDisruptive : Bool)
  | tncUpdate (tnc : String) (definition : Json) (nonDisruptive : Bool)
  | tncDelete (tnc : String) (nonDisruptive : Bool)
  | adapterCreate (definition : Json) (nonDisruptive : Bool)
  | adapterUpdate (adapter : String) (definition : Json) (nonDisruptive : Bool)
  | adapterDelete (adapter : String) (nonDisruptive : Bool)
  | serialList
  | tncModels
  | bluetoothScan (adapter : Option String) (seconds : Option UInt64)
      (transport : Option ScanTransport)
  | bluetoothScanStop (request : UInt64)
  | bluetoothPair (tnc address adapter : Option String)
  | bluetoothPairReply (request : UInt64) (accept : Option Bool) (pin : Option String)
      (passkey : Option UInt32)
  | bluetoothUnpair (tnc address adapter : Option String)

namespace Command

/-- Every `cmd` this version knows, to tell an unknown command from a known one with bad
parameters. -/
def NAMES : List String :=
  ["status", "subscribe", "reload", "config.check", "config.get", "config.put", "bridge.create",
    "bridge.update", "bridge.delete", "bridge.clone", "bridge.enable", "bridge.disable",
    "bridge.switch", "bridge.retry_public_name", "port.add", "port.update", "port.remove",
    "port.connect", "port.disconnect", "port.release", "session.kick", "tnc.create", "tnc.update",
    "tnc.delete", "adapter.create", "adapter.update", "adapter.delete", "serial.list",
    "tnc.models", "bluetooth.scan", "bluetooth.scan_stop", "bluetooth.pair",
    "bluetooth.pair_reply", "bluetooth.unpair"]

def cmd : Command → String
  | status => "status"
  | subscribe .. => "subscribe"
  | reload .. => "reload"
  | configCheck .. => "config.check"
  | configGet .. => "config.get"
  | configPut .. => "config.put"
  | bridgeCreate .. => "bridge.create"
  | bridgeUpdate .. => "bridge.update"
  | bridgeDelete .. => "bridge.delete"
  | bridgeClone .. => "bridge.clone"
  | bridgeEnable .. => "bridge.enable"
  | bridgeDisable .. => "bridge.disable"
  | bridgeSwitch .. => "bridge.switch"
  | bridgeRetryPublicName .. => "bridge.retry_public_name"
  | portAdd .. => "port.add"
  | portUpdate .. => "port.update"
  | portRemove .. => "port.remove"
  | portConnect .. => "port.connect"
  | portDisconnect .. => "port.disconnect"
  | portRelease .. => "port.release"
  | sessionKick .. => "session.kick"
  | tncCreate .. => "tnc.create"
  | tncUpdate .. => "tnc.update"
  | tncDelete .. => "tnc.delete"
  | adapterCreate .. => "adapter.create"
  | adapterUpdate .. => "adapter.update"
  | adapterDelete .. => "adapter.delete"
  | serialList => "serial.list"
  | tncModels => "tnc.models"
  | bluetoothScan .. => "bluetooth.scan"
  | bluetoothScanStop .. => "bluetooth.scan_stop"
  | bluetoothPair .. => "bluetooth.pair"
  | bluetoothPairReply .. => "bluetooth.pair_reply"
  | bluetoothUnpair .. => "bluetooth.unpair"

/-- A command's parameters as they are sent; one that is `none` is left out. -/
def params : Command → List (String × Json)
  | status | serialList | tncModels => []
  | subscribe topics => [field "topics" (array topic) topics]
  | reload nd => [field "non_disruptive" boolean nd]
  | configCheck dynamic => given "dynamic" string dynamic
  | configGet k object => given "kind" kind k ++ given "object" string object
  | configPut k object toml revision nd => given "kind" kind k ++ given "object" string object ++
    [field "toml" string toml, field "revision" string revision, field "non_disruptive" boolean nd]
  | bridgeCreate defn nd | tncCreate defn nd | adapterCreate defn nd =>
    [field "definition" .plain defn, field "non_disruptive" boolean nd]
  | bridgeUpdate bridge defn nd | portAdd bridge defn nd =>
    [field "bridge" string bridge, field "definition" .plain defn,
      field "non_disruptive" boolean nd]
  | bridgeDelete bridge nd | bridgeDisable bridge nd | bridgeSwitch bridge nd =>
    [field "bridge" string bridge, field "non_disruptive" boolean nd]
  | bridgeClone bridge newId name nd =>
    [field "bridge" string bridge] ++ given "new_id" string newId ++
      [field "name" string name, field "non_disruptive" boolean nd]
  | bridgeEnable bridge reset nd =>
    [field "bridge" string bridge, field "reset" boolean reset, field "non_disruptive" boolean nd]
  | bridgeRetryPublicName bridge => [field "bridge" string bridge]
  | portUpdate bridge port defn nd =>
    [field "bridge" string bridge, field "port" string port, field "definition" .plain defn,
      field "non_disruptive" boolean nd]
  | portRemove bridge port nd =>
    [field "bridge" string bridge, field "port" string port, field "non_disruptive" boolean nd]
  | portConnect bridge port | portDisconnect bridge port | portRelease bridge port =>
    [field "bridge" string bridge, field "port" string port]
  | sessionKick session => [field "session" string session]
  | tncUpdate tnc defn nd =>
    [field "tnc" string tnc, field "definition" .plain defn, field "non_disruptive" boolean nd]
  | tncDelete tnc nd => [field "tnc" string tnc, field "non_disruptive" boolean nd]
  | adapterUpdate adapter defn nd =>
    [field "adapter" string adapter, field "definition" .plain defn,
      field "non_disruptive" boolean nd]
  | adapterDelete adapter nd => [field "adapter" string adapter, field "non_disruptive" boolean nd]
  | bluetoothScan adapter seconds t =>
    given "adapter" string adapter ++ given "seconds" u64 seconds ++ given "transport" transport t
  | bluetoothScanStop request => [field "request" u64 request]
  | bluetoothPair tnc address adapter | bluetoothUnpair tnc address adapter =>
    given "tnc" string tnc ++ given "address" string address ++ given "adapter" string adapter
  | bluetoothPairReply request accept pin passkey => [field "request" u64 request] ++
    given "accept" boolean accept ++ given "pin" string pin ++ given "passkey" u32 passkey

/-- Whether a change may disturb someone: a parameter of every change. -/
def nonDisruptive : List (String × Json) → Option Bool := default "non_disruptive" boolean false

def definition : List (String × Json) → Option Json := need "definition" .plain

/-- How the parameters of each command are read. Parameters that a command doesn't have
are not looked at. -/
def readers : List (String × (List (String × Json) → Option Command)) :=
  [("status", fun _ => some .status),
    ("subscribe", fun es => (need "topics" (array topic) es).map .subscribe),
    ("reload", fun es => (nonDisruptive es).map .reload),
    ("config.check", fun es => (maybe "dynamic" string es).map .configCheck),
    ("config.get", fun es => do
      some (.configGet (← maybe "kind" kind es) (← maybe "object" string es))),
    ("config.put", fun es => do
      some (.configPut (← maybe "kind" kind es) (← maybe "object" string es)
        (← need "toml" string es) (← need "revision" string es) (← nonDisruptive es))),
    ("bridge.create", fun es => do some (.bridgeCreate (← definition es) (← nonDisruptive es))),
    ("bridge.update", fun es => do
      some (.bridgeUpdate (← need "bridge" string es) (← definition es) (← nonDisruptive es))),
    ("bridge.delete", fun es => do
      some (.bridgeDelete (← need "bridge" string es) (← nonDisruptive es))),
    ("bridge.clone", fun es => do
      some (.bridgeClone (← need "bridge" string es) (← maybe "new_id" string es)
        (← need "name" string es) (← nonDisruptive es))),
    ("bridge.enable", fun es => do
      some (.bridgeEnable (← need "bridge" string es) (← default "reset" boolean false es)
        (← nonDisruptive es))),
    ("bridge.disable", fun es => do
      some (.bridgeDisable (← need "bridge" string es) (← nonDisruptive es))),
    ("bridge.switch", fun es => do
      some (.bridgeSwitch (← need "bridge" string es) (← nonDisruptive es))),
    ("bridge.retry_public_name", fun es => (need "bridge" string es).map .bridgeRetryPublicName),
    ("port.add", fun es => do
      some (.portAdd (← need "bridge" string es) (← definition es) (← nonDisruptive es))),
    ("port.update", fun es => do
      some (.portUpdate (← need "bridge" string es) (← need "port" string es) (← definition es)
        (← nonDisruptive es))),
    ("port.remove", fun es => do
      some (.portRemove (← need "bridge" string es) (← need "port" string es)
        (← nonDisruptive es))),
    ("port.connect", fun es => do
      some (.portConnect (← need "bridge" string es) (← need "port" string es))),
    ("port.disconnect", fun es => do
      some (.portDisconnect (← need "bridge" string es) (← need "port" string es))),
    ("port.release", fun es => do
      some (.portRelease (← need "bridge" string es) (← need "port" string es))),
    ("session.kick", fun es => (need "session" string es).map .sessionKick),
    ("tnc.create", fun es => do some (.tncCreate (← definition es) (← nonDisruptive es))),
    ("tnc.update", fun es => do
      some (.tncUpdate (← need "tnc" string es) (← definition es) (← nonDisruptive es))),
    ("tnc.delete", fun es => do some (.tncDelete (← need "tnc" string es) (← nonDisruptive es))),
    ("adapter.create", fun es => do some (.adapterCreate (← definition es) (← nonDisruptive es))),
    ("adapter.update", fun es => do
      some (.adapterUpdate (← need "adapter" string es) (← definition es) (← nonDisruptive es))),
    ("adapter.delete", fun es => do
      some (.adapterDelete (← need "adapter" string es) (← nonDisruptive es))),
    ("serial.list", fun _ => some .serialList),
    ("tnc.models", fun _ => some .tncModels),
    ("bluetooth.scan", fun es => do
      some (.bluetoothScan (← maybe "adapter" string es) (← maybe "seconds" u64 es)
        (← maybe "transport" transport es))),
    ("bluetooth.scan_stop", fun es => (need "request" u64 es).map .bluetoothScanStop),
    ("bluetooth.pair", fun es => do
      some (.bluetoothPair (← maybe "tnc" string es) (← maybe "address" string es)
        (← maybe "adapter" string es))),
    ("bluetooth.pair_reply", fun es => do
      some (.bluetoothPairReply (← need "request" u64 es) (← maybe "accept" boolean es)
        (← maybe "pin" string es) (← maybe "passkey" u32 es))),
    ("bluetooth.unpair", fun es => do
      some (.bluetoothUnpair (← maybe "tnc" string es) (← maybe "address" string es)
        (← maybe "adapter" string es)))]

def read : List (String × Json) → Option Command := tagged "cmd" string readers

end Command

structure Request where
  v : UInt32
  id : UInt64
  command : Command

def Request.json (r : Request) : Json :=
  .object ([field "v" u32 r.v, field "id" u64 r.id, field "cmd" string r.command.cmd] ++
    r.command.params)

def readRequest : Json → Option Request
  | .object es => do some ⟨← need "v" u32 es, ← need "id" u64 es, ← Command.read es⟩
  | _ => none

/-- An error as it is sent; `data` is more detail. -/
structure ApiError where
  code : ErrorCode
  message : String
  object : Option String := none
  data : Option Json := none

/-- `id` is the request's; `none` when the request couldn't be read at all. -/
structure Response where
  v : UInt32
  id : Option UInt64
  ok : Bool
  result : Option Json
  error : Option ApiError

def Response.success (id : UInt64) (result : Json) : Response :=
  ⟨VERSION, some id, true, some result, none⟩

def Response.err (id : Option UInt64) (error : ApiError) : Response :=
  ⟨VERSION, id, false, none, some error⟩

def codeName : ErrorCode → String
  | .badRequest => "bad_request"
  | .unknownCommand => "unknown_command"
  | .unsupportedVersion => "unsupported_version"
  | .configInvalid => "config_invalid"
  | .reloadWouldDisrupt => "reload_would_disrupt"
  | .notFound => "not_found"
  | .staticObjectReadonly => "static_object_readonly"
  | .conflict => "conflict"
  | .inUse => "in_use"
  | .revisionConflict => "revision_conflict"
  | .changedOnDisk => "changed_on_disk"
  | .failed => "failed"
  | .busy => "busy"
  | .internal => "internal"

def errorCode : Codec ErrorCode Json :=
  (Codec.names codeName
    [("bad_request", .badRequest), ("unknown_command", .unknownCommand),
      ("unsupported_version", .unsupportedVersion), ("config_invalid", .configInvalid),
      ("reload_would_disrupt", .reloadWouldDisrupt), ("not_found", .notFound),
      ("static_object_readonly", .staticObjectReadonly), ("conflict", .conflict),
      ("in_use", .inUse), ("revision_conflict", .revisionConflict),
      ("changed_on_disk", .changedOnDisk), ("failed", .failed), ("busy", .busy),
      ("internal", .internal)]
    (by intro c; cases c <;> rfl)).comp string

def ApiError.json (e : ApiError) : Json :=
  .object ([field "code" errorCode e.code, field "message" string e.message] ++
    given "object" string e.object ++ given "data" .plain e.data)

def readError : Json → Option ApiError
  | .object es => do
    some ⟨← need "code" errorCode es, ← need "message" string es, ← maybe "object" string es,
      ← maybe "data" .plain es⟩
  | _ => none

def Response.json (r : Response) : Json :=
  .object ([field "v" u32 r.v, field "id" u64.nullable r.id, field "ok" boolean r.ok] ++
    given "result" .plain r.result ++ (r.error.map fun e => ("error", e.json)).toList)

def readResponse (es : List (String × Json)) : Option Response := do
  let error ← match Entries.get "error" es with
    | none => some none
    | some v => if v.isNull then some none else (readError v).map some
  some ⟨← need "v" u32 es, ← default "id" u64.nullable none es, ← need "ok" boolean es,
    ← maybe "result" .plain es, error⟩

def dir : Codec Dir Json :=
  (Codec.names (fun d => match d with | .rx => "rx" | .tx => "tx") [("rx", .rx), ("tx", .tx)]
    (by intro d; cases d <;> rfl)).comp string

def headerJson (h : Ax25.Header) : Json :=
  .object [field "source" string h.source, field "destination" string h.destination,
    field "path" (array string) h.path]

def readHeader : Json → Option Ax25.Header
  | .object es => do
    some ⟨← need "source" string es, ← need "destination" string es,
      ← need "path" (array string) es⟩
  | _ => none

def header : Codec Ax25.Header Json where
  write := headerJson
  read := readHeader
  read_write h := by simp [headerJson, readHeader]

instance : header.Solid := ⟨fun _ => rfl⟩

def decodedJson (d : Ax25.Decoded) : Json :=
  .object ([field "channel" u8 d.channel, field "command" u8 d.command] ++
    given "ax25" header d.ax25 ++ [field "summary" string d.summary])

def readDecoded : Json → Option Ax25.Decoded
  | .object es => do
    some ⟨← need "channel" u8 es, ← need "command" u8 es, ← maybe "ax25" header es,
      ← need "summary" string es⟩
  | _ => none

def decoded : Codec Ax25.Decoded Json where
  write := decodedJson
  read := readDecoded
  read_write d := by simp [decodedJson, readDecoded]

/-- A Bluetooth device as a scan finds it. -/
structure BtDevice where
  address : String
  name : Option String
  rssi : Option Int16
  icon : Option String
  paired : Bool
  knownTnc : Option String
  model : Option String
  tnc : Option String

def BtDevice.json (d : BtDevice) : Json :=
  .object ([field "address" string d.address] ++ given "name" string d.name ++
    given "rssi" i16 d.rssi ++ given "icon" string d.icon ++ [field "paired" boolean d.paired] ++
    given "known_tnc" string d.knownTnc ++ given "model" string d.model ++ given "tnc" string d.tnc)

def readDevice : Json → Option BtDevice
  | .object es => do
    some ⟨← need "address" string es, ← maybe "name" string es, ← maybe "rssi" i16 es,
      ← maybe "icon" string es, ← need "paired" boolean es, ← maybe "known_tnc" string es,
      ← maybe "model" string es, ← maybe "tnc" string es⟩
  | _ => none

def device : Codec BtDevice Json where
  write := BtDevice.json
  read := readDevice
  read_write d := by simp [BtDevice.json, readDevice]

def stepName : PairingStep → String
  | .searching => "searching"
  | .pairing _ => "pairing"
  | .confirm _ => "confirm"
  | .enterPin => "enter_pin"
  | .enterPasskey => "enter_passkey"
  | .showPin _ => "show_pin"
  | .showPasskey _ => "show_passkey"
  | .authorize => "authorize"

def stepParams : PairingStep → List (String × Json)
  | .searching | .enterPin | .enterPasskey | .authorize => []
  | .pairing name => given "name" string name
  | .confirm passkey | .showPasskey passkey => [field "passkey" string passkey]
  | .showPin pin => [field "pin" string pin]

/-- A pairing's step, among the entries of its event. -/
def stepEntries (s : PairingStep) : List (String × Json) :=
  field "step" string (stepName s) :: stepParams s

def stepReaders : List (String × (List (String × Json) → Option PairingStep)) :=
  [("searching", fun _ => some .searching),
    ("pairing", fun es => (maybe "name" string es).map .pairing),
    ("confirm", fun es => (need "passkey" string es).map .confirm),
    ("enter_pin", fun _ => some .enterPin),
    ("enter_passkey", fun _ => some .enterPasskey),
    ("show_pin", fun es => (need "pin" string es).map .showPin),
    ("show_passkey", fun es => (need "passkey" string es).map .showPasskey),
    ("authorize", fun _ => some .authorize)]

def readStep : List (String × Json) → Option PairingStep := tagged "step" string stepReaders

inductive Event where
  | state (what object state : String)
  | activity (object : String) (dir : Dir) (bytes : UInt64)
  | frame (object : String) (dir : Dir) (session : Option String) (time kiss : String)
      (decoded : Ax25.Decoded)
  | lagged (missed : UInt64)
  | pairing (request : UInt64) (step : PairingStep)
  | found (request : UInt64) (device : BtDevice)

namespace Event

def name : Event → String
  | state .. => "state"
  | activity .. => "activity"
  | frame .. => "frame"
  | lagged _ => "lagged"
  | pairing .. => "pairing"
  | found .. => "found"

def params : Event → List (String × Json)
  | state what obj st =>
    [field "what" string what, field "object" string obj, field "state" string st]
  | activity obj d bytes => [field "object" string obj, field "dir" dir d, field "bytes" u64 bytes]
  | frame obj d session time kiss d' =>
    [field "object" string obj, field "dir" dir d] ++ given "session" string session ++
      [field "at" string time, field "kiss" string kiss, field "decoded" decoded d']
  | lagged missed => [field "missed" u64 missed]
  | pairing request step => [field "request" u64 request] ++ stepEntries step
  | found request d => [field "request" u64 request, field "device" device d]

end Event

def eventReaders : List (String × (List (String × Json) → Option Event)) :=
  [("state", fun es => do
      some (.state (← need "what" string es) (← need "object" string es)
        (← need "state" string es))),
    ("activity", fun es => do
      some (.activity (← need "object" string es) (← need "dir" dir es) (← need "bytes" u64 es))),
    ("frame", fun es => do
      some (.frame (← need "object" string es) (← need "dir" dir es) (← maybe "session" string es)
        (← need "at" string es) (← need "kiss" string es) (← need "decoded" decoded es))),
    ("lagged", fun es => (need "missed" u64 es).map .lagged),
    ("pairing", fun es => do some (.pairing (← need "request" u64 es) (← readStep es))),
    ("found", fun es => do
      some (.found (← need "request" u64 es) (← need "device" device es)))]

structure EventMessage where
  v : UInt32
  event : Event

def EventMessage.json (m : EventMessage) : Json :=
  .object ([field "v" u32 m.v, field "event" string m.event.name] ++ m.event.params)

def readEvent (es : List (String × Json)) : Option EventMessage := do
  some ⟨← need "v" u32 es, ← tagged "event" string eventReaders es⟩

end KissTncBridge.Protocol
