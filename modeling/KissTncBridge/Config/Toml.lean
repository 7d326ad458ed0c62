import KissTncBridge.Lib.Entries
import KissTncBridge.Config.Model

namespace KissTncBridge.Toml
open Conf Lib

/-- A TOML value as the loader sees it. No setting is a float or a date, so
which one it is is left out. -/
inductive Val where
  | boolean (b : Bool)
  | integer (n : Int)
  | float
  | datetime
  | string (s : String)
  | array (items : List Val)
  | table (entries : List (String × Val))

def Val.asStr : Val → Option String
  | .string s => some s
  | _ => none

/-- A `toml_edit` document remembers how it was written: a table as `[x]` or
inline, an array of tables as `[[x]]` or inline. Inline ones are plain values. -/
inductive Item where
  | value (v : Val)
  | table (entries : List (String × Item))
  | arrayOfTables (tables : List (List (String × Item)))

abbrev Table := List (String × Item)

def Item.asStr : Item → Option String
  | .value v => v.asStr
  | _ => none

def Item.asArrayOfTables : Item → Option (List Table)
  | .arrayOfTables ts => some ts
  | _ => none

mutual

/-- What was written, however it was written. -/
def Item.plain : Item → Val
  | .value v => v
  | .table es => .table (plainEntries es)
  | .arrayOfTables ts => .array (plainTables ts)

def plainEntries : List (String × Item) → List (String × Val)
  | [] => []
  | (k, i) :: rest => (k, i.plain) :: plainEntries rest

def plainTables : List (List (String × Item)) → List Val
  | [] => []
  | t :: rest => .table (plainEntries t) :: plainTables rest

end

def Table.plain (t : Table) : Val := .table (plainEntries t)

theorem plainEntries_eq (es : List (String × Item)) :
    plainEntries es = es.map (fun e => (e.1, e.2.plain)) := by
  induction es with
  | nil => rw [plainEntries, List.map_nil]
  | cons e es ih => rw [plainEntries, ih, List.map_cons]

theorem plainTables_eq (ts : List Table) : plainTables ts = ts.map Table.plain := by
  induction ts with
  | nil => rw [plainTables, List.map_nil]
  | cons t ts ih => rw [plainTables, ih, List.map_cons, Table.plain]

def known (ks : List String) (es : List (String × Val)) : Bool := es.all (fun e => ks.contains e.1)

/-- The entries of a struct, if it has no unknown one. -/
def fields (ks : List String) : Val → Option (List (String × Val))
  | .table es => if known ks es then some es else none
  | _ => none

def req (es : List (String × Val)) (key : String) (read : Val → Option α) : Option α :=
  (Entries.get key es).bind read

def opt (es : List (String × Val)) (key : String) (read : Val → Option α) : Option (Option α) :=
  match Entries.get key es with
  | none => some none
  | some v => (read v).map some

def Val.asBool : Val → Option Bool
  | .boolean b => some b
  | _ => none

def Val.asNat (bound : Nat) : Val → Option Nat
  | .integer n => if 0 ≤ n ∧ n < bound then some n.toNat else none
  | _ => none

def Val.asUInt8 (v : Val) : Option UInt8 := (v.asNat UInt8.size).map Nat.toUInt8

def Val.asUInt32 (v : Val) : Option UInt32 := (v.asNat UInt32.size).map Nat.toUInt32

def Val.asList (read : Val → Option α) : Val → Option (List α)
  | .array vs => vs.mapM read
  | _ => none

/-- An array that may be left out. -/
def defaulted (es : List (String × Val)) (key : String) (read : Val → Option α) : Option (List α) :=
  match Entries.get key es with
  | none => some []
  | some v => v.asList read

/-- An enumeration, by name. -/
def Val.asOneOf (table : List (String × α)) (v : Val) : Option α :=
  v.asStr.bind (fun s => Entries.get s table)

def readRole (v : Val) : Option Role := v.asOneOf [("tnc", .tnc), ("app", .app)]

def readConnect (v : Val) : Option ConnectPolicy :=
  v.asOneOf [("on_demand", .onDemand), ("always", .always)]

def readAppParams (v : Val) : Option AppParams := v.asOneOf [("pass", .pass), ("drop", .drop)]

def readGlobal (v : Val) : Option GlobalSection := do
  let es ← fields ["log_level", "adapter"] v
  some ⟨← opt es "log_level" Val.asStr, ← opt es "adapter" Val.asStr⟩

def readControl (v : Val) : Option ControlSection := do
  let es ← fields ["group"] v
  some ⟨← opt es "group" Val.asStr⟩

def readAdapter (v : Val) : Option AdapterDef := do
  let es ← fields ["id", "mac"] v
  some ⟨← req es "id" Val.asStr, ← req es "mac" Val.asStr⟩

def readSpp (v : Val) : Option SppDef := do
  let es ← fields ["address", "adapter", "channel"] v
  some ⟨← req es "address" Val.asStr, ← opt es "adapter" Val.asStr, ← opt es "channel" Val.asUInt8⟩

def readBle (v : Val) : Option BleDef := do
  let es ← fields ["address", "adapter"] v
  some ⟨← req es "address" Val.asStr, ← opt es "adapter" Val.asStr⟩

def readSerial (v : Val) : Option SerialDef := do
  let es ← fields ["path", "baud"] v
  some ⟨← req es "path" Val.asStr, ← opt es "baud" Val.asUInt32⟩

def readTnc (v : Val) : Option TncDef := do
  let es ← fields ["id", "name", "model", "spp", "ble", "serial"] v
  some ⟨← req es "id" Val.asStr, ← opt es "name" Val.asStr, ← opt es "model" Val.asStr,
    ← opt es "spp" readSpp, ← opt es "ble" readBle, ← opt es "serial" readSerial⟩

/-- What sets a port type apart: the fields it has, and how it is read from
them. -/
structure PortType where
  fields : List String
  read : List (String × Val) → Option PortDefKind

/-- The three port types that use a `[[tnc]]`. -/
def tncPortType
    (mk : String → Option ConnectPolicy → Option String → Option Bool → PortDefKind) :
    PortType where
  fields := ["tnc", "connect", "idle_timeout", "exit_kiss_on_disconnect"]
  read es := do
    some (mk (← req es "tnc" Val.asStr) (← opt es "connect" readConnect)
      (← opt es "idle_timeout" Val.asStr) (← opt es "exit_kiss_on_disconnect" Val.asBool))

def portTypes : List (String × PortType) :=
  [("tcp-client",
      ⟨["address", "connect", "idle_timeout"], fun es => do
        some (.tcpClient (← req es "address" Val.asStr) (← opt es "connect" readConnect)
          (← opt es "idle_timeout" Val.asStr))⟩),
    ("tcp-server",
      ⟨["listen", "max_clients", "allow", "announce"], fun es => do
        some (.tcpServer (← req es "listen" Val.asStr) (← opt es "max_clients" Val.asUInt32)
          (← opt es "allow" (Val.asList Val.asStr)) (← opt es "announce" Val.asBool))⟩),
    ("ble-server",
      ⟨["adapter", "max_clients"], fun es => do
        some (.bleServer (← opt es "adapter" Val.asStr) (← opt es "max_clients" Val.asUInt32))⟩),
    ("spp-client", tncPortType .sppClient),
    ("ble-client", tncPortType .bleClient),
    ("serial", tncPortType .serial)]

def portFields (type : PortType) : List String := ["type", "id", "role"] ++ type.fields

/-- `[[bridge.port]]`, told apart by `type`. -/
def readPort : Val → Option PortDef
  | .table es => do
    let type ← Entries.get (← req es "type" Val.asStr) portTypes
    let es ← fields (portFields type) (.table es)
    some ⟨← opt es "id" Val.asStr, ← opt es "role" readRole, ← type.read es⟩
  | _ => none

def bridgeFields : List String := ["id", "name", "enabled", "public_name", "app_params", "port"]

def readBridge (v : Val) : Option BridgeDef := do
  let es ← fields bridgeFields v
  some ⟨← opt es "id" Val.asStr, ← req es "name" Val.asStr, ← opt es "enabled" Val.asBool,
    ← opt es "public_name" Val.asStr, ← opt es "app_params" readAppParams,
    ← defaulted es "port" readPort⟩

def fileFields : List String := ["global", "control", "adapter", "tnc", "bridge"]

/-- What a file says. -/
def readFile (v : Val) : Option ConfigFile := do
  let es ← fields fileFields v
  some ⟨← opt es "global" readGlobal, ← opt es "control" readControl,
    ← defaulted es "adapter" readAdapter, ← defaulted es "tnc" readTnc,
    ← defaulted es "bridge" readBridge⟩

end KissTncBridge.Toml
