import KissTncBridge.Control.Document

namespace KissTncBridge.Control
open Conf Lib Supervisor Toml

def bad (msg : String) : ApiError := { code := .badRequest, message := msg }

def taken (msg : String) : ApiError := { code := .conflict, message := msg }

/-- The dynamic object to change, or why it can't be. -/
def editable (doc : Table) (w : World) (kind : Kind) (id : String) : Except ApiError Table :=
  match w.staticSource kind id with
  | some src => .error
    { code := .staticObjectReadonly
      message := key kind ++ " " ++ id ++ " is static config (" ++ sourceText src ++
        "); edit that file instead, or clone it into a dynamic one"
      object := some (sourceText src) }
  | none =>
    match Doc.table doc kind id with
    | some t => .ok t
    | none => .error (notFound (key kind) id)

/-- A request's JSON. Which float it is is left out, as in TOML. -/
inductive Json where
  | null
  | boolean (b : Bool)
  | integer (n : Int)
  | float
  | string (s : String)
  | array (items : List Json)
  | object (entries : List (String × Json))

def Json.isNull : Json → Bool
  | .null => true
  | _ => false

def Json.isObject : Json → Bool
  | .object _ => true
  | _ => false

def Json.asStr : Json → Option String
  | .string s => some s
  | _ => none

/-- The number as TOML holds it: what is no 64-bit signed integer is a float. -/
def jsonNumber (n : Int) : Val :=
  if -0x8000_0000_0000_0000 ≤ n ∧ n < 0x8000_0000_0000_0000 then .integer n else .float

mutual

def jsonToValue : Json → Except ApiError Val
  | .null => .error (bad "null has no TOML form")
  | .boolean b => .ok (.boolean b)
  | .integer n => .ok (jsonNumber n)
  | .float => .ok .float
  | .string s => .ok (.string s)
  | .array vs => (jsonToValues vs).map .array
  | .object es => (jsonToInline es).map .table

def jsonToValues : List Json → Except ApiError (List Val)
  | [] => .ok []
  | v :: rest => do
    let v ← jsonToValue v
    .ok (v :: (← jsonToValues rest))

/-- An inline table has no entry for a null. -/
def jsonToInline : List (String × Json) → Except ApiError (List (String × Val))
  | [] => .ok []
  | (k, v) :: rest =>
    if v.isNull then jsonToInline rest
    else do
      let v ← jsonToValue v
      .ok ((k, v) :: (← jsonToInline rest))

end

mutual

/-- One entry of a table: nested objects become sub-tables, arrays of objects
arrays of tables. -/
def jsonToItem : Json → Except ApiError Item
  | .object es => (jsonToEntries es).map .table
  | .array vs =>
    if !vs.isEmpty && vs.all Json.isObject then (jsonToTables vs).map .arrayOfTables
    else (jsonToValue (.array vs)).map .value
  | v => (jsonToValue v).map .value

def jsonToEntries : List (String × Json) → Except ApiError Table
  | [] => .ok []
  | (k, v) :: rest =>
    if v.isNull then jsonToEntries rest
    else do
      let i ← jsonToItem v
      .ok ((k, i) :: (← jsonToEntries rest))

def jsonToTables : List Json → Except ApiError (List Table)
  | [] => .ok []
  | v :: rest => do
    let t ← match v with
      | .object es => jsonToEntries es
      | _ => .error (bad "expected a JSON object")
    .ok (t :: (← jsonToTables rest))

end

/-- An object as a TOML table. -/
def jsonToTable : Json → Except ApiError Table
  | .object es => jsonToEntries es
  | _ => .error (bad "expected a JSON object")

/-- A JSON object's string under a key. -/
def strKey (v : Json) (k : String) : Option String :=
  match v with
  | .object es => (Entries.get k es).bind Json.asStr
  | _ => none

/-- The first of `what0`, `what1`, … that is not taken. One of the first
`taken.length + 1` is free. -/
def lowestFree (taken : List String) (what : String) : String :=
  (((List.range (taken.length + 1)).map (fun n => what ++ toString n)).find?
    (fun id => !taken.contains id)).getD what

def World.staticBridgeNames (w : World) : List String :=
  w.statics.flatMap (fun f => f.2.bridge.map BridgeDef.name)

def bridgeIds (doc : Table) (w : World) : List String :=
  w.statics.flatMap (fun f => f.2.bridge.filterMap BridgeDef.id) ++ Doc.ids doc .bridge

/-- The lowest free `ktbrN`. -/
def nextBridgeId (doc : Table) (w : World) : String := lowestFree (bridgeIds doc w) "ktbr"

def checkBridgeName (doc : Table) (w : World) (name : String) (except : Option String) :
    Except ApiError Unit :=
  if (World.staticBridgeNames w).contains name then
    .error (taken ("a static bridge is already named " ++ Text.quoted name))
  else if (Doc.tables doc .bridge).any
      (fun t => str t "name" == some name && str t "id" != except) then
    .error (taken ("a bridge is already named " ++ Text.quoted name))
  else .ok ()

/-- Name the ports that have no id, one after the other. -/
def nameEach (taken : List String) : List Table → List Table
  | [] => []
  | p :: rest =>
    if (Entries.get "id" p).isNone then
      let id := lowestFree taken ((str p "type").getD "port")
      Entries.insert "id" (value id) p :: nameEach (taken ++ [id]) rest
    else p :: nameEach taken rest

/-- Give every port in a bridge table an explicit id: its type plus the lowest
free index. -/
def namePorts (t : Table) : Table :=
  match (Entries.get "port" t).bind Item.asArrayOfTables with
  | none => t
  | some ports =>
    Entries.insert "port"
      (.arrayOfTables (nameEach (ports.filterMap (fun p => str p "id")) ports)) t

/-- A new bridge's id: the one asked for, unless it is taken, or the next. -/
def newBridgeId (doc : Table) (w : World) (asked : Option String) : Except ApiError String :=
  match asked with
  | some id =>
    if (bridgeIds doc w).contains id then .error (taken ("bridge id " ++ id ++ " is taken"))
    else .ok id
  | none => .ok (nextBridgeId doc w)

/-- A new bridge's table: its id, and disabled unless it says otherwise. -/
def newBridge (id : String) (t : Table) : Table :=
  let t := Entries.insert "id" (value id) t
  if (Entries.get "enabled" t).isNone then Entries.insert "enabled" (.value (.boolean false)) t
  else t

/-- A copy's table: its own id and name, disabled, and no public name of its
own. -/
def copiedBridge (id name : String) (t : Table) : Table :=
  let t := Entries.insert "id" (value id) t
  let t := Entries.insert "name" (value name) t
  let t := Entries.insert "enabled" (.value (.boolean false)) t
  Entries.remove "public_name" t

/-- `bridge.create`: a new dynamic bridge, ports and all. Returns its id. -/
def createBridge (doc : Table) (w : World) (defn : Json) : Except ApiError (String × Table) := do
  let name ← match strKey defn "name" with
    | some name => Except.ok name
    | none => .error (bad "a bridge needs a name")
  let id ← newBridgeId doc w (strKey defn "id")
  checkBridgeName doc w name none
  let t ← jsonToTable defn
  .ok (id, Doc.put doc .bridge id (namePorts (newBridge id t)))

/-- `bridge.update`: replace a dynamic bridge's definition. -/
def updateBridge (doc : Table) (w : World) (id : String) (defn : Json) : Except ApiError Table := do
  let _ ← editable doc w .bridge id
  match (strKey defn "id").filter (fun x => x != id) with
  | some other => .error (bad ("a bridge's id can't change (" ++ id ++ " to " ++ other ++
      "); create a new bridge instead"))
  | none =>
    let name ← match strKey defn "name" with
      | some name => Except.ok name
      | none => .error (bad "a bridge needs a name")
    checkBridgeName doc w name (some id)
    let t ← jsonToTable defn
    .ok (Doc.put doc .bridge id (namePorts (Entries.insert "id" (value id) t)))

def deleteBridge (doc : Table) (w : World) (id : String) : Except ApiError Table := do
  let _ ← editable doc w .bridge id
  .ok (Doc.remove doc .bridge id)

/-- A static bridge's table, read from its file as it is now. -/
def staticBridgeTable (toml : TomlLib Table) (read : String → Except String String)
    (path id : String) : Except ApiError Table :=
  match read path with
  | .error e => .error { code := .internal, message := "can't read " ++ path ++ ": " ++ e }
  | .ok text =>
    match toml.parseDoc text with
    | .error e => .error { code := .internal, message := path ++ ": " ++ e }
    | .ok doc =>
      match (Doc.tables doc .bridge).find? (fun t => str t "id" == some id) with
      | some t => .ok t
      | none => .error (notFound (key .bridge) id)

/-- The bridge to copy, static or dynamic. -/
def cloneSource (toml : TomlLib Table) (read : String → Except String String)
    (doc : Table) (w : World) (source : String) : Except ApiError Table :=
  match w.staticSource .bridge source with
  | some (.static path) => staticBridgeTable toml read path source
  | _ =>
    match Doc.table doc .bridge source with
    | some t => .ok t
    | none => .error (notFound (key .bridge) source)

/-- `bridge.clone`: copy any bridge into a new dynamic one, disabled, its public
name following its new name. -/
def cloneBridge (toml : TomlLib Table) (read : String → Except String String)
    (doc : Table) (w : World) (source : String) (newId : Option String) (name : String) :
    Except ApiError (String × Table) := do
  let t ← cloneSource toml read doc w source
  let id ← newBridgeId doc w newId
  checkBridgeName doc w name none
  .ok (id, Doc.put doc .bridge id (namePorts (copiedBridge id name t)))

/-- The bridge's `[[bridge.port]]`s; anything else in their place is
replaced. -/
def portsOf (t : Table) : List Table := ((Entries.get "port" t).bind Item.asArrayOfTables).getD []

def setPorts (ports : List Table) (t : Table) : Table :=
  Entries.insert "port" (.arrayOfTables ports) t

def portIndex (t : Table) (port : String) : Option Nat := do
  (← (← Entries.get "port" t).asArrayOfTables).findIdx? (fun p => str p "id" == some port)

/-- What serde reads of a port's JSON: what it would of the same TOML, except
that a field it doesn't know is an error even when it is null. -/
def jsonPort : Json → Option PortDef
  | .object es => do
    let vs ← (jsonToInline es).toOption
    let type ← Entries.get (← req vs "type" Val.asStr) portTypes
    if es.all (fun e => (portFields type).contains e.1) then readPort (.table vs) else none
  | _ => none

def checkPort (complaint : Json → String) (defn : Json) : Except ApiError PortDef :=
  match jsonPort defn with
  | some p => .ok p
  | none => .error (bad ("port: " ++ complaint defn))

def noPort (bridge port : String) : ApiError :=
  { code := .notFound, message := "bridge " ++ bridge ++ " has no port " ++ port }

/-- `port.add`. Returns the port's id. -/
def addPort (complaint : Json → String) (doc : Table) (w : World) (bridge : String) (defn : Json) :
    Except ApiError (Option String × Table) := do
  let _ ← checkPort complaint defn
  let t ← editable doc w .bridge bridge
  match (strKey defn "id").filter (fun id => (portIndex t id).isSome) with
  | some id => .error (taken ("bridge " ++ bridge ++ " already has a port " ++ id))
  | none =>
    let p ← jsonToTable defn
    let t := namePorts (setPorts (portsOf t ++ [p]) t)
    .ok ((portsOf t).getLast?.bind (fun p => str p "id"),
      Doc.modify doc .bridge bridge (fun _ => t))

/-- `port.update`: replace a port's definition; its id stays. -/
def updatePort (complaint : Json → String) (doc : Table) (w : World) (bridge port : String)
    (defn : Json) : Except ApiError Table := do
  let _ ← checkPort complaint defn
  let t ← editable doc w .bridge bridge
  match portIndex t port with
  | none => .error (noPort bridge port)
  | some i =>
    let p ← jsonToTable defn
    let p := Entries.insert "id" (value port) p
    .ok (Doc.modify doc .bridge bridge (setPorts ((portsOf t).set i p)))

def removePort (doc : Table) (w : World) (bridge port : String) : Except ApiError Table := do
  let t ← editable doc w .bridge bridge
  match portIndex t port with
  | none => .error (noPort bridge port)
  | some i => .ok (Doc.modify doc .bridge bridge (setPorts ((portsOf t).eraseIdx i)))

def idsOf (doc : Table) (w : World) (kind : Kind) : List String :=
  w.statics.flatMap (fun f => match kind with
    | .adapter => f.2.adapter.map AdapterDef.id
    | .tnc => f.2.tnc.map TncDef.id
    | .bridge => []) ++ Doc.ids doc kind

/-- `tnc.create` / `adapter.create`. Returns the id. -/
def createObject (doc : Table) (w : World) (kind : Kind) (defn : Json) :
    Except ApiError (String × Table) := do
  let id ← match strKey defn "id" with
    | some id => Except.ok id
    | none => .error (bad ("a " ++ key kind ++ " needs an id"))
  if (idsOf doc w kind).contains id then .error (taken (key kind ++ " id " ++ id ++ " is taken"))
  else do
    let t ← jsonToTable defn
    .ok (id, Doc.put doc kind id t)

/-- Where a reference to a dynamic TNC or adapter is. -/
inductive RefPath where
  | port (bridge : String) (port : Nat) (key : String)
  | tncSection (tnc sect : String)
deriving DecidableEq, Repr

structure Reference where
  path : RefPath
  describe : String
deriving DecidableEq, Repr

/-- The ports of a bridge that refer to `id` under `k`. -/
def portReferences (k id : String) (b : Table) : List Reference :=
  let bid := (str b "id").getD "?"
  (portsOf b).zipIdx.filterMap (fun p =>
    if str p.1 k == some id then
      some ⟨.port bid p.2 k, "bridge " ++ bid ++ " port " ++ (str p.1 "id").getD "?"⟩
    else none)

/-- An entry of a sub-table, inline or not. -/
def Item.entry (i : Item) (k : String) : Option String :=
  match i with
  | .table es => str es k
  | .value (.table es) => (Entries.get k es).bind Val.asStr
  | _ => none

/-- The sections of a TNC that refer to adapter `id`. -/
def sectionReferences (id : String) (t : Table) : List Reference :=
  ["spp", "ble"].filterMap (fun sect =>
    if ((Entries.get sect t).bind (fun i => Item.entry i "adapter")) == some id then
      let tid := (str t "id").getD "?"
      some ⟨.tncSection tid sect, "tnc " ++ tid⟩
    else none)

def references (doc : Table) (kind : Kind) (id : String) : List Reference :=
  match kind with
  | .bridge => []
  | .tnc => (Doc.tables doc .bridge).flatMap (portReferences "tnc" id)
  | .adapter => (Doc.tables doc .bridge).flatMap (portReferences "adapter" id) ++
    (Doc.tables doc .tnc).flatMap (sectionReferences id)

def setReference (doc : Table) (path : RefPath) (target : String) : Table :=
  match path with
  | .port bridge i k => Doc.modify doc .bridge bridge (fun b =>
    match (Entries.get "port" b).bind Item.asArrayOfTables with
    | some ports => setPorts (ports.modify i (Entries.insert k (value target))) b
    | none => b)
  | .tncSection tnc sect => Doc.modify doc .tnc tnc (fun t =>
    match Entries.get sect t with
    | some (.table es) =>
      Entries.insert sect (.table (Entries.insert "adapter" (value target) es)) t
    | some (.value (.table es)) =>
      Entries.insert sect (.value (.table (Entries.insert "adapter" (.string target) es))) t
    | _ => t)

/-- `tnc.update` / `adapter.update`: replace the definition. A new `id` renames
it, and dynamic references follow. -/
def updateObject (doc : Table) (w : World) (kind : Kind) (id : String) (defn : Json) :
    Except ApiError (String × Table) := do
  let _ ← editable doc w kind id
  let newId := (strKey defn "id").getD id
  if newId != id && (idsOf doc w kind).contains newId then
    .error (taken (key kind ++ " id " ++ newId ++ " is taken"))
  else do
    let t ← jsonToTable defn
    let t := Entries.insert "id" (value newId) t
    if newId == id then .ok (newId, Doc.put doc kind id t)
    else
      let doc := Doc.modify doc kind id (fun _ => t)
      .ok (newId, (references doc kind id).foldl (fun doc r => setReference doc r.path newId) doc)

def inUse (kind : Kind) (id : String) (refs : List Reference) : ApiError :=
  { code := .inUse
    message := key kind ++ " " ++ id ++ " is in use by " ++
      String.intercalate ", " (refs.map Reference.describe) ++ "; change those first"
    object := some (key kind ++ " " ++ id) }

/-- `tnc.delete` / `adapter.delete`, refused while anything refers to it. -/
def deleteObject (doc : Table) (w : World) (kind : Kind) (id : String) : Except ApiError Table := do
  let _ ← editable doc w kind id
  let refs := references doc kind id
  if refs.isEmpty then .ok (Doc.remove doc kind id)
  else .error (inUse kind id refs)

end KissTncBridge.Control
