import KissTncBridge.Config.Model
import KissTncBridge.Config.Values

namespace KissTncBridge.Conf

def DEFAULT_LOG_LEVEL : String := "info"
def DEFAULT_CONTROL_GROUP : String := "kiss-tnc-bridge"
def DEFAULT_BLE_MAX_CLIENTS : UInt32 := 1
def DEFAULT_SERIAL_BAUD : UInt32 := 9600

/-- What the `ipnet` crate does with text and addresses. -/
structure IpNetLib where
  parse : String → Option IpNet
  contains : IpNet → IpAddr → Bool

/-- An address on its own is a network of that address alone. -/
def IpNet.ofAddr : IpAddr → IpNet
  | .v4 a => ⟨.v4 a, 32⟩
  | .v6 a => ⟨.v6 a, 128⟩

def staticRefersToDynamic (kind id insteadUse : String) : String :=
  kind ++ " " ++ Text.quoted id ++
    " is defined in dynamic config; static config can only refer to static " ++ kind ++ "s (" ++
    insteadUse ++ ")"

def resolveIdleTimeout (value : Option String) (source : Source) (object : String) :
    Duration × List Problem :=
  match value.map parseDuration with
  | some (.ok d) => (d, [])
  | some (.error e) => (0, [⟨some source, object, "idle_timeout: " ++ e⟩])
  | none => (0, [])

def checkTncVisible (found : Option Tnc) (id : String) (source : Source) (object : String) :
    List Problem :=
  match found with
  | some t =>
    if source.isStatic && !t.source.isStatic then
      [⟨some source, object, staticRefersToDynamic "tnc" id "define it in /etc"⟩]
    else []
  | none => []

def tncReferenceError (tnc : String) (defined : Bool) (sect : String) : String :=
  if defined then
    "tnc " ++ Text.quoted tnc ++ " has no [tnc." ++ sect ++ "] section, which this port type needs"
  else "tnc " ++ Text.quoted tnc ++ " is not defined (no [[tnc]] with that id)"

def resolveAdapter (d : AdapterDef) (source : Source) : Except Problem Adapter :=
  let object := "adapter " ++ d.id
  match checkId d.id "adapter" with
  | .error e => .error ⟨some source, object, e⟩
  | .ok _ =>
    if isHciName d.id || (Mac.parse d.id).isOk then
      .error ⟨some source, object, "an adapter id can't look like an hciN name or a MAC address"⟩
    else match Mac.parse d.mac with
      | .error e => .error ⟨some source, object, "mac: " ++ e⟩
      | .ok mac => .ok ⟨d.id, mac, source⟩

/-- The TNC comes back even with errors, so ports that use it resolve and only
the TNC's own problems are reported. -/
def resolveTnc (d : TncDef) (source : Source) (sppAdapter bleAdapter : Option AdapterSel) :
    Tnc × List Problem :=
  let object := "tnc " ++ d.id
  let err (msg : String) : Problem := ⟨some source, object, msg⟩
  let idErrors := match checkId d.id "tnc" with
    | .error e => [err e]
    | .ok _ => []
  let name := d.name.getD d.id
  let nameErrors := if (Text.trim name).isEmpty then [err "name must not be empty"] else []
  let (model, modelErrors) := match d.model.map TncModel.parse with
    | none => (TncModel.generic, [])
    | some (.ok m) => (m, [])
    | some (.error e) => (TncModel.generic, [err e])
  let address (what s : String) : Mac × List Problem := match Mac.parse s with
    | .ok a => (a, [])
    | .error e => (⟨0⟩, [err (what ++ e)])
  let (spp, sppErrors) : Option Spp × List Problem := match d.spp with
    | none => (none, [])
    | some spp =>
      let (a, es) := address "spp.address: " spp.address
      let channelErrors := match spp.channel with
        | some ch =>
          if 1 ≤ ch ∧ ch ≤ 30 then []
          else [err ("spp.channel: " ++ toString ch.toNat ++ " is not an RFCOMM channel (1-30)")]
        | none => []
      (some ⟨a, sppAdapter.getD .default, spp.channel⟩, es ++ channelErrors)
  let (ble, bleErrors) : Option Ble × List Problem := match d.ble with
    | none => (none, [])
    | some ble =>
      let (a, es) := address "ble.address: " ble.address
      (some ⟨a, bleAdapter.getD .default⟩, es)
  let (serial, serialErrors) : Option SerialDevice × List Problem := match d.serial with
    | none => (none, [])
    | some s =>
      let baud := s.baud.getD DEFAULT_SERIAL_BAUD
      (some ⟨s.path, baud⟩,
        (if s.path.toList.head? = some '/' then []
          else [err ("serial.path " ++ Text.quoted s.path ++
            " must be an absolute path, e.g. /dev/serial/by-id/…")]) ++
        (if baud = 0 then [err "serial.baud must be more than 0"] else []))
  let noneErrors :=
    if spp.isNone ∧ ble.isNone ∧ serial.isNone then
      [err "a tnc needs at least one of [tnc.spp], [tnc.ble] or [tnc.serial]"] else []
  (⟨d.id, name, model, spp, ble, serial, source⟩,
    idErrors ++ nameErrors ++ modelErrors ++ sppErrors ++ bleErrors ++ serialErrors ++ noneErrors)

/-- An adapter value where one is used. Of several adapters with the same id
the last one counts. -/
def resolveAdapterValue (adapters : List Adapter) (value : String) (source : Source)
    (object : String) : AdapterSel × List Problem :=
  match AdapterValue.parse value with
  | .mac m => (.mac m, [])
  | .hci h => (.hci h, [])
  | .id id =>
    match adapters.reverse.find? (fun a => a.id == id) with
    | some a =>
      (.mac a.mac,
        if source.isStatic && !a.source.isStatic then
          [⟨some source, object, staticRefersToDynamic "adapter" id
            "define it in /etc, or refer to it by MAC or hciN"⟩]
        else [])
    | none =>
      (.default, [⟨some source, object, "adapter " ++ Text.quoted id ++
        " is not a MAC, an hciN name, or a defined [[adapter]] id"⟩])

/-- What the ports are resolved against. -/
structure Scope where
  ipNet : IpNetLib
  adapters : List Adapter
  globalSel : AdapterSel
  tncs : List Tnc

/-- A port that uses a TNC: its settings are taken over from the TNC's section
for this transport, `pick`. -/
def resolveTncPort (sc : Scope) (source : Source) (object sect : String) (tnc : String)
    (idleTimeout : Option String) (pick : Tnc → Option α) (mk : Tnc → α → Duration → PortKind) :
    Option PortKind × List Problem :=
  let (idle, idleErrors) := resolveIdleTimeout idleTimeout source object
  let found := sc.tncs.find? (fun t => t.id == tnc)
  let visible := checkTncVisible found tnc source object
  match found.map (fun t => (t, pick t)) with
  | some (t, some x) => (some (mk t x idle), idleErrors ++ visible)
  | other =>
    (none, idleErrors ++ visible ++
      [⟨some source, object, tncReferenceError tnc other.isSome sect⟩])

def parseAllow (sc : Scope) (a : String) : Option IpNet :=
  (sc.ipNet.parse a).or ((Parse.ipAddr a).map IpNet.ofAddr)

/-- The settings of one port; `none` where a TNC reference can't be followed,
which leaves the port out. -/
def resolveKind (sc : Scope) (source : Source) (object : String) :
    PortDefKind → Option PortKind × List Problem
  | .tcpClient address connect idleTimeout =>
    let ((host, port), es) := match parseHostPort address with
      | .ok hp => (hp, [])
      | .error e => (("", 0), [⟨some source, object, "address: " ++ e⟩])
    let (idle, idleErrors) := resolveIdleTimeout idleTimeout source object
    (some (.tcpClient host port (connect.getD .onDemand) idle), es ++ idleErrors)
  | .tcpServer listen maxClients allow announce =>
    let (listen, es) := match Listen.parse listen with
      | .ok l => (l, [])
      | .error e => (Listen.addr (.v4 localhost 0), [⟨some source, object, "listen: " ++ e⟩])
    let maxErrors : List Problem :=
      if maxClients = some 0 then
        [⟨some source, object, "max_clients must be at least 1 (leave it out for no limit)"⟩]
      else []
    let written := allow.getD []
    let netErrors := (written.filter (fun a => (parseAllow sc a).isNone)).map (fun a =>
      (⟨some source, object, "allow: " ++ Text.quoted a ++ " is not an address or CIDR network"⟩ :
        Problem))
    (some (.tcpServer listen maxClients (written.filterMap (parseAllow sc))
      (announce.getD (!listen.isLoopback))), es ++ maxErrors ++ netErrors)
  | .bleServer adapter maxClients =>
    let (sel, es) := match adapter with
      | some a => resolveAdapterValue sc.adapters a source object
      | none => (sc.globalSel, [])
    let maxClients := maxClients.getD DEFAULT_BLE_MAX_CLIENTS
    (some (.bleServer sel maxClients), es ++
      if maxClients = 0 then [⟨some source, object, "max_clients must be at least 1"⟩] else [])
  | .sppClient tnc connect idleTimeout exitKiss =>
    resolveTncPort sc source object "spp" tnc idleTimeout Tnc.spp (fun t spp idle =>
      .sppClient t.id t.model spp (connect.getD .onDemand) idle (exitKiss.getD false))
  | .bleClient tnc connect idleTimeout exitKiss =>
    resolveTncPort sc source object "ble" tnc idleTimeout Tnc.ble (fun t ble idle =>
      .bleClient t.id t.model ble (connect.getD .onDemand) idle (exitKiss.getD false))
  | .serial tnc connect idleTimeout exitKiss =>
    resolveTncPort sc source object "serial" tnc idleTimeout Tnc.serial (fun t serial idle =>
      .serial t.id t.model serial (connect.getD .onDemand) idle (exitKiss.getD false))

/-- A port without an id is named after its type and how many ports of that
type come before it. -/
def portId (before : List PortDef) (p : PortDef) : String :=
  p.id.getD (p.typeName ++ toString (before.filter (fun q => q.typeName == p.typeName)).length)

def resolvePort (sc : Scope) (source : Source) (bridgeObject : String) (before : List PortDef)
    (p : PortDef) : Option Port × List Problem :=
  let pid := portId before p
  let object := bridgeObject ++ " port " ++ pid
  let idErrors : List Problem := match checkId pid "port" with
    | .error e => [⟨some source, object, e⟩]
    | .ok _ => []
  let (kind, es) := resolveKind sc source object p.kind
  (kind.map (fun kind => ⟨pid, p.role.getD p.defaultRole, kind⟩), idErrors ++ es)

/-- The ports of a bridge in order, each with the ones before it. -/
def resolvePorts (sc : Scope) (source : Source) (bridgeObject : String) :
    List PortDef → List PortDef → List (Option Port × List Problem)
  | _, [] => []
  | before, p :: rest =>
    resolvePort sc source bridgeObject before p ::
      resolvePorts sc source bridgeObject (before ++ [p]) rest

def resolveBridge (sc : Scope) (source : Source) (d : BridgeDef) : Option Bridge × List Problem :=
  let object := match d.id with
    | some id => "bridge " ++ id
    | none => "bridge " ++ Text.quoted d.name
  let err (msg : String) : Problem := ⟨some source, object, msg⟩
  match d.id with
  | none => (none, [err "a bridge in a config file needs an id (e.g. id = \"ktbr0\")"])
  | some id =>
    let idErrors := match checkId id "bridge" with
      | .error e => [err e]
      | .ok _ => []
    let nameErrors := if (Text.trim d.name).isEmpty then [err "name must not be empty"] else []
    let publicErrors :=
      if d.publicName.any (fun n => (Text.trim n).isEmpty) then
        [err "public_name must not be empty"]
      else []
    let ports := resolvePorts sc source object [] d.ports
    (some {
        id := id
        name := d.name
        publicName := d.publicName.getD d.name
        enabled := d.enabled.getD true
        enabledOverride := none
        appParams := d.appParams.getD .pass
        ports := ports.filterMap Prod.fst
        source := source },
      idErrors ++ nameErrors ++ publicErrors ++ ports.flatMap Prod.snd)

/-- The last file that sets something in its `[global]` or `[control]`
section, with its value. -/
def lastSet (files : List (Source × ConfigFile)) (get : ConfigFile → Option α) :
    Option (Source × α) :=
  (files.filterMap (fun f => (get f.2).map (fun x => (f.1, x)))).getLast?

def okOf : Except ε α → Option α
  | .ok a => some a
  | .error _ => none

def errorOf : Except ε α → Option ε
  | .ok _ => none
  | .error e => some e

/-- Every object of one kind, with the file it is from, in file order. -/
def eachDef (files : List (Source × ConfigFile)) (get : ConfigFile → List α) : List (Source × α) :=
  files.flatMap (fun f => (get f.2).map (fun x => (f.1, x)))

def resolveTncDef (adapters : List Adapter) (globalSel : AdapterSel) (source : Source)
    (d : TncDef) : Tnc × List Problem :=
  let object := "tnc " ++ d.id
  let sel (adapter : Option String) : AdapterSel × List Problem := match adapter with
    | some a => resolveAdapterValue adapters a source object
    | none => (globalSel, [])
  let spp := d.spp.map (fun spp => sel spp.adapter)
  let ble := d.ble.map (fun ble => sel ble.adapter)
  let (tnc, es) := resolveTnc d source (spp.map Prod.fst) (ble.map Prod.fst)
  (tnc, (spp.map Prod.snd).getD [] ++ (ble.map Prod.snd).getD [] ++ es)

/-- Merge the loaded files into the effective config. Every value error is
collected. -/
def resolve (ipNet : IpNetLib) (files : List (Source × ConfigFile)) :
    Except (List Problem) Config :=
  let logLevel := (lastSet files (fun f => f.global.bind GlobalSection.logLevel)).map Prod.snd
  let group := (lastSet files (fun f => f.control.bind ControlSection.group)).map Prod.snd
  let resolved := (eachDef files ConfigFile.adapter).map (fun d => resolveAdapter d.2 d.1)
  let adapters := resolved.filterMap okOf
  let (globalSel, globalErrors) :=
    match lastSet files (fun f => f.global.bind GlobalSection.adapter) with
    | some (source, value) => resolveAdapterValue adapters value source "[global] adapter"
    | none => (.default, [])
  let tncs := (eachDef files ConfigFile.tnc).map (fun d => resolveTncDef adapters globalSel d.1 d.2)
  let sc : Scope := ⟨ipNet, adapters, globalSel, tncs.map Prod.fst⟩
  let bridges := (eachDef files ConfigFile.bridge).map (fun d => resolveBridge sc d.1 d.2)
  let errors := resolved.filterMap errorOf ++ globalErrors ++ tncs.flatMap Prod.snd ++
    bridges.flatMap Prod.snd
  if errors.isEmpty then
    .ok {
      global := ⟨logLevel.getD DEFAULT_LOG_LEVEL, globalSel⟩
      control := ⟨group.getD DEFAULT_CONTROL_GROUP⟩
      adapters := adapters
      tncs := tncs.map Prod.fst
      bridges := bridges.filterMap Prod.fst }
  else .error errors

end KissTncBridge.Conf
