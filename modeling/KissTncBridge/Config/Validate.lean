import KissTncBridge.Config.Values

namespace KissTncBridge.Conf

def MAX_BLE_NAME_BYTES : Nat := 29

structure Report where
  errors : List Problem
  warnings : List Problem
deriving DecidableEq, Repr

/-- What this host has, for the checks that ask. -/
structure Host where
  pathExists : String → Bool
  interfaceExists : String → Bool

def Source.text : Source → String
  | .static p => "static: " ++ p
  | .dynamic => "dynamic"

def describeAdapter : AdapterSel → String
  | .default => "the default adapter"
  | other => "adapter " ++ other.text

/-- udev's stable names survive reboots and re-plugging. -/
def isStableSerialPath (path : String) : Bool :=
  "/dev/serial/by-id/".isPrefixOf path || "/dev/serial/by-path/".isPrefixOf path

/-- What each element of a list gives rise to, in order, knowing the elements
before it, latest first. -/
def walk (f : List α → α → List β) : List α → List α → List β
  | _, [] => []
  | seen, a :: rest => f seen a ++ walk f (a :: seen) rest

/-- The last element before this one with the same key, if it has a key. -/
def seenBefore [DecidableEq κ] (key : α → Option κ) (seen : List α) (a : α) : Option α :=
  match key a with
  | none => none
  | some k => seen.find? (fun s => key s = some k)

def problemAt (source : Source) (object message : String) : Problem :=
  ⟨some source, object, message⟩

def adapterErrors (seen : List Adapter) (a : Adapter) : List Problem :=
  let object := "adapter " ++ a.id
  (match seenBefore (fun x => some x.id) seen a with
    | some first =>
      [problemAt a.source object
        ("duplicate adapter id (also defined in " ++ first.source.text ++ ")")]
    | none => []) ++
  (match seenBefore (fun x => some x.mac) seen a with
    | some first =>
      [problemAt a.source object ("MAC " ++ Text.mac a.mac ++ " is already adapter " ++ first.id ++
        " (" ++ first.source.text ++ ")")]
    | none => [])

def tncErrors (seen : List Tnc) (t : Tnc) : List Problem :=
  let object := "tnc " ++ t.id
  (match seenBefore (fun x => some x.id) seen t with
    | some first =>
      [problemAt t.source object ("duplicate tnc id (also defined in " ++ first.source.text ++ ")")]
    | none => []) ++
  (match t.spp, seenBefore (fun x => x.spp.map (fun s => (s.address, s.adapter))) seen t with
    | some spp, some first =>
      [problemAt t.source object ("Bluetooth address " ++ Text.mac spp.address ++ " on " ++
        describeAdapter spp.adapter ++ " is already tnc " ++ first.id ++ " (" ++
        first.source.text ++ ")")]
    | _, _ => []) ++
  (match t.ble, seenBefore (fun x => x.ble.map (fun s => (s.address, s.adapter))) seen t with
    | some ble, some first =>
      [problemAt t.source object ("BLE address " ++ Text.mac ble.address ++ " on " ++
        describeAdapter ble.adapter ++ " is already tnc " ++ first.id ++ " (" ++
        first.source.text ++ ")")]
    | _, _ => []) ++
  (match t.serial, seenBefore (fun x => x.serial.map SerialDevice.path) seen t with
    | some serial, some first =>
      [problemAt t.source object ("serial path " ++ serial.path ++ " is already tnc " ++ first.id ++
        " (" ++ first.source.text ++ ")")]
    | _, _ => [])

def portErrors (b : Bridge) (seen : List Port) (p : Port) : List Problem :=
  match seenBefore (fun x => some x.id) seen p with
  | some _ =>
    [problemAt b.source ("bridge " ++ b.id ++ " port " ++ p.id)
      "duplicate port id within the bridge"]
  | none => []

def bridgeErrors (seen : List Bridge) (b : Bridge) : List Problem :=
  let object := "bridge " ++ b.id
  (match seenBefore (fun x => some x.id) seen b with
    | some first =>
      [problemAt b.source object
        ("duplicate bridge id (also defined in " ++ first.source.text ++ ")")]
    | none => []) ++
  (match seenBefore (fun x => some x.name) seen b with
    | some first =>
      [problemAt b.source object ("name " ++ Text.quoted b.name ++ " is already used by bridge " ++
        first.id ++ " (" ++ first.source.text ++ ")")]
    | none => []) ++
  walk (portErrors b) [] b.ports ++
  (if b.enabled ∧ b.tncPorts.length ≠ 1 then
    [problemAt b.source object ("an enabled bridge needs exactly one TNC port (spp-client, " ++
      "ble-client, serial, tcp-client, or a port with role = \"tnc\"); this one has " ++
      toString b.tncPorts.length ++ ". Fix its ports, or disable it")]
    else []) ++
  (if b.enabled ∧ b.appPorts.length = 0 then
    [problemAt b.source object ("an enabled bridge needs at least one app port (a ble-server or " ++
      "tcp-server). Add one, or disable it")]
    else [])

/-- Warnings about one port. Checks that ask the host are made only with one. -/
def portWarnings (host : Option Host) (b : Bridge) (p : Port) : List Problem :=
  let object := "bridge " ++ b.id ++ " port " ++ p.id
  let warnIf (c : Bool) (msg : String) : List Problem :=
    if c then [problemAt b.source object msg] else []
  match p.kind with
  | .serial tnc _ serial _ _ _ =>
    if b.enabled then
      warnIf (!isStableSerialPath serial.path)
        ("tnc " ++ tnc ++ " serial path " ++ serial.path ++ " can change between boots or when " ++
          "devices are plugged in; use its /dev/serial/by-id/ or /dev/serial/by-path/ name") ++
      warnIf (host.any (fun h => !h.pathExists serial.path))
        ("tnc " ++ tnc ++ " serial device " ++ serial.path ++
          " isn't present right now; the port will wait for it")
    else []
  | .tcpServer listen _ allow announce =>
    warnIf (listen.isUnspecified && allow.isEmpty)
      ("listen = \"" ++ listen.text ++
        "\" accepts KISS from any host, and anyone who connects can " ++
        "transmit on your radio; add an allow list or bind to an interface or address") ++
    warnIf (announce && listen.isLoopback)
      ("announce = true on a loopback binding: nothing on the LAN could connect to what's " ++
        "announced") ++
    (match listen with
      | .interface name _ =>
        warnIf (b.enabled && host.any (fun h => !h.interfaceExists name))
          ("interface " ++ Text.quoted name ++
            " doesn't exist right now; the port will wait for it")
      | .addr _ => [])
  | _ => []

def isBleServer (p : Port) : Bool :=
  match p.kind with
  | .bleServer .. => true
  | _ => false

def bridgeWarnings (host : Option Host) (b : Bridge) : List Problem :=
  (if b.ports.any isBleServer ∧ MAX_BLE_NAME_BYTES < b.publicName.utf8ByteSize then
    [problemAt b.source ("bridge " ++ b.id) ("public name " ++ Text.quoted b.publicName ++ " is " ++
      toString b.publicName.utf8ByteSize ++ " bytes; BLE advertising may truncate names over " ++
      toString MAX_BLE_NAME_BYTES)]
    else []) ++
  b.ports.flatMap (portWarnings host b)

/-- Two ports of enabled bridges `a` and `b`, in this order. -/
def portConflicts (a b : Bridge) (pa pb : Port) : List Problem :=
  let here (msg : String) : Problem :=
    problemAt b.source ("bridge " ++ b.id ++ " port " ++ pb.id) msg
  let other := "enabled bridge " ++ a.id ++ " port " ++ pa.id
  (match pa.tncId, pb.tncId with
    | some ta, some tb =>
      if ta = tb then
        [here ("tnc " ++ tb ++ " is also used by " ++ other ++
          "; a TNC can be in only one enabled bridge, over whichever transport")]
      else []
    | _, _ => []) ++
  (match pa.kind, pb.kind with
    | .tcpServer la _ _ _, .tcpServer lb _ _ _ =>
      if la.conflictsWith lb then
        [here ("listen = \"" ++ lb.text ++ "\" conflicts with " ++ other ++
          " (\"" ++ la.text ++ "\")")]
      else []
    | .bleServer aa _, .bleServer ab _ =>
      if aa = ab then
        [here ("ble-server on " ++ describeAdapter ab ++ " is also used by " ++ other ++
          "; BlueZ would show both KISS services to every phone (one enabled ble-server per " ++
          "adapter)")]
      else []
    | _, _ => [])

def bridgeConflicts (a b : Bridge) : List Problem :=
  (if a.publicName = b.publicName then
    [problemAt b.source ("bridge " ++ b.id) ("public name " ++ Text.quoted b.publicName ++
      " is also used by enabled bridge " ++ a.id ++ "; apps couldn't tell them apart")]
    else []) ++
  a.ports.flatMap (fun pa => b.ports.flatMap (portConflicts a b pa))

/-- Each bridge against the ones after it. -/
def conflicts : List Bridge → List Problem
  | [] => []
  | a :: rest => rest.flatMap (bridgeConflicts a) ++ conflicts rest

def validate (cfg : Config) (host : Option Host) : Report where
  errors := walk adapterErrors [] cfg.adapters ++ walk tncErrors [] cfg.tncs ++
    walk bridgeErrors [] cfg.bridges ++ conflicts (cfg.bridges.filter (·.enabled))
  warnings := cfg.bridges.flatMap (bridgeWarnings host) ++
    (if !cfg.bridges.isEmpty ∧ (cfg.bridges.filter (·.enabled)).isEmpty then
      [⟨none, "", "no bridge is enabled"⟩] else []) ++
    (if cfg.bridges.isEmpty then [⟨none, "", "no bridges are defined"⟩] else [])

end KissTncBridge.Conf
