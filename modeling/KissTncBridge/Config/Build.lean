import KissTncBridge.Config.Resolve
import KissTncBridge.Config.Store
import KissTncBridge.Config.Validate

namespace KissTncBridge.Conf

structure DynamicFile where
  path : String
  text : String
deriving DecidableEq, Repr

/-- Everything the effective config is built from, as read from disk. -/
structure Sources where
  statics : List (Source × ConfigFile)
  dynamic : Option DynamicFile
  state : State
  legacyConfPresent : Bool
  notes : List Problem

def MAIN_FILE_NAME : String := "kiss-tnc-bridge.toml"

section
variable {Doc : Type} (toml : TomlLib Doc)

/-- `dynamic.toml` holds adapters, TNCs and bridges, never `[global]` or
`[control]`. -/
def parseDynamic (path text : String) : Except Problem ConfigFile :=
  match toml.parseFile text with
  | .error msg => .error ⟨some .dynamic, "", msg⟩
  | .ok file =>
    if file.global.isSome ∨ file.control.isSome then
      .error ⟨some .dynamic, "", path ++ ": [global] and [control] belong in the main file (" ++
        MAIN_FILE_NAME ++ ")"⟩
    else .ok file

/-- Whether a static bridge has this one's id or name, and which. A bridge
without an id counts as having an empty one. -/
def bridgeClash (statics : List (Source × ConfigFile)) (b : BridgeDef) : Option String :=
  if (statics.flatMap (fun f => f.2.bridge.filterMap BridgeDef.id)).contains (b.id.getD "") then
    some "a static bridge has the same id"
  else if (statics.flatMap (fun f => f.2.bridge.map BridgeDef.name)).contains b.name then
    some ("a static bridge is also named " ++ Text.quoted b.name)
  else none

/-- Dynamic objects whose id, or for bridges whose name, a static object
already uses are left out with a warning: static config wins. -/
def setAsideCollisions (statics : List (Source × ConfigFile)) (dynamic : ConfigFile) :
    ConfigFile × List Problem :=
  let warn (object why : String) : Problem :=
    ⟨some .dynamic, object, why ++ "; the static one wins and this one is ignored"⟩
  let adapterClash (a : AdapterDef) : Bool :=
    (statics.flatMap (fun f => f.2.adapter.map AdapterDef.id)).contains a.id
  let tncClash (t : TncDef) : Bool :=
    (statics.flatMap (fun f => f.2.tnc.map TncDef.id)).contains t.id
  let bridgeObject (b : BridgeDef) : String :=
    "bridge " ++ if (b.id.getD "").isEmpty then b.name else b.id.getD ""
  ({ dynamic with
      adapter := dynamic.adapter.filter (fun a => !adapterClash a)
      tnc := dynamic.tnc.filter (fun t => !tncClash t)
      bridge := dynamic.bridge.filter (fun b => (bridgeClash statics b).isNone) },
    (dynamic.adapter.filter adapterClash).map (fun a =>
      warn ("adapter " ++ a.id) "a static adapter has the same id") ++
    (dynamic.tnc.filter tncClash).map (fun t =>
      warn ("tnc " ++ t.id) "a static tnc has the same id") ++
    dynamic.bridge.filterMap (fun b => (bridgeClash statics b).map (warn (bridgeObject b))))

/-- Enable overrides apply to static bridges; a dynamic bridge's `enabled` is
part of its definition. -/
def applyOverrides (cfg : Config) (st : State) : Config :=
  { cfg with bridges := cfg.bridges.map (fun b =>
      if b.source.isStatic then
        match st.enabledOverride b.id with
        | some enabled => { b with enabledOverride := some enabled, enabled := enabled }
        | none => b
      else b) }

def LEGACY_WARNING : String :=
  "/etc/kiss-tnc-bridge.conf (the 0.5 config) exists and is ignored; " ++
  "1.0 reads /etc/kiss-tnc-bridge/kiss-tnc-bridge.toml instead, see the README"

/-- The files of `sources`, `dynamic.toml` among them without what collides,
and warnings about what does. -/
def gather (sources : Sources) :
    Except (List Problem) (List (Source × ConfigFile) × List Problem) :=
  match sources.dynamic with
  | none => .ok (sources.statics, [])
  | some d =>
    match parseDynamic toml d.path d.text with
    | .error p => .error [p]
    | .ok parsed =>
      let (kept, warnings) := setAsideCollisions sources.statics parsed
      .ok (sources.statics ++ [(.dynamic, kept)], warnings)

/-- Build and validate the effective config. It is returned only when it's
usable; otherwise every error is. -/
def build (ipNet : IpNetLib) (host : Option Host) (sources : Sources) :
    Except (List Problem) (Config × Report) := do
  let (files, setAside) ← gather toml sources
  let cfg ← resolve ipNet files
  let cfg := applyOverrides cfg sources.state
  let report := validate cfg host
  if report.errors.isEmpty then
    .ok (cfg, { report with warnings := report.warnings ++ setAside ++ sources.notes ++
      if sources.legacyConfPresent then [⟨none, "", LEGACY_WARNING⟩] else [] })
  else .error report.errors

end
end KissTncBridge.Conf
