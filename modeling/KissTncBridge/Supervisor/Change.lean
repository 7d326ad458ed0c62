import KissTncBridge.Supervisor.Daemon

namespace KissTncBridge.Supervisor
open Conf Bridge Reconcile

inductive ErrorCode where
  | badRequest
  | unknownCommand
  | unsupportedVersion
  | configInvalid
  | reloadWouldDisrupt
  | notFound
  | staticObjectReadonly
  | conflict
  | inUse
  | revisionConflict
  | changedOnDisk
  | failed
  | busy
  | internal
deriving DecidableEq, Repr

def sourceText : Source → String
  | .static p => "static: " ++ p
  | .dynamic => "dynamic"

/-- A problem on one line: its file if it is a static one, what it is about, and
what is wrong. -/
def problemText (p : Problem) : String :=
  (match p.source with
    | some (.static path) => path ++ ": "
    | _ => "") ++
  (if p.object.isEmpty then "" else p.object ++ ": ") ++ p.message

structure ProblemJson where
  source : Option String
  object : String
  message : String
deriving DecidableEq, Repr

def problems (ps : List Problem) : List ProblemJson :=
  ps.map (fun p => ⟨p.source.map sourceText, p.object, p.message⟩)

structure PlanResult where
  applied : Bool
  plan : Plan
  disruptions : List String
  disruptive : Bool
  warnings : List ProblemJson
deriving DecidableEq, Repr

def PlanResult.new (plan : Plan) (applied : Bool) (warnings : List Problem) : PlanResult :=
  ⟨applied, plan, plan.disruptions, !plan.disruptions.isEmpty, problems warnings⟩

inductive ErrorData where
  | problems (ps : List ProblemJson)
  | plan (result : PlanResult)
deriving DecidableEq, Repr

structure ApiError where
  code : ErrorCode
  message : String
  object : Option String := none
  data : Option ErrorData := none
deriving DecidableEq, Repr

structure ChangeResult where
  id : Option String
  plan : PlanResult
deriving DecidableEq, Repr

structure ReloadReport where
  plan : Plan
  warnings : List Problem
deriving DecidableEq, Repr

inductive ReloadError where
  | invalid (ps : List Problem)
  | wouldDisrupt (plan : Plan)
deriving DecidableEq, Repr

/-- Why a daemon doesn't start. -/
inductive StartError where
  | invalid (ps : List Problem)
  | bluez (why : String)
deriving DecidableEq, Repr

/-- The three kinds of object config files define. -/
inductive Kind where
  | adapter
  | tnc
  | bridge
deriving DecidableEq, Repr

/-- What the edits check against besides `dynamic.toml`: the static files as
last read, and the config in effect. -/
structure World where
  statics : List (Source × ConfigFile)
  cfg : Config

/-- The file a static object is defined in. -/
def World.staticSource (w : World) (kind : Kind) (id : String) : Option Source :=
  (w.statics.find? (fun f => match kind with
    | .adapter => f.2.adapter.any (fun a => a.id == id)
    | .tnc => f.2.tnc.any (fun t => t.id == id)
    | .bridge => f.2.bridge.any (fun b => b.id == some id))).map Prod.fst

/-- Enable overrides to set or clear (`none`), in order. -/
abbrev Overrides := List (String × Option Bool)

def Overrides.applyTo (os : Overrides) (s : State) : State :=
  os.foldl (fun s o => s.setEnabledOverride o.1 o.2) s

/-- What an edit leaves: the document, the overrides, and the id of anything it
created. -/
structure Edited (Doc : Type) where
  id : Option String
  doc : Doc
  overrides : Overrides

/-- An edit of a copy of `dynamic.toml` and of the overrides. It sees the whole
store but changes its document only. -/
abbrev Edit (Doc : Type) := DynamicStore Doc → World → Except ApiError (Edited Doc)

section
variable {Doc : Type} (toml : TomlLib Doc)

def notFound (what id : String) : ApiError :=
  { code := .notFound
    message := "there's no " ++ what ++ " " ++ Text.quoted id
    object := some (what ++ " " ++ id) }

/-- Enable or disable a bridge: by an override if it is static, in its
definition if it is dynamic. -/
def setEnabled (w : World) (id : String) (enabled : Option Bool) (e : Edited Doc) :
    Except ApiError (Edited Doc) :=
  if (w.staticSource .bridge id).isSome then
    .ok { e with overrides := e.overrides ++ [(id, enabled)] }
  else match enabled with
    | none => .error
      { code := .badRequest
        message := "bridge " ++ id ++ " is dynamic: it has no override to reset" }
    | some on =>
      match toml.insertEnabled e.doc id on with
      | none => .error (notFound "bridge" id)
      | some doc => .ok { e with doc := doc }

/-- The enabled bridges that couldn't run alongside `id`. -/
def conflicting (cfg : Config) (id : String) : List String :=
  ((cfg.bridges.filter (fun b => b.enabled && b.id != id)).filter (fun b =>
    let pair := { cfg with
      bridges := cfg.bridges.map (fun x => { x with enabled := x.id == id || x.id == b.id }) }
    !(validate pair none).errors.isEmpty)).map Conf.Bridge.id

/-- `bridge.enable`, `bridge.disable` and dropping an override. -/
def bridgeEnable (id : String) (enabled : Option Bool) : Edit Doc := fun store w =>
  setEnabled toml w id enabled ⟨none, store.doc, []⟩

/-- `bridge.switch`: enable a bridge and disable what is in its way. -/
def bridgeSwitch (inTheWay : List String) (id : String) : Edit Doc := fun store w => do
  let e ← inTheWay.foldlM (fun e other => setEnabled toml w other (some false) e)
    ⟨none, store.doc, []⟩
  setEnabled toml w id (some true) e

end

def storeError (e : StoreError) : ApiError :=
  match e with
  | .changedOnDisk _ => { code := .changedOnDisk, message := e.message }
  | .invalid m => { code := .badRequest, message := m }
  | .io m => { code := .internal, message := m }

def invalidError (ps : List Problem) : ApiError :=
  { code := .configInvalid
    message := "the change would leave the config invalid: " ++
      String.intercalate "; " (ps.map problemText)
    data := some (.problems (problems ps)) }

def disruptError (plan : Plan) : ApiError :=
  { code := .reloadWouldDisrupt
    message := "nothing was changed: this would " ++ plan.describeDisruptions ++
      "; send it again without non_disruptive to go ahead"
    data := some (.plan (PlanResult.new plan false [])) }

variable {Doc : Type}

def Env.dynamicPath (env : Env Doc) : String := joinPath env.stateDir DYNAMIC_FILE_NAME

def Env.statePath (env : Env Doc) : String := joinPath env.stateDir STATE_FILE_NAME

namespace Daemon

/-- A bridge's id from its id or its name. -/
def bridgeId (d : Daemon Doc) (idOrName : String) : Except ApiError String :=
  match (d.cfg.bridges.find? (fun b => b.id == idOrName)).or
      (d.cfg.bridges.find? (fun b => b.name == idOrName)) with
  | some b => .ok b.id
  | none => .error
    { code := .notFound, message := "there's no bridge " ++ Text.quoted idOrName }

def editedStore (d : Daemon Doc) (e : Edited Doc) : DynamicStore Doc :=
  { d.store with doc := e.doc }

/-- What the config would be built from with an edit made. Static files are as
last read. -/
def editedSources (env : Env Doc) (d : Daemon Doc) (e : Edited Doc) : Sources :=
  let store := d.editedStore e
  let text := store.text env.toml
  { d.sources with
    dynamic :=
      if !(Text.trim text).isEmpty || d.sources.dynamic.isSome then some ⟨store.path, text⟩
      else none
    state := e.overrides.applyTo d.sources.state }

/-- A change that was checked and may go ahead. -/
structure Checked (Doc : Type) where
  edited : Edited Doc
  cfg : Config
  report : Report
  plan : Plan

/-- Edit, build, check, work out the plan and honour `non_disruptive`. -/
def checkChange (env : Env Doc) (d : Daemon Doc) (snapshot : String → Option Snapshot)
    (nonDisruptive : Bool) (edit : Edit Doc) : Except ApiError (Checked Doc) := do
  let e ← edit d.store ⟨d.sources.statics, d.cfg⟩
  let (cfg, report) ← (build env.toml env.net (some env.host) (d.editedSources env e)).mapError
    invalidError
  let plan := d.planFor env snapshot cfg
  if nonDisruptive && plan.disruptive then .error (disruptError plan)
  else .ok ⟨e, cfg, report, plan⟩

/-- Write `dynamic.toml`, if its text is not what it was. -/
def saveStore (env : Env Doc) (d : Daemon Doc) (store : DynamicStore Doc) :
    Except ApiError (DynamicStore Doc × Daemon Doc) :=
  if store.text env.toml = d.store.text env.toml then .ok (store, d)
  else match store.save env.toml d.disk.dynamic env.readDynamic env.writeDynamic with
    | .error e => .error (storeError e)
    | .ok (store, text) => .ok (store, { d with disk := { d.disk with dynamic := text } })

/-- Write the overrides to `state.toml`, if there are any. -/
def saveOverrides (env : Env Doc) (d : Daemon Doc) (os : Overrides) :
    Except ApiError Unit × Daemon Doc :=
  if os.isEmpty then (.ok (), d)
  else match d.updateState env os.applyTo with
    | (.ok _, d) => (.ok (), d)
    | (.error e, d) =>
      (.error { code := .internal, message := "can't write " ++ env.statePath ++ ": " ++ e }, d)

/-- The one way config changes through the API: check the change, then save and
apply it. -/
def change (env : Env Doc) (d : Daemon Doc) (snapshot : String → Option Snapshot)
    (nonDisruptive : Bool) (edit : Edit Doc) : Except ApiError ChangeResult × Daemon Doc :=
  match d.checkChange env snapshot nonDisruptive edit with
  | .error e => (.error e, d)
  | .ok c =>
    match d.saveStore env (d.editedStore c.edited) with
    | .error e => (.error e, d)
    | .ok (store, saved) =>
      match saved.saveOverrides env c.edited.overrides with
      | (.error e, half) => (.error e, half)
      | (.ok _, saved) =>
        (.ok ⟨c.edited.id, PlanResult.new c.plan true c.report.warnings⟩,
          { saved.apply env c.plan c.cfg with
            sources := d.editedSources env c.edited, store := store, bluezErrors := [] })

/-- The store over the text the config in effect was built from, or an empty one
should that text not parse. There is none where the empty text doesn't. -/
def storeFromSources (env : Env Doc) (sources : Sources) : Option (DynamicStore Doc) :=
  match DynamicStore.fromText env.toml env.dynamicPath (sources.dynamic.map DynamicFile.text) with
  | .ok store => some store
  | .error _ => okOf (DynamicStore.fromText env.toml env.dynamicPath none)

/-- The daemon's sources, read again from disk. -/
def readAgain (env : Env Doc) (disk : Disk) : Except (List Problem) Sources :=
  readSources env.toml env.stateDir env.statics disk env.readDynamic env.readState

/-- Re-read the config from disk and apply it. -/
def reload (env : Env Doc) (d : Daemon Doc) (snapshot : String → Option Snapshot)
    (nonDisruptive : Bool) : Option (Except ReloadError ReloadReport × Daemon Doc) :=
  match readAgain env d.disk with
  | .error ps => some (.error (.invalid ps), d)
  | .ok sources =>
    match build env.toml env.net (some env.host) sources with
    | .error ps => some (.error (.invalid ps), d)
    | .ok (cfg, report) =>
      let plan := d.planFor env snapshot cfg
      if nonDisruptive && plan.disruptive then some (.error (.wouldDisrupt plan), d)
      else do
        let store ← storeFromSources env sources
        some (.ok ⟨plan, report.warnings⟩,
          { d.apply env plan cfg with sources := sources, store := store, bluezErrors := [] })

/-- A daemon with nothing running, about to start from `cfg`. -/
def unstarted (env : Env Doc) (disk : Disk) (sources : Sources) (cfg : Config)
    (store : DynamicStore Doc) : Daemon Doc where
  cfg := { cfg with adapters := [], tncs := [], bridges := [] }
  sources := sources
  store := store
  bridges := ∅
  state := (openState env.toml env.stateDir disk env.readState).1
  disk := disk
  announcer := false
  bluezErrors := []
  log := []

/-- Start the daemon from what is on disk. A daemon that can't reach BlueZ at startup
exits; after startup, a reload or a change that can't carries on. -/
def start (env : Env Doc) (disk : Disk) : Option (Except StartError (Daemon Doc)) :=
  match readAgain env disk with
  | .error ps => some (.error (.invalid ps))
  | .ok sources =>
    match build env.toml env.net (some env.host) sources with
    | .error ps => some (.error (.invalid ps))
    | .ok (cfg, _) => do
      let store ← storeFromSources env sources
      let d := unstarted env disk sources cfg store
      let d := d.apply env (d.planFor env (fun _ => none) cfg) cfg
      match d.bluezErrors with
      | e :: _ => some (.error (.bluez e))
      | [] => some (.ok d)

/-- The announcer, after a collision: move a bridge to its next name, remember it
and tell its BLE ports. -/
def adjustName (env : Env Doc) (d : Daemon Doc) (id configured next : String) : Daemon Doc :=
  let d := (d.updateState env (fun s => s.setAdjustedPublicName id configured next)).2
  d.modifyBridge id (fun rb => { rb with name := next })

/-- Drop a collision adjustment and use the configured public name again. -/
def retryPublicName (env : Env Doc) (d : Daemon Doc) (id : String) : Daemon Doc :=
  let d := (d.updateState env (fun s => s.clearAdjustedPublicName id)).2
  match d.cfg.bridges.find? (fun b => b.id == id) with
  | none => d
  | some b =>
    let d := d.modifyBridge id (fun rb => { rb with name := b.publicName })
    if announces b then d.announceBridge env b else d

end Daemon

/-- What happens to a running daemon: control commands that change its config,
reloads, and changes of the public names, each with the surroundings it meets. -/
inductive Act (Doc : Type) where
  | change (env : Env Doc) (snapshot : String → Option Snapshot) (nonDisruptive : Bool)
      (edit : Edit Doc)
  | reload (env : Env Doc) (snapshot : String → Option Snapshot) (nonDisruptive : Bool)
  | adjustName (env : Env Doc) (bridge configured next : String)
  | retryPublicName (env : Env Doc) (bridge : String)

def Daemon.act (d : Daemon Doc) : Act Doc → Option (Daemon Doc)
  | .change env snapshot nonDisruptive edit => some (d.change env snapshot nonDisruptive edit).2
  | .reload env snapshot nonDisruptive => (d.reload env snapshot nonDisruptive).map Prod.snd
  | .adjustName env bridge configured next => some (d.adjustName env bridge configured next)
  | .retryPublicName env bridge => some (d.retryPublicName env bridge)

end KissTncBridge.Supervisor
