import KissTncBridge.Control.Edit

namespace KissTncBridge.Control
open Conf Lib Supervisor Toml

/-- The commands that change the config, as a client sends them. -/
inductive Command where
  | configPut (kind : Option Kind) (object : Option String) (toml revision : String)
  | bridgeCreate (defn : Json)
  | bridgeUpdate (bridge : String) (defn : Json)
  | bridgeDelete (bridge : String)
  | bridgeClone (bridge : String) (newId : Option String) (name : String)
  | bridgeEnable (bridge : String) (reset : Bool)
  | bridgeDisable (bridge : String)
  | bridgeSwitch (bridge : String)
  | portAdd (bridge : String) (defn : Json)
  | portUpdate (bridge port : String) (defn : Json)
  | portRemove (bridge port : String)
  | tncCreate (defn : Json)
  | tncUpdate (tnc : String) (defn : Json)
  | tncDelete (tnc : String)
  | adapterCreate (defn : Json)
  | adapterUpdate (adapter : String) (defn : Json)
  | adapterDelete (adapter : String)

section
variable (toml : TomlLib Table)

def conflict : ApiError :=
  { code := .revisionConflict
    message := "it changed since you got it; get it again and redo the edit" }

/-- One object of `dynamic.toml`: revision `""` means it doesn't exist yet, and
empty TOML deletes it. -/
def putObject (doc : Table) (w : World) (kind : Kind) (id text revision : String) :
    Except ApiError (Option String × Table) :=
  match w.staticSource kind id with
  | some src => .error
    { code := .staticObjectReadonly
      message := key kind ++ " " ++ id ++ " is static config (" ++ sourceText src ++ ")"
      object := some (sourceText src) }
  | none =>
    if (objectRevision toml doc kind id).getD "" ≠ revision then .error conflict
    else if (Text.trim text).isEmpty then .ok (none, Doc.remove doc kind id)
    else match parseObject toml kind text with
      | .error e => .error (storeError e)
      | .ok t =>
        match (str t "id").filter (fun x => x != id) with
        | some other =>
          .error (bad ("the TOML is for " ++ key kind ++ " " ++ other ++ ", not " ++ id))
        | none => .ok (some id, Doc.put doc kind id (Entries.insert "id" (value id) t))

/-- `config.put`: replace all of `dynamic.toml`, or one object, if the revision
is still current. -/
def configPut (store : DynamicStore Table) (w : World) (kind : Option Kind) (id : Option String)
    (text revision : String) : Except ApiError (Option String × Table) :=
  match kind, id with
  | none, none =>
    if Conf.revision (store.text toml) ≠ revision then .error conflict
    else match replaceText toml text with
      | .error e => .error (storeError e)
      | .ok doc => .ok (none, doc)
  | some kind, some id => putObject toml store.doc w kind id text revision
  | _, _ => .error
    (bad "give both kind and object for one object, or neither for all of dynamic.toml")

end

/-- An edit of the document alone. -/
def ofDoc (f : DynamicStore Table → World → Except ApiError (Option String × Table)) :
    Supervisor.Edit Table :=
  fun store w => (f store w).map (fun r => ⟨r.1, r.2, []⟩)

/-- A TNC's id from its id or its name. -/
def tncId (cfg : Config) (idOrName : String) : Except ApiError String :=
  match (cfg.tncs.find? (fun t => t.id == idOrName)).or
      (cfg.tncs.find? (fun t => t.name == idOrName)) with
  | some t => .ok t.id
  | none => .error { code := .notFound, message := "there's no tnc " ++ Text.quoted idOrName }

def okOr (x : Except ε α) (a : α) : α :=
  match x with
  | .ok b => b
  | .error _ => a

/-- The id of an object from what a client calls it. -/
def objectId (d : Daemon Table) (kind : Kind) (object : String) : Except ApiError String :=
  match kind with
  | .bridge => d.bridgeId object
  | .tnc => tncId d.cfg object
  | .adapter => .ok object

/-- `config.get`: all of `dynamic.toml`, or one object, with its revision. -/
def configGet (env : Env Table) (d : Daemon Table) (kind : Option Kind) (object : Option String) :
    Except ApiError (String × String) :=
  match kind, object with
  | none, none => .ok (d.store.text env.toml, Conf.revision (d.store.text env.toml))
  | some kind, some object =>
    match objectId d kind object with
    | .error e => .error e
    | .ok id =>
      match World.staticSource ⟨d.sources.statics, d.cfg⟩ kind id with
      | some src => .error
        { code := .staticObjectReadonly
          message := key kind ++ " " ++ id ++ " is static config; see " ++ sourceText src
          object := some (sourceText src) }
      | none =>
        match (Doc.one d.store.doc kind id).map env.toml.docText with
        | none =>
          .error { code := .notFound, message := "there's no " ++ key kind ++ " " ++ Text.quoted id }
        | some text => .ok (text, Conf.revision text)
  | _, _ => .error
    (bad "give both kind and object for one object, or neither for all of dynamic.toml")

/-- What the edits meet besides the daemon: static files as they are now, and
what serde says about a bad port. -/
structure Surroundings where
  reads : String → Except String String
  complaint : Json → String

/-- The edit a command makes, with names resolved to ids. -/
def Command.edit (env : Env Table) (s : Surroundings) (d : Daemon Table) :
    Command → Except ApiError (Supervisor.Edit Table)
  | .configPut kind object text revision =>
    let object := match kind, object with
      | some .bridge, some o => some (okOr (d.bridgeId o) o)
      | some .tnc, some o => some (okOr (tncId d.cfg o) o)
      | _, o => o
    .ok (ofDoc (fun store w => Control.configPut env.toml store w kind object text revision))
  | .bridgeCreate defn =>
    .ok (ofDoc (fun store w => (createBridge store.doc w defn).map (fun r => (some r.1, r.2))))
  | .bridgeUpdate bridge defn => do
    let id ← d.bridgeId bridge
    .ok (ofDoc (fun store w => (updateBridge store.doc w id defn).map (fun doc => (none, doc))))
  | .bridgeDelete bridge => do
    let id ← d.bridgeId bridge
    .ok (ofDoc (fun store w => (deleteBridge store.doc w id).map (fun doc => (none, doc))))
  | .bridgeClone bridge newId name => do
    let id ← d.bridgeId bridge
    .ok (ofDoc (fun store w =>
      (cloneBridge env.toml s.reads store.doc w id newId name).map (fun r => (some r.1, r.2))))
  | .bridgeEnable bridge reset => do
    let id ← d.bridgeId bridge
    .ok (Supervisor.bridgeEnable env.toml id (if reset then none else some true))
  | .bridgeDisable bridge => do
    let id ← d.bridgeId bridge
    .ok (Supervisor.bridgeEnable env.toml id (some false))
  | .bridgeSwitch bridge => do
    let id ← d.bridgeId bridge
    .ok (Supervisor.bridgeSwitch env.toml (conflicting d.cfg id) id)
  | .portAdd bridge defn => do
    let id ← d.bridgeId bridge
    .ok (ofDoc (fun store w => addPort s.complaint store.doc w id defn))
  | .portUpdate bridge port defn => do
    let id ← d.bridgeId bridge
    .ok (ofDoc (fun store w =>
      (updatePort s.complaint store.doc w id port defn).map (fun doc => (none, doc))))
  | .portRemove bridge port => do
    let id ← d.bridgeId bridge
    .ok (ofDoc (fun store w => (removePort store.doc w id port).map (fun doc => (none, doc))))
  | .tncCreate defn =>
    .ok (ofDoc (fun store w => (createObject store.doc w .tnc defn).map (fun r => (some r.1, r.2))))
  | .tncUpdate tnc defn => do
    let id ← tncId d.cfg tnc
    .ok (ofDoc (fun store w =>
      (updateObject store.doc w .tnc id defn).map (fun r => (some r.1, r.2))))
  | .tncDelete tnc => do
    let id ← tncId d.cfg tnc
    .ok (ofDoc (fun store w => (deleteObject store.doc w .tnc id).map (fun doc => (none, doc))))
  | .adapterCreate defn =>
    .ok (ofDoc (fun store w =>
      (createObject store.doc w .adapter defn).map (fun r => (some r.1, r.2))))
  | .adapterUpdate adapter defn =>
    .ok (ofDoc (fun store w =>
      (updateObject store.doc w .adapter adapter defn).map (fun r => (some r.1, r.2))))
  | .adapterDelete adapter =>
    .ok (ofDoc (fun store w =>
      (deleteObject store.doc w .adapter adapter).map (fun doc => (none, doc))))

/-- A command from the control API that changes the config. -/
def command (env : Env Table) (s : Surroundings) (d : Daemon Table)
    (snapshot : String → Option Bridge.Snapshot) (nonDisruptive : Bool) (c : Command) :
    Except ApiError ChangeResult × Daemon Table :=
  match c.edit env s d with
  | .error e => (.error e, d)
  | .ok edit => d.change env snapshot nonDisruptive edit

/-- What the control API answers to a reload. -/
def reloadAnswer : Except ReloadError ReloadReport → Except ApiError ChangeResult
  | .ok r => .ok ⟨none, PlanResult.new r.plan true r.warnings⟩
  | .error (.invalid ps) => .error
    { code := .configInvalid
      message := "the config has " ++ toString ps.length ++
        " error(s); nothing was applied (kiss-tnc-bridge -t shows them)"
      data := some (.problems (problems ps)) }
  | .error (.wouldDisrupt plan) => .error
    { code := .reloadWouldDisrupt
      message := "nothing was reloaded: the reload would " ++ plan.describeDisruptions ++
        "; reload without non_disruptive to go ahead"
      data := some (.plan (PlanResult.new plan false [])) }

end KissTncBridge.Control
