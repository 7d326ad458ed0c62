import KissTncBridge.Control.Commands

namespace KissTncBridge.Supervisor
open Conf Bridge Reconcile

/-- What `config.check` answers. -/
structure CheckResult where
  valid : Bool
  errors : List ProblemJson := []
  warnings : List ProblemJson := []
  plan : Option Plan := none
  disruptive : Bool := false
  disruptions : List String := []

def CheckResult.invalid (errors : List Problem) : CheckResult :=
  { valid := false, errors := problems errors }

variable {Doc : Type}

/-- The sources with a text in place of that of `dynamic.toml`, if there is one. -/
def standIn (env : Env Doc) (sources : Sources) (dynamic : Option String) : Sources :=
  match dynamic with
  | some text => { sources with dynamic := some ⟨env.dynamicPath, text⟩ }
  | none => sources

/-- `config.check`: validate the config on disk, or with `dynamic` in place of
`dynamic.toml`, and work out what a reload would do. -/
def Daemon.check (env : Env Doc) (d : Daemon Doc) (snapshot : String → Option Snapshot)
    (dynamic : Option String) : CheckResult :=
  match readAgain env d.disk with
  | .error errors => .invalid errors
  | .ok sources =>
    match build env.toml env.net (some env.host) (standIn env sources dynamic) with
    | .error errors => .invalid errors
    | .ok (cfg, report) =>
      let plan := d.planFor env snapshot cfg
      { valid := true
        warnings := problems report.warnings
        plan := some plan
        disruptive := !plan.disruptions.isEmpty
        disruptions := plan.disruptions }

/-- `config.put` of all of `dynamic.toml`, for any kind of document. -/
def putText (toml : TomlLib Doc) (text rev : String) : Edit Doc := fun store _ =>
  if revision (store.text toml) ≠ rev then .error Control.conflict
  else match toml.parseDoc (stripHeader text) with
    | .error e => .error (storeError (.invalid (Text.trimEnd e)))
    | .ok doc => .ok ⟨none, doc, []⟩

end KissTncBridge.Supervisor
