import KissTncBridge.Control.Commands
import KissTncBridge.Lib.Runs

namespace KissTncBridge.Ctl
open Conf Control Supervisor Toml

/-- How `ktbctl` was started: with `--yes`, with `--non-disruptive`, on a terminal. -/
structure Options where
  yes : Bool
  nonDisruptive : Bool
  interactive : Bool
deriving DecidableEq, Repr

/-- The text that someone is editing, and the revision it was got under. -/
structure Editing where
  kind : Option Kind
  object : Option String
  got : String
  revision : String

/-- The command that puts a text back. -/
def Editing.put (e : Editing) (text : String) : Command :=
  .configPut e.kind e.object text e.revision

/-- What a command meets when it reaches the daemon. -/
structure Scene where
  env : Env Table
  surroundings : Surroundings
  snapshot : String → Option Bridge.Snapshot

/-- What is asked of the daemon under the consent rule: to change the config, or to read
it again. -/
inductive ConfigRequest where
  | change (c : Command)
  | reload

/-- What comes of a request. There is nothing where a reload finds that the empty text
doesn't parse. -/
def Scene.serve (scene : Scene) (d : Daemon Table) (nonDisruptive : Bool) :
    ConfigRequest → Option (Except ApiError ChangeResult × Daemon Table)
  | .change c => some (command scene.env scene.surroundings d scene.snapshot nonDisruptive c)
  | .reload =>
    (d.reload scene.env scene.snapshot nonDisruptive).map fun r => (reloadAnswer r.1, r.2)

/-- A request that was sent to the daemon: under which options and for which edited text, if
the user had been asked before, and what came of it. -/
structure Sent where
  options : Options
  source : Option Editing
  request : ConfigRequest
  asked : Bool
  scene : Scene
  before : Daemon Table
  result : Except ApiError ChangeResult
  after : Daemon Table

/-- A question that waits for the user: whether to make a change that would disrupt. -/
structure Question where
  options : Options
  source : Option Editing
  request : ConfigRequest

/-- The daemon and the `ktbctl`s that change its config. -/
structure Desk where
  daemon : Daemon Table
  editing : List Editing := []
  questions : List Question := []
  log : List Sent := []

inductive DeskStep where
  | get (scene : Scene) (kind : Option Kind) (object : Option String)
  | put (scene : Scene) (options : Options) (i : Nat) (text : String)
  | change (scene : Scene) (options : Options) (c : Command)
  | reload (scene : Scene) (options : Options)
  | answer (scene : Scene) (i : Nat) (yes : Bool)
  | act (a : Act Table)

namespace Desk

def send (s : Desk) (scene : Scene) (q : Question) (asked nonDisruptive : Bool) :
    Option (Except ApiError ChangeResult × Desk) :=
  (scene.serve s.daemon nonDisruptive q.request).map fun r =>
    (r.1, { s with
      daemon := r.2
      log := s.log ++ [⟨q.options, q.source, q.request, asked, scene, s.daemon, r.1, r.2⟩] })

/-- A command that changes config, under the consent rule: one that would disrupt is sent
again only after the user was asked. -/
def changeValue (s : Desk) (scene : Scene) (q : Question) : Option Desk :=
  (s.send scene q false (!q.options.yes)).map fun (res, s) =>
    match res with
    | .error e =>
      if e.code = .reloadWouldDisrupt ∧ !q.options.nonDisruptive ∧ q.options.interactive then
        { s with questions := s.questions ++ [q] }
      else s
    | .ok _ => s

def step (s : Desk) : DeskStep → Option Desk
  | .get scene kind object =>
    match configGet scene.env s.daemon kind object with
    | .ok (text, revision) =>
      some { s with editing := s.editing ++ [⟨kind, object, text, revision⟩] }
    | .error _ => some s
  | .put scene options i text =>
    (s.editing[i]?).bind fun e => s.changeValue scene ⟨options, some e, .change (e.put text)⟩
  | .change scene options c => s.changeValue scene ⟨options, none, .change c⟩
  | .reload scene options => s.changeValue scene ⟨options, none, .reload⟩
  | .answer scene i yes =>
    (s.questions[i]?).bind fun q =>
      let s := { s with questions := s.questions.eraseIdx i }
      if yes then (s.send scene q true false).map Prod.snd else some s
  | .act a => (s.daemon.act a).map fun d => { s with daemon := d }

end Desk

end KissTncBridge.Ctl
