import KissTncBridge.Config.Build

namespace KissTncBridge.Conf

/-- Comparing file names as the file system's bytes. -/
def fileNameLe (a b : String) : Bool := !decide (b < a)

/-- What there is to read in `conf.d` under one name, and how reading it turns
out. -/
structure DirEntry where
  name : String
  isFile : Bool
  text : Except String String

/-- The static files as they are when they are read. `confD` is `none` where
there is no such directory. -/
structure StaticFiles where
  mainFile : String
  main : Except String String
  confDir : String
  confD : Option (Except String (List DirEntry))
  legacyConfPresent : Bool

/-- The files in the state directory, `none` while there is none. -/
structure Disk where
  dynamic : Option String
  state : Option String
deriving DecidableEq, Repr

def DYNAMIC_FILE_NAME : String := "dynamic.toml"

def STATE_FILE_NAME : String := "state.toml"

def joinPath (dir file : String) : String :=
  if dir.isEmpty || dir.endsWith "/" then dir ++ file else dir ++ "/" ++ file

section
variable {Doc : Type} (toml : TomlLib Doc)

def parseStatic (path : String) (text : Except String String) : Except Problem ConfigFile :=
  match text with
  | .error e => .error ⟨some (.static path), "", "can't read: " ++ e⟩
  | .ok text =>
    match toml.parseFile text with
    | .error msg => .error ⟨some (.static path), "", msg⟩
    | .ok file => .ok file

/-- The names `conf.d` files have: `*.toml`, none hidden. -/
def DirEntry.isConfig (e : DirEntry) : Bool :=
  e.name.endsWith ".toml" && !e.name.startsWith "." && e.isFile

/-- A `conf.d` file holds objects only. -/
def parseConfD (confDir : String) (e : DirEntry) : Except Problem (Source × ConfigFile) :=
  let path := joinPath confDir e.name
  match parseStatic toml path e.text with
  | .error p => .error p
  | .ok file =>
    if file.global.isSome ∨ file.control.isSome then
      .error ⟨some (.static path), "", "[global] and [control] belong in the main file (" ++
        MAIN_FILE_NAME ++ "), not in conf.d"⟩
    else .ok (.static path, file)

/-- The main file, then `conf.d` in name order. The first file that can't be
read or parsed is the error. -/
def load (fs : StaticFiles) : Except Problem (List (Source × ConfigFile)) := do
  let main ← parseStatic toml fs.mainFile fs.main
  let rest ← match fs.confD with
    | none => .ok []
    | some (.error e) => .error (⟨none, fs.confDir, "can't read directory: " ++ e⟩ : Problem)
    | some (.ok entries) =>
      ((entries.filter DirEntry.isConfig).mergeSort (fun a b => fileNameLe a.name b.name)).mapM
        (parseConfD toml fs.confDir)
  .ok ((.static fs.mainFile, main) :: rest)

/-- `dynamic.toml` from the state directory, if there is one. -/
def loadDynamic (dir : String) (disk : Disk) (reads : Except String Unit) :
    Except String (Option DynamicFile) :=
  match reads with
  | .error e => .error e
  | .ok _ => .ok (disk.dynamic.map (fun text => ⟨joinPath dir DYNAMIC_FILE_NAME, text⟩))

/-- `state.toml`, or why it can't be used: the text that says so, and the text
the daemon logs when it opens the file. -/
def loadState (dir : String) (disk : Disk) (reads : Except String Unit) :
    Except (String × String) State :=
  let path := joinPath dir STATE_FILE_NAME
  match reads with
  | .error e =>
    .error ("can't read " ++ path ++ ": " ++ e ++ "; enable overrides not applied",
      "can't read " ++ path ++ ": " ++ e)
  | .ok _ =>
    match disk.state with
    | none => .ok .empty
    | some text =>
      match toml.parseState text with
      | .ok s => .ok s
      | .error e =>
        .error (path ++ " is unreadable, so enable overrides are ignored: " ++ Text.trimEnd e,
          path ++ " is unreadable and will be replaced: " ++ Text.trimEnd e)

/-- Read what the config is built from. A static file that can't be read or
parsed is an error; the other two are left out with a note. -/
def readSources (dir : String) (fs : StaticFiles) (disk : Disk)
    (readDynamic readState : Except String Unit) : Except (List Problem) Sources := do
  let statics ← (load toml fs).mapError (fun p => [p])
  let (dynamic, dynamicNotes) := match loadDynamic dir disk readDynamic with
    | .ok d => (d, [])
    | .error e =>
      (none, [(⟨none, "", "can't read " ++ joinPath dir DYNAMIC_FILE_NAME ++ ": " ++ e ++
        "; checked the static config only"⟩ : Problem)])
  let (state, stateNotes) := match loadState toml dir disk readState with
    | .ok s => (s, [])
    | .error (note, _) => (.empty, [(⟨none, "", note⟩ : Problem)])
  .ok ⟨statics, dynamic, state, fs.legacyConfPresent, dynamicNotes ++ stateNotes⟩

/-- The daemon's own copy of `state.toml`. What can't be read or parsed is
treated as empty and replaced at the next write. -/
def openState (dir : String) (disk : Disk) (reads : Except String Unit) : State × Option String :=
  match loadState toml dir disk reads with
  | .ok s => (s, none)
  | .error (_, problem) => (.empty, some problem)

end
end KissTncBridge.Conf
