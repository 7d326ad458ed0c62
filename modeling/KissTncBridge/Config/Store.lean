import KissTncBridge.Config.State

namespace KissTncBridge.Conf

/-- Comments at the top of `dynamic.toml`. They belong to the file, not to the
first object in it. -/
@[irreducible]
def DYNAMIC_HEADER : String :=
  "# Dynamic config for kiss-tnc-bridge: adapters, TNCs and bridges created\n" ++
  "# with ktbctl. The daemon writes this file. To change it by hand, use\n" ++
  "# `ktbctl edit`, which checks the result before the daemon uses it.\n\n"

/-- A stable 64-bit hash (FNV-1a) of some text, as 16 hex digits. -/
def revision (text : String) : String :=
  let h := text.toUTF8.data.toList.foldl (fun (h : UInt64) b =>
    (h ^^^ b.toUInt64) * 0x0100000001b3) 0xcbf29ce484222325
  let digits := Nat.toDigits 16 h.toNat
  String.ofList (List.replicate (16 - digits.length) '0' ++ digits)

inductive StoreError where
  | changedOnDisk (path : String)
  | invalid (msg : String)
  | io (msg : String)
deriving DecidableEq, Repr

def StoreError.message : StoreError → String
  | changedOnDisk path =>
    path ++ " changed on disk since the daemon read it; run 'ktbctl reload' to use the edit"
  | invalid msg | io msg => msg

/-- The text behind the header, if the text starts with it. -/
def stripHeader (text : String) : String :=
  if DYNAMIC_HEADER.toList.isPrefixOf text.toList then
    String.ofList (text.toList.drop DYNAMIC_HEADER.toList.length)
  else text

/-- `onDisk` is the revision of the file as last read or written, `none` if
there was no file. -/
structure DynamicStore (Doc : Type) where
  path : String
  doc : Doc
  onDisk : Option String

namespace DynamicStore

variable {Doc : Type} (toml : TomlLib Doc)

/-- A store over text already read (`none`: no file). -/
def fromText (path : String) (text : Option String) : Except StoreError (DynamicStore Doc) :=
  match toml.parseDoc (stripHeader (text.getD "")) with
  | .error e => .error (.invalid (path ++ ": " ++ e))
  | .ok doc => .ok ⟨path, doc, text.map revision⟩

/-- The whole file as it would be written. -/
def text (s : DynamicStore Doc) : String :=
  let body := toml.docText s.doc
  if (Text.trim body).isEmpty then body else DYNAMIC_HEADER ++ body

/-- Whether the file on disk is still what the store last read or wrote.
`reads` is how reading it turns out; that there is no file is no error. -/
def unchangedOnDisk (s : DynamicStore Doc) (disk : Option String) (reads : Except String Unit) :
    Except StoreError Bool :=
  match reads with
  | .error e => .error (.io e)
  | .ok _ => .ok (disk.map revision == s.onDisk)

/-- Write the store to disk, unless the file was edited by hand since the store
last read or wrote it. `writes` is how writing the file turns out. -/
def save (s : DynamicStore Doc) (disk : Option String) (reads writes : Except String Unit) :
    Except StoreError (DynamicStore Doc × Option String) := do
  if !(← s.unchangedOnDisk disk reads) then .error (.changedOnDisk s.path)
  else match writes with
    | .error e => .error (.io e)
    | .ok _ =>
      let text := s.text toml
      .ok ({ s with onDisk := some (revision text) }, some text)

end DynamicStore

/-- What the daemon relies on the crates for: comments in front of a document
mean nothing, `toml_edit` reads what `toml` does and keeps it, and what is
written of a state reads back as that state. -/
structure TomlLib.Lawful {Doc : Type} (toml : TomlLib Doc) : Prop where
  empty : toml.parseFile "" = .ok {}
  behindHeader : ∀ text file, toml.parseFile (DYNAMIC_HEADER ++ text) = .ok file →
    toml.parseFile text = .ok file
  withHeader : ∀ doc file, toml.parseFile (toml.docText doc) = .ok file →
    toml.parseFile (DYNAMIC_HEADER ++ toml.docText doc) = .ok file
  document : ∀ text file, toml.parseFile text = .ok file →
    ∃ doc, toml.parseDoc text = .ok doc ∧ toml.parseFile (toml.docText doc) = .ok file
  blank : ∀ doc, (Text.trim (toml.docText doc)).isEmpty → toml.parseFile (toml.docText doc) = .ok {}
  state : ∀ s, ∃ body s', toml.stateText s = .ok body ∧
    toml.parseState (STATE_HEADER ++ body) = .ok s' ∧ s'.same s = true

end KissTncBridge.Conf
