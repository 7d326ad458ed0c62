import KissTncBridge.Config.Toml
import KissTncBridge.Supervisor.Change

namespace KissTncBridge.Control
open Conf Lib Supervisor Toml

/-- The array-of-tables key: `[[adapter]]`, `[[tnc]]`, `[[bridge]]`. -/
def key : Kind → String
  | .adapter => "adapter"
  | .tnc => "tnc"
  | .bridge => "bridge"

/-- A table's string under a key. -/
def str (t : Table) (k : String) : Option String := (Entries.get k t).bind Item.asStr

def value (s : String) : Item := .value (.string s)

namespace Doc

variable (doc : Table)

/-- The objects of a kind, if they are written as `[[...]]`. -/
def array (kind : Kind) : Option (List Table) :=
  (Entries.get (key kind) doc).bind Item.asArrayOfTables

def indexOf (kind : Kind) (id : String) : Option Nat := do
  (← array doc kind).findIdx? (fun t => str t "id" == some id)

def ids (kind : Kind) : List String := ((array doc kind).getD []).filterMap (fun t => str t "id")

/-- The object with `id`, to read. -/
def table (kind : Kind) (id : String) : Option Table := do
  (← array doc kind)[← indexOf doc kind id]?

/-- Every object of a kind, to search. -/
def tables (kind : Kind) : List Table := (array doc kind).getD []

/-- The object with `id`, changed in place. -/
def modify (kind : Kind) (id : String) (f : Table → Table) : Table :=
  match array doc kind, indexOf doc kind id with
  | some ts, some i => Entries.insert (key kind) (.arrayOfTables (ts.modify i f)) doc
  | _, _ => doc

/-- Replace the object with `id`, in place, or append it. -/
def put (kind : Kind) (id : String) (t : Table) : Table :=
  match indexOf doc kind id with
  | some _ => modify doc kind id (fun _ => t)
  | none =>
    match Entries.get (key kind) doc with
    | none => Entries.insert (key kind) (.arrayOfTables [t]) doc
    | some (.arrayOfTables ts) => Entries.insert (key kind) (.arrayOfTables (ts ++ [t])) doc
    | some _ => doc

/-- Remove the object with `id`, and the array with the last of them. -/
def remove (kind : Kind) (id : String) : Table :=
  match array doc kind, indexOf doc kind id with
  | some ts, some i =>
    let rest := ts.eraseIdx i
    if rest.isEmpty then Entries.remove (key kind) doc
    else Entries.insert (key kind) (.arrayOfTables rest) doc
  | _, _ => doc

/-- One object as a document of its own. -/
def one (kind : Kind) (id : String) : Option Table :=
  (table doc kind id).map (fun t => [(key kind, .arrayOfTables [t])])

end Doc

section
variable (toml : TomlLib Table)

/-- The revision of one object, from its standalone TOML. -/
def objectRevision (doc : Table) (kind : Kind) (id : String) : Option String :=
  (Doc.one doc kind id).map (fun one => revision (toml.docText one))

/-- Parse standalone TOML holding exactly one object of a kind. -/
def parseObject (kind : Kind) (text : String) : Except StoreError Table :=
  match toml.parseDoc text with
  | .error e => .error (.invalid (Text.trimEnd e))
  | .ok doc =>
    let others := (doc.map Prod.fst).filter (fun k => k != key kind)
    if !others.isEmpty then
      .error (.invalid ("expected one [[" ++ key kind ++ "]], also found " ++
        String.intercalate ", " others))
    else match Doc.array doc kind with
      | some [t] => .ok t
      | some ts =>
        .error (.invalid ("expected one [[" ++ key kind ++ "]], found " ++ toString ts.length))
      | none => .error (.invalid ("expected a [[" ++ key kind ++ "]]"))

/-- Replace the whole file's content. -/
def replaceText (text : String) : Except StoreError Table :=
  match toml.parseDoc (stripHeader text) with
  | .error e => .error (.invalid (Text.trimEnd e))
  | .ok doc => .ok doc

end

/-- What the daemon relies on the crates for where it edits documents: a
document holds what its text says, text that is written of one says what it
holds, comments in front mean nothing, and setting `enabled` is an insertion
into the bridge's table. -/
structure Reads (toml : TomlLib Table) : Prop where
  document : ∀ text doc, toml.parseDoc text = .ok doc →
    ∀ file, toml.parseFile text = .ok file ↔ readFile (Table.plain doc) = some file
  written : ∀ doc file, toml.parseFile (toml.docText doc) = .ok file ↔
    readFile (Table.plain doc) = some file
  header : ∀ text file, toml.parseFile (DYNAMIC_HEADER ++ text) = .ok file ↔
    toml.parseFile text = .ok file
  enabled : ∀ doc id on, toml.insertEnabled doc id on =
    (Doc.table doc .bridge id).map (fun _ =>
      Doc.modify doc .bridge id (Entries.insert "enabled" (.value (.boolean on))))

end KissTncBridge.Control
