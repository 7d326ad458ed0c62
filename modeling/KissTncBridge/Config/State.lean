import Std.Data.TreeMap
import KissTncBridge.Config.Model

namespace KissTncBridge.Conf

structure BridgeState where
  enabled : Option Bool := none
  publicName : Option String := none
  publicNameConfigured : Option String := none
deriving DecidableEq, Repr

def BridgeState.isEmpty (b : BridgeState) : Bool := b == {}

/-- `state.toml`: runtime state that outlives a restart but isn't config. -/
structure State where
  bridges : Std.TreeMap String BridgeState

namespace State

def empty : State := ⟨∅⟩

/-- Equal as maps. -/
def same (a b : State) : Bool := a.bridges.toList == b.bridges.toList

/-- Drop what says nothing. -/
def prune (s : State) : State := ⟨s.bridges.filter (fun _ b => !b.isEmpty)⟩

def entry (s : State) (bridge : String) : BridgeState := (s.bridges[bridge]?).getD {}

/-- The adjusted public name for a bridge, if one was made from the name
configured now. -/
def adjustedPublicName (s : State) (bridge configured : String) : Option String := do
  let b ← s.bridges[bridge]?
  match b.publicName, b.publicNameConfigured with
  | some name, some was => if was = configured then some name else none
  | _, _ => none

def setAdjustedPublicName (s : State) (bridge configured name : String) : State :=
  ⟨s.bridges.insert bridge
    { s.entry bridge with publicName := some name, publicNameConfigured := some configured }⟩

def enabledOverride (s : State) (bridge : String) : Option Bool :=
  (s.bridges[bridge]?).bind BridgeState.enabled

/-- Set or clear (`none`) a static bridge's enable override. -/
def setEnabledOverride (s : State) (bridge : String) (enabled : Option Bool) : State :=
  prune ⟨s.bridges.insert bridge { s.entry bridge with enabled := enabled }⟩

def clearAdjustedPublicName (s : State) (bridge : String) : State :=
  match s.bridges[bridge]? with
  | some b =>
    prune ⟨s.bridges.insert bridge { b with publicName := none, publicNameConfigured := none }⟩
  | none => s.prune

end State

/-- Comments at the top of `state.toml`. -/
@[irreducible]
def STATE_HEADER : String :=
  "# Runtime state for kiss-tnc-bridge. The daemon writes this file; it isn't\n" ++
  "# configuration, and hand edits are overwritten. Configuration lives in\n" ++
  "# /etc/kiss-tnc-bridge/.\n\n"

/-- What the `toml` and `toml_edit` crates do: `Doc` is an editable document
that keeps comments and formatting. `insertEnabled` sets `enabled` in the table
of the bridge with an id, if the document has one. -/
structure TomlLib (Doc : Type) where
  parseFile : String → Except String ConfigFile
  parseState : String → Except String State
  stateText : State → Except String String
  parseDoc : String → Except String Doc
  docText : Doc → String
  insertEnabled : Doc → String → Bool → Option Doc

end KissTncBridge.Conf
