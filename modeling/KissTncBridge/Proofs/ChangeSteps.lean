import KissTncBridge.Proofs.BluezErrors
import KissTncBridge.Supervisor.Change
import Mathlib.Data.Countable.Basic
import Mathlib.Data.List.TakeWhile
import Mathlib.Logic.Equiv.List

namespace KissTncBridge.Proofs.ChangeSteps
open Conf Bridge Reconcile Supervisor Daemon StateFile BluezErrors

/-- Either there is nothing to override, or this is one update of the state. -/
theorem saveOverrides_cases (env : Env Doc) (d : Daemon Doc) (os : Overrides) :
    os = [] ∧ d.saveOverrides env os = (.ok (), d) ∨
    (∃ d', d.updateState env os.applyTo = (.ok (), d') ∧ d.saveOverrides env os = (.ok (), d')) ∨
    Unwritable env d (os.applyTo d.state) ∧ (∃ err, d.saveOverrides env os = (.error err, d)) := by
  unfold saveOverrides
  cases os with
  | nil => exact .inl ⟨rfl, rfl⟩
  | cons o os =>
    simp only [List.isEmpty_cons, Bool.false_eq_true, if_false]
    rcases updateState_cases env d (Overrides.applyTo (o :: os)) with
      ⟨_, h⟩ | ⟨hu, e, h⟩ | ⟨body, _, h⟩
    · exact .inr (.inl ⟨_, h, by rw [h]⟩)
    · exact .inr (.inr ⟨hu, by rw [h]; exact ⟨_, rfl⟩⟩)
    · exact .inr (.inl ⟨_, h, by rw [h]⟩)

theorem saveOverrides_unwritable {env : Env Doc} {d : Daemon Doc} {os : Overrides}
    (h : Unwritable env d (os.applyTo d.state)) :
    ∃ err, d.saveOverrides env os = (.error err, d) := by
  obtain ⟨e, he⟩ := updateState_unwritable h
  cases os with
  | nil =>
    have hc := h.changed
    simp [Overrides.applyTo, same_refl] at hc
  | cons o os =>
    unfold saveOverrides
    rw [he]
    exact ⟨_, rfl⟩

def rewritten (d : Daemon Doc) (text : String) : Daemon Doc :=
  { d with disk := { d.disk with dynamic := some text } }

structure Saves (env : Env Doc) (d : Daemon Doc) (store : DynamicStore Doc) : Prop where
  rewrites : store.text env.toml ≠ d.store.text env.toml
  readable : env.readDynamic = .ok ()
  unedited : d.disk.dynamic.map revision = store.onDisk
  written : env.writeDynamic = .ok ()

theorem saveStore_cases {env : Env Doc} {d d' : Daemon Doc} {store store' : DynamicStore Doc}
    (h : d.saveStore env store = .ok (store', d')) :
    store.text env.toml = d.store.text env.toml ∧ store' = store ∧ d' = d ∨
    Saves env d store ∧ store'.doc = store.doc ∧ d' = rewritten d (store.text env.toml) := by
  unfold saveStore DynamicStore.save DynamicStore.unchangedOnDisk at h
  by_cases ht : store.text env.toml = d.store.text env.toml
  · rw [if_pos ht] at h
    obtain ⟨rfl, rfl⟩ := Prod.mk.inj (Except.ok.inj h)
    exact .inl ⟨ht, rfl, rfl⟩
  · rw [if_neg ht] at h
    cases hr : env.readDynamic with
    | error e => simp [hr, bind, Except.bind] at h
    | ok _ =>
      by_cases hu : d.disk.dynamic.map revision = store.onDisk
      · cases hw : env.writeDynamic with
        | error e => simp [hr, hu, hw, bind, Except.bind] at h
        | ok _ =>
          simp only [hr, hu, hw, bind, Except.bind, beq_self_eq_true, Bool.not_true,
            Bool.false_eq_true, if_false] at h
          obtain ⟨rfl, rfl⟩ := Prod.mk.inj (Except.ok.inj h)
          exact .inr ⟨⟨ht, hr, hu, hw⟩, rfl, rfl⟩
      · simp [hr, hu, bind, Except.bind] at h

theorem saveStore_saves {env : Env Doc} {d : Daemon Doc} {store : DynamicStore Doc}
    (h : Saves env d store) :
    ∃ store', d.saveStore env store = .ok (store', rewritten d (store.text env.toml)) := by
  obtain ⟨ht, hr, hu, hw⟩ := h
  unfold saveStore DynamicStore.save DynamicStore.unchangedOnDisk
  simp only [ht, hr, hu, hw, if_false, bind, Except.bind, beq_self_eq_true, Bool.not_true,
    Bool.false_eq_true]
  exact ⟨_, rfl⟩

/-- Where there was a `dynamic.toml`, there is one with the edited text. -/
theorem editedSources_some (env : Env Doc) {d : Daemon Doc} (h : d.sources.dynamic.isSome = true)
    (e : Edited Doc) : d.editedSources env e = { d.sources with
      dynamic := some ⟨d.store.path, (d.editedStore e).text env.toml⟩
      state := e.overrides.applyTo d.sources.state } := by
  simp only [editedSources, h, Bool.or_true, if_true, editedStore]

/-- The change passes every check made before anything is written. -/
structure Accepted (env : Env Doc) (d : Daemon Doc) (snapshot : String → Option Snapshot)
    (nonDisruptive : Bool) (edit : Edit Doc) (e : Edited Doc) (cfg : Config) (report : Report) :
    Prop where
  edits : edit d.store ⟨d.sources.statics, d.cfg⟩ = .ok e
  builds : build env.toml env.net (some env.host) (d.editedSources env e) = .ok (cfg, report)
  allowed : (nonDisruptive && (d.planFor env snapshot cfg).disruptive) = false

theorem checkChange_ok {env : Env Doc} {d : Daemon Doc} {edit : Edit Doc} {c : Checked Doc}
    (h : d.checkChange env snapshot nonDisruptive edit = .ok c) :
    Accepted env d snapshot nonDisruptive edit c.edited c.cfg c.report ∧
      c.plan = d.planFor env snapshot c.cfg := by
  unfold checkChange at h
  cases he : edit d.store ⟨d.sources.statics, d.cfg⟩ with
  | error err => simp [he, bind, Except.bind] at h
  | ok e =>
    cases hb : build env.toml env.net (some env.host) (d.editedSources env e) with
    | error ps => simp [he, hb, bind, Except.bind, Except.mapError] at h
    | ok built =>
      simp only [he, hb, bind, Except.bind, Except.mapError] at h
      split at h
      · simp at h
      · rename_i ha
        obtain rfl := Except.ok.inj h
        exact ⟨⟨he, hb, by simpa using ha⟩, rfl⟩

theorem checkChange_accepted {env : Env Doc} {d : Daemon Doc} {edit : Edit Doc} {e : Edited Doc}
    {cfg : Config} (h : Accepted env d snapshot nonDisruptive edit e cfg report) :
    d.checkChange env snapshot nonDisruptive edit =
      .ok ⟨e, cfg, report, d.planFor env snapshot cfg⟩ := by
  unfold checkChange
  simp only [h.edits, h.builds, h.allowed, bind, Except.bind, Except.mapError, Bool.false_eq_true,
    if_false]

/-- What goes wrong: an accepted change writes a new `dynamic.toml`, and then
can't write the overrides that belong to it. -/
structure HalfWritten (env : Env Doc) (d : Daemon Doc) (snapshot : String → Option Snapshot)
    (nonDisruptive : Bool) (edit : Edit Doc) (e : Edited Doc) : Prop where
  accepted : ∃ cfg report, Accepted env d snapshot nonDisruptive edit e cfg report
  saves : Saves env d (d.editedStore e)
  unwritable : Unwritable env d (e.overrides.applyTo d.state)

theorem change_halfWritten {env : Env Doc} {d : Daemon Doc} {edit : Edit Doc} {e : Edited Doc}
    (h : HalfWritten env d snapshot nonDisruptive edit e) :
    ∃ err, d.change env snapshot nonDisruptive edit =
      (.error err, rewritten d ((d.editedStore e).text env.toml)) := by
  obtain ⟨⟨cfg, report, ha⟩, hs, hu⟩ := h
  obtain ⟨store, hsave⟩ := saveStore_saves hs
  obtain ⟨err, herr⟩ : ∃ err, (rewritten d ((d.editedStore e).text env.toml)).saveOverrides env
      e.overrides = (.error err, rewritten d ((d.editedStore e).text env.toml)) :=
    saveOverrides_unwritable ⟨hu.changed, hu.fails⟩
  refine ⟨err, ?_⟩
  unfold change
  simp only [checkChange_accepted ha, hsave, herr]

/-- An accepted change that only rewrites `dynamic.toml` is made. -/
theorem change_saved {env : Env Doc} {d : Daemon Doc} {edit : Edit Doc} {e : Edited Doc}
    {cfg : Config} (ha : Accepted env d snapshot nonDisruptive edit e cfg report)
    (hs : Saves env d (d.editedStore e)) (ho : e.overrides = []) :
    ∃ r d', d.change env snapshot nonDisruptive edit = (.ok r, d') := by
  obtain ⟨store, hsave⟩ := saveStore_saves hs
  unfold change
  simp only [checkChange_accepted ha, hsave, saveOverrides, ho, List.isEmpty_nil, if_true]
  exact ⟨_, _, rfl⟩

/-- A change fails with nothing done, fails between its two writes, or is saved
and applied. -/
theorem change_cases (env : Env Doc) (d : Daemon Doc) (snapshot : String → Option Snapshot)
    (nonDisruptive : Bool) (edit : Edit Doc) :
    (∃ err, d.change env snapshot nonDisruptive edit = (.error err, d)) ∨
    (∃ e err, HalfWritten env d snapshot nonDisruptive edit e ∧
      d.change env snapshot nonDisruptive edit =
        (.error err, rewritten d ((d.editedStore e).text env.toml))) ∨
    ∃ e cfg report store saved d', Accepted env d snapshot nonDisruptive edit e cfg report ∧
      d.saveStore env (d.editedStore e) = .ok (store, saved) ∧
      saved.saveOverrides env e.overrides = (.ok (), d') ∧
      d.change env snapshot nonDisruptive edit =
        (.ok ⟨e.id, PlanResult.new (d.planFor env snapshot cfg) true report.warnings⟩,
          { d'.apply env (d.planFor env snapshot cfg) cfg with
            sources := d.editedSources env e, store := store, bluezErrors := [] }) := by
  cases hc : d.checkChange env snapshot nonDisruptive edit with
  | error err => exact .inl ⟨err, by unfold change; rw [hc]⟩
  | ok c =>
    obtain ⟨ha, hp⟩ := checkChange_ok hc
    cases hs : d.saveStore env (d.editedStore c.edited) with
    | error err => exact .inl ⟨err, by unfold change; simp only [hc, hs]⟩
    | ok s =>
      obtain ⟨store, saved⟩ := s
      have hdone : ∀ d', saved.saveOverrides env c.edited.overrides = (.ok (), d') →
          d.change env snapshot nonDisruptive edit =
            (.ok ⟨c.edited.id,
                PlanResult.new (d.planFor env snapshot c.cfg) true c.report.warnings⟩,
              { d'.apply env (d.planFor env snapshot c.cfg) c.cfg with
                sources := d.editedSources env c.edited, store := store, bluezErrors := [] }) := by
        intro d' ho
        unfold change
        simp only [hc, hs, ho, hp]
      rcases saveOverrides_cases env saved c.edited.overrides with
        ⟨_, ho⟩ | ⟨d', _, ho⟩ | ⟨hu, err, ho⟩
      · exact .inr (.inr ⟨_, _, _, _, _, _, ha, hs, ho, hdone _ ho⟩)
      · exact .inr (.inr ⟨_, _, _, _, _, _, ha, hs, ho, hdone _ ho⟩)
      · have hr : d.change env snapshot nonDisruptive edit = (.error err, saved) := by
          unfold change
          simp only [hc, hs, ho]
        rcases saveStore_cases hs with ⟨_, _, rfl⟩ | ⟨hsave, _, rfl⟩
        · exact .inl ⟨err, hr⟩
        · exact .inr (.inl ⟨c.edited, err, ⟨⟨_, _, ha⟩, hsave, ⟨hu.changed, hu.fails⟩⟩, hr⟩)

theorem loadState_none {toml : TomlLib Doc} {disk : Disk} (h : disk.state = none) (dir : String) :
    loadState toml dir disk (.ok ()) = .ok .empty := by
  simp only [loadState, h]

theorem load_main {toml : TomlLib Doc} {fs : StaticFiles} (hm : fs.main = .ok t)
    (hc : fs.confD = none) (hf : toml.parseFile t = .ok file) :
    load toml fs = .ok [(.static fs.mainFile, file)] := by
  simp only [load, parseStatic, hm, hc, hf, bind, Except.bind]

theorem readAgain_ok {env : Env Doc} {disk : Disk}
    (hl : load env.toml env.statics = .ok statics) (hd : env.readDynamic = .ok ())
    (hr : env.readState = .ok ()) (hs : loadState env.toml env.stateDir disk (.ok ()) = .ok st) :
    readAgain env disk =
      .ok ⟨statics, disk.dynamic.map (fun text => ⟨env.dynamicPath, text⟩), st,
        env.statics.legacyConfPresent, []⟩ := by
  simp only [readAgain, readSources, hl, hd, hr, hs, loadDynamic, bind, Except.bind,
    Except.mapError, List.append_nil, Env.dynamicPath]

theorem storeFromSources_some {env : Env Doc} {sources : Sources}
    (hd : sources.dynamic = some ⟨path, t⟩) (hp : env.toml.parseDoc (stripHeader t) = .ok doc) :
    storeFromSources env sources = some ⟨env.dynamicPath, doc, some (revision t)⟩ := by
  simp only [storeFromSources, DynamicStore.fromText, hd, Option.map_some, Option.getD_some, hp]

theorem start_ok {env : Env Doc} {disk : Disk} {sources : Sources} {cfg : Config}
    {store : DynamicStore Doc} (hz : HasBluez env)
    (hr : readAgain env disk = .ok sources)
    (hb : build env.toml env.net (some env.host) sources = .ok (cfg, report))
    (hs : storeFromSources env sources = some store) :
    start env disk = some (.ok ((unstarted env disk sources cfg store).apply env
      ((unstarted env disk sources cfg store).planFor env (fun _ => none) cfg) cfg)) := by
  simp only [start, hr, hb, hs, bind, Option.bind]
  rw [errors_apply hz]
  rfl

/-- A daemon that starts has applied the plan for what it read, and met no BlueZ
failure. -/
theorem start_cases {env : Env Doc} {disk : Disk} {d : Daemon Doc}
    (h : start env disk = some (.ok d)) :
    ∃ sources cfg report store, readAgain env disk = .ok sources ∧
      build env.toml env.net (some env.host) sources = .ok (cfg, report) ∧
      storeFromSources env sources = some store ∧ d.bluezErrors = [] ∧
      d = (unstarted env disk sources cfg store).apply env
        ((unstarted env disk sources cfg store).planFor env (fun _ => none) cfg) cfg := by
  unfold start at h
  split at h
  · cases h
  · rename_i sources hr
    split at h
    · cases h
    · rename_i cfg report hb
      obtain ⟨store, hs, hd⟩ := Option.bind_eq_some_iff.mp h
      dsimp only at hd
      split at hd
      · cases hd
      · rename_i he
        cases hd
        exact ⟨sources, cfg, report, store, hr, hb, hs, he, rfl⟩

theorem head_append {a b : String} (h : a.toList.head? = some c) :
    (a ++ b).toList.head? = some c := by
  rw [String.toList_append, List.head?_append, h]
  rfl

theorem header_head : DYNAMIC_HEADER.toList.head? = some '#' := by
  unfold DYNAMIC_HEADER
  exact head_append (head_append (by simp))

theorem stripHeader_append (t : String) : stripHeader (DYNAMIC_HEADER ++ t) = t := by
  unfold stripHeader
  rw [String.toList_append, if_pos (by simp [List.isPrefixOf_iff_prefix]), List.drop_left]
  exact String.ofList_toList

theorem stripHeader_of_head (h : t.toList.head? ≠ some '#') : stripHeader t = t := by
  unfold stripHeader
  rw [if_neg]
  intro hp
  obtain ⟨behind, hb⟩ := List.isPrefixOf_iff_prefix.mp hp
  apply h
  rw [← hb, List.head?_append, header_head]
  rfl

/-- A text that starts with something is not blank. -/
theorem not_blank_of_head (h : t.toList.head? = some c) (hc : Text.isWhite c = false) :
    (Text.trim t).isEmpty = false := by
  obtain ⟨behind, ht⟩ : ∃ behind, t.toList = c :: behind := by
    cases hl : t.toList with
    | nil => simp [hl] at h
    | cons x xs => exact ⟨xs, by simpa [hl] using h⟩
  have hne : Text.trimChars t.toList ≠ [] := by
    rw [ht, Text.trimChars, List.dropWhile_cons_of_neg (by simp [hc])]
    intro hnil
    rw [List.reverse_eq_nil_iff, List.dropWhile_eq_nil_iff] at hnil
    have hw := hnil c (by simp)
    simp [hc] at hw
  simpa [Text.trim, String.isEmpty_iff] using hne

/-- Documents with one bridge: a static one that is disabled, and a dynamic one
on the same socket. -/
inductive SampleDoc where
  | empty
  | field
  | shack (on : Bool)
deriving DecidableEq, Repr

namespace SampleDoc

def ports : List PortDef :=
  [⟨none, none, .tcpClient "tnc.local:8001" none none⟩,
    ⟨none, none, .tcpServer "8001" none none none⟩]

def file : SampleDoc → ConfigFile
  | empty => {}
  | field => { bridge := [⟨some "ktbr0", "Field", some false, none, none, ports⟩] }
  | shack on => { bridge := [⟨some "ktbr1", "Shack", some on, none, none, ports⟩] }

def portText : String :=
  "[[bridge.port]]\ntype = \"tcp-client\"\naddress = \"tnc.local:8001\"\n" ++
  "[[bridge.port]]\ntype = \"tcp-server\"\nlisten = \"8001\"\n"

def heading : SampleDoc → String
  | empty => ""
  | field => "[[bridge]]\nid = \"ktbr0\"\nname = \"Field\"\nenabled = false\n"
  | shack true => "[[bridge]]\nid = \"ktbr1\"\nname = \"Shack\"\nenabled = true\n"
  | shack false => "[[bridge]]\nid = \"ktbr1\"\nname = \"Shack\"\nenabled = false\n"

@[irreducible]
def text (doc : SampleDoc) : String := if doc = empty then "" else doc.heading ++ portText

theorem text_empty : text empty = "" := by
  rw [text, if_pos rfl]

def all : List SampleDoc := [empty, field, shack true, shack false]

@[irreducible]
def parse (t : String) : Except String SampleDoc :=
  match all.find? (fun doc => doc.text == stripHeader t) with
  | some doc => .ok doc
  | none => .error "not a sample"

theorem mem_all (doc : SampleDoc) : doc ∈ all := by
  match doc with
  | empty | field | shack true | shack false => decide

theorem text_head {doc : SampleDoc} (h : doc ≠ empty) : doc.text.toList.head? = some '[' := by
  rw [text, if_neg h]
  refine head_append ?_
  match doc with
  | field | shack true | shack false => simp [heading]

theorem heading_inj (h : heading a = heading b) : a = b := by
  match a, b with
  | empty, empty | field, field | shack true, shack true | shack false, shack false => rfl
  | empty, field | empty, shack true | empty, shack false | field, empty | field, shack true
  | field, shack false | shack true, empty | shack true, field | shack true, shack false
  | shack false, empty | shack false, field | shack false, shack true => simp [heading] at h

theorem text_inj (h : text a = text b) : a = b := by
  by_cases ha : a = empty <;> by_cases hb : b = empty
  · rw [ha, hb]
  · have hh := text_head hb
    rw [← h, ha] at hh
    simp [text] at hh
  · have hh := text_head ha
    rw [h, hb] at hh
    simp [text] at hh
  · rw [text, text, if_neg ha, if_neg hb, String.append_left_inj] at h
    exact heading_inj h

theorem strip_text (doc : SampleDoc) : stripHeader doc.text = doc.text := by
  refine stripHeader_of_head ?_
  by_cases h : doc = empty
  · simp [h, text]
  · rw [text_head h]
    decide

theorem parse_iff : parse t = .ok doc ↔ stripHeader t = doc.text := by
  unfold parse
  constructor
  · intro h
    split at h
    · rename_i found hf
      obtain rfl := Except.ok.inj h
      have ht := List.find?_some hf
      simp only [beq_iff_eq] at ht
      exact ht.symm
    · simp at h
  · intro h
    obtain ⟨found, hf⟩ : ∃ x, all.find? (fun x => x.text == stripHeader t) = some x := by
      rw [← Option.isSome_iff_exists, List.find?_isSome]
      exact ⟨doc, mem_all doc, by rw [h, beq_self_eq_true]⟩
    have ht := List.find?_some hf
    simp only [beq_iff_eq] at ht
    rw [hf, text_inj (ht.trans h)]

def read (t : String) : Except String ConfigFile := (parse t).map file

def insertEnabled : SampleDoc → String → Bool → Option SampleDoc
  | shack _, "ktbr1", on => some (shack on)
  | _, _, _ => none

end SampleDoc

instance countableChar : Countable Char :=
  Function.Injective.countable (f := Char.toNat) (fun _ _ h => Char.ext (UInt32.toNat.inj h))

instance countableString : Countable String :=
  Function.Injective.countable (f := String.toList) (fun _ _ h => String.toList_inj.mp h)

instance countableBridgeState : Countable BridgeState :=
  Function.Injective.countable (f := fun b => (b.enabled, b.publicName, b.publicNameConfigured))
    (fun a b h => by cases a; cases b; simpa using h)

noncomputable def stateCode : List (String × BridgeState) → Nat :=
  (exists_injective_nat (List (String × BridgeState))).choose

theorem stateCode_inj (h : stateCode a = stateCode b) : a = b :=
  (exists_injective_nat (List (String × BridgeState))).choose_spec h

noncomputable def sampleState (s : State) : String :=
  if s.bridges.toList = [] then ""
  else if s.bridges.toList = [("ktbr0", { enabled := some true })] then
    "[bridge.ktbr0]\nenabled = true\n"
  else String.ofList (List.replicate (stateCode s.bridges.toList + 1) '#')

/-- What a state's text starts with tells which of the three it is. -/
theorem sampleState_head (s : State) :
    s.bridges.toList = [] ∧ (sampleState s).toList.head? = none ∨
    s.bridges.toList = [("ktbr0", { enabled := some true })] ∧
      (sampleState s).toList.head? = some '[' ∨
    sampleState s = String.ofList (List.replicate (stateCode s.bridges.toList + 1) '#') ∧
      (sampleState s).toList.head? = some '#' := by
  unfold sampleState
  split
  · exact .inl ⟨‹_›, by simp⟩
  · split
    · exact .inr (.inl ⟨‹_›, by simp⟩)
    · exact .inr (.inr ⟨rfl, by simp [List.replicate_succ]⟩)

theorem sampleState_inj (h : sampleState a = sampleState b) : a.same b = true := by
  simp only [State.same, beq_iff_eq]
  have hb := sampleState_head b
  rw [← h] at hb
  rcases sampleState_head a with ⟨ha, h₁⟩ | ⟨ha, h₁⟩ | ⟨ha, h₁⟩ <;>
    rcases hb with ⟨hb, h₂⟩ | ⟨hb, h₂⟩ | ⟨hb, h₂⟩ <;> rw [h₁] at h₂
  · rw [ha, hb]
  · cases h₂
  · cases h₂
  · cases h₂
  · rw [ha, hb]
  · cases h₂
  · cases h₂
  · cases h₂
  · have hn := congrArg List.length (congrArg String.toList (ha.symm.trans hb))
    simp only [String.toList_ofList, List.length_replicate, Nat.add_right_cancel_iff] at hn
    exact stateCode_inj hn

open Classical in
noncomputable def sampleToml : TomlLib SampleDoc where
  parseFile := SampleDoc.read
  parseState t :=
    if h : ∃ s, STATE_HEADER ++ sampleState s = t then .ok h.choose else .error "not a state"
  stateText s := .ok (sampleState s)
  parseDoc := SampleDoc.parse
  docText := SampleDoc.text
  insertEnabled := SampleDoc.insertEnabled

theorem sampleToml_parseFile : sampleToml.parseFile = SampleDoc.read := rfl

theorem sampleToml_parseDoc : sampleToml.parseDoc = SampleDoc.parse := rfl

theorem sampleToml_docText : sampleToml.docText = SampleDoc.text := rfl

theorem sampleToml_state (s : State) : ∃ body s', sampleToml.stateText s = .ok body ∧
    sampleToml.parseState (STATE_HEADER ++ body) = .ok s' ∧ s'.same s = true := by
  have hex : ∃ s', STATE_HEADER ++ sampleState s' = STATE_HEADER ++ sampleState s := ⟨s, rfl⟩
  refine ⟨sampleState s, hex.choose, rfl, dif_pos hex, sampleState_inj ?_⟩
  exact (String.append_right_inj _).mp hex.choose_spec

theorem sampleFile_ok : sampleToml.parseFile t = .ok f ↔
    ∃ doc, stripHeader t = SampleDoc.text doc ∧ f = doc.file := by
  constructor
  · intro h
    rw [sampleToml_parseFile, SampleDoc.read] at h
    cases hp : SampleDoc.parse t with
    | error e => simp [hp, Except.map] at h
    | ok doc =>
      rw [hp] at h
      exact ⟨doc, SampleDoc.parse_iff.mp hp, (Except.ok.inj h).symm⟩
  · rintro ⟨doc, ht, rfl⟩
    rw [sampleToml_parseFile, SampleDoc.read, SampleDoc.parse_iff.mpr ht]
    rfl

theorem sampleToml_lawful : sampleToml.Lawful where
  empty := by
    have ht := SampleDoc.strip_text .empty
    rw [SampleDoc.text_empty] at ht
    exact sampleFile_ok.mpr ⟨.empty, by rw [ht, SampleDoc.text_empty], rfl⟩
  behindHeader text file h := by
    obtain ⟨doc, ht, hf⟩ := sampleFile_ok.mp h
    rw [stripHeader_append] at ht
    exact sampleFile_ok.mpr ⟨doc, by rw [ht, SampleDoc.strip_text], hf⟩
  withHeader doc file h := by
    obtain ⟨doc', ht, hf⟩ := sampleFile_ok.mp h
    rw [sampleToml_docText, SampleDoc.strip_text] at ht
    exact sampleFile_ok.mpr ⟨doc', by rw [stripHeader_append, sampleToml_docText, ht], hf⟩
  document text file h := by
    obtain ⟨doc, ht, hf⟩ := sampleFile_ok.mp h
    refine ⟨doc, ?_, sampleFile_ok.mpr ⟨doc, ?_, hf⟩⟩
    · rw [sampleToml_parseDoc, SampleDoc.parse_iff, ht]
    · rw [sampleToml_docText, SampleDoc.strip_text]
  blank doc h := by
    rw [sampleToml_docText] at h ⊢
    by_cases he : doc = .empty
    · exact sampleFile_ok.mpr ⟨doc, SampleDoc.strip_text doc, by rw [he]; rfl⟩
    · have hb := not_blank_of_head (SampleDoc.text_head he) (by decide)
      exact absurd (h.symm.trans hb) (by decide)
  state := sampleToml_state

def fieldPath : String := "/etc/kiss-tnc-bridge/kiss-tnc-bridge.toml"

noncomputable def fieldEnv : Env SampleDoc where
  net := ⟨fun _ => none, fun _ _ => false⟩
  toml := sampleToml
  host := ⟨fun _ => true, fun _ => true⟩
  adapters := []
  btSession := fun _ _ => .ok ()
  addBle := fun _ _ => .ok ()
  startAnnouncer := true
  statics := ⟨fieldPath, .ok SampleDoc.field.text, "/etc/kiss-tnc-bridge/conf.d", none, false⟩
  stateDir := "/var/lib/kiss-tnc-bridge"
  readDynamic := .ok ()
  readState := .ok ()
  writeDynamic := .ok ()
  writeState := .ok ()

def fieldDisk : Disk := ⟨some (DYNAMIC_HEADER ++ (SampleDoc.shack true).text), none⟩

def fieldPorts : List Port :=
  [⟨"tcp-client0", .tnc, .tcpClient "tnc.local" 8001 .onDemand 0⟩,
    ⟨"tcp-server0", .app, .tcpServer (.addr (.v4 localhost 8001)) none [] false⟩]

def fieldConfig (field : Bool) (override : Option Bool) (shack : Bool) : Config where
  global := ⟨"info", .default⟩
  control := ⟨"kiss-tnc-bridge"⟩
  adapters := []
  tncs := []
  bridges :=
    [⟨"ktbr0", "Field", "Field", field, override, .pass, fieldPorts, .static fieldPath⟩,
      ⟨"ktbr1", "Shack", "Shack", shack, none, .pass, fieldPorts, .dynamic⟩]

def fieldText (on : Bool) : String := DYNAMIC_HEADER ++ (SampleDoc.shack on).text

theorem fieldText_ne : fieldText false ≠ fieldText true := by
  intro h
  have ht := SampleDoc.text_inj ((String.append_right_inj _).mp h)
  cases ht

noncomputable def fieldSources (on : Bool) (st : State) : Sources :=
  ⟨[(.static fieldPath, SampleDoc.field.file)], some ⟨fieldEnv.dynamicPath, fieldText on⟩,
    st, false, []⟩

theorem parse_fieldText (on : Bool) :
    sampleToml.parseFile (fieldText on) = .ok (SampleDoc.shack on).file :=
  sampleFile_ok.mpr ⟨.shack on, stripHeader_append _, rfl⟩

theorem gather_field (on : Bool) (st : State) :
    gather sampleToml (fieldSources on st) = .ok ([(.static fieldPath, SampleDoc.field.file),
      (.dynamic, (SampleDoc.shack on).file)], []) := by
  unfold gather fieldSources parseDynamic
  simp only [parse_fieldText]
  cases on <;> rfl

theorem resolve_field (on : Bool) :
    resolve fieldEnv.net [(.static fieldPath, SampleDoc.field.file),
      (.dynamic, (SampleDoc.shack on).file)] = .ok (fieldConfig false none on) := by
  have h : (resolve fieldEnv.net [(.static fieldPath, SampleDoc.field.file),
      (.dynamic, (SampleDoc.shack on).file)]).toOption = some (fieldConfig false none on) := by
    cases on <;> decide +kernel
  cases hr : resolve fieldEnv.net [(.static fieldPath, SampleDoc.field.file),
      (.dynamic, (SampleDoc.shack on).file)] with
  | error ps => simp [hr, Except.toOption] at h
  | ok cfg => rw [hr] at h; exact congrArg _ (Option.some.inj h)

/-- The config is the one the overrides make of what the files say. -/
theorem build_field (on : Bool) (st : State)
    (hv : (validate (applyOverrides (fieldConfig false none on) st) (some fieldEnv.host)).errors =
      []) : ∃ report, build sampleToml fieldEnv.net (some fieldEnv.host) (fieldSources on st) =
      .ok (applyOverrides (fieldConfig false none on) st, report) := by
  have hst : (fieldSources on st).state = st := rfl
  unfold build
  simp only [gather_field, resolve_field, bind, Except.bind, hst, hv, List.isEmpty_nil, if_true]
  exact ⟨_, rfl⟩

noncomputable def fieldStore (on : Bool) : DynamicStore SampleDoc :=
  ⟨fieldEnv.dynamicPath, .shack on, some (revision (fieldText on))⟩

theorem text_shack {store : DynamicStore SampleDoc} (h : store.doc = .shack on) :
    store.text sampleToml = fieldText on := by
  have hb : (Text.trim (SampleDoc.shack on).text).isEmpty = false :=
    not_blank_of_head (SampleDoc.text_head (by simp)) (by decide)
  simp only [DynamicStore.text, h, sampleToml_docText, hb, Bool.false_eq_true, if_false, fieldText]

noncomputable def fieldUnstarted : Daemon SampleDoc :=
  unstarted fieldEnv fieldDisk (fieldSources true .empty) (fieldConfig false none true)
    (fieldStore true)

noncomputable def fieldDaemon : Daemon SampleDoc :=
  fieldUnstarted.apply fieldEnv
    (fieldUnstarted.planFor fieldEnv (fun _ => none) (fieldConfig false none true))
    (fieldConfig false none true)

theorem empty_enabledOverride (bid : String) : State.empty.enabledOverride bid = none := by
  simp [State.enabledOverride, State.empty]

theorem applyOverrides_empty (cfg : Config) : applyOverrides cfg .empty = cfg := by
  simp [applyOverrides, empty_enabledOverride]

theorem field_toml : fieldEnv.toml = sampleToml := rfl

theorem field_reads : readAgain fieldEnv fieldDisk = .ok (fieldSources true .empty) := by
  have hmain : fieldEnv.toml.parseFile SampleDoc.field.text = .ok SampleDoc.field.file := by
    rw [field_toml, sampleFile_ok]
    exact ⟨.field, SampleDoc.strip_text .field, rfl⟩
  exact readAgain_ok (load_main rfl rfl hmain) rfl rfl (loadState_none rfl _)

theorem field_stores :
    storeFromSources fieldEnv (fieldSources true .empty) = some (fieldStore true) := by
  refine storeFromSources_some rfl ?_
  rw [field_toml, fieldText, stripHeader_append, sampleToml_parseDoc, SampleDoc.parse_iff]
  exact SampleDoc.strip_text _

theorem field_valid :
    (validate (fieldConfig false none true) (some fieldEnv.host)).errors = [] := by
  decide +kernel

theorem field_calm : Calm sampleToml fieldUnstarted fieldDaemon := by
  have h : Calm fieldEnv.toml fieldUnstarted fieldDaemon := apply_calm sampleToml_lawful _ _ _
  exact h

theorem field_starts : start fieldEnv fieldDisk = some (.ok fieldDaemon) := by
  obtain ⟨report, hbuild⟩ := build_field true .empty (by rw [applyOverrides_empty, field_valid])
  rw [applyOverrides_empty, ← field_toml] at hbuild
  exact start_ok ⟨fun _ _ => rfl, fun _ _ => rfl⟩ field_reads hbuild field_stores

end KissTncBridge.Proofs.ChangeSteps
