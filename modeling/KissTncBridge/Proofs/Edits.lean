import KissTncBridge.Proofs.Crates
import KissTncBridge.Proofs.EditSteps

namespace KissTncBridge.Proofs.Edits
open Conf Control Crates DocumentReads EditSteps Lib PortNames Supervisor Toml TomlReads

mutual

/-- Sub-tables and inline tables say the same. -/
theorem jsonToItem_plain (v : Json) (i : Item) (h : jsonToItem v = .ok i) :
    jsonToValue v = .ok i.plain := by
  match v with
  | .null => cases h
  | .boolean b =>
    obtain rfl := Except.ok.inj h
    rfl
  | .integer n =>
    obtain rfl := Except.ok.inj h
    rfl
  | .float =>
    obtain rfl := Except.ok.inj h
    rfl
  | .string s =>
    obtain rfl := Except.ok.inj h
    rfl
  | .array vs =>
    rw [jsonToItem] at h
    split at h
    · obtain ⟨ts, hts, rfl⟩ := map_ok h
      rw [jsonToValue, jsonToTables_plain vs ts hts]
      rfl
    · obtain ⟨v, hv, rfl⟩ := map_ok h
      rw [hv, Item.plain]
  | .object es =>
    rw [jsonToItem] at h
    obtain ⟨t, ht, rfl⟩ := map_ok h
    rw [jsonToValue, jsonToEntries_plain es t ht]
    rfl

theorem jsonToEntries_plain (es : List (String × Json)) (t : Table) (h : jsonToEntries es = .ok t) :
    jsonToInline es = .ok (plainEntries t) := by
  match es with
  | [] =>
    obtain rfl := Except.ok.inj h
    rfl
  | (k, v) :: rest =>
    rw [jsonToEntries] at h
    rw [jsonToInline]
    split at h
    · rename_i hn
      rw [if_pos hn]
      exact jsonToEntries_plain rest t h
    · rename_i hn
      rw [if_neg hn]
      obtain ⟨i, hi, h⟩ := bind_ok h
      obtain ⟨t', ht, h⟩ := bind_ok h
      obtain rfl := Except.ok.inj h
      rw [jsonToItem_plain v i hi, jsonToEntries_plain rest t' ht, plainEntries]
      rfl

theorem jsonToTables_plain (vs : List Json) (ts : List Table) (h : jsonToTables vs = .ok ts) :
    jsonToValues vs = .ok (plainTables ts) := by
  match vs with
  | [] =>
    obtain rfl := Except.ok.inj h
    rfl
  | .object es :: rest =>
    rw [jsonToTables] at h
    obtain ⟨t, ht, h⟩ := bind_ok h
    obtain ⟨ts', hts, h⟩ := bind_ok h
    obtain rfl := Except.ok.inj h
    rw [jsonToValues, jsonToValue, jsonToEntries_plain es t ht, jsonToTables_plain rest ts' hts,
      plainTables]
    rfl
  | .null :: rest => cases h
  | .boolean b :: rest => cases h
  | .integer n :: rest => cases h
  | .float :: rest => cases h
  | .string s :: rest => cases h
  | .array vs :: rest => cases h

end

theorem jsonToTable_plain (h : jsonToTable defn = .ok t) :
    ∃ es, defn = .object es ∧ jsonToInline es = .ok (plainEntries t) := by
  cases defn with
  | object es => exact ⟨es, rfl, jsonToEntries_plain es t h⟩
  | null => cases h
  | boolean => cases h
  | integer => cases h
  | float => cases h
  | string => cases h
  | array => cases h

def said : Json → Option (List (String × Val))
  | .object es => (jsonToInline es).toOption
  | _ => none

theorem said_of_table (h : jsonToTable defn = .ok t) : said defn = some (plainEntries t) := by
  obtain ⟨es, rfl, hes⟩ := jsonToTable_plain h
  rw [said, hes]
  rfl

/-- Ports as they were, apart from ids made explicit. -/
def Named (ps ps' : List PortDef) : Prop :=
  List.Forall₂ (fun p p' => p' = p ∨ p.id = none ∧ ∃ s, p' = { p with id := some s }) ps ps'

theorem Named.refl (ps : List PortDef) : Named ps ps := by
  induction ps with
  | nil => exact .nil
  | cons p ps ih => exact .cons (.inl rfl) ih

theorem readPort_insert_id_back (hg : Entries.get "id" es = none)
    (h : readPort (.table (Entries.insert "id" (.string s) es)) = some p) :
    readPort (.table es) = some { p with id := none } ∧ p.id = some s := by
  obtain ⟨name, type, hn, ht, hk, hid, hrole, hread⟩ := readPort_iff.mp h
  refine ⟨readPort_iff.mpr ⟨name, type, ?_, ht, ?_, ?_, ?_, ?_⟩, ?_⟩
  · rwa [req_insert_ne (by decide)] at hn
  · rwa [known_insert (by simp [portFields])] at hk
  · rw [opt, hg]
  · rwa [opt_insert_ne (by decide)] at hrole
  · rwa [read_insert_id ht] at hread
  · rw [opt_insert_self] at hid
    exact (Option.some.inj hid).symm

/-- Ports that can be read once they are named could be before. -/
theorem nameEach_reads_back {names : List String} {ts : List Table} {ps' : List PortDef}
    (h : (nameEach names ts).map (fun t => readPort (Table.plain t)) = ps'.map some) :
    ∃ ps, ts.map (fun t => readPort (Table.plain t)) = ps.map some ∧ Named ps ps' := by
  induction ts generalizing names ps' with
  | nil =>
    cases ps' with
    | nil => exact ⟨[], rfl, .nil⟩
    | cons => simp [nameEach] at h
  | cons t ts ih =>
    rw [nameEach] at h
    cases ps' with
    | nil => split at h <;> simp at h
    | cons p' ps' =>
      split at h
      · rename_i hnone
        obtain ⟨hp, hps⟩ := List.cons.inj h
        obtain ⟨ps, hread, hnamed⟩ := ih hps
        have hg : Entries.get "id" (plainEntries t) = none := by
          rw [get_plain, Option.isNone_iff_eq_none.mp hnone]
          rfl
        simp only [Table.plain, plain_insert, value_plain] at hp
        obtain ⟨hread', hid⟩ := readPort_insert_id_back hg hp
        refine ⟨{ p' with id := none } :: ps, congrArg₂ List.cons hread' hread,
          .cons (.inr ⟨rfl, lowestFree names ((str t "type").getD "port"), ?_⟩) hnamed⟩
        rw [← hid]
      · obtain ⟨hp, hps⟩ := List.cons.inj h
        obtain ⟨ps, hread, hnamed⟩ := ih hps
        exact ⟨p' :: ps, congrArg₂ List.cons hp hread, .cons (.inl rfl) hnamed⟩

/-- Another `port` entry changes the ports of a bridge only. -/
theorem readBridge_insert_port (hd : readBridge (.table es) = some d) (v : Val) :
    readBridge (.table (Entries.insert "port" v es)) = some d' ↔
      ∃ ps, v.asList readPort = some ps ∧ d' = { d with ports := ps } := by
  obtain ⟨hk, hid, hname, hen, hpub, happ, hports⟩ := readBridge_iff.mp hd
  rw [readBridge_iff, known_insert (by decide), opt_insert_ne (by decide),
    req_insert_ne (by decide), opt_insert_ne (by decide), opt_insert_ne (by decide),
      opt_insert_ne (by decide), defaulted_insert_self,
    hid, hname, hen, hpub, happ]
  constructor
  · rintro ⟨-, h1, h2, h3, h4, h5, h6⟩
    refine ⟨d'.ports, h6, ?_⟩
    cases d'
    simp_all
  · rintro ⟨ps, hps, rfl⟩
    exact ⟨hk, rfl, rfl, rfl, rfl, rfl, hps⟩

/-- A bridge that can be read once its ports are named could be before. -/
theorem namePorts_reads_back (h : readBridge (Table.plain (namePorts t)) = some d') :
    ∃ ps, readBridge (Table.plain t) = some { d' with ports := ps } ∧ Named ps d'.ports := by
  rw [namePorts] at h
  cases hg : (Entries.get "port" t).bind Item.asArrayOfTables with
  | none =>
    rw [hg] at h
    exact ⟨d'.ports, h, Named.refl _⟩
  | some ts =>
    rw [hg] at h
    have hport : Entries.get "port" t = some (.arrayOfTables ts) := by
      obtain ⟨i, hi, hts⟩ := Option.bind_eq_some_iff.mp hg
      cases i with
      | value => cases hts
      | table => cases hts
      | arrayOfTables ts' =>
        obtain rfl := Option.some.inj hts
        exact hi
    simp only [Table.plain, plain_insert, Item.plain, plainTables_eq] at h
    obtain ⟨hk, hid, hname, hen, hpub, happ, hports⟩ := readBridge_iff.mp h
    rw [defaulted_insert_self, Val.asList, mapM_some_iff, List.map_map] at hports
    obtain ⟨ps, hread, hnamed⟩ := nameEach_reads_back hports
    refine ⟨ps, readBridge_iff.mpr ⟨?_, ?_, ?_, ?_, ?_, ?_, ?_⟩, hnamed⟩
    · rwa [known_insert (by decide)] at hk
    · rwa [opt_insert_ne (by decide)] at hid
    · rwa [req_insert_ne (by decide)] at hname
    · rwa [opt_insert_ne (by decide)] at hen
    · rwa [opt_insert_ne (by decide)] at hpub
    · rwa [opt_insert_ne (by decide)] at happ
    · rw [defaulted, get_plain, hport, Option.map_some, Item.plain, plainTables_eq]
      refine mapM_some_iff.mpr ?_
      rw [List.map_map]
      exact hread

theorem indexOf_none {doc : Table} (h : oid ∉ Doc.ids doc kind) :
    Doc.indexOf doc kind oid = none := by
  rw [Doc.indexOf]
  cases ha : Doc.array doc kind with
  | none => rfl
  | some ts =>
    rw [Doc.ids, ha, Option.getD_some] at h
    refine List.findIdx?_eq_none_iff.mpr (fun t ht => ?_)
    simp only [beq_eq_false_iff_ne, ne_eq]
    exact fun he => h (List.mem_filterMap.mpr ⟨t, ht, he⟩)

section
variable {doc doc' : Table} {f f' : ConfigFile}

/-- A new object is there, behind the others, unless these are written as an
inline array. -/
theorem put_exact (h : readFile (Table.plain doc) = some f) (hn : Doc.indexOf doc kind oid = none)
    (h' : readFile (Table.plain (Doc.put doc kind oid t)) = some f') {P : Def kind → Prop}
    (hP : ∀ d, readDef kind (Table.plain t) = some d → P d) :
    (∃ d, P d ∧ f' = withObjects kind f (objects kind f ++ [d])) ↔ Tabular doc kind := by
  constructor
  · rintro ⟨d, -, rfl⟩
    by_contra hw
    rw [put_lost hn hw, h] at h'
    have hlen := congrArg (fun f => (objects kind f).length) (Option.some.inj h')
    simp at hlen
  · intro hw
    obtain ⟨d, hd, rfl⟩ := (put_reads h hn hw t).mp h'
    exact ⟨d, hP d hd, rfl⟩

/-- A created bridge is the one defined, with its id, disabled unless it says
otherwise, and with its ports named. -/
def Created (bid : String) (defn : Json) (d : BridgeDef) : Prop :=
  ∃ vs d₀, said defn = some vs ∧
    readBridge (.table (Entries.insert "id" (.string bid) vs)) = some d₀ ∧
    Named d₀.ports d.ports ∧
      d = { d₀ with enabled := some (d₀.enabled.getD false), ports := d.ports }

theorem readBridge_insert_enabled_back (hg : Entries.get "enabled" es = none)
    (h : readBridge (.table (Entries.insert "enabled" (.boolean on) es)) = some d) :
    readBridge (.table es) = some { d with enabled := none } ∧ d.enabled = some on := by
  obtain ⟨hk, hid, hname, hen, hpub, happ, hports⟩ := readBridge_iff.mp h
  refine ⟨readBridge_iff.mpr ⟨?_, ?_, ?_, ?_, ?_, ?_, ?_⟩, ?_⟩
  · rwa [known_insert (by decide)] at hk
  · rwa [opt_insert_ne (by decide)] at hid
  · rwa [req_insert_ne (by decide)] at hname
  · rw [opt, hg]
  · rwa [opt_insert_ne (by decide)] at hpub
  · rwa [opt_insert_ne (by decide)] at happ
  · rwa [defaulted_insert_ne (by decide)] at hports
  · rw [opt_insert_self] at hen
    exact (Option.some.inj hen).symm

theorem created_of_read (ht : jsonToTable defn = .ok t)
    (h : readBridge (Table.plain (namePorts (newBridge bid t))) = some d) : Created bid defn d := by
  obtain ⟨ps, hps, hnamed⟩ := namePorts_reads_back h
  rw [newBridge] at hps
  simp only [Table.plain] at hps
  have hid : plainEntries (Entries.insert "id" (value bid) t) =
      Entries.insert "id" (.string bid) (plainEntries t) := by
    rw [plain_insert, value_plain]
  split at hps
  · rename_i hg
    have hg' : Entries.get "enabled" (plainEntries (Entries.insert "id" (value bid) t)) = none := by
      rw [get_plain, Option.isNone_iff_eq_none.mp hg]
      rfl
    rw [plain_insert, Item.plain] at hps
    obtain ⟨hread, hen⟩ := readBridge_insert_enabled_back hg' hps
    rw [hid] at hread
    refine ⟨_, _, said_of_table ht, hread, hnamed, ?_⟩
    cases d
    simp_all
  · rename_i hg
    rw [hid] at hps
    refine ⟨_, _, said_of_table ht, hps, hnamed, ?_⟩
    obtain ⟨-, -, -, hen, -⟩ := readBridge_iff.mp hps
    have hsome : d.enabled ≠ none := by
      intro hnone
      rw [← hid, opt, get_plain] at hen
      cases hget : Entries.get "enabled" (Entries.insert "id" (value bid) t) with
      | none => exact hg (by rw [hget]; rfl)
      | some i =>
        rw [hget] at hen
        obtain ⟨b, -, hb⟩ := Option.map_eq_some_iff.mp hen
        rw [hnone] at hb
        cases hb
    obtain ⟨on, hon⟩ := Option.ne_none_iff_exists'.mp hsome
    cases d
    simp_all

/-- A copy of what is read of a table: its own id and name, disabled, without a
public name of its own, its ports named. -/
def Copied (bid name : String) (t : Table) (d : BridgeDef) : Prop :=
  d.id = some bid ∧ d.name = name ∧ d.enabled = some false ∧ d.publicName = none ∧
    ∀ d₀, readBridge (Table.plain t) = some d₀ → d.appParams = d₀.appParams ∧ Named d₀.ports d.ports

theorem copied_of_read
    (h : readBridge (Table.plain (namePorts (copiedBridge bid name t))) = some d) :
    Copied bid name t d := by
  obtain ⟨ps, hps, hnamed⟩ := namePorts_reads_back h
  simp only [copiedBridge, Table.plain, plain_insert, plain_remove, value_plain, Item.plain] at hps
  obtain ⟨-, hid, hname, hen, hpub, happ, hports⟩ := readBridge_iff.mp hps
  rw [opt, Entries.get_remove_ne (by decide), Entries.get_insert_ne (by decide),
    Entries.get_insert_ne (by decide), Entries.get_insert_self] at hid
  rw [req, Entries.get_remove_ne (by decide), Entries.get_insert_ne (by decide),
    Entries.get_insert_self] at hname
  rw [opt, Entries.get_remove_ne (by decide), Entries.get_insert_self] at hen
  rw [opt, Entries.get_remove_self] at hpub
  rw [opt, Entries.get_remove_ne (by decide), Entries.get_insert_ne (by decide),
    Entries.get_insert_ne (by decide), Entries.get_insert_ne (by decide), ← opt] at happ
  rw [defaulted, Entries.get_remove_ne (by decide), Entries.get_insert_ne (by decide),
    Entries.get_insert_ne (by decide), Entries.get_insert_ne (by decide), ← defaulted] at hports
  refine ⟨(Option.some.inj hid).symm, (Option.some.inj hname).symm, (Option.some.inj hen).symm,
    (Option.some.inj hpub).symm, fun d₀ hd₀ => ?_⟩
  obtain ⟨-, -, -, -, -, happ₀, hports₀⟩ := readBridge_iff.mp hd₀
  refine ⟨Option.some.inj (happ.symm.trans happ₀), ?_⟩
  have hsame : ps = d₀.ports := Option.some.inj (hports.symm.trans hports₀)
  exact hsame ▸ hnamed

def PortsTabular (t : Table) : Prop :=
  Entries.get "port" t = none ∨ (∃ ts, Entries.get "port" t = some (.arrayOfTables ts)) ∨
    Entries.get "port" t = some (.value (.array []))

theorem portsOf_reads (hd : readBridge (Table.plain t) = some d) (hp : PortsTabular t) :
    (portsOf t).map (fun p => readPort (Table.plain p)) = d.ports.map some := by
  obtain ⟨-, -, -, -, -, -, hports⟩ := readBridge_iff.mp hd
  rw [defaulted, get_plain] at hports
  rw [portsOf]
  rcases hp with hg | ⟨ts, hg⟩ | hg
  · rw [hg] at hports ⊢
    rw [← Option.some.inj hports]
    rfl
  · rw [hg]
    exact ports_of_read hg hd
  · rw [hg, Option.map_some, Item.plain] at hports
    rw [hg, ← Option.some.inj hports]
    rfl

/-- Ports in another shape are not seen, and there are some. -/
theorem portsOf_lost (hd : readBridge (Table.plain t) = some d) (hp : ¬PortsTabular t) :
    portsOf t = [] ∧ d.ports ≠ [] := by
  obtain ⟨-, -, -, -, -, -, hports⟩ := readBridge_iff.mp hd
  rw [defaulted, get_plain] at hports
  rw [portsOf]
  cases hg : Entries.get "port" t with
  | none => exact absurd (.inl hg) hp
  | some i =>
    rw [hg, Option.map_some] at hports
    cases i with
    | arrayOfTables ts => exact absurd (.inr (.inl ⟨ts, hg⟩)) hp
    | table es => simp [Item.plain, Val.asList] at hports
    | value v =>
      refine ⟨rfl, fun hnil => hp (.inr (.inr ?_))⟩
      rw [Item.plain] at hports
      cases v with
      | array vs =>
        have hvs := mapM_some_iff.mp hports
        rw [hnil, List.map_nil, List.map_eq_nil_iff] at hvs
        rw [hg, hvs]
      | boolean => simp [Val.asList] at hports
      | integer => simp [Val.asList] at hports
      | float => simp [Val.asList] at hports
      | datetime => simp [Val.asList] at hports
      | string => simp [Val.asList] at hports
      | table => simp [Val.asList] at hports

theorem readBridge_setPorts (hd : readBridge (Table.plain t) = some d) (ts : List Table) :
    readBridge (Table.plain (setPorts ts t)) = some d' ↔
      ∃ ps, ts.map (fun p => readPort (Table.plain p)) = ps.map some ∧
      d' = { d with ports := ps } := by
  rw [setPorts, Table.plain, plain_insert, readBridge_insert_port hd]
  simp only [Item.plain, plainTables_eq, Val.asList, mapM_some_iff, List.map_map, Function.comp_def]

theorem jsonPort_reads (hp : jsonPort defn = some p) (ht : jsonToTable defn = .ok t) :
    readPort (Table.plain t) = some p := by
  obtain ⟨es, rfl, hes⟩ := jsonToTable_plain ht
  simp only [jsonPort, hes, Except.toOption, bind, Option.bind_some, Option.bind_eq_some_iff] at hp
  obtain ⟨_, -, _, -, hp⟩ := hp
  split at hp
  · exact hp
  · cases hp

theorem portIndex_ok (h : portIndex t port = some j) :
    ∃ ts, Entries.get "port" t = some (.arrayOfTables ts) ∧ portsOf t = ts ∧
      ts.findIdx? (fun p => str p "id" == some port) = some j := by
  simp only [portIndex, bind, Option.bind_eq_some_iff] at h
  obtain ⟨i, hi, ts, hts, hj⟩ := h
  cases i with
  | value => cases hts
  | table => cases hts
  | arrayOfTables ts' =>
    obtain rfl := Option.some.inj hts
    refine ⟨ts', hi, ?_, hj⟩
    rw [portsOf, hi]
    rfl

/-- A port has the same place among the tables and among what they are read
as. -/
theorem portIndex_eq {ts : List Table} {ps : List PortDef}
    (h : ts.map (fun p => readPort (Table.plain p)) = ps.map some) (port : String) :
    ts.findIdx? (fun p => str p "id" == some port) = ps.findIdx? (fun p => p.id == some port) := by
  have hids : ts.map (fun p => str p "id") = ps.map PortDef.id := by
    induction ts generalizing ps with
    | nil => cases ps <;> simp_all
    | cons t ts ih =>
      cases ps with
      | nil => simp at h
      | cons p ps =>
        obtain ⟨hp, hps⟩ := List.cons.inj h
        rw [List.map_cons, List.map_cons, ih hps, (port_id_of_read hp).2]
  have hfind : (ts.map (fun p => str p "id")).findIdx? (· == some port) =
      (ps.map PortDef.id).findIdx? (· == some port) := by
    rw [hids]
  rwa [List.findIdx?_map, List.findIdx?_map] at hfind

def Changed (f f' : ConfigFile) (bridge : String) (P : BridgeDef → BridgeDef → Prop) : Prop :=
  ∃ i b b', f.bridge.findIdx? (fun b => b.id == some bridge) = some i ∧
    f.bridge[i]? = some b ∧ P b b' ∧ f' = { f with bridge := f.bridge.set i b' }

def Removed (f f' : ConfigFile) (kind : Kind) (oid : String) : Prop :=
  ∃ i, (objects kind f).findIdx? (fun d => defId kind d == some oid) = some i ∧
    f' = withObjects kind f ((objects kind f).eraseIdx i)

/-- The old ports, as they were apart from ids made explicit, and the new one
behind them. -/
def PortAdded (defn : Json) (b b' : BridgeDef) : Prop :=
  ∃ p ps, jsonPort defn = some p ∧ Named (b.ports ++ [p]) ps ∧ b' = { b with ports := ps }

def PortUpdated (port : String) (defn : Json) (b b' : BridgeDef) : Prop :=
  ∃ j p, b.ports.findIdx? (fun p => p.id == some port) = some j ∧ jsonPort defn = some p ∧
    b' = { b with ports := b.ports.set j { p with id := some port } }

def PortRemoved (port : String) (b b' : BridgeDef) : Prop :=
  ∃ j, b.ports.findIdx? (fun p => p.id == some port) = some j ∧
    b' = { b with ports := b.ports.eraseIdx j }

theorem removed_of_edit (h : readFile (Table.plain doc) = some f)
    (ht : Doc.table doc kind oid = some t)
    (h' : readFile (Table.plain (Doc.remove doc kind oid)) = some f') : Removed f f' kind oid := by
  obtain ⟨i, d, hf⟩ := found_of_table h ht
  rw [remove_reads h hf] at h'
  exact ⟨i, hf.place, (Option.some.inj h').symm⟩

/-- A bridge's table that is changed changes the bridge read of it. -/
theorem changed_of_edit (h : readFile (Table.plain doc) = some f)
    (ht : Doc.table doc .bridge bridge = some t)
    (h' : readFile (Table.plain (Doc.modify doc .bridge bridge g)) = some f')
    {P : BridgeDef → BridgeDef → Prop} (hP : ∀ b b', readBridge (Table.plain t) = some b →
      readBridge (Table.plain (g t)) = some b' → P b b') : Changed f f' bridge P := by
  obtain ⟨i, b, hf⟩ := found_of_table h ht
  obtain ⟨b', hb', rfl⟩ := (modify_reads h hf g).mp h'
  exact ⟨i, b, b', hf.place, hf.object, hP b b' hf.reads hb', rfl⟩

theorem named_length (h : Named ps ps') : ps.length = ps'.length := List.Forall₂.length_eq h

/-- The new port is behind the old ones, unless these are written as an inline
array. -/
theorem addPort_exact (h : readFile (Table.plain doc) = some f)
    (hrun : addPort complaint doc w bridge defn = .ok (made, doc'))
    (h' : readFile (Table.plain doc') = some f') :
    Changed f f' bridge (PortAdded defn) ↔
      ∀ t, Doc.table doc .bridge bridge = some t → PortsTabular t := by
  obtain ⟨p, t, pt, hp, ht, hpt, rfl⟩ := addPort_ok hrun
  obtain ⟨i, b, hf⟩ : ∃ (i : Nat) (b : BridgeDef), Found doc f .bridge bridge i t b :=
    found_of_table h ht
  obtain ⟨b', hb', hf'⟩ : ∃ b' : BridgeDef,
      readBridge (Table.plain (namePorts (setPorts (portsOf t ++ [pt]) t))) = some b' ∧
        f' = { f with bridge := f.bridge.set i b' } := (modify_reads h hf _).mp h'
  have hread : readPort (Table.plain pt) = some p := jsonPort_reads hp hpt
  obtain ⟨qs, hqs, hnamed⟩ := namePorts_reads_back hb'
  obtain ⟨ps, hps, hbq⟩ := (readBridge_setPorts hf.reads _).mp hqs
  have hport : qs = ps := congrArg BridgeDef.ports hbq
  have hb : b' = { b with ports := b'.ports } := by
    cases b'
    simp_all
  constructor
  · rintro ⟨i', b₁, b₂, hi, hget, ⟨p', ps', -, hn, rfl⟩, he⟩ t' ht'
    obtain rfl : t = t' := Option.some.inj (ht.symm.trans ht')
    by_contra hw
    obtain ⟨hnone, hsome⟩ := portsOf_lost hf.reads hw
    obtain rfl : i = i' := Option.some.inj (hf.place.symm.trans hi)
    obtain rfl : b = b₁ := Option.some.inj (hf.object.symm.trans hget)
    have hlt : i < f.bridge.length := (List.getElem?_eq_some_iff.mp hf.object).1
    have hset : f.bridge.set i b' = f.bridge.set i { b with ports := ps' } :=
      congrArg ConfigFile.bridge (hf'.symm.trans he)
    have hsame : b' = { b with ports := ps' } := by
      have hi := congrArg (fun l => l[i]?) hset
      simp only [List.getElem?_set_self hlt, Option.some.injEq] at hi
      exact hi
    have hlen := congrArg List.length hps
    rw [hnone, List.nil_append, List.length_map, List.length_map, List.length_singleton] at hlen
    have hlen' := named_length hnamed
    have hlen'' := named_length hn
    rw [List.length_append, List.length_singleton] at hlen''
    have hpos : 0 < b.ports.length := List.length_pos_iff.mpr hsome
    rw [hport] at hlen'
    have : b'.ports.length = ps'.length := by rw [hsame]
    omega
  · intro hw
    have hold := portsOf_reads hf.reads (hw t ht)
    rw [List.map_append, hold, List.map_cons, List.map_nil, hread] at hps
    have hall : ps = b.ports ++ [p] := (map_some_inj (by rw [List.map_append]; exact hps)).symm
    refine ⟨i, b, b', hf.place, hf.object, ⟨p, b'.ports, hp, ?_, hb⟩, hf'⟩
    rw [← hall, ← hport]
    exact hnamed

theorem updatePort_exact (h : readFile (Table.plain doc) = some f)
    (hrun : updatePort complaint doc w bridge port defn = .ok doc')
    (h' : readFile (Table.plain doc') = some f') : Changed f f' bridge (PortUpdated port defn) := by
  obtain ⟨p, t, j, pt, hp, ht, hj, hpt, rfl⟩ := updatePort_ok hrun
  refine changed_of_edit h ht h' (fun b b' hb hb' => ?_)
  obtain ⟨ts, hg, hts, hfind⟩ := portIndex_ok hj
  have hread := ports_of_read hg hb
  have hnew : readPort (Table.plain (Entries.insert "id" (value port) pt)) =
      some { p with id := some port } := by
    rw [Table.plain, plain_insert, value_plain]
    exact readPort_insert_id (jsonPort_reads hp hpt) port
  obtain ⟨ps, hps, rfl⟩ := (readBridge_setPorts hb _).mp hb'
  rw [hts, List.map_set, hread, hnew, ← List.map_set] at hps
  refine ⟨j, p, (portIndex_eq hread port).symm.trans hfind, hp, ?_⟩
  rw [map_some_inj hps]

theorem removePort_exact (h : readFile (Table.plain doc) = some f)
    (hrun : removePort doc w bridge port = .ok doc')
    (h' : readFile (Table.plain doc') = some f') : Changed f f' bridge (PortRemoved port) := by
  obtain ⟨t, j, ht, hj, rfl⟩ := removePort_ok hrun
  refine changed_of_edit h ht h' (fun b b' hb hb' => ?_)
  obtain ⟨ts, hg, hts, hfind⟩ := portIndex_ok hj
  have hread := ports_of_read hg hb
  obtain ⟨ps, hps, rfl⟩ := (readBridge_setPorts hb _).mp hb'
  rw [hts, ← List.eraseIdx_map, hread, List.eraseIdx_map] at hps
  refine ⟨j, (portIndex_eq hread port).symm.trans hfind, ?_⟩
  rw [map_some_inj hps]

end

inductive Request where
  | createBridge (defn : Json)
  | cloneBridge (source : String) (newId : Option String) (name : String)
  | createObject (kind : Kind) (defn : Json)
  | deleteBridge (bridge : String)
  | deleteObject (kind : Kind) (oid : String)
  | addPort (bridge : String) (defn : Json)
  | updatePort (bridge port : String) (defn : Json)
  | removePort (bridge port : String)

/-- What an edit meets besides the document: the crates, static files as they
are now, what serde says about a bad port, and the static config. -/
structure Surroundings where
  toml : TomlLib Table
  reads : String → Except String String
  complaint : Json → String
  world : World

def Request.run (s : Surroundings) (doc : Table) : Request → Except ApiError (Option String × Table)
  | .createBridge defn => (Control.createBridge doc s.world defn).map (fun r => (some r.1, r.2))
  | .cloneBridge source newId name =>
    (Control.cloneBridge s.toml s.reads doc s.world source newId name).map
      (fun r => (some r.1, r.2))
  | .createObject kind defn =>
    (Control.createObject doc s.world kind defn).map (fun r => (some r.1, r.2))
  | .deleteBridge bridge => (Control.deleteBridge doc s.world bridge).map (fun doc => (none, doc))
  | .deleteObject kind oid =>
    (Control.deleteObject doc s.world kind oid).map (fun doc => (none, doc))
  | .addPort bridge defn => Control.addPort s.complaint doc s.world bridge defn
  | .updatePort bridge port defn =>
    (Control.updatePort s.complaint doc s.world bridge port defn).map (fun doc => (none, doc))
  | .removePort bridge port =>
    (Control.removePort doc s.world bridge port).map (fun doc => (none, doc))

/-- The file with exactly this edit made, and nothing else changed. -/
def Request.Makes (s : Surroundings) (doc : Table) (made : Option String) (f f' : ConfigFile) :
    Request → Prop
  | .createBridge defn =>
      ∃ bid d, made = some bid ∧ Created bid defn d ∧ f' = { f with bridge := f.bridge ++ [d] }
  | .cloneBridge source _ name =>
    ∃ bid t d, made = some bid ∧ cloneSource s.toml s.reads doc s.world source = .ok t ∧
      Copied bid name t d ∧ f' = { f with bridge := f.bridge ++ [d] }
  | .createObject kind defn => ∃ vs d, said defn = some vs ∧ readDef kind (.table vs) = some d ∧
      f' = withObjects kind f (objects kind f ++ [d])
  | .deleteBridge bridge => Removed f f' .bridge bridge
  | .deleteObject kind oid => Removed f f' kind oid
  | .addPort bridge defn => Changed f f' bridge (PortAdded defn)
  | .updatePort bridge port defn => Changed f f' bridge (PortUpdated port defn)
  | .removePort bridge port => Changed f f' bridge (PortRemoved port)

/-- What an edit adds to is not written as an inline array: the objects of the
kind, or a bridge's ports if it has any. -/
def Request.Fits (doc : Table) : Request → Prop
  | .createBridge _ => Tabular doc .bridge
  | .cloneBridge .. => Tabular doc .bridge
  | .createObject kind _ => Tabular doc kind
  | .addPort bridge _ => ∀ t, Doc.table doc .bridge bridge = some t → PortsTabular t
  | .deleteBridge _ | .deleteObject .. | .updatePort .. | .removePort .. => True

theorem run_exact {s : Surroundings} {req : Request} (h : readFile (Table.plain doc) = some f)
    (hrun : req.run s doc = .ok (made, doc')) (h' : readFile (Table.plain doc') = some f') :
    req.Makes s doc made f f' ↔ req.Fits doc := by
  cases req with
  | createBridge defn =>
    obtain ⟨⟨bid, doc''⟩, hcreate, he⟩ := map_ok hrun
    obtain ⟨rfl, rfl⟩ := Prod.mk.inj he
    obtain ⟨name, t, -, hfree, -, ht, rfl⟩ := createBridge_ok hcreate
    have hnew : Doc.indexOf doc .bridge bid = none :=
      indexOf_none (fun hm => hfree (List.mem_append_right _ hm))
    refine Iff.trans ?_
      (put_exact h hnew h' (P := Created bid defn) (fun d hd => created_of_read ht hd))
    constructor
    · rintro ⟨_, d, hbid, hd, he⟩
      obtain rfl := Option.some.inj hbid
      exact ⟨d, hd, he⟩
    · rintro ⟨d, hd, he⟩
      exact ⟨bid, d, rfl, hd, he⟩
  | cloneBridge source newId name =>
    obtain ⟨⟨bid, doc''⟩, hclone, he⟩ := map_ok hrun
    obtain ⟨rfl, rfl⟩ := Prod.mk.inj he
    obtain ⟨t, hsource, hfree, -, rfl⟩ := cloneBridge_ok hclone
    have hnew : Doc.indexOf doc .bridge bid = none :=
      indexOf_none (fun hm => hfree (List.mem_append_right _ hm))
    refine Iff.trans ?_
      (put_exact h hnew h' (P := Copied bid name t) (fun d hd => copied_of_read hd))
    constructor
    · rintro ⟨_, t', d, hbid, hsource', hd, he⟩
      obtain rfl := Option.some.inj hbid
      obtain rfl := Except.ok.inj (hsource.symm.trans hsource')
      exact ⟨d, hd, he⟩
    · rintro ⟨d, hd, he⟩
      exact ⟨bid, t, d, rfl, hsource, hd, he⟩
  | createObject kind defn =>
    obtain ⟨⟨oid, doc''⟩, hcreate, he⟩ := map_ok hrun
    obtain ⟨rfl, rfl⟩ := Prod.mk.inj he
    obtain ⟨t, -, hfree, ht, rfl⟩ := createObject_ok hcreate
    have hnew : Doc.indexOf doc kind oid = none :=
      indexOf_none (fun hm => hfree (List.mem_append_right _ hm))
    have hsaid := said_of_table ht
    refine Iff.trans ?_
      (put_exact h hnew h' (P := fun d => readDef kind (Table.plain t) = some d) (fun d hd => hd))
    constructor
    · rintro ⟨vs, d, hvs, hd, he⟩
      obtain rfl := Option.some.inj (hsaid.symm.trans hvs)
      exact ⟨d, hd, he⟩
    · rintro ⟨d, hd, he⟩
      exact ⟨_, d, hsaid, hd, he⟩
  | deleteBridge bridge =>
    obtain ⟨doc'', hdelete, he⟩ := map_ok hrun
    obtain ⟨-, rfl⟩ := Prod.mk.inj he
    obtain ⟨t, ht, rfl⟩ := deleteBridge_ok hdelete
    exact iff_of_true (removed_of_edit h ht h') trivial
  | deleteObject kind oid =>
    obtain ⟨doc'', hdelete, he⟩ := map_ok hrun
    obtain ⟨-, rfl⟩ := Prod.mk.inj he
    obtain ⟨t, ht, rfl⟩ := deleteObject_ok hdelete
    exact iff_of_true (removed_of_edit h ht h') trivial
  | addPort bridge defn => exact addPort_exact h hrun h'
  | updatePort bridge port defn =>
    obtain ⟨doc'', hupdate, he⟩ := map_ok hrun
    obtain ⟨-, rfl⟩ := Prod.mk.inj he
    exact iff_of_true (updatePort_exact h hupdate h') trivial
  | removePort bridge port =>
    obtain ⟨doc'', hremove, he⟩ := map_ok hrun
    obtain ⟨-, rfl⟩ := Prod.mk.inj he
    exact iff_of_true (removePort_exact h hremove h') trivial

theorem reads_of_store (hr : Reads toml) (hfile : toml.parseFile text = .ok f)
    (hstore : DynamicStore.fromText toml path (some text) = .ok store) :
    readFile (Table.plain store.doc) = some f := by
  rw [DynamicStore.fromText, Option.getD_some] at hstore
  cases hdoc : toml.parseDoc (stripHeader text) with
  | error e => rw [hdoc] at hstore; cases hstore
  | ok doc =>
    rw [hdoc] at hstore
    obtain rfl := Except.ok.inj hstore
    refine (hr.document _ _ hdoc f).mp ?_
    rw [stripHeader]
    split
    · rename_i hp
      refine (hr.header _ f).mp ?_
      have htext : DYNAMIC_HEADER ++
          String.ofList (text.toList.drop DYNAMIC_HEADER.toList.length) = text := by
        rw [← String.toList_inj, String.toList_append, String.toList_ofList]
        exact List.prefix_iff_eq_append.mp (List.isPrefixOf_iff_prefix.mp hp)
      rwa [htext]
    · exact hfile

theorem reads_of_text (hr : Reads toml) (store : DynamicStore Table) :
    toml.parseFile (store.text toml) = .ok f ↔ readFile (Table.plain store.doc) = some f := by
  rw [← hr.written, DynamicStore.text]
  split
  · rfl
  · exact hr.header _ f

/-- Whenever an edit of a loaded `dynamic.toml` succeeds, the saved text loads
as the old content with exactly that edit made, iff what the edit adds to is
not written as an inline array. -/
theorem edit_exact_iff {s : Surroundings} {req : Request} {store : DynamicStore Table}
    (hr : Reads s.toml) (hfile : s.toml.parseFile text = .ok f)
    (hstore : DynamicStore.fromText s.toml path (some text) = .ok store)
    (hrun : req.run s store.doc = .ok (made, doc'))
    (hsaved : s.toml.parseFile (({ store with doc := doc' } : DynamicStore Table).text s.toml) =
      .ok f') : req.Makes s store.doc made f f' ↔ req.Fits store.doc :=
  run_exact (reads_of_store hr hfile hstore) hrun ((reads_of_text hr _).mp hsaved)

def adapterTable (id mac : String) : Table := [("id", value id), ("mac", value mac)]

def inlineBridge (port : List (String × Item)) : Table :=
  [("id", value "ktbr1"), ("name", value "Relay")] ++ port

def inlinePort : Val :=
  .table [("type", .string "tcp-client"), ("address", .string "192.168.4.1:8001")]

def inlineDoc : Table :=
  [("bridge", .arrayOfTables [inlineBridge [("port", .value (.array [inlinePort]))]])]

def adaptersDoc (ts : List Table) : Table := ("adapter", .arrayOfTables ts) :: inlineDoc

def uartTable : Table := adapterTable "uart" "B8:27:EB:12:34:56"

def usbTable : Table := adapterTable "usb" "00:1A:7D:DA:71:13"

def lanJson : Json := .object [("listen", .string "8001"), ("type", .string "tcp-server")]

def lanTable : Table :=
  [("listen", value "8001"), ("type", value "tcp-server"), ("id", value "tcp-server0")]

def lostDoc : Table :=
  [("bridge", .arrayOfTables [inlineBridge [("port", .arrayOfTables [lanTable])]])]

def inlineText : String :=
  "[[bridge]]\nid = \"ktbr1\"\nname = \"Relay\"\n" ++
  "port = [\x7b type = \"tcp-client\", address = \"192.168.4.1:8001\" \x7d]\n"

def lostText : String :=
  "[[bridge]]\nid = \"ktbr1\"\nname = \"Relay\"\n\n" ++
  "[[bridge.port]]\nlisten = \"8001\"\ntype = \"tcp-server\"\nid = \"tcp-server0\"\n"

def uartText : String := "[[adapter]]\nid = \"uart\"\nmac = \"B8:27:EB:12:34:56\"\n\n"

def usbText : String := "[[adapter]]\nid = \"usb\"\nmac = \"00:1A:7D:DA:71:13\"\n\n"

def relayTexts : List (Table × String) :=
  [(adaptersDoc [uartTable], uartText ++ inlineText),
    (adaptersDoc [uartTable, usbTable], uartText ++ usbText ++ inlineText),
    (inlineDoc, inlineText), (lostDoc, lostText)]

theorem relayTexts_apart : Apart relayTexts where
  docs := by
    simp [relayTexts, adaptersDoc, inlineDoc, lostDoc, inlineBridge]
  texts := by decide +kernel
  heads := by decide +kernel

noncomputable def relaySurroundings : Surroundings :=
  ⟨crates relayTexts, fun _ => .error "no such file", fun _ => "",
    ⟨[], ⟨⟨"info", .default⟩, ⟨"kiss"⟩, [], [], []⟩⟩⟩

theorem relay_loads (hm : (doc, t) ∈ relayTexts) (h : readFile (Table.plain doc) = some f) :
    relaySurroundings.toml.parseFile t = .ok f := by
  have hr := ((reads_crates relayTexts_apart).written doc f).mpr h
  have ht : (crates relayTexts).docText doc = t := textOf_mem relayTexts_apart hm
  rwa [ht] at hr

theorem relay_store (hm : (doc, t) ∈ relayTexts) (ht : t.toList.head? ≠ some '#') :
    DynamicStore.fromText relaySurroundings.toml "dynamic.toml" (some t) =
      .ok ⟨"dynamic.toml", doc, some (revision t)⟩ := by
  rw [DynamicStore.fromText, Option.getD_some, ChangeSteps.stripHeader_of_head ht]
  have hp : relaySurroundings.toml.parseDoc t = .ok doc := crates_parseDoc relayTexts_apart hm
  rw [hp]
  rfl

def usbJson : Json := .object [("id", .string "usb"), ("mac", .string "00:1A:7D:DA:71:13")]

def inlineFile : ConfigFile :=
  { bridge := [⟨some "ktbr1", "Relay", none, none, none,
      [⟨none, none, .tcpClient "192.168.4.1:8001" none none⟩]⟩] }

def lostFile : ConfigFile :=
  { bridge := [⟨some "ktbr1", "Relay", none, none, none,
      [⟨some "tcp-server0", none, .tcpServer "8001" none none none⟩]⟩] }

def uartFile : ConfigFile := { inlineFile with adapter := [⟨"uart", "B8:27:EB:12:34:56"⟩] }

/-- Adding an adapter leaves the other one and the bridge as they are. -/
theorem edit_exact_iff_usb :
    (Request.createObject .adapter usbJson).Makes relaySurroundings (adaptersDoc [uartTable])
      (some "usb") uartFile
      { uartFile with adapter := uartFile.adapter ++ [⟨"usb", "00:1A:7D:DA:71:13"⟩] } := by
  have hin : (adaptersDoc [uartTable], uartText ++ inlineText) ∈ relayTexts := List.mem_cons_self ..
  have hread : readFile (Table.plain (adaptersDoc [uartTable])) = some uartFile := by decide +kernel
  have hrun : (Request.createObject .adapter usbJson).run relaySurroundings
    (adaptersDoc [uartTable]) = .ok (some "usb", adaptersDoc [uartTable, usbTable]) := rfl
  have hread' : readFile (Table.plain (adaptersDoc [uartTable, usbTable])) =
      some { uartFile with adapter := uartFile.adapter ++ [⟨"usb", "00:1A:7D:DA:71:13"⟩] } := by
    decide +kernel
  exact (edit_exact_iff (reads_crates relayTexts_apart) (relay_loads hin hread)
    (relay_store hin (by decide +kernel)) hrun
    ((reads_of_text (reads_crates relayTexts_apart) _).mpr hread')).mpr (.inr ⟨[uartTable], rfl⟩)

/-- Adding a port to a bridge whose ports are an inline array loses them. -/
theorem addPort_loses_ports :
    relaySurroundings.toml.parseFile inlineText = .ok inlineFile ∧
      (∃ store, DynamicStore.fromText relaySurroundings.toml "dynamic.toml"
        (some inlineText) = .ok store ∧
        (Request.addPort "ktbr1" lanJson).run relaySurroundings store.doc =
          .ok (some "tcp-server0", lostDoc) ∧ relaySurroundings.toml.parseFile
          (({ store with doc := lostDoc } : DynamicStore Table).text relaySurroundings.toml) =
            .ok lostFile ∧
        ¬(Request.addPort "ktbr1" lanJson).Makes relaySurroundings store.doc
          (some "tcp-server0") inlineFile
          lostFile) := by
  have hin : (inlineDoc, inlineText) ∈ relayTexts := by simp [relayTexts]
  have hread : readFile (Table.plain inlineDoc) = some inlineFile := by decide +kernel
  have hread' : readFile (Table.plain lostDoc) = some lostFile := by decide +kernel
  have hrun : (Request.addPort "ktbr1" lanJson).run relaySurroundings inlineDoc =
      .ok (some "tcp-server0", lostDoc) := rfl
  refine ⟨relay_loads hin hread, _, relay_store hin (by decide +kernel), hrun,
    (reads_of_text (reads_crates relayTexts_apart) _).mpr hread', fun hmakes => ?_⟩
  have hfits := (run_exact hread hrun hread').mp hmakes
  rcases hfits _ rfl with hg | ⟨ts, hg⟩ | hg <;> cases hg

end KissTncBridge.Proofs.Edits
