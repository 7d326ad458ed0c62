import KissTncBridge.Proofs.RenamedConfig
import KissTncBridge.Proofs.SetAside

namespace KissTncBridge.Proofs.RenamedReferences
open Conf Control BuildFacts DocumentReads EditSteps EffectiveObjects Lib References RenamedConfig
  RenamedFile RenamedPorts Renaming StaticConfig Supervisor Toml ValidConfig
open ChangeSteps (head_append)
open Crates (Apart crates reads_crates textOf_mem)
open Edits (adapterTable reads_of_text said said_of_table usbJson)
open SetAside (clubEnv clubStatics clubConfig loneBridge loneText)

variable {net : IpNetLib} {statics : List (Source × ConfigFile)} {doc doc' : Table}
    {f f' : ConfigFile} {cfg cfg' : Config} {kind : Kind} {oid target : String}

/-- Wherever a reference is recorded, the port at that place of the first table with the
bridge's id, unless it is set aside, means the object. -/
def Lands (statics : List (Source × ConfigFile)) (sc : Scope) (doc : Table) (kind : Kind)
    (oid : String) : Prop :=
  ∀ b ∈ Doc.tables doc .bridge, ∀ (i : Nat) (q : Table), (portsOf b)[i]? = some q →
    str q (refKey kind) = some oid →
      ∀ u, Doc.table doc .bridge ((str b "id").getD "?") = some u →
        ¬Clash statics .bridge (str u "id") (str u "name") →
          ∀ (r : Table) (p : PortDef), (portsOf u)[i]? = some r →
            readPort (Table.plain r) = some p → Means sc kind oid p.kind

theorem mem_portReferences {b : Table} :
    .port bid i k ∈ (portReferences k oid b).map Reference.path ↔
    (str b "id").getD "?" = bid ∧ ∃ q, (portsOf b)[i]? = some q ∧ str q k = some oid := by
  constructor
  · intro h
    obtain ⟨r, hr, hpath⟩ := List.mem_map.mp h
    obtain ⟨⟨q, n⟩, hq, hr⟩ := List.mem_filterMap.mp hr
    dsimp only at hr
    split at hr
    · rename_i href
      cases hr
      cases hpath
      exact ⟨rfl, q, List.mem_zipIdx_iff_getElem?.mp hq, by simpa using href⟩
    · cases hr
  · rintro ⟨rfl, q, hq, href⟩
    refine List.mem_map.mpr ⟨⟨.port ((str b "id").getD "?") i k, "bridge " ++
        (str b "id").getD "?" ++ " port " ++ (str q "id").getD "?"⟩,
      List.mem_filterMap.mpr ⟨(q, i), List.mem_zipIdx_iff_getElem?.mpr hq, ?_⟩, rfl⟩
    dsimp only
    rw [href, if_pos (beq_self_eq_true _)]

theorem mem_paths_port (hk : kind ≠ .bridge) : .port bid i (refKey kind) ∈ paths doc kind oid ↔
    ∃ b ∈ Doc.tables doc .bridge, (str b "id").getD "?" = bid ∧
      ∃ q, (portsOf b)[i]? = some q ∧ str q (refKey kind) = some oid := by
  have hports : .port bid i (refKey kind) ∈ ((Doc.tables doc .bridge).flatMap
      (portReferences (refKey kind) oid)).map Reference.path ↔
        ∃ b ∈ Doc.tables doc .bridge, (str b "id").getD "?" = bid ∧
          ∃ q, (portsOf b)[i]? = some q ∧ str q (refKey kind) = some oid := by
    rw [List.map_flatMap, List.mem_flatMap]
    exact exists_congr (fun b => and_congr_right (fun _ => mem_portReferences))
  cases kind with
  | bridge => exact absurd rfl hk
  | tnc => exact hports
  | adapter =>
    rw [← hports, paths, references, List.map_append, List.mem_append, or_iff_left]
    · rfl
    · intro h
      obtain ⟨r, hr, hpath⟩ := List.mem_map.mp h
      obtain ⟨t, -, hr⟩ := List.mem_flatMap.mp hr
      obtain ⟨tid, sect, hsect, -⟩ := sectionReferences_path hr
      rw [hsect] at hpath
      cases hpath

/-- Ports that are found in a table are those that are read of it. -/
theorem port_read {u : Table} {d : BridgeDef} {i : Nat} (hd : readBridge (Table.plain u) = some d)
    (hr : (portsOf u)[i]? = some r) :
    ∃ p : PortDef, d.ports[i]? = some p ∧ readPort (Table.plain r) = some p := by
  cases hg : portTables u with
  | none =>
    rw [portsOf_eq, hg] at hr
    cases hr
  | some ts =>
    rw [portsOf_eq, hg, Option.getD_some] at hr
    have hn := congrArg (·[i]?) (ports_read hg hd)
    simp only [List.getElem?_map, hr, Option.map_some] at hn
    obtain ⟨p, hp, hread⟩ := Option.map_eq_some_iff.mp hn.symm
    exact ⟨p, hp, hread.symm⟩

/-- A bridge that is found by its id, and what its table is read as. -/
theorem bridge_of_table (h : readFile (Table.plain doc) = some f)
    (hu : Doc.table doc .bridge bid = some u) :
    ∃ d : BridgeDef, d ∈ f.bridge ∧ readBridge (Table.plain u) = some d ∧ d.id = some bid ∧
      str u "name" = some d.name := by
  obtain ⟨n, d, hfound⟩ := found_of_table h hu
  have hread : readBridge (Table.plain u) = some d := hfound.reads
  have hid : d.id = some bid :=
    (defId_of_read hfound.reads).symm.trans (StoredObjects.table_id hu)
  exact ⟨d, List.mem_of_getElem? hfound.object, hread, hid, name_of_read hread⟩

theorem mem_kept_bridge {d : BridgeDef} : d ∈ (setAsideCollisions statics f).1.bridge ↔
    d ∈ f.bridge ∧ ¬Clash statics .bridge d.id (some d.name) := @mem_kept statics f .bridge d

/-- What a rename writes, as the document has it. -/
theorem lands_iff (hk : kind ≠ .bridge) (h : readFile (Table.plain doc) = some f)
    (hd : Distinct statics .bridge f) {sc : Scope} :
    (∀ d ∈ (setAsideCollisions statics f).1.bridge, ∀ i p, d.ports[i]? = some p →
      writes doc kind oid (d.id.getD "?") d.name i = true → Means sc kind oid p.kind) ↔
        Lands statics sc doc kind oid := by
  constructor
  · intro hall b hb i q hq href u hu hclash r p hr hp
    obtain ⟨d, hmem, hread, hid, hname⟩ := bridge_of_table h hu
    rw [StoredObjects.table_id hu, hname, ← hid] at hclash
    have hm : d ∈ (setAsideCollisions statics f).1.bridge := mem_kept_bridge.mpr ⟨hmem, hclash⟩
    obtain ⟨p', hp', hread'⟩ := port_read hread hr
    obtain rfl : p = p' := Option.some.inj (hp.symm.trans hread')
    refine hall d hm i p hp' ?_
    rw [hid, Option.getD_some, writes, hu, Bool.and_eq_true, List.contains_iff_mem]
    refine ⟨(mem_paths_port hk).mpr ⟨b, hb, rfl, q, hq, href⟩, ?_⟩
    rw [Option.any_some, hname, beq_self_eq_true, Bool.true_and, decide_eq_true_eq]
    exact (List.getElem?_eq_some_iff.mp hr).1
  · intro hlands d hm i p hp hw
    rw [writes, Bool.and_eq_true, List.contains_iff_mem] at hw
    obtain ⟨hpath, htable⟩ := hw
    obtain ⟨b, hb, hbid, q, hq, href⟩ := (mem_paths_port hk).mp hpath
    obtain ⟨bid, hid⟩ := Option.ne_none_iff_exists'.mp (hd.2 d hm)
    have hid : d.id = some bid := hid
    rw [hid, Option.getD_some] at htable hbid
    obtain ⟨u, hu, hat⟩ := (Option.any_eq_true _ _).mp htable
    rw [Bool.and_eq_true, beq_iff_eq, decide_eq_true_eq] at hat
    obtain ⟨huname, hlt⟩ := hat
    obtain ⟨e, hmem, hread, heid, hname⟩ := bridge_of_table h hu
    have heid : e.id = d.id := heid.trans hid.symm
    have hename : e.name = d.name := Option.some.inj (hname.symm.trans huname)
    obtain ⟨-, hclash⟩ := mem_kept_bridge.mp hm
    have hem : e ∈ (setAsideCollisions statics f).1.bridge := by
      refine mem_kept_bridge.mpr ⟨hmem, ?_⟩
      rw [heid, hename]
      exact hclash
    obtain rfl : e = d := List.inj_on_of_nodup_map hd.1 hem hm heid
    have hr : (portsOf u)[i]? = some (portsOf u)[i] := List.getElem?_eq_getElem hlt
    obtain ⟨p', hp', hread'⟩ := port_read hread hr
    obtain rfl : p = p' := Option.some.inj (hp.symm.trans hp')
    refine hlands b hb i q hq href u (hbid ▸ hu) ?_ _ p hr hread'
    rw [StoredObjects.table_id hu, huname, ← hid]
    exact hclash

/-- Where no two bridges that are written have one id, every reference follows. -/
theorem lands_of_distinct (hk : kind ≠ .bridge) (sc : Scope)
    (h : ((Doc.tables doc .bridge).map (fun b => (str b "id").getD "?")).Nodup) :
    Lands statics sc doc kind oid := by
  intro b hb i q hq href u hu _ r p hr hp
  have hm : u ∈ Doc.tables doc .bridge := by
    simp only [Doc.table, bind, Option.bind_eq_some_iff] at hu
    obtain ⟨ts, hts, n, -, hget⟩ := hu
    rw [Doc.tables, hts]
    exact List.mem_of_getElem? hget
  obtain rfl : u = b := by
    refine List.inj_on_of_nodup_map h hm hb ?_
    rw [StoredObjects.table_id hu, Option.getD_some]
  obtain rfl : r = q := Option.some.inj (hr.symm.trans hq)
  left
  rw [← readPort_refers hk hp, ← href, str_plain]

/-- `defn` says what is stored under `oid`, which is `d`, but for its id. -/
def Same (doc : Table) (kind : Kind) (oid target : String) (defn : Json) (d : Def kind) : Prop :=
  ∃ u es, Doc.table doc kind oid = some u ∧ readDef kind (Table.plain u) = some d ∧
    said defn = some es ∧
      readDef kind (.table (Entries.insert "id" (.string target) es)) = some (withId kind d target)

theorem staticIds_idsOf {w : World} (hk : kind ≠ .bridge) (h : oid ∉ idsOf doc w kind) :
    oid ∉ staticIds w.statics kind := by
  intro hm
  refine h (List.mem_append_left _ ?_)
  cases kind with
  | bridge => exact absurd rfl hk
  | adapter => exact hm
  | tnc => exact hm

/-- A rename replaces the object and then sets the references that are found. -/
theorem rename_ok {w : World} (h : updateObject doc w kind oid defn = .ok (target, doc'))
    (hne : target ≠ oid) : ∃ t, jsonToTable defn = .ok t ∧ w.staticSource kind oid = none ∧
      target ∉ idsOf doc w kind ∧
        doc' = renameDoc doc kind oid target (Entries.insert "id" (value target) t) := by
  rw [updateObject] at h
  obtain ⟨_, he, h⟩ := bind_ok h
  obtain ⟨hs, -⟩ := editable_ok he
  simp only at h
  split at h
  · cases h
  · rename_i hfree
    obtain ⟨t, ht, h⟩ := bind_ok h
    split at h
    · rename_i hsame
      obtain ⟨rfl, -⟩ := Prod.mk.inj (Except.ok.inj h)
      exact absurd (beq_iff_eq.mp hsame) hne
    · obtain ⟨rfl, rfl⟩ := Prod.mk.inj (Except.ok.inj h)
      refine ⟨t, ht, hs, ?_, ?_⟩
      · simp only [Bool.and_eq_true, bne_iff_ne, ne_eq, List.contains_iff_mem, not_and] at hfree
        exact hfree hne
      · rw [renameDoc, setAll, paths, List.foldl_map]

/-- Something that the files define refers to an object: a port of a bridge, or to an adapter
a section of a TNC or the global setting. -/
inductive Refers (files : List (Source × ConfigFile)) (oid : String) : Kind → Prop where
  | port : d ∈ eachDef files ConfigFile.bridge → p ∈ d.2.ports →
      refersTo k p.kind = some oid → Refers files oid k
  | spp : d ∈ eachDef files ConfigFile.tnc → d.2.spp = some s → s.adapter = some oid →
      Refers files oid .adapter
  | ble : d ∈ eachDef files ConfigFile.tnc → d.2.ble = some s → s.adapter = some oid →
      Refers files oid .adapter
  | global : lastSet files (fun f => f.global.bind GlobalSection.adapter) = some (source, oid) →
      Refers files oid .adapter

def Absent (cfg : Config) (oid : String) : Kind → Prop
  | .adapter => AdapterValue.parse oid = .id oid ∧ ∀ a ∈ cfg.adapters, a.id ≠ oid
  | .tnc => ∀ t ∈ cfg.tncs, t.id ≠ oid
  | .bridge => False

theorem adapterValue_absent {adapters : List Adapter} (hp : AdapterValue.parse oid = .id oid)
    (ha : ∀ a ∈ adapters, a.id ≠ oid) (source : Source) (object : String) :
    (resolveAdapterValue adapters oid source object).2 ≠ [] := by
  have hnone : adapters.reverse.find? (fun a => a.id == oid) = none := by
    rw [List.find?_eq_none]
    intro a hm
    have hne := ha a (List.mem_reverse.mp hm)
    simp [hne]
  unfold resolveAdapterValue
  simp [hp, hnone]

theorem tncPort_absent {sc : Scope} {pick : Tnc → Option α} {mk : Tnc → α → Duration → PortKind}
    (ht : ∀ t ∈ sc.tncs, t.id ≠ oid) :
    (resolveTncPort sc source object sect oid idle pick mk).2 ≠ [] := by
  have hnone : sc.tncs.find? (fun t => t.id == oid) = none := by
    rw [List.find?_eq_none]
    intro t hm
    have hne := ht t hm
    simp [hne]
  unfold resolveTncPort
  simp [hnone]

/-- Ports that resolve do each. -/
theorem kind_of_ports {sc : Scope} {before ps : List PortDef}
    (h : (resolvePorts sc source object before ps).flatMap Prod.snd = []) (hp : p ∈ ps) :
    ∃ object', (resolveKind sc source object' p.kind).2 = [] := by
  induction ps generalizing before with
  | nil => cases hp
  | cons q ps ih =>
    simp only [resolvePorts, List.flatMap_cons, List.append_eq_nil_iff] at h
    rcases List.mem_cons.mp hp with rfl | hp
    · exact ⟨_, (List.append_eq_nil_iff.mp h.1).2⟩
    · exact ih h.2 hp

theorem ports_of_bridge {sc : Scope} {d : BridgeDef} (h : (resolveBridge sc source d).2 = [])
    (hp : p ∈ d.ports) : ∃ object, (resolveKind sc source object p.kind).2 = [] := by
  unfold resolveBridge at h
  cases hid : d.id with
  | none => simp [hid] at h
  | some bid =>
    simp only [hid, List.append_eq_nil_iff] at h
    exact kind_of_ports h.2 hp

/-- Nothing in a config that is built refers to what is not in it. -/
theorem absent_unreferred (h : Built net statics f st cfg) (ha : Absent cfg oid kind) :
    ¬Refers (gathered statics f) oid kind := by
  obtain ⟨c, hc, rfl⟩ := h.resolves
  obtain ⟨hw, rfl⟩ := (resolve_ok _ _).mp hc
  simp only [wrong, List.append_eq_nil_iff] at hw
  obtain ⟨⟨⟨-, hglobal⟩, htncs⟩, hbridges⟩ := hw
  intro hr
  cases hr with
  | port hd hp href =>
    rename_i d p
    have hb := List.flatMap_eq_nil_iff.mp hbridges _ (List.mem_map_of_mem hd)
    obtain ⟨object, hk⟩ := ports_of_bridge hb hp
    cases kind with
    | bridge => exact ha
    | adapter =>
      obtain ⟨hparse, hfree⟩ := ha
      cases hkind : p.kind with
      | bleServer adapter n =>
        rw [hkind] at hk href
        obtain rfl : adapter = some oid := href
        exact adapterValue_absent hparse hfree _ _ (List.append_eq_nil_iff.mp hk).1
      | tcpClient | tcpServer | sppClient | bleClient | serial =>
        rw [hkind] at href
        cases href
    | tnc =>
      cases hkind : p.kind with
      | sppClient | bleClient | serial =>
        rw [hkind] at hk href
        rw [Option.some.inj href] at hk
        have hfree : ∀ t ∈ (scope net (gathered statics f)).tncs, t.id ≠ oid := ha
        exact tncPort_absent hfree hk
      | tcpClient | tcpServer | bleServer =>
        rw [hkind] at href
        cases href
  | spp hd hs href =>
    have ht := List.flatMap_eq_nil_iff.mp htncs _ (List.mem_map_of_mem hd)
    rw [resolveTncDef_eq] at ht
    simp only [hs, Option.map_some, Option.getD_some, List.append_eq_nil_iff] at ht
    rw [href] at ht
    exact adapterValue_absent ha.1 ha.2 _ _ ht.1.1
  | ble hd hs href =>
    have ht := List.flatMap_eq_nil_iff.mp htncs _ (List.mem_map_of_mem hd)
    rw [resolveTncDef_eq] at ht
    simp only [hs, Option.map_some, Option.getD_some, List.append_eq_nil_iff] at ht
    rw [href] at ht
    exact adapterValue_absent ha.1 ha.2 _ _ ht.1.2
  | global hset =>
    rw [globalAdapter, hset] at hglobal
    exact adapterValue_absent ha.1 ha.2 _ _ hglobal

/-- What is made of a kind of object is defined in a static file or is kept of `dynamic.toml`. -/
theorem defined_or_kept {get : ConfigFile → List α}
    (hd : (source, d) ∈ eachDef (gathered statics f) get) :
    (∃ s ∈ statics, d ∈ get s.2) ∨ d ∈ get (setAsideCollisions statics f).1 := by
  rw [gathered, eachDef_append, List.mem_append] at hd
  rcases hd with hd | hd
  · obtain ⟨s, hs, hd⟩ := List.mem_flatMap.mp hd
    obtain ⟨x, hx, he⟩ := List.mem_map.mp hd
    cases he
    exact .inl ⟨s, hs, hx⟩
  · obtain ⟨x, hx, he⟩ := List.mem_map.mp hd
    cases he
    exact .inr hx

/-- An id that no definition has that is kept is no id of an object in effect. -/
theorem absent_of_kept (hk : kind ≠ .bridge) (h : Built net statics f st cfg)
    (hparse : kind = .adapter → AdapterValue.parse oid = .id oid)
    (hs : oid ∉ staticIds statics kind)
    (hn : ∀ d ∈ objects kind (setAsideCollisions statics f).1, defId kind d ≠ some oid) :
    Absent cfg oid kind := by
  obtain ⟨c, hc, rfl⟩ := h.resolves
  cases kind with
  | bridge => exact absurd rfl hk
  | adapter =>
    refine ⟨hparse rfl, fun a ha hid => ?_⟩
    obtain ⟨d, hd, hdid⟩ := (adapter_made hc).mp ⟨a, ha, rfl, hid⟩
    rcases defined_or_kept hd with ⟨s, hs', hd⟩ | hd
    · exact hs (List.mem_flatMap.mpr ⟨s, hs', List.mem_map.mpr ⟨d, hd, hdid⟩⟩)
    · exact hn d hd (congrArg some hdid)
  | tnc =>
    intro t ht hid
    obtain ⟨d, hd, hdid⟩ := (tnc_made hc).mp ⟨t, ht, rfl, hid⟩
    rcases defined_or_kept hd with ⟨s, hs', hd⟩ | hd
    · exact hs (List.mem_flatMap.mpr ⟨s, hs', List.mem_map.mpr ⟨d, hd, hdid⟩⟩)
    · exact hn d hd (congrArg some hdid)

/-- Of what is kept no object has the id of one that is taken out. -/
theorem kept_without (hk : kind ≠ .bridge) (hd : Distinct statics kind f)
    (hi : (objects kind f)[i]? = some d₀) (hid : defId kind d₀ = some oid)
    (hs : oid ∉ staticIds statics kind) : ∀ d ∈ objects kind (setAsideCollisions statics
      (withObjects kind f ((objects kind f).eraseIdx i))).1, defId kind d ≠ some oid := by
  intro d hm he
  have hobjects : objects kind (withObjects kind f ((objects kind f).eraseIdx i)) =
      (objects kind f).eraseIdx i := by cases kind <;> rfl
  rw [objects_kept, hobjects] at hm
  obtain ⟨hm, hc⟩ := List.mem_filter.mp hm
  obtain ⟨j, hj, hget⟩ := List.mem_eraseIdx_iff_getElem?.mp hm
  have hdistinct := hd.1
  rw [objects_kept] at hdistinct
  exact hj (filter_one hdistinct hget hi hc ((kept_object_iff hk hid).mpr hs) (he.trans hid.symm))

/-- Taking an object out leaves what refers to it. -/
theorem refers_without (hk : kind ≠ .bridge) (ds : List (Def kind))
    (h : Refers (gathered statics f) oid kind) :
    Refers (gathered statics (withObjects kind f ds)) oid kind := by
  have hbridge : eachDef (gathered statics (withObjects kind f ds)) ConfigFile.bridge =
      eachDef (gathered statics f) ConfigFile.bridge := by
    rw [gathered, gathered, eachDef_append, eachDef_append]
    cases kind with
    | bridge => exact absurd rfl hk
    | adapter => rfl
    | tnc => rfl
  have htnc : kind = .adapter → eachDef (gathered statics (withObjects kind f ds)) ConfigFile.tnc =
      eachDef (gathered statics f) ConfigFile.tnc := by
    rintro rfl
    rw [gathered, gathered, eachDef_append, eachDef_append]
    rfl
  cases h with
  | port hd hp href => exact .port (hbridge ▸ hd) hp href
  | spp hd hs href => exact .spp (htnc rfl ▸ hd) hs href
  | ble hd hs href => exact .ble (htnc rfl ▸ hd) hs href
  | global hset =>
    have hsame : lastSet (gathered statics (withObjects .adapter f ds))
        (fun f => f.global.bind GlobalSection.adapter) =
          lastSet (gathered statics f) (fun f => f.global.bind GlobalSection.adapter) := by
      rw [lastSet, lastSet, gathered, gathered, List.filterMap_append, List.filterMap_append]
      rfl
    exact .global (hsame.trans hset)

/-- What is deleted was not referred to, if the result builds. -/
theorem deleted_unreferred {w : World} (hst : ∀ f ∈ statics, f.1.isStatic = true)
    (hk : kind ≠ .bridge) (h : readFile (Table.plain doc) = some f)
    (hb : Built net statics f st cfg) (hw : w.statics = statics)
    (hdelete : deleteObject doc w kind oid = .ok doc')
    (h' : readFile (Table.plain doc') = some f') (hb' : Built net statics f' st' cfg') :
    ¬Refers (gathered statics f) oid kind := by
  rw [deleteObject] at hdelete
  obtain ⟨t, he, hdelete⟩ := bind_ok hdelete
  obtain ⟨hs, ht⟩ := editable_ok he
  rw [SetAside.staticSource_none, hw] at hs
  simp only at hdelete
  split at hdelete
  · obtain rfl := Except.ok.inj hdelete
    obtain ⟨i, d, hfound⟩ := found_of_table h ht
    have hid : defId kind d = some oid :=
      (defId_of_read hfound.reads).symm.trans (StoredObjects.table_id ht)
    have hvalid : Valid cfg := hb.valid
    have hp := parts hb hst
    obtain rfl := Option.some.inj ((remove_reads h hfound).symm.trans h')
    have hkept := kept_without hk (hp.distinct hvalid kind) hfound.object hid hs
    have hparse : kind = .adapter → AdapterValue.parse oid = .id oid := by
      rintro rfl
      have hm := (@mem_kept statics f .adapter d).mpr ⟨List.mem_of_getElem? hfound.object,
        hid ▸ SetAside.not_clash_object (by decide) hs⟩
      obtain ⟨a, ha⟩ := hp.adapter d hm
      have haid : a.id = oid := (resolveAdapter_id ha).trans (Option.some.inj hid)
      exact haid ▸ parse_resolved ha
    have habsent := absent_of_kept hk hb' hparse hs hkept
    exact fun hr => absent_unreferred hb' habsent (refers_without hk _ hr)
  · cases hdelete

/-- What the config is built from, with the store's text as `dynamic.toml`. -/
def holding (sources : Sources) (toml : TomlLib Table) (store : DynamicStore Table) : Sources :=
  { sources with dynamic := some ⟨store.path, store.text toml⟩ }

theorem build_holding {toml : TomlLib Table} (hr : Reads toml) (sources : Sources)
    (store : DynamicStore Table) :
    (∃ report, build toml net host (holding sources toml store) = .ok (cfg, report)) ↔
      ∃ f, readFile (Table.plain store.doc) = some f ∧
        Built net sources.statics f sources.state cfg := by
  rw [build_iff]
  simp only [holding, Option.map_some, holds_some, reads_of_text hr]

def padTable (label adapter : String) : Table :=
  [("id", value "ktbr1"), ("name", value label), ("enabled", .value (.boolean false)),
    ("port", .arrayOfTables [[("type", value "ble-server"), ("adapter", value adapter)]])]

def padText (label adapter : String) : String :=
  "[[bridge]]\nid = \"ktbr1\"\nname = \"" ++ label ++ "\"\nenabled = false\n\n" ++
  "[[bridge.port]]\ntype = \"ble-server\"\nadapter = \"" ++ adapter ++ "\"\n\n"

def dongleMac : String := "00:1A:7D:DA:71:13"

def spareMac : String := "B8:27:EB:12:34:56"

/-- Adapters by their ids and addresses, and bridges by their names and adapters. -/
def padDoc (adapters bridges : List (String × String)) : Table :=
  [("adapter", .arrayOfTables (adapters.map (fun a => adapterTable a.1 a.2))),
    ("bridge", .arrayOfTables (bridges.map (fun b => padTable b.1 b.2)))]

def padTexts (adapters bridges : List (String × String)) : String :=
  String.join (adapters.map (fun a =>
    "[[adapter]]\nid = \"" ++ a.1 ++ "\"\nmac = \"" ++ a.2 ++ "\"\n\n") ++
      bridges.map (fun b => padText b.1 b.2))

def padSample (adapters bridges : List (String × String)) : Table × String :=
  (padDoc adapters bridges, padTexts adapters bridges)

/-- Two bridges have one id, and one of them the name of the static bridge. -/
def clashing (dongle attic : String) : Table × String :=
  padSample [(dongle, dongleMac)] [("Attic", attic), ("Club", "dongle")]

def lone (adapters : List (String × String)) (attic : String) : Table × String :=
  padSample adapters [("Attic", attic)]

def padSamples : List (Table × String) :=
  [(loneBridge "ktbr0" "Club", loneText "ktbr0" "Club"), clashing "dongle" "hci0",
    clashing "usb" "usb", lone [("dongle", dongleMac), ("spare", spareMac)] "dongle",
    lone [("usb", dongleMac), ("spare", spareMac)] "usb", lone [("dongle", dongleMac)] "dongle"]

theorem padTexts_head (a : String × String) (adapters bridges : List (String × String)) :
    (padTexts (a :: adapters) bridges).toList.head? = some '[' := by
  have h : ("[[adapter]]\nid = \"" : String).toList.head? = some '[' := rfl
  rw [padTexts, List.map_cons, List.cons_append, String.join_cons]
  exact head_append (head_append (head_append (head_append (head_append h))))

theorem padSamples_apart : Apart padSamples where
  docs := by
    simp [padSamples, clashing, lone, padSample, padDoc, padTable, adapterTable, loneBridge,
      SetAside.loneTable, value]
  texts := by decide +kernel
  heads := by
    have hhead : ∀ e ∈ padSamples, e.2.toList.head? = some '[' := by
      simp only [padSamples, clashing, lone, padSample, List.forall_mem_cons]
      exact ⟨SetAside.lone_head _ _, padTexts_head _ _ _, padTexts_head _ _ _, padTexts_head _ _ _,
        padTexts_head _ _ _, padTexts_head _ _ _, List.forall_mem_nil _⟩
    intro e he
    rw [hhead e he]
    decide

noncomputable def padToml : TomlLib Table := crates padSamples

theorem pad_parses (hm : (doc, t) ∈ padSamples) (h : readFile (Table.plain doc) = some f) :
    padToml.parseFile t = .ok f := by
  have hr := ((reads_crates padSamples_apart).written doc f).mpr h
  have ht : (crates padSamples).docText doc = t := textOf_mem padSamples_apart hm
  rwa [ht] at hr

theorem pad_loads : load padToml clubEnv.statics = .ok clubStatics := by
  have hm : (loneBridge "ktbr0" "Club", loneText "ktbr0" "Club") ∈ padSamples :=
    List.mem_cons_self ..
  exact ChangeSteps.load_main rfl rfl (pad_parses hm rfl)

def padSources : Sources := ⟨clubStatics, none, .empty, false, []⟩

def padStore (doc : Table) : DynamicStore Table := ⟨"dynamic.toml", doc, none⟩

def padAdapter (oid mac : String) : AdapterDef := ⟨oid, mac⟩

def padBridge (label adapter : String) : BridgeDef :=
  ⟨some "ktbr1", label, some false, none, none, [⟨none, none, .bleServer (some adapter) none⟩]⟩

def padFile (adapters bridges : List (String × String)) : ConfigFile :=
  { adapter := adapters.map (fun a => padAdapter a.1 a.2)
    bridge := bridges.map (fun b => padBridge b.1 b.2) }

/-- The static bridge, some adapters and the bridge in the attic. -/
def atticConfig (adapters : List Adapter) (sel : AdapterSel) : Config :=
  { clubConfig [⟨"ktbr1", "Attic", "Attic", false, none, .pass,
      [⟨"ble-server0", .app, .bleServer sel 1⟩], .dynamic⟩] with adapters := adapters }

theorem pad_builds (adapters bridges : List (String × String)) (cfg : Config)
    (hread : readFile (Table.plain (padDoc adapters bridges)) = some (padFile adapters bridges))
    (hres : (resolve clubEnv.net (gathered clubStatics (padFile adapters bridges))).toOption =
      some cfg) (hv : (validate cfg none).errors = []) :
    ∃ report, build padToml clubEnv.net none (holding padSources padToml
      (padStore (padDoc adapters bridges))) = .ok (cfg, report) := by
  have hbuilt := SetAside.built_club hres ⟨rfl, rfl⟩ hv
  exact (build_holding (reads_crates padSamples_apart) padSources _).mpr ⟨_, hread, hbuilt⟩

def dongle (oid : String) : Adapter := ⟨oid, ⟨0x001A7DDA7113⟩, .dynamic⟩

def spare : Adapter := ⟨"spare", ⟨0xB827EB123456⟩, .dynamic⟩

end KissTncBridge.Proofs.RenamedReferences
