import KissTncBridge.Lib.Keyed
import KissTncBridge.Proofs.EffectiveObjects
import KissTncBridge.Proofs.References

namespace KissTncBridge.Proofs.RenamedFile
open Conf Control DocumentReads EffectiveObjects Lib References Supervisor Toml

variable {doc doc' : Table} {f f' : ConfigFile} {kind : Kind} {statics : List (Source × ConfigFile)}

/-- Objects of a kind that are not written are read as before. -/
theorem objects_untouched (h : readFile (Table.plain doc) = some f)
    (h' : readFile (Table.plain doc') = some f')
    (hg : Entries.get (key kind) doc' = Entries.get (key kind) doc) :
    objects kind f' = objects kind f := by
  obtain ⟨-, -, -, hobj⟩ := readFile_kinds.mp h
  obtain ⟨-, -, -, hobj'⟩ := readFile_kinds.mp h'
  have hk := hobj kind
  have hk' := hobj' kind
  rw [defaulted, TomlReads.get_plain] at hk hk'
  rw [hg] at hk'
  exact Option.some.inj (hk'.symm.trans hk)

/-- The objects of a kind before and after its tables are changed, each in its
place. -/
theorem array_objects (h : readFile (Table.plain doc) = some f)
    (h' : readFile (Table.plain doc') = some f') {g : List Table → Nat → Table → Table}
    (ha : Doc.array doc' kind = (Doc.array doc kind).map (fun ts => ts.mapIdx (g ts)))
    (hn : Doc.array doc kind = none → Entries.get (key kind) doc' = Entries.get (key kind) doc) :
    (Doc.array doc kind = none ∧ objects kind f' = objects kind f) ∨
      ∃ ts, Doc.array doc kind = some ts ∧ (objects kind f').length = (objects kind f).length ∧
        ∀ j d, (objects kind f)[j]? = some d →
          ∃ t, ts[j]? = some t ∧ readDef kind (Table.plain t) = some d ∧
          readDef kind (Table.plain (g ts j t)) = (objects kind f')[j]? := by
  cases hts : Doc.array doc kind with
  | none =>
    left
    exact ⟨rfl, objects_untouched h h' (hn hts)⟩
  | some ts =>
    right
    rw [hts, Option.map_some] at ha
    have hlen : ts.length = (objects kind f).length := by
      simpa using congrArg List.length (array_reads h hts)
    have hlen' : ts.length = (objects kind f').length := by
      simpa using congrArg List.length (array_reads h' ha)
    refine ⟨ts, rfl, hlen'.symm.trans hlen, fun j d hd => ?_⟩
    have hlt : j < ts.length := hlen ▸ (List.getElem?_eq_some_iff.mp hd).1
    have hget : ts[j]? = some ts[j] := List.getElem?_eq_getElem hlt
    refine ⟨ts[j], hget, ?_, ?_⟩
    · obtain ⟨e, he, hread⟩ := read_at h hts hget
      obtain rfl := Option.some.inj (he.symm.trans hd)
      exact hread
    · have hj : (ts.mapIdx (g ts))[j]? = some (g ts j ts[j]) := by
        rw [List.getElem?_mapIdx, hget, Option.map_some]
      obtain ⟨e, he, hread⟩ := read_at h' ha hj
      rw [hread, he]

def paths (doc : Table) (kind : Kind) (oid : String) : List RefPath :=
  (references doc kind oid).map Reference.path

theorem portReferences_path (hm : r ∈ portReferences k oid b) :
    ∃ bid i, r.path = .port bid i k := by
  obtain ⟨⟨p, i⟩, -, hr⟩ := List.mem_filterMap.mp hm
  dsimp only at hr
  split at hr
  · cases hr
    exact ⟨_, i, rfl⟩
  · cases hr

theorem mem_sectionReferences {t : Table} :
    .tncSection tid sect ∈ (sectionReferences oid t).map Reference.path ↔
    sect ∈ ["spp", "ble"] ∧ (Entries.get sect t).bind (fun i => Item.entry i "adapter") = some oid ∧
      (str t "id").getD "?" = tid := by
  constructor
  · intro h
    obtain ⟨r, hr, hpath⟩ := List.mem_map.mp h
    obtain ⟨s, hs, hr⟩ := List.mem_filterMap.mp hr
    dsimp only at hr
    split at hr
    · rename_i hadapter
      cases hr
      cases hpath
      exact ⟨hs, by simpa using hadapter, rfl⟩
    · cases hr
  · rintro ⟨hs, hadapter, rfl⟩
    refine List.mem_map.mpr
      ⟨⟨.tncSection ((str t "id").getD "?") sect, "tnc " ++ (str t "id").getD "?"⟩,
        List.mem_filterMap.mpr ⟨sect, hs, ?_⟩, rfl⟩
    rw [hadapter]
    exact if_pos (beq_self_eq_true _)

theorem sectionReferences_path (hm : r ∈ sectionReferences oid t) :
    ∃ tid sect, r.path = .tncSection tid sect ∧ sect ∈ ["spp", "ble"] := by
  obtain ⟨s, hs, hr⟩ := List.mem_filterMap.mp hm
  dsimp only at hr
  split at hr
  · cases hr
    exact ⟨_, s, rfl, hs⟩
  · cases hr

/-- Where references to an object can be. -/
theorem paths_cases (hm : p ∈ paths doc kind oid) :
    (∃ bid i, p = .port bid i (refKey kind)) ∨
      kind = .adapter ∧ ∃ tid sect, p = .tncSection tid sect ∧ sect ∈ ["spp", "ble"] := by
  obtain ⟨r, hr, rfl⟩ := List.mem_map.mp hm
  cases kind with
  | bridge => cases hr
  | tnc =>
    obtain ⟨b, -, hr⟩ := List.mem_flatMap.mp hr
    exact .inl (portReferences_path hr)
  | adapter =>
    rcases List.mem_append.mp hr with hr | hr
    · obtain ⟨b, -, hr⟩ := List.mem_flatMap.mp hr
      exact .inl (portReferences_path hr)
    · obtain ⟨t, -, hr⟩ := List.mem_flatMap.mp hr
      exact .inr ⟨rfl, sectionReferences_path hr⟩

theorem paths_proper (hm : p ∈ paths doc kind oid) : Proper p := by
  rcases paths_cases hm with ⟨bid, i, rfl⟩ | ⟨-, tid, sect, rfl, hs⟩
  · rw [Proper, pathKey]
    decide
  · rw [Proper, pathKey]
    intro he
    rw [he] at hs
    exact absurd hs (by decide)

theorem mem_paths_section : .tncSection tid sect ∈ paths doc .adapter oid ↔
    ∃ t ∈ Doc.tables doc .tnc, sect ∈ ["spp", "ble"] ∧
      (Entries.get sect t).bind (fun i => Item.entry i "adapter") = some oid ∧
      (str t "id").getD "?" = tid := by
  have hport : ∀ r ∈ (Doc.tables doc .bridge).flatMap (portReferences "adapter" oid),
      r.path ≠ .tncSection tid sect := by
    intro r hr
    obtain ⟨b, -, hr⟩ := List.mem_flatMap.mp hr
    obtain ⟨bid, i, hpath⟩ := portReferences_path hr
    rw [hpath]
    exact nofun
  rw [paths, references, List.map_append, List.mem_append, List.map_flatMap, List.map_flatMap,
    List.mem_flatMap, List.mem_flatMap]
  constructor
  · rintro (⟨b, hb, hm⟩ | ⟨t, ht, hm⟩)
    · obtain ⟨r, hr, hpath⟩ := List.mem_map.mp hm
      exact absurd hpath (hport r (List.mem_flatMap.mpr ⟨b, hb, hr⟩))
    · exact ⟨t, ht, mem_sectionReferences.mp hm⟩
  · rintro ⟨t, ht, hm⟩
    exact .inr ⟨t, ht, mem_sectionReferences.mpr hm⟩

/-- Whether a rename writes a port of a bridge of that id and name: a reference is
recorded for the place, and the first table with the id has the name. -/
def writes (doc : Table) (kind : Kind) (oid bridge label : String) (i : Nat) : Bool :=
  (paths doc kind oid).contains (.port bridge i (refKey kind)) &&
    (Doc.table doc .bridge bridge).any
      (fun b => str b "name" == some label && decide (i < (portsOf b).length))

def written (doc : Table) (kind : Kind) (oid target : String) (d : BridgeDef) : BridgeDef :=
  { d with ports := d.ports.mapIdx (fun i p =>
      if writes doc kind oid (d.id.getD "?") d.name i then
        { p with kind := retarget target kind p.kind }
      else p) }

/-- A renamed adapter in a TNC's sections. -/
def follow (oid target : String) (d : TncDef) : TncDef :=
  { d with
    spp := d.spp.map
      (fun s => if s.adapter = some oid then { s with adapter := some target } else s)
    ble := d.ble.map
      (fun s => if s.adapter = some oid then { s with adapter := some target } else s) }

def Distinct (statics : List (Source × ConfigFile)) (kind : Kind) (f : ConfigFile) : Prop :=
  ((objects kind (setAsideCollisions statics f).1).map (defId kind)).Nodup ∧
    ∀ d ∈ objects kind (setAsideCollisions statics f).1, defId kind d ≠ none

/-- A document with an object replaced, and then references set. -/
def renameDoc (doc : Table) (kind : Kind) (oid target : String) (t : Table) : Table :=
  setAll target (paths (Doc.modify doc kind oid (fun _ => t)) kind oid)
    (Doc.modify doc kind oid (fun _ => t))

theorem paths_replaced (hk : kind ≠ .bridge) (doc : Table) (oid : String) (t : Table) :
    paths (Doc.modify doc kind oid (fun _ => t)) kind oid = paths doc kind oid := by
  have hb : Doc.tables (Doc.modify doc kind oid (fun _ => t)) .bridge = Doc.tables doc .bridge := by
    rw [Doc.tables, Doc.tables, array_modify_ne (Ne.symm hk)]
  cases kind with
  | bridge => exact absurd rfl hk
  | tnc => rw [paths, paths, references, references, hb]
  | adapter =>
    have ht : Doc.tables (Doc.modify doc .adapter oid (fun _ => t)) .tnc = Doc.tables doc .tnc := by
      rw [Doc.tables, Doc.tables, array_modify_ne (by decide)]
    rw [paths, paths, references, references, hb, ht]

theorem array_renameDoc (hk : kind ≠ .bridge) {k : Kind} (hne : k ≠ kind) (doc : Table)
    (oid target : String) (t : Table) :
    Doc.array (renameDoc doc kind oid target t) k = (Doc.array doc k).map (fun ts =>
      ts.mapIdx (fun j t => writeAll target (aimed k ts (paths doc kind oid) j) t)) := by
  rw [renameDoc, paths_replaced hk, array_setAll _ (fun p hp => paths_proper hp),
    array_modify_ne hne]

theorem get_renameDoc {k : Kind} (hne : k ≠ kind) (h : Doc.array doc k = none)
    (oid target : String) (t : Table) :
    Entries.get (key k) (renameDoc doc kind oid target t) = Entries.get (key k) doc := by
  have hnone : Doc.array (Doc.modify doc kind oid (fun _ => t)) k = none :=
    (array_modify_ne hne doc oid _).trans h
  exact (get_setAll_none hnone _).trans (get_modify_ne hne doc oid _)

theorem firstWith_id {ts : List Table} (h : firstWith ts oid = some j) (ht : ts[j]? = some t) :
    str t "id" = some oid := by
  obtain ⟨hlt, hid, -⟩ := List.findIdx?_eq_some_iff_getElem.mp h
  obtain ⟨_, rfl⟩ := List.getElem?_eq_some_iff.mp ht
  simpa using hid

/-- An id that some table has is found, in a table with it. -/
theorem firstWith_of_mem {ts : List Table} {j : Nat} (ht : ts[j]? = some t)
    (hid : str t "id" = some oid) :
    ∃ i u, firstWith ts oid = some i ∧ ts[i]? = some u ∧ str u "id" = some oid := by
  cases hf : firstWith ts oid with
  | none =>
    have hn := List.findIdx?_eq_none_iff.mp hf t (List.mem_of_getElem? ht)
    simp [hid] at hn
  | some i =>
    obtain ⟨hlt, -, -⟩ := List.findIdx?_eq_some_iff_getElem.mp hf
    have hu : ts[i]? = some ts[i] := List.getElem?_eq_getElem hlt
    exact ⟨i, _, rfl, hu, firstWith_id hf hu⟩

theorem table_of_firstWith {ts : List Table} (ha : Doc.array doc kind = some ts)
    (hf : firstWith ts oid = some i) : Doc.table doc kind oid = ts[i]? := by
  have hi : Doc.indexOf doc kind oid = some i := by
    rw [Doc.indexOf, ha]
    exact hf
  rw [Doc.table, ha, hi]
  rfl

def kept (statics : List (Source × ConfigFile)) (kind : Kind) (d : Def kind) : Bool :=
  match kind, d with
  | .adapter, d =>
    !(statics.flatMap (fun f => f.2.adapter.map AdapterDef.id)).contains (AdapterDef.id d)
  | .tnc, d => !(statics.flatMap (fun f => f.2.tnc.map TncDef.id)).contains (TncDef.id d)
  | .bridge, d => (bridgeClash statics d).isNone

theorem objects_kept (kind : Kind) (f : ConfigFile) :
    objects kind (setAsideCollisions statics f).1 =
      (objects kind f).filter (kept statics kind) := by
  cases kind <;> rfl

theorem kept_congr_bridge {d d' : BridgeDef} (hid : d'.id = d.id) (hname : d'.name = d.name) :
    kept statics .bridge d' = kept statics .bridge d := by
  simp only [kept, bridgeClash, hid, hname]

/-- The references that are aimed at a bridge's table are those recorded with its
id, if it is the first table that has it. -/
theorem writesPort_aimed {ts : List Table} {j : Nat} {b : Table} {rs : List RefPath}
    (hb : ts[j]? = some b) (hid : str b "id" = some bid)
    (hform : ∀ p ∈ aimed .bridge ts rs j, ∃ x i, p = .port x i k) (i : Nat) :
    writesPort (aimed .bridge ts rs j) i =
      (rs.contains (.port bid i k) && decide (firstWith ts bid = some j)) := by
  rw [Bool.eq_iff_iff, Bool.and_eq_true, writesPort, List.any_eq_true, List.contains_iff_mem,
    decide_eq_true_eq]
  constructor
  · rintro ⟨q, hq, hat⟩
    obtain ⟨x, n, rfl⟩ := hform q hq
    obtain ⟨hq, hqj⟩ := List.mem_filter.mp hq
    simp only [pathKind, pathId, true_and, decide_eq_true_eq] at hqj
    simp only [portAt, beq_iff_eq, Option.some.injEq] at hat
    have hx := firstWith_id hqj hb
    rw [hid] at hx
    cases hx
    cases hat
    exact ⟨hq, hqj⟩
  · rintro ⟨hm, hfirst⟩
    refine ⟨_, List.mem_filter.mpr ⟨hm, ?_⟩, ?_⟩
    · simp [pathKind, pathId, hfirst]
    · simp [portAt]

theorem name_of_read {b : Table} {d : BridgeDef} (h : readBridge (Table.plain b) = some d) :
    str b "name" = some d.name := by
  obtain ⟨-, -, hname, -⟩ := TomlReads.readBridge_iff.mp h
  rw [str_plain]
  exact hname

/-- Of two tables with one id, the first that is kept is written. -/
theorem writes_kept (h : readFile (Table.plain doc) = some f) (hd : Distinct statics .bridge f)
    {ts : List Table} (ha : Doc.array doc .bridge = some ts) {j : Nat} {b : Table}
    (hb : ts[j]? = some b) {d : BridgeDef} (hj : f.bridge[j]? = some d)
    (hc : kept statics .bridge d = true) (hid : d.id = some bid) (i : Nat)
    (hform : ∀ p ∈ aimed .bridge ts (paths doc kind oid) j, ∃ x i, p = .port x i (refKey kind)) :
    (writesPort (aimed .bridge ts (paths doc kind oid) j) i && decide (i < (portsOf b).length)) =
      writes doc kind oid bid d.name i := by
  have hread : ∀ {n : Nat} {u : Table}, ts[n]? = some u →
      ∃ e, f.bridge[n]? = some e ∧ str u "id" = e.id ∧ str u "name" = some e.name := by
    intro n u hu
    obtain ⟨e, he, hn⟩ := read_at h ha hu
    exact ⟨e, he, defId_of_read hn, name_of_read hn⟩
  obtain ⟨hdistinct, -⟩ := hd
  rw [objects_kept] at hdistinct
  obtain ⟨e, he, hidb, hnameb⟩ := hread hb
  obtain rfl : d = e := Option.some.inj (hj.symm.trans he)
  obtain ⟨n, u, hfirst, hu, huid⟩ := firstWith_of_mem hb (hidb.trans hid)
  have htable : Doc.table doc .bridge bid = some u := (table_of_firstWith ha hfirst).trans hu
  rw [writesPort_aimed hb (hidb.trans hid) hform, writes, htable, Option.any_some, hfirst,
    Bool.and_assoc]
  congr 1
  by_cases hn : n = j
  · subst hn
    obtain rfl : u = b := Option.some.inj (hu.symm.trans hb)
    rw [hnameb, beq_self_eq_true, decide_eq_true rfl]
  · have hother : (str u "name" == some d.name) = false := by
      rw [beq_eq_false_iff_ne]
      intro hname
      obtain ⟨e, he, heid, hename⟩ := hread hu
      have hsameId : e.id = d.id := heid.symm.trans (huid.trans hid.symm)
      have hsameName : e.name = d.name := Option.some.inj (hename.symm.trans hname)
      exact hn (filter_one hdistinct he hj
        ((kept_congr_bridge hsameId hsameName).trans hc) hc hsameId)
    have hneq : ¬ some n = some j := fun he => hn (Option.some.inj he)
    rw [hother, decide_eq_false hneq, Bool.false_and, Bool.false_and]

/-- The bridges in effect after a rename. -/
theorem kept_bridges (hk : kind ≠ .bridge) (h : readFile (Table.plain doc) = some f)
    (h' : readFile (Table.plain (renameDoc doc kind oid target t)) = some f')
    (hd : Distinct statics .bridge f) :
    (setAsideCollisions statics f').1.bridge =
        (setAsideCollisions statics f).1.bridge.map (written doc kind oid target) ∧
      ∀ d ∈ (setAsideCollisions statics f).1.bridge, ∀ i p, d.ports[i]? = some p →
        writes doc kind oid (d.id.getD "?") d.name i = true → takes kind p.kind = true := by
  have hmap := array_renameDoc hk (Ne.symm hk) doc oid target t
  have hids := hd.2
  rw [objects_kept] at hids
  rcases array_objects h h' hmap (fun hn => get_renameDoc (Ne.symm hk) hn oid target t) with
    ⟨hnone, heq⟩ | ⟨ts, ha, hlen, hplace⟩
  · have hno : ∀ bid, Doc.table doc .bridge bid = none := by
      intro bid
      rw [Doc.table, hnone]
      rfl
    have hsame : written doc kind oid target = fun d => d := by
      funext d
      simp [written, writes, hno, mapIdx_self]
    have heq : f'.bridge = f.bridge := heq
    refine ⟨by simp only [setAsideCollisions, heq, hsame, List.map_id'], fun d _ i p _ hw => ?_⟩
    simp [writes, hno] at hw
  · have hform : ∀ j, ∀ p ∈ aimed .bridge ts (paths doc kind oid) j, ∃ bid i,
        p = .port bid i (refKey kind) := by
      intro j p hp
      obtain ⟨hp, hkind⟩ := List.mem_filter.mp hp
      rcases paths_cases hp with hport | ⟨-, tid, sect, rfl, -⟩
      · exact hport
      · simp [pathKind] at hkind
    have hbridge : ∀ {j : Nat} {d d' : BridgeDef}, f.bridge[j]? = some d → f'.bridge[j]? = some d' →
        kept statics .bridge d' = kept statics .bridge d ∧ (kept statics .bridge d = true →
          d' = written doc kind oid target d ∧ ∀ i p, d.ports[i]? = some p →
            writes doc kind oid (d.id.getD "?") d.name i = true → takes kind p.kind = true) := by
      intro j d d' hj hj'
      obtain ⟨b, hb, hread, hread'⟩ := hplace j d hj
      have hread' : readBridge
          (Table.plain (writeAll target (aimed .bridge ts (paths doc kind oid) j) b)) = some d' :=
        hread'.trans hj'
      obtain ⟨hafter, htakes⟩ := readBridge_written hk (hform j) hread hread'
      refine ⟨?_, fun hc => ?_⟩
      · rw [hafter]
        exact kept_congr_bridge rfl rfl
      · obtain ⟨bid, hbid⟩ :=
          Option.ne_none_iff_exists'.mp (hids d (List.mem_filter.mpr ⟨List.mem_of_getElem? hj, hc⟩))
        have hbid : d.id = some bid := hbid
        have hwrites := fun i => writes_kept h hd ha hb hj hc hbid i (hform j)
        simp only [hwrites] at hafter htakes
        rw [hbid, Option.getD_some]
        refine ⟨?_, htakes⟩
        rw [hafter]
        unfold written
        simp only [hbid, Option.getD_some]
    refine ⟨filter_eq_map hlen (fun j d d' hj hj' => ?_), fun d hm => ?_⟩
    · obtain ⟨hkeep, hafter⟩ := hbridge hj hj'
      exact ⟨hkeep, fun hc => (hafter hc).1⟩
    · obtain ⟨hm, hc⟩ := List.mem_filter.mp hm
      obtain ⟨j, hj⟩ := List.mem_iff_getElem?.mp hm
      have hlt : j < f'.bridge.length := by
        have hl : f'.bridge.length = f.bridge.length := hlen
        rw [hl]
        exact (List.getElem?_eq_some_iff.mp hj).1
      exact ((hbridge hj (List.getElem?_eq_getElem hlt)).2 hc).2

theorem kept_id {d d' : TncDef} (hid : d'.id = d.id) :
    kept statics .tnc d' = kept statics .tnc d := by
  simp only [kept, hid]

theorem kept_object_iff (hk : kind ≠ .bridge) {d : Def kind} (hid : defId kind d = some x) :
    kept statics kind d = true ↔ x ∉ staticIds statics kind := by
  cases kind with
  | bridge => exact absurd rfl hk
  | adapter =>
    obtain rfl := Option.some.inj hid
    simp [kept, staticIds]
  | tnc =>
    obtain rfl := Option.some.inj hid
    simp [kept, staticIds]

/-- Adapters and TNCs of one id are set aside together, so one that is kept has its
id to itself. -/
theorem kept_alone (hk : kind ≠ .bridge) (h : readFile (Table.plain doc) = some f)
    (hd : Distinct statics kind f) {ts : List Table} (ha : Doc.array doc kind = some ts)
    {j n : Nat} {d : Def kind} (hj : (objects kind f)[j]? = some d)
    (hc : kept statics kind d = true) (hid : defId kind d = some oid) {v : Table}
    (hv : ts[n]? = some v) (hvid : str v "id" = some oid) : n = j := by
  obtain ⟨e, he, hread⟩ := read_at h ha hv
  have heid : defId kind e = some oid := (defId_of_read hread).symm.trans hvid
  have hec := (kept_object_iff hk heid).mpr ((kept_object_iff hk hid).mp hc)
  obtain ⟨hdistinct, -⟩ := hd
  rw [objects_kept] at hdistinct
  exact filter_one hdistinct he hj hec hc (heid.trans hid.symm)

/-- A TNC that is kept has its own references written. -/
theorem writesSection_kept (oid : String) (h : readFile (Table.plain doc) = some f)
    (hd : Distinct statics .tnc f) {ts : List Table} (ha : Doc.array doc .tnc = some ts) {j : Nat}
    {u : Table} (hu : ts[j]? = some u) {d : TncDef} (hj : f.tnc[j]? = some d)
    (hc : kept statics .tnc d = true) (hs : sect ∈ ["spp", "ble"]) :
    writesSection (aimed .tnc ts (paths doc .adapter oid) j) sect = true ↔
      (Entries.get sect u).bind (fun i => Item.entry i "adapter") = some oid := by
  have halone : ∀ {n : Nat} {v : Table}, ts[n]? = some v → str v "id" = some d.id → n = j :=
    fun hv hvid => kept_alone (by decide) h hd ha hj hc rfl hv hvid
  have hidu : str u "id" = some d.id := by
    obtain ⟨e, he, hread⟩ := read_at h ha hu
    obtain rfl : d = e := Option.some.inj (hj.symm.trans he)
    exact defId_of_read hread
  have htables : Doc.tables doc .tnc = ts := by
    rw [Doc.tables, ha]
    rfl
  rw [writesSection, List.any_eq_true]
  constructor
  · rintro ⟨q, hq, hsect⟩
    obtain ⟨hq, hqj⟩ := List.mem_filter.mp hq
    rcases paths_cases hq with ⟨x, n, rfl⟩ | ⟨-, tid, s, rfl, -⟩
    · simp [sectionOf] at hsect
    · simp only [sectionOf, beq_iff_eq, Option.some.injEq] at hsect
      subst hsect
      simp only [pathKind, pathId, true_and, decide_eq_true_eq] at hqj
      obtain ⟨v, hv, -, hadapter, htid⟩ := mem_paths_section.mp hq
      rw [htables] at hv
      obtain ⟨n, hn⟩ := List.mem_iff_getElem?.mp hv
      have htid' : tid = d.id := Option.some.inj ((firstWith_id hqj hu).symm.trans hidu)
      obtain ⟨e, -, hread⟩ := read_at h ha hn
      have hvid : str v "id" = some e.id := defId_of_read hread
      rw [hvid, Option.getD_some, htid'] at htid
      obtain rfl := halone hn (hvid.trans (congrArg some htid))
      obtain rfl : u = v := Option.some.inj (hu.symm.trans hn)
      exact hadapter
  · intro hadapter
    obtain ⟨n, v, hfirst, hv, hvid⟩ := firstWith_of_mem hu hidu
    obtain rfl := halone hv hvid
    have hm : .tncSection d.id sect ∈ paths doc .adapter oid := by
      refine mem_paths_section.mpr ⟨u, ?_, hs, hadapter, ?_⟩
      · rw [htables]
        exact List.mem_of_getElem? hu
      · rw [hidu, Option.getD_some]
    refine ⟨_, List.mem_filter.mpr ⟨hm, ?_⟩, ?_⟩
    · simp [pathKind, pathId, hfirst]
    · simp [sectionOf]

/-- What a TNC's section is found to refer to is what it is read to. -/
theorem entry_spp (h : readTnc (Table.plain u) = some d) (s : SppDef) (hs : d.spp = some s) :
    (Entries.get "spp" u).bind (fun i => Item.entry i "adapter") = s.adapter := by
  obtain ⟨-, -, -, -, hspp, -⟩ := readTnc_iff.mp h
  rw [opt, TomlReads.get_plain] at hspp
  cases hg : Entries.get "spp" u with
  | none =>
    rw [hg, Option.map_none, hs] at hspp
    cases hspp
  | some i =>
    rw [hg, Option.map_some] at hspp
    obtain ⟨s', hread, he⟩ := Option.map_eq_some_iff.mp hspp
    rw [hs] at he
    cases he
    exact (readSpp_retarget "" hread).2

theorem entry_ble (h : readTnc (Table.plain u) = some d) (s : BleDef) (hs : d.ble = some s) :
    (Entries.get "ble" u).bind (fun i => Item.entry i "adapter") = s.adapter := by
  obtain ⟨-, -, -, -, -, hble, -⟩ := readTnc_iff.mp h
  rw [opt, TomlReads.get_plain] at hble
  cases hg : Entries.get "ble" u with
  | none =>
    rw [hg, Option.map_none, hs] at hble
    cases hble
  | some i =>
    rw [hg, Option.map_some] at hble
    obtain ⟨s', hread, he⟩ := Option.map_eq_some_iff.mp hble
    rw [hs] at he
    cases he
    exact (readBle_retarget "" hread).2

/-- The TNCs in effect after an adapter's rename: as before if they are not
written as `[[tnc]]`, and else with their sections following. -/
theorem kept_tncs (h : readFile (Table.plain doc) = some f)
    (h' : readFile (Table.plain (renameDoc doc .adapter oid target t)) = some f')
    (hd : Distinct statics .tnc f) :
    ∃ g : TncDef → TncDef, (∀ d, g d = d ∨ g d = follow oid target d) ∧
      (setAsideCollisions statics f').1.tnc = ((setAsideCollisions statics f).1.tnc).map g := by
  have hk : Kind.adapter ≠ .bridge := by decide
  have hne : Kind.tnc ≠ .adapter := by decide
  have hmap := array_renameDoc hk hne doc oid target t
  rcases array_objects h h' hmap (fun hn => get_renameDoc hne hn oid target t) with
    ⟨hnone, heq⟩ | ⟨ts, ha, hlen, hplace⟩
  · have heq : f'.tnc = f.tnc := heq
    refine ⟨fun d => d, fun _ => .inl rfl, ?_⟩
    simp only [setAsideCollisions, heq, List.map_id']
  · refine ⟨follow oid target, fun _ => .inr rfl, filter_eq_map hlen (fun j d d' hj hj' => ?_)⟩
    obtain ⟨u, hu, hread, hread'⟩ := hplace j d hj
    have hread' : readTnc
        (Table.plain (writeAll target (aimed .tnc ts (paths doc .adapter oid) j) u)) = some d' :=
      hread'.trans hj'
    have hread : readTnc (Table.plain u) = some d := hread
    have hform : ∀ p ∈ aimed .tnc ts (paths doc .adapter oid) j, ∃ tid sect,
        p = .tncSection tid sect ∧ sect ∈ ["spp", "ble"] := by
      intro p hp
      obtain ⟨hp, hkind⟩ := List.mem_filter.mp hp
      rcases paths_cases hp with ⟨x, n, rfl⟩ | ⟨-, hsect⟩
      · simp [pathKind] at hkind
      · exact hsect
    have hafter := readTnc_written hform hread hread'
    have hkeep : kept statics .tnc d' = kept statics .tnc d := by
      rw [hafter]
      exact kept_id rfl
    refine ⟨hkeep, fun hc => ?_⟩
    have hspp := writesSection_kept oid h hd ha hu hj hc (List.mem_cons_self ..)
    have hble :=
      writesSection_kept oid h hd ha hu hj hc (List.mem_cons_of_mem _ (List.mem_cons_self ..))
    rw [hafter]
    unfold follow
    congr 1
    · cases hs : d.spp with
      | none => rfl
      | some s =>
        rw [entry_spp hread s hs] at hspp
        simp only [Option.map_some, hspp]
    · cases hs : d.ble with
      | none => rfl
      | some s =>
        rw [entry_ble hread s hs] at hble
        simp only [Option.map_some, hble]

def withId : (kind : Kind) → Def kind → String → Def kind
  | .adapter, d, target => { (d : AdapterDef) with id := target }
  | .tnc, d, target => { (d : TncDef) with id := target }
  | .bridge, d, target => { (d : BridgeDef) with id := some target }

theorem paths_elsewhere (hk : kind ≠ .bridge) (hm : p ∈ paths doc kind oid) :
    pathKind p ≠ kind := by
  rcases paths_cases hm with ⟨x, n, rfl⟩ | ⟨rfl, tid, sect, rfl, -⟩
  · exact Ne.symm hk
  · exact Kind.noConfusion

/-- The object itself after its rename, and those beside it. -/
theorem kept_object (hk : kind ≠ .bridge) (h : readFile (Table.plain doc) = some f)
    (h' : readFile (Table.plain (renameDoc doc kind oid target t)) = some f')
    (hd : Distinct statics kind f) (hu : Doc.table doc kind oid = some u) {d₀ : Def kind}
    (hread : readDef kind (Table.plain u) = some d₀)
    (hnew : readDef kind (Table.plain t) = some (withId kind d₀ target))
    (hs : oid ∉ staticIds statics kind) (hs' : target ∉ staticIds statics kind) :
    objects kind (setAsideCollisions statics f').1 =
      (objects kind (setAsideCollisions statics f).1).map
        (fun d => if defId kind d = some oid then withId kind d target else d) := by
  have hget : Entries.get (key kind) (renameDoc doc kind oid target t) =
      Entries.get (key kind) (Doc.modify doc kind oid (fun _ => t)) := by
    rw [renameDoc, paths_replaced hk]
    exact get_setAll_ne _ (fun p hp => paths_elsewhere hk hp) _
  have hmap : Doc.array (renameDoc doc kind oid target t) kind = (Doc.array doc kind).map (fun ts =>
      ts.mapIdx (fun j v => if firstWith ts oid = some j then t else v)) := by
    rw [Doc.array, hget]
    refine (array_modify doc kind oid _).trans ?_
    congr 1
    funext ts
    apply List.ext_getElem?
    intro j
    rw [getElem?_modifyFirst, List.getElem?_mapIdx]
  have hnone : Doc.array doc kind = none →
      Entries.get (key kind) (renameDoc doc kind oid target t) = Entries.get (key kind) doc := by
    intro hn
    rw [hget, Doc.modify, hn]
  rw [objects_kept, objects_kept]
  rcases array_objects h h' hmap hnone with ⟨hn, -⟩ | ⟨ts, ha, hlen, hplace⟩
  · rw [Doc.table, hn] at hu
    cases hu
  · have huid : defId kind d₀ = some oid :=
      (defId_of_read hread).symm.trans (StoredObjects.table_id hu)
    have hwid : defId kind (withId kind d₀ target) = some target := by
      cases kind <;> rfl
    refine filter_eq_map hlen (fun j d d' hj hj' => ?_)
    obtain ⟨v, hv, hreadv, hread'⟩ := hplace j d hj
    rw [hj'] at hread'
    by_cases hfirst : firstWith ts oid = some j
    · have hvu : v = u :=
        Option.some.inj (hv.symm.trans ((table_of_firstWith ha hfirst).symm.trans hu))
      subst hvu
      rw [if_pos hfirst, hnew] at hread'
      obtain rfl := Option.some.inj hread'
      obtain rfl := Option.some.inj (hread.symm.trans hreadv)
      refine ⟨?_, fun _ => by rw [if_pos huid]⟩
      rw [Bool.eq_iff_iff, kept_object_iff hk hwid, kept_object_iff hk huid]
      exact iff_of_true hs' hs
    · rw [if_neg hfirst, hreadv] at hread'
      obtain rfl := Option.some.inj hread'
      refine ⟨rfl, fun hc => ?_⟩
      rw [if_neg]
      intro hdid
      obtain ⟨n, w, hn, hw, hwid⟩ := firstWith_of_mem hv ((defId_of_read hreadv).trans hdid)
      exact hfirst (kept_alone hk h hd ha hj hc hdid hw hwid ▸ hn)

end KissTncBridge.Proofs.RenamedFile
