import Mathlib.Data.List.InsertIdx
import KissTncBridge.Control.Document
import KissTncBridge.Proofs.TomlReads

namespace KissTncBridge.Proofs.DocumentReads
open Conf Control Lib Supervisor Toml TomlReads

@[simp] theorem value_plain (s : String) : (value s).plain = .string s := by
  rw [value, Item.plain]

def Def : Kind → Type
  | .adapter => AdapterDef
  | .tnc => TncDef
  | .bridge => BridgeDef

def readDef : (kind : Kind) → Val → Option (Def kind)
  | .adapter => readAdapter
  | .tnc => readTnc
  | .bridge => readBridge

def defId : (kind : Kind) → Def kind → Option String
  | .adapter, d => some (AdapterDef.id d)
  | .tnc, d => some (TncDef.id d)
  | .bridge, d => BridgeDef.id d

def objects : (kind : Kind) → ConfigFile → List (Def kind)
  | .adapter, f => f.adapter
  | .tnc, f => f.tnc
  | .bridge, f => f.bridge

def withObjects : (kind : Kind) → ConfigFile → List (Def kind) → ConfigFile
  | .adapter, f, ds => { f with adapter := ds }
  | .tnc, f, ds => { f with tnc := ds }
  | .bridge, f, ds => { f with bridge := ds }

@[simp] theorem withObjects_objects (kind : Kind) (f : ConfigFile) :
    withObjects kind f (objects kind f) = f := by
  cases kind <;> rfl

@[simp] theorem objects_withObjects (kind : Kind) (f : ConfigFile) (ds : List (Def kind)) :
    objects kind (withObjects kind f ds) = ds := by
  cases kind <;> rfl

theorem objects_withObjects_ne (h : k ≠ kind) (f : ConfigFile) (ds : List (Def kind)) :
    objects k (withObjects kind f ds) = objects k f := by
  cases k <;> cases kind <;> first | rfl | exact absurd rfl h

@[simp] theorem withObjects_global (kind : Kind) (f : ConfigFile) (ds : List (Def kind)) :
    (withObjects kind f ds).global = f.global := by
  cases kind <;> rfl

@[simp] theorem withObjects_control (kind : Kind) (f : ConfigFile) (ds : List (Def kind)) :
    (withObjects kind f ds).control = f.control := by
  cases kind <;> rfl

theorem file_ext {f f' : ConfigFile} (hg : f.global = f'.global) (hc : f.control = f'.control)
    (ho : ∀ kind, objects kind f = objects kind f') : f = f' := by
  cases f
  cases f'
  have ha := ho .adapter
  have ht := ho .tnc
  have hb := ho .bridge
  simp_all [objects]

theorem key_injective (h : key k = key k') : k = k' := by
  cases k <;> cases k' <;> first | rfl | (simp [key] at h)

theorem mapM_some_iff {f : α → Option β} {l : List α} {bs : List β} :
    l.mapM f = some bs ↔ l.map f = bs.map some := by
  induction l generalizing bs with
  | nil => cases bs <;> simp
  | cons a l ih =>
    rw [List.mapM_cons]
    simp only [bind, Option.bind_eq_some_iff, pure, Option.some.injEq]
    cases bs with
    | nil => simp
    | cons b bs =>
      rw [List.map_cons, List.map_cons, List.cons.injEq, ← ih]
      constructor
      · rintro ⟨b', hb, bs', hbs, he⟩
        obtain ⟨rfl, rfl⟩ := List.cons.inj he
        exact ⟨hb, hbs⟩
      · rintro ⟨hb, hbs⟩
        exact ⟨b, hb, bs, hbs, rfl⟩

theorem readFile_kinds : readFile (.table es) = some f ↔
    known fileFields es = true ∧ opt es "global" readGlobal = some f.global ∧
      opt es "control" readControl = some f.control ∧
      ∀ kind, defaulted es (key kind) (readDef kind) = some (objects kind f) := by
  rw [readFile_iff]
  refine and_congr_right (fun _ => and_congr_right (fun _ => and_congr_right (fun _ => ?_)))
  constructor
  · rintro ⟨ha, ht, hb⟩ kind
    cases kind
    · exact ha
    · exact ht
    · exact hb
  · intro h
    exact ⟨h .adapter, h .tnc, h .bridge⟩

/-- Another array under a kind's key changes the objects of that kind only. -/
theorem readFile_insert (h : readFile (.table es) = some f) (kind : Kind) (v : Val) :
    readFile (.table (Entries.insert (key kind) v es)) = some f' ↔
      ∃ ds, v.asList (readDef kind) = some ds ∧ f' = withObjects kind f ds := by
  obtain ⟨hk, hg, hc, hobj⟩ := readFile_kinds.mp h
  have hkey : fileFields.contains (key kind) = true := by cases kind <;> decide
  have hglobal : "global" ≠ key kind := by cases kind <;> decide
  have hcontrol : "control" ≠ key kind := by cases kind <;> decide
  have hother : ∀ k, k ≠ kind → defaulted (Entries.insert (key kind) v es) (key k) (readDef k) =
      some (objects k f) := by
    intro k hne
    rw [defaulted_insert_ne (fun he => hne (key_injective he)), hobj k]
  rw [readFile_kinds, known_insert hkey, opt_insert_ne hglobal, opt_insert_ne hcontrol]
  constructor
  · rintro ⟨-, hg', hc', hobj'⟩
    have hself := hobj' kind
    rw [defaulted_insert_self] at hself
    refine ⟨objects kind f', hself, file_ext ?_ ?_ (fun k => ?_)⟩
    · rw [withObjects_global]
      exact Option.some.inj (hg'.symm.trans hg)
    · rw [withObjects_control]
      exact Option.some.inj (hc'.symm.trans hc)
    · by_cases hne : k = kind
      · subst hne
        rw [objects_withObjects]
      · rw [objects_withObjects_ne hne]
        exact Option.some.inj ((hobj' k).symm.trans (hother k hne))
  · rintro ⟨ds, hds, rfl⟩
    refine ⟨hk, by rwa [withObjects_global], by rwa [withObjects_control], fun k => ?_⟩
    by_cases hne : k = kind
    · subst hne
      rw [defaulted_insert_self, objects_withObjects, hds]
    · rw [hother k hne, objects_withObjects_ne hne]

/-- Without the array of a kind there are no objects of it. -/
theorem readFile_remove (h : readFile (.table es) = some f) (kind : Kind) :
    readFile (.table (Entries.remove (key kind) es)) = some (withObjects kind f []) := by
  obtain ⟨hk, hg, hc, hobj⟩ := readFile_kinds.mp h
  have hglobal : "global" ≠ key kind := by cases kind <;> decide
  have hcontrol : "control" ≠ key kind := by cases kind <;> decide
  refine readFile_kinds.mpr ⟨known_remove hk _, ?_, ?_, fun k => ?_⟩
  · rwa [withObjects_global, opt, Entries.get_remove_ne hglobal]
  · rwa [withObjects_control, opt, Entries.get_remove_ne hcontrol]
  · by_cases hne : k = kind
    · subst hne
      rw [defaulted, Entries.get_remove_self, objects_withObjects]
    · rw [defaulted, Entries.get_remove_ne (fun he => hne (key_injective he)),
        objects_withObjects_ne hne]
      exact hobj k

variable {doc : Table} {f f' : ConfigFile}

/-- The tables of a kind are read as its objects. -/
theorem array_reads (h : readFile (Table.plain doc) = some f) (ha : Doc.array doc kind = some ts) :
    ts.map (fun t => readDef kind (Table.plain t)) = (objects kind f).map some := by
  obtain ⟨-, -, -, hobj⟩ := readFile_kinds.mp h
  have hk := hobj kind
  rw [Doc.array, Option.bind_eq_some_iff] at ha
  obtain ⟨i, hi, hts⟩ := ha
  cases i with
  | value => cases hts
  | table => cases hts
  | arrayOfTables ts' =>
    obtain rfl := Option.some.inj hts
    rw [defaulted, get_plain, hi, Option.map_some, Item.plain, plainTables_eq] at hk
    have := mapM_some_iff.mp hk
    rwa [List.map_map] at this

/-- A table is read as the object in its place. -/
theorem read_at {j : Nat} (h : readFile (Table.plain doc) = some f)
    (ha : Doc.array doc kind = some ts) (ht : ts[j]? = some t) :
    ∃ d, (objects kind f)[j]? = some d ∧ readDef kind (Table.plain t) = some d := by
  have hj := congrArg (·[j]?) (array_reads h ha)
  simp only [List.getElem?_map, ht, Option.map_some] at hj
  obtain ⟨d, hd, hread⟩ := Option.map_eq_some_iff.mp hj.symm
  exact ⟨d, hd, hread.symm⟩

/-- A table's strings are the strings of what it says. -/
theorem str_plain (t : Table) (k : String) : str t k = req (plainEntries t) k Val.asStr := by
  rw [str, req, get_plain]
  cases Entries.get k t with
  | none => rfl
  | some i => exact (asStr_plain i).symm

theorem defId_of_read {d : Def kind} (h : readDef kind (Table.plain t) = some d) :
    str t "id" = defId kind d := by
  rw [str_plain]
  cases kind with
  | adapter => exact readAdapter_id h
  | tnc => exact readTnc_id h
  | bridge =>
    obtain ⟨-, hid, -⟩ := readBridge_iff.mp h
    exact req_of_opt hid

/-- An object has the same place among the tables and among what they are read
as. -/
theorem indexOf_eq (h : readFile (Table.plain doc) = some f) (ha : Doc.array doc kind = some ts)
    (id : String) :
    Doc.indexOf doc kind id = (objects kind f).findIdx? (fun d => defId kind d == some id) := by
  have hread := array_reads h ha
  have hids : ∀ (ts : List Table) (ds : List (Def kind)),
      ts.map (fun t => readDef kind (Table.plain t)) = ds.map some →
      ts.map (fun t => str t "id") = ds.map (defId kind) := by
    intro ts
    induction ts with
    | nil => intro ds hds; cases ds <;> simp_all
    | cons t ts ih =>
      intro ds hds
      cases ds with
      | nil => simp at hds
      | cons d ds =>
        obtain ⟨hd, hds⟩ := List.cons.inj hds
        rw [List.map_cons, List.map_cons, defId_of_read hd, ih ds hds]
  have hfind : (ts.map (fun t => str t "id")).findIdx? (· == some id) =
      ((objects kind f).map (defId kind)).findIdx? (· == some id) := by
    rw [hids ts _ hread]
  rw [List.findIdx?_map, List.findIdx?_map] at hfind
  rw [Doc.indexOf, ha]
  exact hfind

/-- Where an object is found, as a table and as what it is read as. -/
structure Found (doc : Table) (f : ConfigFile) (kind : Kind) (id : String) (i : Nat) (t : Table)
    (d : Def kind) : Prop where
  array : ∃ ts, Doc.array doc kind = some ts ∧ ts[i]? = some t
  index : Doc.indexOf doc kind id = some i
  place : (objects kind f).findIdx? (fun d => defId kind d == some id) = some i
  object : (objects kind f)[i]? = some d
  reads : readDef kind (Table.plain t) = some d

theorem found_of_table (h : readFile (Table.plain doc) = some f)
    (ht : Doc.table doc kind oid = some t) : ∃ i d, Found doc f kind oid i t d := by
  simp only [Doc.table, bind, Option.bind_eq_some_iff] at ht
  obtain ⟨ts, ha, i, hi, hget⟩ := ht
  obtain ⟨d, hd, hread⟩ := read_at h ha hget
  exact ⟨i, d, ⟨ts, ha, hget⟩, hi, indexOf_eq h ha oid ▸ hi, hd, hread⟩

theorem map_some_inj {l l' : List α} (h : l.map some = l'.map some) : l = l' :=
  List.map_injective_iff.mpr (fun _ _ h => Option.some.inj h) h

/-- Changing an object's table changes that object only, in place. -/
theorem modify_reads (h : readFile (Table.plain doc) = some f) (hf : Found doc f kind oid i t d)
    (g : Table → Table) :
    readFile (Table.plain (Doc.modify doc kind oid g)) = some f' ↔
      ∃ d', readDef kind (Table.plain (g t)) = some d' ∧
      f' = withObjects kind f ((objects kind f).set i d') := by
  obtain ⟨ts, ha, hget⟩ := hf.array
  have hread := array_reads h ha
  have hlt : i < ts.length := (List.getElem?_eq_some_iff.mp hget).1
  have hmod : ts.modify i g = ts.set i (g t) := by
    rw [List.modify_eq_set_getElem?, hget]
    rfl
  have hdoc : Doc.modify doc kind oid g =
      Entries.insert (key kind) (.arrayOfTables (ts.set i (g t))) doc := by
    rw [Doc.modify, ha, hf.index, ← hmod]
  rw [hdoc, Table.plain, plain_insert, readFile_insert h]
  simp only [Item.plain, plainTables_eq, Val.asList, mapM_some_iff, List.map_map, Function.comp_def,
    List.map_set, hread]
  constructor
  · rintro ⟨ds, hds, rfl⟩
    have hlen : i < ((objects kind f).map some).length := by
      rw [← hread, List.length_map]
      exact hlt
    have hi : (ds.map some)[i]? = some (readDef kind (Table.plain (g t))) := by
      rw [← hds, List.getElem?_set_self hlen]
    rw [List.getElem?_map, Option.map_eq_some_iff] at hi
    obtain ⟨d', -, hd'⟩ := hi
    refine ⟨d', hd'.symm, ?_⟩
    rw [← hd', ← List.map_set] at hds
    rw [map_some_inj hds]
  · rintro ⟨d', hd', rfl⟩
    exact ⟨_, by rw [hd', ← List.map_set], rfl⟩

/-- Removing an object removes that one only. -/
theorem remove_reads (h : readFile (Table.plain doc) = some f) (hf : Found doc f kind oid i t d) :
    readFile (Table.plain (Doc.remove doc kind oid)) =
      some (withObjects kind f ((objects kind f).eraseIdx i)) := by
  obtain ⟨ts, ha, -⟩ := hf.array
  have hread : (ts.eraseIdx i).map (fun t => readDef kind (Table.plain t)) =
      ((objects kind f).eraseIdx i).map some := by
    rw [← List.eraseIdx_map, ← List.eraseIdx_map, array_reads h ha]
  rw [Doc.remove, ha, hf.index]
  simp only
  split
  · rename_i hempty
    rw [List.isEmpty_iff.mp hempty, List.map_nil] at hread
    rw [Table.plain, plain_remove, readFile_remove h, List.map_eq_nil_iff.mp hread.symm]
  · rw [Table.plain, plain_insert, readFile_insert h]
    refine ⟨_, ?_, rfl⟩
    rw [Item.plain, plainTables_eq, Val.asList, mapM_some_iff, List.map_map]
    exact hread

/-- Whether a document's objects of a kind are not written as an inline
array. -/
def Tabular (doc : Table) (kind : Kind) : Prop :=
  Entries.get (key kind) doc = none ∨ ∃ ts, Entries.get (key kind) doc = some (.arrayOfTables ts)

/-- A new object goes behind the others. -/
theorem put_reads (h : readFile (Table.plain doc) = some f) (hn : Doc.indexOf doc kind oid = none)
    (hw : Tabular doc kind) (t : Table) :
    readFile (Table.plain (Doc.put doc kind oid t)) = some f' ↔
      ∃ d, readDef kind (Table.plain t) = some d ∧
      f' = withObjects kind f (objects kind f ++ [d]) := by
  obtain ⟨-, -, -, hobj⟩ := readFile_kinds.mp h
  have hk := hobj kind
  rw [defaulted, get_plain] at hk
  have hput : ∃ ts,
    Doc.put doc kind oid t = Entries.insert (key kind) (.arrayOfTables (ts ++ [t])) doc ∧
      ts.map (fun t => readDef kind (Table.plain t)) = (objects kind f).map some := by
    rcases hw with hg | ⟨ts, hg⟩
    · rw [hg] at hk
      refine ⟨[], by rw [Doc.put, hn, hg]; rfl, ?_⟩
      rw [← Option.some.inj hk]
      rfl
    · exact ⟨ts, by rw [Doc.put, hn, hg], array_reads h (by rw [Doc.array, hg]; rfl)⟩
  obtain ⟨ts, hput, hread⟩ := hput
  rw [hput, Table.plain, plain_insert, readFile_insert h]
  simp only [Item.plain, plainTables_eq, Val.asList, mapM_some_iff, List.map_map, Function.comp_def,
    List.map_append, hread, List.map_cons, List.map_nil]
  constructor
  · rintro ⟨ds, hds, rfl⟩
    obtain ⟨ds₁, ds₂, rfl, h₁, h₂⟩ := List.map_eq_append_iff.mp hds.symm
    obtain ⟨d, hd⟩ : ∃ d, ds₂ = [d] :=
      List.length_eq_one_iff.mp (by simpa using congrArg List.length h₂)
    subst hd
    refine ⟨d, (List.cons.inj h₂).1.symm, ?_⟩
    rw [map_some_inj h₁]
  · rintro ⟨d, hd, rfl⟩
    exact ⟨_, by rw [hd, List.map_append]; rfl, rfl⟩

/-- Into an inline array nothing is put. -/
theorem put_lost (hn : Doc.indexOf doc kind oid = none) (hw : ¬Tabular doc kind) (t : Table) :
    Doc.put doc kind oid t = doc := by
  rw [Doc.put, hn]
  cases hg : Entries.get (key kind) doc with
  | none => exact absurd (.inl hg) hw
  | some i =>
    cases i with
    | value => rfl
    | table => rfl
    | arrayOfTables ts => exact absurd (.inr ⟨ts, hg⟩) hw

end KissTncBridge.Proofs.DocumentReads
