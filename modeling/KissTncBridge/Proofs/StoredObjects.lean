import KissTncBridge.Control.Commands
import KissTncBridge.Proofs.EditSteps

namespace KissTncBridge.Proofs.StoredObjects
open Conf Control DocumentReads EditSteps Lib Supervisor Toml TomlReads

/-- The objects of a kind as a document has them, whether or not the loader
takes them. -/
def written (doc : Table) (kind : Kind) : List Val :=
  match Entries.get (key kind) (plainEntries doc) with
  | some (.array vs) => vs
  | _ => []

def strOf (v : Val) (k : String) : Option String :=
  match v with
  | .table es => req es k Val.asStr
  | _ => none

theorem strOf_plain (t : Table) (k : String) : strOf (Table.plain t) k = str t k :=
  (str_plain t k).symm

theorem written_insert (doc : Table) (kind : Kind) (ts : List Table) :
    written (Entries.insert (key kind) (.arrayOfTables ts) doc) kind = ts.map Table.plain := by
  rw [written, plain_insert, Entries.get_insert_self, Item.plain, plainTables_eq]

theorem written_insert_ne (h : k ≠ kind) (doc : Table) (i : Item) :
    written (Entries.insert (key kind) i doc) k = written doc k := by
  rw [written, written, plain_insert, Entries.get_insert_ne (fun he => h (key_injective he))]

theorem written_of_array (h : Doc.array doc kind = some ts) :
    written doc kind = ts.map Table.plain := by
  rw [Doc.array, Option.bind_eq_some_iff] at h
  obtain ⟨i, hi, hts⟩ := h
  cases i with
  | value => cases hts
  | table => cases hts
  | arrayOfTables ts' =>
    obtain rfl := Option.some.inj hts
    rw [written, get_plain, hi, Option.map_some, Item.plain, plainTables_eq]

theorem table_id (h : Doc.table doc kind oid = some t) : str t "id" = some oid := by
  simp only [Doc.table, Doc.indexOf, bind, Option.bind_eq_some_iff] at h
  obtain ⟨ts, ha, i, ⟨ts', ha', hi⟩, hget⟩ := h
  obtain rfl := Option.some.inj (ha.symm.trans ha')
  obtain ⟨hlt, hid, -⟩ := List.findIdx?_eq_some_iff_getElem.mp hi
  obtain ⟨_, rfl⟩ := List.getElem?_eq_some_iff.mp hget
  simpa using hid

theorem table_written (h : Doc.table doc kind oid = some t) : Table.plain t ∈ written doc kind := by
  simp only [Doc.table, bind, Option.bind_eq_some_iff] at h
  obtain ⟨ts, ha, i, -, hget⟩ := h
  rw [written_of_array ha]
  exact List.mem_map_of_mem (List.mem_of_getElem? hget)

theorem mem_modify (h : v ∈ written (Doc.modify doc kind oid g) k) :
    v ∈ written doc k ∨ k = kind ∧ ∃ t, Doc.table doc kind oid = some t ∧
    v = Table.plain (g t) := by
  rw [Doc.modify] at h
  split at h
  · rename_i ts i ha hi
    by_cases hk : k = kind
    · subst hk
      rw [written_insert] at h
      obtain ⟨t, ht, rfl⟩ := List.mem_map.mp h
      obtain ⟨j, hj⟩ := List.mem_iff_getElem?.mp ht
      rw [List.getElem?_modify, Option.map_eq_map, Option.map_eq_some_iff] at hj
      obtain ⟨t₀, ht₀, rfl⟩ := hj
      by_cases hij : i = j
      · subst hij
        rw [if_pos rfl]
        refine .inr ⟨rfl, t₀, ?_, rfl⟩
        simp only [Doc.table, ha, hi, bind, Option.bind_some, ht₀]
      · rw [if_neg hij, written_of_array ha]
        exact .inl (List.mem_map_of_mem (List.mem_of_getElem? ht₀))
    · rw [written_insert_ne hk] at h
      exact .inl h
  · exact .inl h

theorem mem_put (h : v ∈ written (Doc.put doc kind oid t) k) :
    v ∈ written doc k ∨ k = kind ∧ v = Table.plain t := by
  rw [Doc.put] at h
  split at h
  · rcases mem_modify h with hv | ⟨hk, _, -, hv⟩
    · exact .inl hv
    · exact .inr ⟨hk, hv⟩
  · split at h
    · by_cases hk : k = kind
      · subst hk
        rw [written_insert] at h
        exact .inr ⟨rfl, by simpa using h⟩
      · rw [written_insert_ne hk] at h
        exact .inl h
    · rename_i ts hg
      by_cases hk : k = kind
      · subst hk
        have ha : Doc.array doc k = some ts := by rw [Doc.array, hg]; rfl
        rw [written_insert, List.map_append, List.mem_append, ← written_of_array ha] at h
        exact h.imp_right (fun hv => ⟨rfl, by simpa using hv⟩)
      · rw [written_insert_ne hk] at h
        exact .inl h
    · exact .inl h

theorem put_written (hw : Tabular doc kind) :
    Table.plain t ∈ written (Doc.put doc kind oid t) kind := by
  rw [Doc.put]
  cases hi : Doc.indexOf doc kind oid with
  | none =>
    rcases hw with hg | ⟨ts, hg⟩
    · simp only [hg, written_insert, List.map_cons, List.mem_cons, true_or]
    · simp only [hg, written_insert, List.map_append, List.mem_append, List.map_cons, List.mem_cons,
        true_or, or_true]
  | some i =>
    have ha : ∃ ts, Doc.array doc kind = some ts ∧ i < ts.length := by
      simp only [Doc.indexOf, bind, Option.bind_eq_some_iff] at hi
      obtain ⟨ts, ha, hf⟩ := hi
      exact ⟨ts, ha, (List.findIdx?_eq_some_iff_getElem.mp hf).1⟩
    obtain ⟨ts, ha, hlt⟩ := ha
    simp only [Doc.modify, ha, hi, written_insert]
    refine List.mem_map_of_mem (List.mem_of_getElem? (i := i) ?_)
    rw [List.getElem?_modify, List.getElem?_eq_getElem hlt, Option.map_eq_map,
      Option.map_some, if_pos rfl]

theorem mem_remove (h : v ∈ written (Doc.remove doc kind oid) k) : v ∈ written doc k := by
  rw [Doc.remove] at h
  split at h
  · rename_i ts i ha hi
    by_cases hk : k = kind
    · subst hk
      simp only at h
      split at h
      · rw [written, plain_remove, Entries.get_remove_self] at h
        cases h
      · rw [written_insert] at h
        obtain ⟨t, ht, rfl⟩ := List.mem_map.mp h
        rw [written_of_array ha]
        exact List.mem_map_of_mem (List.mem_of_mem_eraseIdx ht)
    · simp only at h
      split at h
      · rwa [written, plain_remove, Entries.get_remove_ne (fun he => hk (key_injective he))] at h
      · rwa [written_insert_ne hk] at h
  · exact h

/-- What is written reads as the objects of the file. -/
theorem written_reads (h : readFile (Table.plain doc) = some f) (kind : Kind) :
    (written doc kind).map (readDef kind) = (objects kind f).map some := by
  obtain ⟨-, -, -, hobj⟩ := readFile_kinds.mp h
  have hk := hobj kind
  rw [defaulted] at hk
  rw [written]
  cases hg : Entries.get (key kind) (plainEntries doc) with
  | none =>
    rw [hg] at hk
    rw [← Option.some.inj hk]
    rfl
  | some v =>
    rw [hg] at hk
    cases v with
    | array vs => exact mapM_some_iff.mp hk
    | _ => cases hk

end KissTncBridge.Proofs.StoredObjects
