import KissTncBridge.Config.Toml

namespace KissTncBridge.Proofs.TomlReads
open Conf Lib Toml

theorem get_plain (k : String) (t : Table) :
    Entries.get k (plainEntries t) = (Entries.get k t).map Item.plain := by
  rw [plainEntries_eq, Entries.get_map]

theorem plain_insert (k : String) (i : Item) (t : Table) :
    plainEntries (Entries.insert k i t) = Entries.insert k i.plain (plainEntries t) := by
  induction t with
  | nil => simp [Entries.insert, plainEntries]
  | cons e es ih =>
    by_cases he : e.1 = k
    · simp [Entries.insert, plainEntries, he]
    · simp [Entries.insert, plainEntries, he, ih]

theorem plain_remove (k : String) (t : Table) :
    plainEntries (Entries.remove k t) = Entries.remove k (plainEntries t) := by
  rw [plainEntries_eq, plainEntries_eq, Entries.remove, Entries.remove, List.filter_map]
  rfl

theorem known_insert {ks : List String} (hk : ks.contains k = true) (v : Val)
    (es : List (String × Val)) : known ks (Entries.insert k v es) = known ks es :=
  Entries.all_keys_insert (fun k => ks.contains k) k v es hk

theorem known_remove (h : known ks es = true) (k : String) :
    known ks (Entries.remove k es) = true := by
  rw [known, List.all_eq_true] at h ⊢
  exact fun e he => h e (List.mem_filter.mp he).1

theorem fields_iff {ks : List String} :
    fields ks (.table es) = some es' ↔ known ks es = true ∧ es = es' := by
  rw [fields]
  split
  · rename_i hk
    rw [Option.some.injEq]
    exact ⟨fun h => ⟨hk, h⟩, And.right⟩
  · rename_i hk
    exact ⟨nofun, fun h => absurd h.1 hk⟩

theorem req_insert_ne (h : k' ≠ k) (v : Val) (es : List (String × Val)) (read : Val → Option α) :
    req (Entries.insert k v es) k' read = req es k' read := by
  rw [req, req, Entries.get_insert_ne h]

theorem opt_insert_ne (h : k' ≠ k) (v : Val) (es : List (String × Val)) (read : Val → Option α) :
    opt (Entries.insert k v es) k' read = opt es k' read := by
  rw [opt, opt, Entries.get_insert_ne h]

theorem defaulted_insert_ne (h : k' ≠ k) (v : Val) (es : List (String × Val))
    (read : Val → Option α) : defaulted (Entries.insert k v es) k' read = defaulted es k' read := by
  rw [defaulted, defaulted, Entries.get_insert_ne h]

@[simp] theorem req_insert_self (k : String) (v : Val) (es : List (String × Val))
    (read : Val → Option α) : req (Entries.insert k v es) k read = read v := by
  rw [req, Entries.get_insert_self]
  rfl

@[simp] theorem opt_insert_self (k : String) (v : Val) (es : List (String × Val))
    (read : Val → Option α) : opt (Entries.insert k v es) k read = (read v).map some := by
  rw [opt, Entries.get_insert_self]

@[simp] theorem defaulted_insert_self (k : String) (v : Val) (es : List (String × Val))
    (read : Val → Option α) : defaulted (Entries.insert k v es) k read = v.asList read := by
  rw [defaulted, Entries.get_insert_self]

theorem readBridge_iff : readBridge (.table es) = some d ↔
    known bridgeFields es = true ∧ opt es "id" Val.asStr = some d.id ∧
    req es "name" Val.asStr = some d.name ∧
      opt es "enabled" Val.asBool = some d.enabled ∧
      opt es "public_name" Val.asStr = some d.publicName ∧
      opt es "app_params" readAppParams = some d.appParams ∧
      defaulted es "port" readPort = some d.ports := by
  simp only [readBridge, bind, Option.bind_eq_some_iff, fields_iff]
  constructor
  · rintro ⟨_, ⟨hk, rfl⟩, _, h1, _, h2, _, h3, _, h4, _, h5, _, h6, hd⟩
    obtain rfl := Option.some.inj hd
    exact ⟨hk, h1, h2, h3, h4, h5, h6⟩
  · rintro ⟨hk, h1, h2, h3, h4, h5, h6⟩
    exact ⟨_, ⟨hk, rfl⟩, _, h1, _, h2, _, h3, _, h4, _, h5, _, h6, rfl⟩

theorem readAdapter_id (h : readAdapter (.table es) = some d) :
    req es "id" Val.asStr = some d.id := by
  simp only [readAdapter, bind, Option.bind_eq_some_iff, fields_iff, Option.some.injEq] at h
  obtain ⟨_, ⟨-, rfl⟩, _, hid, _, -, rfl⟩ := h
  exact hid

theorem readTnc_id (h : readTnc (.table es) = some d) : req es "id" Val.asStr = some d.id := by
  simp only [readTnc, bind, Option.bind_eq_some_iff, fields_iff, Option.some.injEq] at h
  obtain ⟨_, ⟨-, rfl⟩, _, hid, _, -, _, -, _, -, _, -, _, -, rfl⟩ := h
  exact hid

theorem readPort_iff : readPort (.table es) = some p ↔
    ∃ name type, req es "type" Val.asStr = some name ∧ Entries.get name portTypes = some type ∧
      known (portFields type) es = true ∧ opt es "id" Val.asStr = some p.id ∧
      opt es "role" readRole = some p.role ∧ type.read es = some p.kind := by
  simp only [readPort, bind, Option.bind_eq_some_iff, fields_iff]
  constructor
  · rintro ⟨name, hn, type, ht, _, ⟨hk, rfl⟩, _, h1, _, h2, _, h3, hp⟩
    obtain rfl := Option.some.inj hp
    exact ⟨name, type, hn, ht, hk, h1, h2, h3⟩
  · rintro ⟨name, type, hn, ht, hk, h1, h2, h3⟩
    exact ⟨name, hn, type, ht, _, ⟨hk, rfl⟩, _, h1, _, h2, _, h3, rfl⟩

theorem readFile_iff : readFile (.table es) = some f ↔
    known fileFields es = true ∧ opt es "global" readGlobal = some f.global ∧
      opt es "control" readControl = some f.control ∧ defaulted es "adapter" readAdapter =
        some f.adapter ∧
      defaulted es "tnc" readTnc = some f.tnc ∧ defaulted es "bridge" readBridge =
        some f.bridge := by
  simp only [readFile, bind, Option.bind_eq_some_iff, fields_iff]
  constructor
  · rintro ⟨_, ⟨hk, rfl⟩, _, h1, _, h2, _, h3, _, h4, _, h5, hd⟩
    obtain rfl := Option.some.inj hd
    exact ⟨hk, h1, h2, h3, h4, h5⟩
  · rintro ⟨hk, h1, h2, h3, h4, h5⟩
    exact ⟨_, ⟨hk, rfl⟩, _, h1, _, h2, _, h3, _, h4, _, h5, rfl⟩

theorem req_of_opt {read : Val → Option α} (h : opt es k read = some o) : req es k read = o := by
  rw [opt] at h
  rw [req]
  cases hg : Entries.get k es with
  | none =>
    rw [hg] at h
    exact Option.some.inj h
  | some v =>
    rw [hg] at h
    obtain ⟨a, ha, rfl⟩ := Option.map_eq_some_iff.mp h
    exact ha

theorem asStr_plain (i : Item) : i.plain.asStr = i.asStr := by
  cases i <;> simp [Item.plain, Item.asStr, Val.asStr]

/-- A port type is known by name, and reads ports of that type only. -/
theorem typeName_of_read (h : Entries.get name portTypes = some type)
    (hr : type.read es = some p.kind) : PortDef.typeName p = name := by
  simp only [portTypes, Entries.get] at h
  split_ifs at h with h1 h2 h3 h4 h5 h6 <;> obtain rfl := Option.some.inj h <;>
    simp only [tncPortType, bind, Option.bind_eq_some_iff, Option.some.injEq] at hr
  · obtain ⟨_, _, _, _, _, _, hk⟩ := hr
    rw [PortDef.typeName, ← hk, ← h1]
  · obtain ⟨_, _, _, _, _, _, _, _, hk⟩ := hr
    rw [PortDef.typeName, ← hk, ← h2]
  · obtain ⟨_, _, _, _, hk⟩ := hr
    rw [PortDef.typeName, ← hk, ← h3]
  · obtain ⟨_, _, _, _, _, _, _, _, hk⟩ := hr
    rw [PortDef.typeName, ← hk, ← h4]
  · obtain ⟨_, _, _, _, _, _, _, _, hk⟩ := hr
    rw [PortDef.typeName, ← hk, ← h5]
  · obtain ⟨_, _, _, _, _, _, _, _, hk⟩ := hr
    rw [PortDef.typeName, ← hk, ← h6]

/-- What sets a port type apart is read from fields other than its id. -/
theorem read_insert_id (h : Entries.get name portTypes = some type) (v : Val)
    (es : List (String × Val)) : type.read (Entries.insert "id" v es) = type.read es := by
  simp only [portTypes, Entries.get] at h
  split_ifs at h <;> obtain rfl := Option.some.inj h <;>
    simp only [tncPortType, req_insert_ne, opt_insert_ne, ne_eq, String.reduceEq, not_false_eq_true]

theorem readPort_insert_id (h : readPort (.table es) = some p) (s : String) :
    readPort (.table (Entries.insert "id" (.string s) es)) = some { p with id := some s } := by
  obtain ⟨name, type, hn, ht, hk, -, hrole, hread⟩ := readPort_iff.mp h
  refine readPort_iff.mpr ⟨name, type, ?_, ht, ?_, ?_, ?_, ?_⟩
  · rwa [req_insert_ne (by decide)]
  · rwa [known_insert (by simp [portFields])]
  · rw [opt_insert_self]
    rfl
  · rwa [opt_insert_ne (by decide)]
  · rwa [read_insert_id ht]

theorem readPort_type (h : readPort (.table es) = some p) :
    req es "type" Val.asStr = some p.typeName := by
  obtain ⟨name, type, hn, ht, -, -, -, hread⟩ := readPort_iff.mp h
  rw [hn, typeName_of_read ht hread]

end KissTncBridge.Proofs.TomlReads
