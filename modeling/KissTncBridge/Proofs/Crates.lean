import Mathlib.Tactic.DeriveCountable
import KissTncBridge.Control.Document
import KissTncBridge.Proofs.ChangeSteps

namespace KissTncBridge.Proofs.Crates
open Conf ChangeSteps Control Lib Supervisor Toml

instance countableUInt8 : Countable UInt8 :=
  Function.Injective.countable (f := UInt8.toNat) (fun _ _ h => UInt8.toNat.inj h)

instance countableUInt32 : Countable UInt32 :=
  Function.Injective.countable (f := UInt32.toNat) (fun _ _ h => UInt32.toNat.inj h)

deriving instance Countable for ConnectPolicy, Role, AppParams

deriving instance Countable for GlobalSection, ControlSection, AdapterDef, SppDef, BleDef,
  SerialDef, TncDef

deriving instance Countable for PortDefKind

deriving instance Countable for PortDef, BridgeDef, ConfigFile

noncomputable def fileCode : Option ConfigFile → Nat :=
  (exists_injective_nat (Option ConfigFile)).choose

theorem fileCode_inj (h : fileCode a = fileCode b) : a = b :=
  (exists_injective_nat (Option ConfigFile)).choose_spec h

open Classical in
/-- The texts of some documents; for any other one a text by what it says. -/
noncomputable def textOf (samples : List (Table × String)) (doc : Table) : String :=
  match samples.find? (fun e => e.1 = doc) with
  | some e => e.2
  | none => String.ofList (List.replicate (fileCode (readFile (Table.plain doc)) + 1) '~')

structure Apart (samples : List (Table × String)) : Prop where
  docs : (samples.map Prod.fst).Nodup
  texts : (samples.map Prod.snd).Nodup
  heads : ∀ e ∈ samples, e.2.toList.head? ≠ some '#' ∧ e.2.toList.head? ≠ some '~'

theorem textOf_cases (samples : List (Table × String)) (doc : Table) :
    (doc, textOf samples doc) ∈ samples ∨
      textOf samples doc =
        String.ofList (List.replicate (fileCode (readFile (Table.plain doc)) + 1) '~') := by
  rw [textOf]
  split
  · rename_i e he
    have hdoc : e.1 = doc := by simpa using List.find?_some he
    exact .inl (hdoc ▸ List.mem_of_find?_eq_some he)
  · exact .inr rfl

theorem textOf_mem {samples : List (Table × String)} (ha : Apart samples)
    (hm : (doc, t) ∈ samples) : textOf samples doc = t := by
  classical
  have hfind : ∃ e, samples.find? (fun e => e.1 = doc) = some e := by
    rw [← Option.isSome_iff_exists, List.find?_isSome]
    exact ⟨(doc, t), hm, by simp⟩
  obtain ⟨e, he⟩ := hfind
  have hdoc : e.1 = doc := by simpa using List.find?_some he
  have hpair := List.inj_on_of_nodup_map ha.docs (List.mem_of_find?_eq_some he) hm hdoc
  rw [textOf, he, hpair]

theorem tildes_head (n : Nat) :
    (String.ofList (List.replicate (n + 1) '~')).toList.head? = some '~' := by
  rw [String.toList_ofList, List.replicate_succ, List.head?_cons]

theorem textOf_head {samples : List (Table × String)} (ha : Apart samples) (doc : Table) :
    (textOf samples doc).toList.head? ≠ some '#' := by
  rcases textOf_cases samples doc with hm | he
  · exact (ha.heads _ hm).1
  · rw [he, tildes_head]
    decide

theorem textOf_known {samples : List (Table × String)} (ha : Apart samples)
    (hm : (doc, t) ∈ samples) (h : textOf samples doc' = t) : doc' = doc := by
  rcases textOf_cases samples doc' with hm' | he
  · rw [h] at hm'
    exact congrArg Prod.fst (List.inj_on_of_nodup_map ha.texts hm' hm rfl)
  · have hhead := (ha.heads _ hm).2
    rw [h] at he
    rw [he, tildes_head] at hhead
    exact absurd rfl hhead

/-- Documents with the same text say the same. -/
theorem textOf_inj {samples : List (Table × String)} (ha : Apart samples)
    (h : textOf samples a = textOf samples b) :
    readFile (Table.plain a) = readFile (Table.plain b) := by
  rcases textOf_cases samples a with hm | ha'
  · rw [textOf_known ha hm h.symm]
  · rcases textOf_cases samples b with hm | hb
    · rw [textOf_known ha hm h]
    · rw [ha', hb, ← String.toList_inj, String.toList_ofList, String.toList_ofList] at h
      have hlen := congrArg List.length h
      rw [List.length_replicate, List.length_replicate] at hlen
      exact fileCode_inj (Nat.succ.inj hlen)

def Behind (t u : String) : Prop :=
  ∃ n : Nat, t.toList = (List.replicate n DYNAMIC_HEADER.toList).flatten ++ u.toList

theorem behind_header (hu : u.toList.head? ≠ some '#') :
    Behind (DYNAMIC_HEADER ++ t) u ↔ Behind t u := by
  constructor
  · rintro ⟨n, hn⟩
    cases n with
    | zero =>
      rw [List.replicate_zero, List.flatten_nil, List.nil_append] at hn
      exact absurd (hn ▸ head_append header_head) hu
    | succ n =>
      rw [String.toList_append, List.replicate_succ, List.flatten_cons, List.append_assoc] at hn
      exact ⟨n, List.append_cancel_left hn⟩
  · rintro ⟨n, hn⟩
    refine ⟨n + 1, ?_⟩
    rw [String.toList_append, hn, List.replicate_succ, List.flatten_cons, List.append_assoc]

theorem eq_of_behind (ht : t.toList.head? ≠ some '#') (h : Behind t u) : t = u := by
  obtain ⟨n, hn⟩ := h
  cases n with
  | zero => exact String.toList_inj.mp hn
  | succ n =>
    refine absurd ?_ ht
    rw [hn, List.replicate_succ, List.flatten_cons, List.append_assoc, List.head?_append,
      header_head]
    rfl

open Classical in
/-- The crates where documents have these texts. -/
noncomputable def crates (samples : List (Table × String)) : TomlLib Table where
  parseFile t :=
    if h : ∃ file doc, Behind t (textOf samples doc) ∧ readFile (Table.plain doc) = some file then
      .ok h.choose
    else .error "not a config file"
  parseState := sampleToml.parseState
  stateText := sampleToml.stateText
  parseDoc t := if h : ∃ doc, textOf samples doc = t then .ok h.choose else .error "not TOML"
  docText := textOf samples
  insertEnabled doc id on := (Doc.table doc .bridge id).map (fun _ =>
    Doc.modify doc .bridge id (Entries.insert "enabled" (.value (.boolean on))))

theorem crates_parseFile {samples : List (Table × String)} (ha : Apart samples) :
    (crates samples).parseFile t = .ok file ↔
      ∃ doc, Behind t (textOf samples doc) ∧ readFile (Table.plain doc) = some file := by
  have huniq : ∀ {doc doc' : Table} {t : String}, Behind t (textOf samples doc) →
    Behind t (textOf samples doc') → readFile (Table.plain doc) = readFile (Table.plain doc') := by
    rintro doc doc' t ⟨n, hn⟩ ⟨m, hm⟩
    refine textOf_inj ha ?_
    induction n generalizing m t with
    | zero =>
      have ht : t = textOf samples doc := String.toList_inj.mp hn
      rw [← ht]
      exact eq_of_behind (ht ▸ textOf_head ha doc) ⟨m, hm⟩
    | succ n ih =>
      cases m with
      | zero =>
        have ht : t = textOf samples doc' := String.toList_inj.mp hm
        rw [← ht]
        exact (eq_of_behind (ht ▸ textOf_head ha doc') ⟨n + 1, hn⟩).symm
      | succ m =>
        rw [List.replicate_succ, List.flatten_cons, List.append_assoc] at hn hm
        have hrest := List.append_cancel_left (hn.symm.trans hm)
        exact ih (t := String.ofList
          ((List.replicate n DYNAMIC_HEADER.toList).flatten ++ (textOf samples doc).toList))
          (by rw [String.toList_ofList]) m (by rw [String.toList_ofList, hrest])
  constructor
  · intro h
    rw [crates] at h
    simp only at h
    split at h
    · rename_i hex
      obtain rfl := Except.ok.inj h
      exact hex.choose_spec
    · cases h
  · rintro ⟨doc, hb, hd⟩
    have hex : ∃ file doc, Behind t (textOf samples doc) ∧ readFile (Table.plain doc) = some file :=
      ⟨file, doc, hb, hd⟩
    obtain ⟨doc', hb', hd'⟩ := hex.choose_spec
    have he : hex.choose = file := by
      rw [huniq hb' hb, hd] at hd'
      exact (Option.some.inj hd').symm
    rw [crates]
    simp only
    rw [dif_pos hex, he]

theorem crates_parseDoc {samples : List (Table × String)} (ha : Apart samples)
    (hm : (doc, t) ∈ samples) : (crates samples).parseDoc t = .ok doc := by
  have hex : ∃ doc, textOf samples doc = t := ⟨doc, textOf_mem ha hm⟩
  rw [crates]
  simp only
  rw [dif_pos hex, textOf_known ha hm hex.choose_spec]

theorem reads_crates {samples : List (Table × String)} (ha : Apart samples) :
    Reads (crates samples) where
  document text doc h file := by
    have ht : textOf samples doc = text := by
      rw [crates] at h
      simp only at h
      split at h
      · rename_i hex
        obtain rfl := Except.ok.inj h
        exact hex.choose_spec
      · cases h
    subst ht
    rw [crates_parseFile ha]
    constructor
    · rintro ⟨doc', hb, hd⟩
      rw [textOf_inj ha (eq_of_behind (textOf_head ha doc) hb), hd]
    · exact fun hd => ⟨doc, ⟨0, rfl⟩, hd⟩
  written doc file := by
    rw [crates_parseFile ha]
    constructor
    · rintro ⟨doc', hb, hd⟩
      rw [textOf_inj ha (eq_of_behind (textOf_head ha doc) hb), hd]
    · exact fun hd => ⟨doc, ⟨0, rfl⟩, hd⟩
  header text file := by
    rw [crates_parseFile ha, crates_parseFile ha]
    simp only [behind_header (textOf_head ha _)]
  enabled doc id on := rfl

end KissTncBridge.Proofs.Crates
