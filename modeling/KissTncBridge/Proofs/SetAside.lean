import KissTncBridge.Proofs.Crates
import KissTncBridge.Proofs.Edits
import KissTncBridge.Proofs.EffectiveObjects

namespace KissTncBridge.Proofs.SetAside
open Conf Control BuildFacts ChangeSteps Crates DocumentReads EditSteps EffectiveObjects Lib
      StaticConfig StoredObjects
open Supervisor Toml TomlReads
open Edits (reads_of_text)

section
variable (statics : List (Source × ConfigFile))

/-- What is stored under an id clashes with static config. -/
def Aside (doc : Table) (kind : Kind) (oid : Option String) : Prop :=
  ∃ v ∈ written doc kind, strOf v "id" = oid ∧ Clash statics kind (strOf v "id") (strOf v "name")

def Spares (doc doc' : Table) : Prop :=
  ∀ kind, ∀ v ∈ written doc' kind, Clash statics kind (strOf v "id") (strOf v "name") →
    Aside statics doc kind (strOf v "id")

end

variable {statics : List (Source × ConfigFile)} {doc doc' : Table}

/-- In a document that loads, these are the objects that are left out. -/
theorem aside_iff (h : readFile (Table.plain doc) = some f) : Aside statics doc kind oid ↔
    ∃ x ∈ objects kind f,
      defId kind x = oid ∧ Clash statics kind (defId kind x) (defName kind x) := by
  have hread := written_reads h kind
  constructor
  · rintro ⟨v, hv, hid, hc⟩
    have hm : readDef kind v ∈ (objects kind f).map some := hread ▸ List.mem_map_of_mem hv
    obtain ⟨x, hx, hr⟩ := List.mem_map.mp hm
    obtain ⟨hid', hc'⟩ := clash_of_read statics hr.symm
    exact ⟨x, hx, hid' ▸ hid, hc'.mp hc⟩
  · rintro ⟨x, hx, hid, hc⟩
    have hm : some x ∈ (written doc kind).map (readDef kind) := hread ▸ List.mem_map_of_mem hx
    obtain ⟨v, hv, hr⟩ := List.mem_map.mp hm
    obtain ⟨hid', hc'⟩ := clash_of_read statics hr
    exact ⟨v, hv, hid'.trans hid, hc'.mpr hc⟩

namespace Spares

theorem refl (doc : Table) : Spares statics doc doc := fun _ v hv hc => ⟨v, hv, rfl, hc⟩

theorem trans (h : Spares statics doc doc') (h' : Spares statics doc' doc'') :
    Spares statics doc doc'' := by
  intro kind v hv hc
  obtain ⟨v', hv', hid, hc'⟩ := h' kind v hv hc
  rw [← hid]
  exact h kind v' hv' hc'

theorem put (hc : Clash statics kind (str t "id") (str t "name") →
      Aside statics doc kind (str t "id")) : Spares statics doc (Doc.put doc kind oid t) := by
  intro k v hv hv'
  rcases mem_put hv with hv | ⟨rfl, rfl⟩
  · exact ⟨v, hv, rfl, hv'⟩
  · rw [strOf_plain] at hv' ⊢
    rw [strOf_plain] at hv'
    exact hc hv'

theorem modify (hc : ∀ t, Doc.table doc kind oid = some t →
      Clash statics kind (str (g t) "id") (str (g t) "name") →
        Aside statics doc kind (str (g t) "id")) :
    Spares statics doc (Doc.modify doc kind oid g) := by
  intro k v hv hv'
  rcases mem_modify hv with hv | ⟨rfl, t, ht, rfl⟩
  · exact ⟨v, hv, rfl, hv'⟩
  · rw [strOf_plain] at hv' ⊢
    rw [strOf_plain] at hv'
    exact hc t ht hv'

/-- A change to an object under the id and the name it has. -/
theorem inside (hid : ∀ t, Doc.table doc kind oid = some t → str (g t) "id" = str t "id")
    (hname : ∀ t, Doc.table doc kind oid = some t → str (g t) "name" = str t "name") :
    Spares statics doc (Doc.modify doc kind oid g) := by
  refine modify (fun t ht hc => ?_)
  rw [hid t ht, hname t ht] at hc
  refine ⟨Table.plain t, table_written ht, ?_, ?_⟩
  · rw [strOf_plain, hid t ht]
  · rwa [strOf_plain, strOf_plain]

theorem remove (doc : Table) (kind : Kind) (oid : String) :
    Spares statics doc (Doc.remove doc kind oid) :=
  fun _ v hv hc => ⟨v, mem_remove hv, rfl, hc⟩

end Spares

@[simp] theorem str_insert_self (k s : String) (t : Table) :
    str (Entries.insert k (value s) t) k = some s := by
  rw [str, Entries.get_insert_self]
  rfl

theorem str_insert_ne (h : k' ≠ k) (i : Item) (t : Table) :
    str (Entries.insert k i t) k' = str t k' := by
  rw [str, str, Entries.get_insert_ne h]

theorem str_setPorts (h : k ≠ "port") (ps : List Table) (t : Table) :
    str (setPorts ps t) k = str t k :=
  str_insert_ne h _ t

theorem str_namePorts (h : k ≠ "port") (t : Table) : str (namePorts t) k = str t k := by
  rw [namePorts]
  split
  · rfl
  · exact str_insert_ne h _ t

theorem str_newBridge (h : k ≠ "enabled") (bid : String) (t : Table) :
    str (newBridge bid t) k = str (Entries.insert "id" (value bid) t) k := by
  rw [newBridge]
  split
  · exact str_insert_ne h _ _
  · rfl

theorem str_copiedBridge (h : k ≠ "public_name") (h' : k ≠ "enabled") (bid label : String)
    (t : Table) : str (copiedBridge bid label t) k =
      str (Entries.insert "name" (value label) (Entries.insert "id" (value bid) t)) k := by
  rw [copiedBridge, str, Entries.get_remove_ne h]
  exact str_insert_ne h' _ _

/-- A string in a request is that string in the table made of it. -/
theorem str_jsonToEntries (h : jsonToEntries es = .ok t)
    (hs : (Entries.get k es).bind Json.asStr = some s) : str t k = some s := by
  induction es generalizing t with
  | nil => cases hs
  | cons e es ih =>
    obtain ⟨k', v⟩ := e
    rw [jsonToEntries] at h
    rw [Entries.get] at hs
    split at h
    · rename_i hnull
      split at hs
      · cases v with
        | null => cases hs
        | _ => cases hnull
      · exact ih h hs
    · obtain ⟨i, hi, h⟩ := bind_ok h
      obtain ⟨rest, hrest, h⟩ := bind_ok h
      obtain rfl := Except.ok.inj h
      rw [str, Entries.get]
      split
      · rename_i hk
        rw [if_pos hk] at hs
        cases v with
        | string s' =>
          obtain rfl := Option.some.inj hs
          simp only [jsonToItem, jsonToValue] at hi
          obtain rfl := Except.ok.inj hi
          rfl
        | _ => cases hs
      · rename_i hk
        rw [if_neg hk] at hs
        exact ih hrest hs

theorem str_jsonToTable (h : jsonToTable defn = .ok t) (hs : strKey defn k = some s) :
    str t k = some s := by
  cases defn with
  | object es => exact str_jsonToEntries h hs
  | _ => cases h

theorem staticSource_none {w : World} :
    w.staticSource kind oid = none ↔ oid ∉ staticIds w.statics kind := by
  cases kind <;>
    simp [World.staticSource, staticIds, List.find?_eq_none]

/-- What an edit puts under a free id and a free name does not clash. -/
theorem not_clash (hid : oid ∉ staticIds statics kind)
    (hname : ∀ n, label = some n → n ∉ staticNames statics) :
    ¬Clash statics kind (some oid) label := by
  rintro (h | ⟨-, n, hn, he⟩)
  · exact hid h
  · exact hname n he hn

theorem not_clash_object (hk : kind ≠ .bridge) (hid : oid ∉ staticIds statics kind) :
    ¬Clash statics kind (some oid) label := by
  rintro (h | ⟨he, -⟩)
  · exact hid h
  · exact hk he

section
variable {cfg : Config} {defn : Json}

theorem createBridge_spares (h : createBridge doc ⟨statics, cfg⟩ defn = .ok (bid, doc')) :
    Spares statics doc doc' := by
  obtain ⟨label, t, hlabel, hfree, hname, ht, rfl⟩ := createBridge_ok h
  refine .put (fun hc => absurd hc ?_)
  rw [str_namePorts (by decide), str_namePorts (by decide), str_newBridge (by decide),
    str_newBridge (by decide), str_insert_self, str_insert_ne (by decide),
      str_jsonToTable ht hlabel]
  refine not_clash (fun hm => hfree (List.mem_append_left _ hm)) (fun n hn => ?_)
  exact Option.some.inj hn ▸ hname

theorem updateBridge_spares (h : updateBridge doc ⟨statics, cfg⟩ bid defn = .ok doc') :
    Spares statics doc doc' := by
  obtain ⟨label, t, _, hlabel, hs, -, hname, ht, rfl⟩ := updateBridge_ok h
  refine .put (fun hc => absurd hc ?_)
  rw [str_namePorts (by decide), str_namePorts (by decide), str_insert_self,
    str_insert_ne (by decide), str_jsonToTable ht hlabel]
  refine not_clash (staticSource_none.mp hs) (fun n hn => ?_)
  exact Option.some.inj hn ▸ hname

theorem cloneBridge_spares
    (h : cloneBridge toml reads doc ⟨statics, cfg⟩ source newId label = .ok (bid, doc')) :
    Spares statics doc doc' := by
  obtain ⟨t, -, hfree, hname, rfl⟩ := cloneBridge_ok h
  refine .put (fun hc => absurd hc ?_)
  rw [str_namePorts (by decide), str_namePorts (by decide),
    str_copiedBridge (by decide) (by decide), str_copiedBridge (by decide) (by decide),
      str_insert_self, str_insert_ne (by decide), str_insert_self]
  refine not_clash (fun hm => hfree (List.mem_append_left _ hm)) (fun n hn => ?_)
  exact Option.some.inj hn ▸ hname

theorem deleteBridge_spares (h : deleteBridge doc w bid = .ok doc') : Spares statics doc doc' := by
  obtain ⟨_, -, rfl⟩ := deleteBridge_ok h
  exact .remove _ _ _

theorem deleteObject_spares (h : deleteObject doc w kind oid = .ok doc') :
    Spares statics doc doc' := by
  obtain ⟨_, -, rfl⟩ := deleteObject_ok h
  exact .remove _ _ _

theorem addPort_spares (h : addPort complaint doc w bid defn = .ok (answer, doc')) :
    Spares statics doc doc' := by
  obtain ⟨_, t, pt, -, ht, -, rfl⟩ := addPort_ok h
  refine .inside (fun t' ht' => ?_) (fun t' ht' => ?_) <;> obtain rfl :=
    Option.some.inj (ht.symm.trans ht') <;>
    rw [str_namePorts (by decide), str_setPorts (by decide)]

theorem updatePort_spares (h : updatePort complaint doc w bid port defn = .ok doc') :
    Spares statics doc doc' := by
  obtain ⟨_, _, _, _, -, -, -, -, rfl⟩ := updatePort_ok h
  exact .inside (fun _ _ => str_setPorts (by decide) _ _) (fun _ _ => str_setPorts (by decide) _ _)

theorem removePort_spares (h : removePort doc w bid port = .ok doc') : Spares statics doc doc' := by
  obtain ⟨_, _, -, -, rfl⟩ := removePort_ok h
  exact .inside (fun _ _ => str_setPorts (by decide) _ _) (fun _ _ => str_setPorts (by decide) _ _)

theorem free_id (hk : kind ≠ .bridge) (h : oid ∉ idsOf doc ⟨statics, cfg⟩ kind) :
    oid ∉ staticIds statics kind := by
  intro hm
  refine h (List.mem_append_left _ ?_)
  cases kind with
  | adapter => exact hm
  | tnc => exact hm
  | bridge => exact absurd rfl hk

theorem createObject_spares (hk : kind ≠ .bridge)
    (h : createObject doc ⟨statics, cfg⟩ kind defn = .ok (oid, doc')) :
    Spares statics doc doc' := by
  obtain ⟨t, hid, hfree, ht, rfl⟩ := createObject_ok h
  refine .put (fun hc => absurd hc ?_)
  rw [str_jsonToTable ht hid]
  exact not_clash_object hk (free_id hk hfree)

/-- A section is no string, before and after. -/
theorem str_section {i j : Item} (hg : Entries.get sect t = some i) (hi : Item.asStr i = none)
    (hj : Item.asStr j = none) (key : String) : str (Entries.insert sect j t) key = str t key := by
  by_cases hk : key = sect
  · subst hk
    rw [str, str, hg, Entries.get_insert_self, Option.bind_some, Option.bind_some, hi, hj]
  · exact str_insert_ne hk j t

/-- A reference that is changed is in no id and in no name. -/
theorem setReference_spares (doc : Table) (path : RefPath) (target : String) :
    Spares statics doc (setReference doc path target) := by
  cases path with
  | port bridge i k =>
    refine .inside (fun t _ => ?_) (fun t _ => ?_)
    all_goals
      split
      · exact str_setPorts (by decide) _ t
      · rfl
  | tncSection tnc sect =>
    refine .inside (fun t _ => ?_) (fun t _ => ?_)
    all_goals
      split
      · rename_i hg
        exact str_section hg rfl rfl _
      · rename_i hg
        exact str_section hg rfl rfl _
      · rfl

theorem setReferences_spares (refs : List Reference) (doc : Table) (target : String) :
    Spares statics doc (refs.foldl (fun doc r => setReference doc r.path target) doc) := by
  induction refs generalizing doc with
  | nil => exact .refl doc
  | cons r refs ih => exact (setReference_spares doc r.path target).trans (ih _)

theorem updateObject_spares (hk : kind ≠ .bridge)
    (h : updateObject doc ⟨statics, cfg⟩ kind oid defn = .ok (answer, doc')) :
    Spares statics doc doc' := by
  obtain ⟨t, hs, rfl | ⟨oid', refs, hfree, rfl⟩⟩ := updateObject_ok h
  · refine .put (fun hc => absurd hc ?_)
    rw [str_insert_self]
    exact not_clash_object hk (staticSource_none.mp hs)
  · refine Spares.trans (.modify (fun _ _ hc => absurd hc ?_)) (setReferences_spares refs _ oid')
    rw [str_insert_self]
    exact not_clash_object hk (free_id hk hfree)

end

section
variable {toml : TomlLib Table} (hr : Control.Reads toml)
include hr

theorem setEnabled_spares {e e' : Edited Table} (h : setEnabled toml w bid on e = .ok e') :
    Spares statics e.doc e'.doc := by
  unfold setEnabled at h
  split at h
  · obtain rfl := Except.ok.inj h
    exact .refl _
  · split at h
    · cases h
    · rw [hr.enabled] at h
      cases ht : Doc.table e.doc .bridge bid with
      | none =>
        rw [ht] at h
        cases h
      | some t =>
        rw [ht] at h
        obtain rfl := Except.ok.inj h
        exact .inside (fun _ _ => str_insert_ne (by decide) _ _)
          (fun _ _ => str_insert_ne (by decide) _ _)

theorem bridgeSwitch_spares {store : DynamicStore Table} {e : Edited Table}
    (h : bridgeSwitch toml others bid store w = .ok e) : Spares statics store.doc e.doc := by
  have hall : ∀ (others : List String) (e₀ e₁ : Edited Table),
      others.foldlM (fun e other => setEnabled toml w other (some false) e) e₀ = .ok e₁ →
        Spares statics e₀.doc e₁.doc := by
    intro others
    induction others with
    | nil =>
      intro e₀ e₁ h
      obtain rfl := Except.ok.inj h
      exact .refl _
    | cons other others ih =>
      intro e₀ e₁ h
      rw [List.foldlM_cons] at h
      obtain ⟨e', he, h⟩ := bind_ok h
      exact (setEnabled_spares hr he).trans (ih e' e₁ h)
  obtain ⟨e', he, h⟩ := bind_ok h
  exact (hall _ _ _ he).trans (setEnabled_spares hr h)

end

/-- What `config.put` leaves to the client: that a file in place of the whole
`dynamic.toml` brings no object with a static id or name, and a bridge no
static name, other than ones that were set aside before. -/
def Covered (toml : TomlLib Table) (d : Daemon Table) : Command → Prop
  | .configPut none none text _ =>
    ∀ doc, replaceText toml text = .ok doc → Spares d.sources.statics d.store.doc doc
  | .configPut (some .bridge) (some o) text _ =>
    (Text.trim text).isEmpty = false → Tabular d.store.doc .bridge →
      ∀ t, parseObject toml .bridge text = .ok t → ∀ n ∈ staticNames d.sources.statics,
        str t "name" = some n →
        Aside d.sources.statics d.store.doc .bridge (some (okOr (d.bridgeId o) o))
  | _ => True

theorem indexOf_of_not_tabular (h : ¬Tabular doc kind) : Doc.indexOf doc kind oid = none := by
  have ha : Doc.array doc kind = none := by
    rw [Doc.array]
    cases hg : Entries.get (key kind) doc with
    | none => rfl
    | some i =>
      cases i with
      | value => rfl
      | table => rfl
      | arrayOfTables ts => exact absurd (.inr ⟨ts, hg⟩) h
  rw [Doc.indexOf, ha]
  rfl

section
variable {toml : TomlLib Table} {cfg : Config}

theorem putObject_spares (hk : kind ≠ .bridge)
    (h : putObject toml doc ⟨statics, cfg⟩ kind oid text rev = .ok (answer, doc')) :
    Spares statics doc doc' := by
  obtain ⟨hs, ⟨-, rfl⟩ | ⟨-, t, -, rfl⟩⟩ := putObject_ok h
  · exact .remove _ _ _
  · refine .put (fun hc => absurd hc ?_)
    rw [str_insert_self]
    exact not_clash_object hk (staticSource_none.mp hs)

theorem putBridge_spares_iff
    (h : putObject toml doc ⟨statics, cfg⟩ .bridge bid text rev = .ok (answer, doc')) :
    Spares statics doc doc' ↔ ((Text.trim text).isEmpty = false → Tabular doc .bridge →
      ∀ t, parseObject toml .bridge text = .ok t → ∀ n ∈ staticNames statics,
        str t "name" = some n → Aside statics doc .bridge (some bid)) := by
  obtain ⟨hs, ⟨hblank, rfl⟩ | ⟨hblank, t, ht, rfl⟩⟩ := putObject_ok h
  · exact iff_of_true (.remove _ _ _) (fun hb => absurd (hblank.symm.trans hb) (by decide))
  · have hid : str (Entries.insert "id" (value bid) t) "id" = some bid := str_insert_self ..
    have hname : str (Entries.insert "id" (value bid) t) "name" = str t "name" :=
      str_insert_ne (by decide) _ t
    constructor
    · intro hsp _ hw t' ht' n hn hlabel
      obtain rfl := Except.ok.inj (ht.symm.trans ht')
      have haside := hsp .bridge _ (put_written hw)
      rw [strOf_plain, strOf_plain, hid, hname] at haside
      exact haside (.inr ⟨rfl, n, hn, hlabel⟩)
    · intro hcov
      by_cases hw : Tabular doc .bridge
      · refine .put (fun hc => ?_)
        rw [hid, hname] at hc
        rw [hid]
        rcases hc with hc | ⟨-, n, hn, hlabel⟩
        · exact absurd hc (staticSource_none.mp hs)
        · exact hcov hblank hw t ht n hn hlabel
      · rw [put_lost (indexOf_of_not_tabular hw) hw]
        exact .refl doc

end

theorem ofDoc_ok {f : DynamicStore Table → World → Except ApiError (Option String × Table)}
    {e : Edited Table} (h : ofDoc f store w = .ok e) : f store w = .ok (e.id, e.doc) := by
  obtain ⟨r, hr, rfl⟩ := map_ok h
  exact hr

/-- Of the commands only `config.put` lets something through. -/
theorem edit_spares_iff {env : Env Table} {s : Surroundings} {d : Daemon Table} {e : Edited Table}
    (hr : Control.Reads env.toml) (hc : c.edit env s d = .ok edit)
    (he : edit d.store ⟨d.sources.statics, d.cfg⟩ = .ok e) :
    Spares d.sources.statics d.store.doc e.doc ↔ Covered env.toml d c := by
  cases c with
  | configPut kind object text rev =>
    obtain rfl := Except.ok.inj hc
    have he := ofDoc_ok he
    cases kind with
    | none =>
      cases object with
      | none =>
        have hdoc := replaceAll_ok he
        constructor
        · intro hsp doc hdoc'
          exact Except.ok.inj (hdoc.symm.trans hdoc') ▸ hsp
        · exact fun hcov => hcov _ hdoc
      | some o => cases he
    | some kind =>
      cases object with
      | none => cases kind <;> cases he
      | some o =>
        cases kind with
        | adapter => exact iff_of_true (putObject_spares (by decide) he) trivial
        | tnc => exact iff_of_true (putObject_spares (by decide) he) trivial
        | bridge => exact putBridge_spares_iff he
  | bridgeCreate defn =>
    obtain rfl := Except.ok.inj hc
    obtain ⟨r, hr, hd⟩ := map_ok (ofDoc_ok he)
    exact iff_of_true ((Prod.mk.inj hd).2 ▸ createBridge_spares hr) trivial
  | bridgeUpdate bridge defn =>
    obtain ⟨bid, -, hc⟩ := bind_ok hc
    obtain rfl := Except.ok.inj hc
    obtain ⟨r, hr, hd⟩ := map_ok (ofDoc_ok he)
    exact iff_of_true ((Prod.mk.inj hd).2 ▸ updateBridge_spares hr) trivial
  | bridgeDelete bridge =>
    obtain ⟨bid, -, hc⟩ := bind_ok hc
    obtain rfl := Except.ok.inj hc
    obtain ⟨r, hr, hd⟩ := map_ok (ofDoc_ok he)
    exact iff_of_true ((Prod.mk.inj hd).2 ▸ deleteBridge_spares hr) trivial
  | bridgeClone bridge newId label =>
    obtain ⟨bid, -, hc⟩ := bind_ok hc
    obtain rfl := Except.ok.inj hc
    obtain ⟨r, hr, hd⟩ := map_ok (ofDoc_ok he)
    exact iff_of_true ((Prod.mk.inj hd).2 ▸ cloneBridge_spares hr) trivial
  | bridgeEnable bridge reset =>
    obtain ⟨bid, -, hc⟩ := bind_ok hc
    obtain rfl := Except.ok.inj hc
    exact iff_of_true (setEnabled_spares hr he) trivial
  | bridgeDisable bridge =>
    obtain ⟨bid, -, hc⟩ := bind_ok hc
    obtain rfl := Except.ok.inj hc
    exact iff_of_true (setEnabled_spares hr he) trivial
  | bridgeSwitch bridge =>
    obtain ⟨bid, -, hc⟩ := bind_ok hc
    obtain rfl := Except.ok.inj hc
    exact iff_of_true (bridgeSwitch_spares hr he) trivial
  | portAdd bridge defn =>
    obtain ⟨bid, -, hc⟩ := bind_ok hc
    obtain rfl := Except.ok.inj hc
    exact iff_of_true (addPort_spares (ofDoc_ok he)) trivial
  | portUpdate bridge port defn =>
    obtain ⟨bid, -, hc⟩ := bind_ok hc
    obtain rfl := Except.ok.inj hc
    obtain ⟨r, hr, hd⟩ := map_ok (ofDoc_ok he)
    exact iff_of_true ((Prod.mk.inj hd).2 ▸ updatePort_spares hr) trivial
  | portRemove bridge port =>
    obtain ⟨bid, -, hc⟩ := bind_ok hc
    obtain rfl := Except.ok.inj hc
    obtain ⟨r, hr, hd⟩ := map_ok (ofDoc_ok he)
    exact iff_of_true ((Prod.mk.inj hd).2 ▸ removePort_spares hr) trivial
  | tncCreate defn | adapterCreate defn =>
    obtain rfl := Except.ok.inj hc
    obtain ⟨r, hr, hd⟩ := map_ok (ofDoc_ok he)
    exact iff_of_true ((Prod.mk.inj hd).2 ▸ createObject_spares (by decide) hr) trivial
  | tncUpdate tnc defn =>
    obtain ⟨oid, -, hc⟩ := bind_ok hc
    obtain rfl := Except.ok.inj hc
    obtain ⟨r, hr, hd⟩ := map_ok (ofDoc_ok he)
    exact iff_of_true ((Prod.mk.inj hd).2 ▸ updateObject_spares (by decide) hr) trivial
  | tncDelete tnc =>
    obtain ⟨oid, -, hc⟩ := bind_ok hc
    obtain rfl := Except.ok.inj hc
    obtain ⟨r, hr, hd⟩ := map_ok (ofDoc_ok he)
    exact iff_of_true ((Prod.mk.inj hd).2 ▸ deleteObject_spares hr) trivial
  | adapterUpdate adapter defn =>
    obtain rfl := Except.ok.inj hc
    obtain ⟨r, hr, hd⟩ := map_ok (ofDoc_ok he)
    exact iff_of_true ((Prod.mk.inj hd).2 ▸ updateObject_spares (by decide) hr) trivial
  | adapterDelete adapter =>
    obtain rfl := Except.ok.inj hc
    obtain ⟨r, hr, hd⟩ := map_ok (ofDoc_ok he)
    exact iff_of_true ((Prod.mk.inj hd).2 ▸ deleteObject_spares hr) trivial

def Blank (toml : TomlLib Table) : Prop :=
  ∀ doc, (Text.trim (toml.docText doc)).isEmpty = true → toml.parseFile (toml.docText doc) = .ok {}

theorem blank_text {toml : TomlLib Table} (hb : Blank toml) (store : DynamicStore Table)
    (h : (Text.trim (store.text toml)).isEmpty = true) :
    toml.parseFile (store.text toml) = .ok {} := by
  rw [DynamicStore.text] at h ⊢
  split at h
  · rename_i hblank
    rw [if_pos hblank]
    exact hb _ hblank
  · have hn := not_blank_of_head (head_append header_head) (by decide)
      (t := DYNAMIC_HEADER ++ toml.docText store.doc)
    rw [hn] at h
    cases h

/-- After a change that is made the store has the edited document, and the
config is built from what its text says. -/
theorem change_builds {env : Env Table} {d d' : Daemon Table} (hb : Blank env.toml)
    (h : d.change env snapshot nonDisruptive edit = (.ok r, d')) :
    ∃ e file st, edit d.store ⟨d.sources.statics, d.cfg⟩ = .ok e ∧ d'.store.doc = e.doc ∧
      env.toml.parseFile (d'.store.text env.toml) = .ok file ∧
      Built env.net d.sources.statics file st d'.cfg := by
  rcases change_cases env d snapshot nonDisruptive edit with
    ⟨_, hc⟩ | ⟨_, _, -, hc⟩ | ⟨e, cfg, report, store, saved, d₁, ha, hs, -, hc⟩
  · rw [hc] at h
    cases h
  · rw [hc] at h
    cases h
  · obtain ⟨-, rfl⟩ := Prod.mk.inj (hc.symm.trans h)
    have hdoc : store.doc = e.doc := by
      rcases saveStore_cases hs with ⟨-, rfl, -⟩ | ⟨-, hd, -⟩
      · rfl
      · exact hd
    have htext : store.text env.toml = (d.editedStore e).text env.toml := by
      rw [DynamicStore.text, DynamicStore.text, hdoc, Daemon.editedStore]
    obtain ⟨file, hf, hbuilt⟩ := (build_iff _ _ _ _).mp ⟨_, ha.builds⟩
    unfold Daemon.editedSources at hf hbuilt
    dsimp only at hf hbuilt
    refine ⟨e, file, _, ha.edits, hdoc, ?_, hbuilt⟩
    change env.toml.parseFile (store.text env.toml) = .ok file
    rw [htext]
    split at hf
    · simp only [Option.map_some] at hf
      exact holds_some.mp hf
    · rename_i hblank
      have hempty : (Text.trim ((d.editedStore e).text env.toml)).isEmpty = true := by
        simp only [Bool.or_eq_true, Bool.not_eq_true', not_or, Bool.not_eq_false] at hblank
        exact hblank.1
      cases hf
      exact blank_text hb _ hempty

/-- The saved store loads, and each of its objects is in the config in effect
unless one of its id was set aside before the change. -/
def Kept (toml : TomlLib Table) (d d' : Daemon Table) : Prop :=
  ∃ file, toml.parseFile (d'.store.text toml) = .ok file ∧ ∀ kind, ∀ x ∈ objects kind file,
    InEffect d'.cfg kind x ∨ Aside d.sources.statics d.store.doc kind (defId kind x)

theorem kept_iff {toml : TomlLib Table} {d d' : Daemon Table} (hr : Control.Reads toml)
    (hst : ∀ f ∈ d.sources.statics, f.1.isStatic = true)
    (hf : toml.parseFile (d'.store.text toml) = .ok file)
    (hbuilt : Built net d.sources.statics file st d'.cfg) :
    Kept toml d d' ↔ Spares d.sources.statics d.store.doc d'.store.doc := by
  have hread : readFile (Table.plain d'.store.doc) = some file := (reads_of_text hr d'.store).mp hf
  constructor
  · rintro ⟨file', hf', hkept⟩ kind v hv hc
    obtain rfl := Except.ok.inj (hf.symm.trans hf')
    obtain ⟨x, hx, hid, hclash⟩ := (aside_iff hread).mp ⟨v, hv, rfl, hc⟩
    rcases hkept kind x hx with heff | haside
    · exact absurd hclash ((inEffect_iff hst hbuilt hx).mp heff)
    · rwa [← hid]
  · intro hsp
    refine ⟨file, hf, fun kind x hx => ?_⟩
    by_cases hclash : Clash d.sources.statics kind (defId kind x) (defName kind x)
    · obtain ⟨v, hv, hid, hc⟩ := (aside_iff hread).mpr ⟨x, hx, rfl, hclash⟩
      exact .inr (hid ▸ hsp kind v hv hc)
    · exact .inl ((inEffect_iff hst hbuilt hx).mpr hclash)

theorem blank_crates {samples : List (Table × String)} (ha : Apart samples)
    (hb : ∀ e ∈ samples, (Text.trim e.2).isEmpty = true → readFile (Table.plain e.1) = some {}) :
    Blank (crates samples) := by
  intro doc h
  refine ((reads_crates ha).written doc {}).mpr ?_
  rcases textOf_cases samples doc with hm | he
  · exact hb _ hm h
  · have hn := not_blank_of_head (tildes_head (fileCode (readFile (Table.plain doc)))) (by decide)
    have ht : (crates samples).docText doc = textOf samples doc := rfl
    rw [ht, he, hn] at h
    cases h

def loneTable (bid label : String) : Table :=
  [("id", value bid), ("name", value label), ("enabled", .value (.boolean false))]

def loneBridge (bid label : String) : Table := [("bridge", .arrayOfTables [loneTable bid label])]

def loneText (bid label : String) : String :=
  "[[bridge]]\nid = \"" ++ bid ++ "\"\nname = \"" ++ label ++ "\"\nenabled = false\n"

def clubTexts : List (Table × String) :=
  [([], ""), (loneBridge "ktbr0" "Club", loneText "ktbr0" "Club"),
    (loneBridge "ktbr1" "Club", loneText "ktbr1" "Club"),
      (loneBridge "ktbr1" "Shack", loneText "ktbr1" "Shack")]

theorem clubTexts_apart : Apart clubTexts where
  docs := by simp [clubTexts, loneBridge, loneTable, value]
  texts := by decide
  heads := by decide

def clubDef (bid label : String) : BridgeDef := ⟨some bid, label, some false, none, none, []⟩

noncomputable def clubEnv : Env Table where
  net := ⟨fun _ => none, fun _ _ => false⟩
  toml := crates clubTexts
  host := ⟨fun _ => true, fun _ => true⟩
  adapters := []
  btSession := fun _ _ => .ok ()
  addBle := fun _ _ => .ok ()
  startAnnouncer := true
  statics := ⟨fieldPath, .ok (loneText "ktbr0" "Club"), "/etc/kiss-tnc-bridge/conf.d", none, false⟩
  stateDir := "/var/lib/kiss-tnc-bridge"
  readDynamic := .ok ()
  readState := .ok ()
  writeDynamic := .ok ()
  writeState := .ok ()

def clubStatics : List (Source × ConfigFile) :=
  [(.static fieldPath, { bridge := [clubDef "ktbr0" "Club"] })]

def clubConfig (dynamic : List Conf.Bridge) : Config where
  global := ⟨"info", .default⟩
  control := ⟨"kiss-tnc-bridge"⟩
  adapters := []
  tncs := []
  bridges := ⟨"ktbr0", "Club", "Club", false, none, .pass, [], .static fieldPath⟩ :: dynamic

theorem club_parses (hm : (doc, t) ∈ clubTexts) (h : readFile (Table.plain doc) = some f) :
    clubEnv.toml.parseFile t = .ok f := by
  have hr := ((reads_crates clubTexts_apart).written doc f).mpr h
  have ht : (crates clubTexts).docText doc = t := textOf_mem clubTexts_apart hm
  rwa [ht] at hr

theorem club_loads : load clubEnv.toml clubEnv.statics = .ok clubStatics := by
  have hm : (loneBridge "ktbr0" "Club", loneText "ktbr0" "Club") ∈ clubTexts := by simp [clubTexts]
  exact load_main rfl rfl (club_parses hm rfl)

theorem club_blank : Blank clubEnv.toml := by
  refine blank_crates clubTexts_apart (fun e he hb => ?_)
  simp only [clubTexts, List.mem_cons, List.not_mem_nil, or_false] at he
  rcases he with rfl | rfl | rfl | rfl
  · rfl
  · revert hb
    decide
  · revert hb
    decide
  · revert hb
    decide

noncomputable def clubSources : Sources := ⟨clubStatics, none, .empty, false, []⟩

noncomputable def clubStore : DynamicStore Table := ⟨clubEnv.dynamicPath, [], none⟩

noncomputable def clubUnstarted : Daemon Table :=
  Daemon.unstarted clubEnv ⟨none, none⟩ clubSources (clubConfig []) clubStore

noncomputable def clubDaemon : Daemon Table :=
  clubUnstarted.apply clubEnv (clubUnstarted.planFor clubEnv (fun _ => none) (clubConfig []))
    (clubConfig [])

theorem resolve_club (h : (resolve clubEnv.net files).toOption = some cfg) :
    resolve clubEnv.net files = .ok cfg := by
  cases hr : resolve clubEnv.net files with
  | error ps =>
    rw [hr] at h
    cases h
  | ok c =>
    rw [hr] at h
    rw [Option.some.inj h]

theorem built_club (h : (resolve clubEnv.net (gathered clubStatics file)).toOption = some cfg)
    (ho : file.global = none ∧ file.control = none) (hv : (validate cfg none).errors = []) :
    Built clubEnv.net clubStatics file .empty cfg :=
  ⟨ho, ⟨cfg, resolve_club h, (applyOverrides_empty cfg).symm⟩, hv⟩

theorem club_starts : Daemon.start clubEnv ⟨none, none⟩ = some (.ok clubDaemon) := by
  have hb : ∃ report, build clubEnv.toml clubEnv.net (some clubEnv.host) clubSources =
      .ok (clubConfig [], report) :=
    (build_iff _ _ _ _).mpr ⟨{}, .missing, built_club rfl ⟨rfl, rfl⟩ rfl⟩
  obtain ⟨report, hb⟩ := hb
  have hempty : (([] : Table), "") ∈ clubTexts := List.mem_cons_self ..
  have hdoc : clubEnv.toml.parseDoc "" = .ok [] := crates_parseDoc clubTexts_apart hempty
  have hstore : Daemon.storeFromSources clubEnv clubSources = some clubStore := by
    have hstrip : stripHeader "" = "" := stripHeader_of_head (by simp)
    simp only [Daemon.storeFromSources, DynamicStore.fromText, clubSources, Option.map_none,
      Option.getD_none, hstrip, hdoc, clubStore]
  exact start_ok ⟨fun _ _ => rfl, fun _ _ => rfl⟩
    (readAgain_ok club_loads rfl rfl (loadState_none rfl _)) hb hstore

def putLone (label : String) : Command :=
  .configPut (some .bridge) (some "ktbr1") (loneText "ktbr1" label) ""

def clubSurroundings : Surroundings := ⟨fun _ => .error "no such file", fun _ => ""⟩

theorem lone_head (bid label : String) : (loneText bid label).toList.head? = some '[' := by
  have h : ("[[bridge]]\nid = \"" : String).toList.head? = some '[' := rfl
  unfold loneText
  rw [String.toList_append, String.toList_append, String.toList_append, String.toList_append,
    List.append_assoc, List.append_assoc, List.append_assoc, List.head?_append, h]
  rfl

theorem lone_parses (hm : (loneBridge "ktbr1" label, loneText "ktbr1" label) ∈ clubTexts) :
    parseObject clubEnv.toml .bridge (loneText "ktbr1" label) = .ok (loneTable "ktbr1" label) := by
  have hdoc : clubEnv.toml.parseDoc (loneText "ktbr1" label) = .ok (loneBridge "ktbr1" label) :=
    crates_parseDoc clubTexts_apart hm
  rw [parseObject, hdoc]
  rfl

theorem club_edits (hm : (loneBridge "ktbr1" label, loneText "ktbr1" label) ∈ clubTexts) :
    Control.configPut clubEnv.toml clubStore ⟨clubStatics, clubConfig []⟩ (some .bridge)
      (some "ktbr1")
      (loneText "ktbr1" label) "" = .ok (some "ktbr1", loneBridge "ktbr1" label) := by
  have hblank := not_blank_of_head (lone_head "ktbr1" label) (by decide)
  have hs : World.staticSource ⟨clubStatics, clubConfig []⟩ .bridge "ktbr1" = none := rfl
  have hone : Doc.one clubStore.doc .bridge "ktbr1" = none := rfl
  simp only [Control.configPut, putObject, hs, objectRevision, hone, Option.map_none,
    Option.getD_none, ne_eq, not_true_eq_false, if_false, hblank, Bool.false_eq_true,
      lone_parses hm]
  rfl

noncomputable def clubEdit (label : String) : Edit Table :=
  ofDoc (fun store w =>
    Control.configPut clubEnv.toml store w (some .bridge) (some "ktbr1")
      (loneText "ktbr1" label) "")

theorem putLone_edit (label : String) :
    (putLone label).edit clubEnv clubSurroundings clubDaemon = .ok (clubEdit label) :=
  rfl

def clubEdited (label : String) : Edited Table := ⟨some "ktbr1", loneBridge "ktbr1" label, []⟩

theorem clubEdit_ok (hm : (loneBridge "ktbr1" label, loneText "ktbr1" label) ∈ clubTexts) :
    clubEdit label clubStore ⟨clubStatics, clubConfig []⟩ = .ok (clubEdited label) := by
  rw [clubEdit, ofDoc, club_edits hm]
  rfl

/-- The bridge is put, whatever it is named. -/
theorem club_puts (hm : (loneBridge "ktbr1" label, loneText "ktbr1" label) ∈ clubTexts)
    (hread : readFile (Table.plain (loneBridge "ktbr1" label)) =
      some { bridge := [clubDef "ktbr1" label] })
    (hbuilt : Built clubEnv.net clubStatics { bridge := [clubDef "ktbr1" label] } .empty cfg) :
    ∃ r d', command clubEnv clubSurroundings clubDaemon (fun _ => none) false (putLone label) =
        (.ok r, d') := by
  have hlone : clubEnv.toml.docText (loneBridge "ktbr1" label) = loneText "ktbr1" label :=
    textOf_mem clubTexts_apart hm
  have hnone : clubEnv.toml.docText [] = "" := textOf_mem clubTexts_apart (List.mem_cons_self ..)
  have hblank := not_blank_of_head (lone_head "ktbr1" label) (by decide)
  have hhead := not_blank_of_head (head_append header_head) (by decide)
    (t := DYNAMIC_HEADER ++ loneText "ktbr1" label)
  have htext : (clubDaemon.editedStore (clubEdited label)).text clubEnv.toml =
      DYNAMIC_HEADER ++ loneText "ktbr1" label := by
    rw [DynamicStore.text, Daemon.editedStore, clubEdited, hlone, hblank]
    rfl
  have hold : clubDaemon.store.text clubEnv.toml = "" := by
    change DynamicStore.text clubEnv.toml clubStore = ""
    rw [DynamicStore.text, clubStore, hnone]
    rfl
  have hbuilds : ∃ report, build clubEnv.toml clubEnv.net (some clubEnv.host)
      (clubDaemon.editedSources clubEnv (clubEdited label)) = .ok (cfg, report) := by
    refine (build_iff _ _ _ _).mpr ⟨_, ?_, hbuilt⟩
    unfold Daemon.editedSources
    dsimp only
    rw [htext, hhead]
    exact .parsed (((reads_crates clubTexts_apart).header _ _).mpr (club_parses hm hread))
  obtain ⟨report, hbuilds⟩ := hbuilds
  have ha : Accepted clubEnv clubDaemon (fun _ => none) false (clubEdit label)
      (clubEdited label) cfg report :=
    ⟨clubEdit_ok hm, hbuilds, rfl⟩
  have hsaves : Saves clubEnv clubDaemon (clubDaemon.editedStore (clubEdited label)) := by
    refine ⟨?_, rfl, rfl, rfl⟩
    rw [htext, hold]
    intro h
    rw [h] at hhead
    revert hhead
    decide
  rw [command, putLone_edit]
  exact change_saved ha hsaves rfl

def shack : Conf.Bridge := ⟨"ktbr1", "Shack", "Shack", false, none, .pass, [], .dynamic⟩

end KissTncBridge.Proofs.SetAside
