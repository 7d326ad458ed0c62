import KissTncBridge.Proofs.RenamedPorts

namespace KissTncBridge.Proofs.RenamedConfig
open Conf Control BuildFacts DocumentReads EffectiveObjects Lib References RenamedFile RenamedPorts
  Renaming StaticConfig Supervisor Toml ValidConfig

variable {net : IpNetLib} {statics : List (Source × ConfigFile)} {f f' : ConfigFile} {st : State}
    {cfg cfg' : Config} {kind : Kind} {oid target : String} {named : Bool}

/-- The config with another id for an adapter or a TNC: for the object, and for a TNC in every
port of a dynamic bridge that uses it. A port and a TNC's section have their adapter as a MAC. -/
def renamed (cfg : Config) (kind : Kind) (oid target : String) (named : Bool) : Config :=
  { cfg with
    adapters :=
      if kind = .adapter then cfg.adapters.map (renameAdapter oid target) else cfg.adapters
    tncs := if kind = .tnc then cfg.tncs.map (renameTnc oid target named) else cfg.tncs
    bridges := cfg.bridges.map (fun b =>
      if b.source.isStatic then b else renameBridge kind oid target b) }

theorem static_same (hst : ∀ f ∈ statics, f.1.isStatic = true) (h : Built net statics f st cfg)
    (h' : Built net statics f' st cfg') : staticPart cfg' = staticPart cfg := by
  obtain ⟨c, hc, hs⟩ := Built.staticPart_eq h hst
  obtain ⟨c', hc', hs'⟩ := Built.staticPart_eq h' hst
  rw [hc] at hc'
  cases hc'
  exact hs'.trans hs.symm

theorem global_same (h : staticPart cfg' = staticPart cfg) : cfg'.global = cfg.global := by
  have hs : (staticPart cfg').global = (staticPart cfg).global := congrArg Config.global h
  exact hs

theorem control_same (h : staticPart cfg' = staticPart cfg) : cfg'.control = cfg.control := by
  have hs : (staticPart cfg').control = (staticPart cfg).control := congrArg Config.control h
  exact hs

theorem resolveAdapter_ok (h : resolveAdapter d source = .ok a) :
    a.id = d.id ∧ Mac.parse d.mac = .ok a.mac ∧ a.source = source := by
  refine ⟨resolveAdapter_id h, ?_, resolveAdapter_source h⟩
  unfold resolveAdapter at h
  dsimp only at h
  split at h
  · cases h
  · split at h
    · cases h
    · split at h
      · cases h
      · rename_i hm
        cases h
        exact hm

section
variable (hp : Parts net statics f cfg) (hp' : Parts net statics f' cfg')
  (hstatic : staticPart cfg' = staticPart cfg)
include hp hp' hstatic

/-- The adapters after a rename of one of them. -/
theorem adapters_renamed (hv : Valid cfg)
    (hobj : (setAsideCollisions statics f').1.adapter = (setAsideCollisions statics f).1.adapter.map
      (fun d => if d.id = oid then { d with id := target } else d))
    (hd : d₀ ∈ (setAsideCollisions statics f).1.adapter) (hid : d₀.id = oid) :
    cfg'.adapters = cfg.adapters.map (renameAdapter oid target) := by
  obtain ⟨a₀, ha₀⟩ := hp.adapter d₀ hd
  have hm₀ : a₀ ∈ (setAsideCollisions statics f).1.adapter.filterMap
      (fun d => okOf (resolveAdapter d .dynamic)) :=
    List.mem_filterMap.mpr ⟨d₀, hd, by rw [ha₀]; rfl⟩
  have hn := hv.adapter_ids
  rw [hp.adapters] at hn
  rw [hp'.adapters, hp.adapters, List.map_append, hstatic, hobj, List.filterMap_map,
    List.map_filterMap]
  congr 1
  · refine (List.map_congr_left (fun a ha => ?_)).symm.trans (List.map_id _) |>.symm
    have hother := front_ne hn hm₀ a ha
    rw [resolveAdapter_id ha₀, hid] at hother
    rw [renameAdapter, if_neg hother, id]
  · refine List.filterMap_congr (fun d hm => ?_)
    obtain ⟨a, ha⟩ := hp.adapter d hm
    obtain ⟨a', ha'⟩ := hp'.adapter _ (hobj ▸ List.mem_map_of_mem hm)
    obtain ⟨hi, hmac, hs⟩ := resolveAdapter_ok ha
    obtain ⟨hi', hmac', hs'⟩ := resolveAdapter_ok ha'
    simp only [Function.comp_apply]
    rw [ha, ha']
    simp only [okOf, Option.map_some, Option.some.injEq, renameAdapter, hi]
    by_cases ho : d.id = oid
    · rw [if_pos ho] at hi' hmac' ⊢
      have hsame : a.mac = a'.mac := Except.ok.inj (hmac.symm.trans hmac')
      cases a
      cases a'
      simp_all
    · rw [if_neg ho] at ha' ⊢
      exact Except.ok.inj (ha'.symm.trans ha)

end

/-- Zeros stand for what is not a MAC, which is an error. -/
def addressOf (s : String) : Mac := (Mac.parse s).toOption.getD ⟨0⟩

def modelOf (model : Option String) : TncModel :=
  ((model.map TncModel.parse).bind Except.toOption).getD .generic

/-- What is made of a TNC's own settings. -/
theorem resolveTnc_fst (d : TncDef) (source : Source) (sppAdapter bleAdapter : Option AdapterSel) :
    (resolveTnc d source sppAdapter bleAdapter).1 = {
      id := d.id
      name := d.name.getD d.id
      model := modelOf d.model
      spp := d.spp.map (fun s => ⟨addressOf s.address, sppAdapter.getD .default, s.channel⟩)
      ble := d.ble.map (fun s => ⟨addressOf s.address, bleAdapter.getD .default⟩)
      serial := d.serial.map (fun s => ⟨s.path, s.baud.getD DEFAULT_SERIAL_BAUD⟩)
      source := source } := by
  have hmodel : (resolveTnc d source sppAdapter bleAdapter).1.model = modelOf d.model := by
    obtain ⟨id, name, model, spp, ble, serial⟩ := d
    cases model with
    | none => rfl
    | some m =>
      simp only [resolveTnc, modelOf, Option.map_some]
      cases TncModel.parse m <;> rfl
  have hspp : (resolveTnc d source sppAdapter bleAdapter).1.spp =
      d.spp.map (fun s => ⟨addressOf s.address, sppAdapter.getD .default, s.channel⟩) := by
    obtain ⟨id, name, model, spp, ble, serial⟩ := d
    cases spp with
    | none => rfl
    | some s =>
      simp only [resolveTnc, addressOf, Option.map_some]
      cases Mac.parse s.address <;> rfl
  have hble : (resolveTnc d source sppAdapter bleAdapter).1.ble =
      d.ble.map (fun s => ⟨addressOf s.address, bleAdapter.getD .default⟩) := by
    obtain ⟨id, name, model, spp, ble, serial⟩ := d
    cases ble with
    | none => rfl
    | some s =>
      simp only [resolveTnc, addressOf, Option.map_some]
      cases Mac.parse s.address <;> rfl
  have hserial : (resolveTnc d source sppAdapter bleAdapter).1.serial =
      d.serial.map (fun s => ⟨s.path, s.baud.getD DEFAULT_SERIAL_BAUD⟩) := by
    obtain ⟨id, name, model, spp, ble, serial⟩ := d
    cases serial <;> rfl
  rw [← hmodel, ← hspp, ← hble, ← hserial]
  rfl

section
variable {adapters : List Adapter} {sel : AdapterSel} {object : String} {a : Adapter}
  (hne : oid ≠ target) (hfree : ∀ a ∈ adapters, a.id ≠ target)
  (hpo : AdapterValue.parse oid = .id oid) (hpt : AdapterValue.parse target = .id target)
  (ha : adapters.reverse.find? (fun a => a.id == oid) = some a)
include hne hfree hpo hpt ha

/-- The adapter of a TNC's section, which may follow a rename. -/
theorem section_renamed {adapter adapter' : Option String}
    (hf : adapter' = adapter ∨ adapter = some oid ∧ adapter' = some target)
    (h : (sectionAdapter adapters sel .dynamic object adapter).2 = [])
    (h' : (sectionAdapter (adapters.map (renameAdapter oid target)) sel .dynamic object
      adapter').2 = []) :
    (sectionAdapter (adapters.map (renameAdapter oid target)) sel .dynamic object adapter').1 =
      (sectionAdapter adapters sel .dynamic object adapter).1 := by
  rcases hf with rfl | ⟨rfl, rfl⟩
  · cases adapter' with
    | none => rfl
    | some value =>
      by_cases hv : value = oid
      · subst hv
        exact absurd h' (adapterValue_dangling hfree hne hpo)
      · exact congrArg Prod.fst (adapterValue_other hfree hv h)
  · exact (adapterValue_target hfree hpt ha).trans (adapterValue_oid hpo ha).symm

theorem sections_renamed {sect : Option σ} {get : σ → Option String} {set : σ → σ}
    (hf : ∀ s, get (set s) = get s ∨ get s = some oid ∧ get (set s) = some target)
    (h : ((sect.map (fun s => sectionAdapter adapters sel .dynamic object (get s))).map
      Prod.snd).getD [] = [])
    (h' : (((sect.map set).map (fun s => sectionAdapter (adapters.map (renameAdapter oid target))
      sel .dynamic object (get s))).map Prod.snd).getD [] = []) :
    ((sect.map set).map (fun s => sectionAdapter (adapters.map (renameAdapter oid target))
      sel .dynamic object (get s))).map Prod.fst =
        (sect.map (fun s => sectionAdapter adapters sel .dynamic object (get s))).map Prod.fst := by
  cases sect with
  | none => rfl
  | some s => exact congrArg some (section_renamed hne hfree hpo hpt ha (hf s) h h')

/-- A TNC whose adapter is renamed is the same, if its sections follow and also if they
don't and it still resolves. -/
theorem tnc_follows {d d' : TncDef} (hd : d' = d ∨ d' = follow oid target d)
    (h : (resolveTncDef adapters sel .dynamic d).2 = [])
    (h' : (resolveTncDef (adapters.map (renameAdapter oid target)) sel .dynamic d').2 = []) :
    (resolveTncDef (adapters.map (renameAdapter oid target)) sel .dynamic d').1 =
      (resolveTncDef adapters sel .dynamic d).1 := by
  obtain ⟨setSpp, setBle, rfl, hspp, hble⟩ :
      ∃ (setSpp : SppDef → SppDef) (setBle : BleDef → BleDef),
      d' = { d with spp := d.spp.map setSpp, ble := d.ble.map setBle } ∧
      (∀ s, (setSpp s).address = s.address ∧ (setSpp s).channel = s.channel ∧
        ((setSpp s).adapter = s.adapter ∨ s.adapter = some oid ∧
          (setSpp s).adapter = some target)) ∧
      ∀ s, (setBle s).address = s.address ∧
        ((setBle s).adapter = s.adapter ∨ s.adapter = some oid ∧
          (setBle s).adapter = some target) := by
    rcases hd with rfl | rfl
    · exact ⟨id, id, by simp, fun s => ⟨rfl, rfl, .inl rfl⟩, fun s => ⟨rfl, .inl rfl⟩⟩
    · refine ⟨_, _, rfl, fun s => ?_, fun s => ?_⟩
      · split
        · rename_i ho
          exact ⟨rfl, rfl, .inr ⟨ho, rfl⟩⟩
        · exact ⟨rfl, rfl, .inl rfl⟩
      · split
        · rename_i ho
          exact ⟨rfl, .inr ⟨ho, rfl⟩⟩
        · exact ⟨rfl, .inl rfl⟩
  rw [resolveTncDef_eq] at h h'
  simp only [List.append_eq_nil_iff] at h h'
  obtain ⟨⟨hs, hb⟩, -⟩ := h
  obtain ⟨⟨hs', hb'⟩, -⟩ := h'
  have hsel := sections_renamed hne hfree hpo hpt ha (fun s => (hspp s).2.2) hs hs'
  have hsel' := sections_renamed hne hfree hpo hpt ha (fun s => (hble s).2) hb hb'
  rw [resolveTncDef_eq, resolveTncDef_eq, resolveTnc_fst, resolveTnc_fst]
  dsimp only
  rw [hsel, hsel']
  simp only [Option.map_map, Function.comp_def, (hspp _).1, (hspp _).2.1, (hble _).1]

end

theorem sectionAdapter_fst (adapters : List Adapter) (sel : AdapterSel) (source : Source)
    (object object' : String) (adapter : Option String) :
    (sectionAdapter adapters sel source object adapter).1 =
      (sectionAdapter adapters sel source object' adapter).1 := by
  cases adapter with
  | none => rfl
  | some value => exact adapterValue_fst adapters value source object object'

/-- A TNC under another id. -/
theorem tnc_withId (adapters : List Adapter) (sel : AdapterSel) (d : TncDef) :
    (resolveTncDef adapters sel .dynamic { d with id := target }).1 =
      renameTnc d.id target d.name.isSome (resolveTncDef adapters sel .dynamic d).1 := by
  have hsel : ∀ adapter, (sectionAdapter adapters sel .dynamic ("tnc " ++ target) adapter).1 =
      (sectionAdapter adapters sel .dynamic ("tnc " ++ d.id) adapter).1 :=
    fun adapter => sectionAdapter_fst adapters sel .dynamic _ _ adapter
  rw [resolveTncDef_eq, resolveTncDef_eq, resolveTnc_fst, resolveTnc_fst]
  simp only [Option.map_map, Function.comp_def, hsel, renameTnc, if_true]
  cases d.name <;> rfl

section
variable (hp : Parts net statics f cfg) (hp' : Parts net statics f' cfg')
  (hstatic : staticPart cfg' = staticPart cfg)
include hp hp' hstatic

/-- The TNCs after the rename of an adapter. -/
theorem tncs_follow {a : Adapter} {g : TncDef → TncDef} (hne : oid ≠ target)
    (hfree : ∀ a ∈ cfg.adapters, a.id ≠ target) (hpo : AdapterValue.parse oid = .id oid)
    (hpt : AdapterValue.parse target = .id target)
    (ha : cfg.adapters.reverse.find? (fun a => a.id == oid) = some a)
    (hadapters : cfg'.adapters = cfg.adapters.map (renameAdapter oid target))
    (hg : ∀ d, g d = d ∨ g d = follow oid target d)
    (hobj : (setAsideCollisions statics f').1.tnc = (setAsideCollisions statics f).1.tnc.map g) :
    cfg'.tncs = cfg.tncs := by
  have hglobal := global_same hstatic
  rw [hp'.tncs, hp.tncs, hstatic, hobj, List.map_map]
  congr 1
  refine List.map_congr_left (fun d hd => ?_)
  have h' := hp'.tnc (g d) (hobj ▸ List.mem_map_of_mem hd)
  rw [hadapters, hglobal] at h'
  rw [Function.comp_apply, hadapters, hglobal]
  exact tnc_follows hne hfree hpo hpt ha (hg d) (hp.tnc d hd) h'

/-- The TNCs after the rename of one of them. -/
theorem tncs_renamed {d₀ : TncDef} (hv : Valid cfg) (hadapters : cfg'.adapters = cfg.adapters)
    (hobj : (setAsideCollisions statics f').1.tnc = (setAsideCollisions statics f).1.tnc.map
      (fun d => if d.id = oid then { d with id := target } else d))
    (hd : d₀ ∈ (setAsideCollisions statics f).1.tnc) (hid : d₀.id = oid) :
    cfg'.tncs = cfg.tncs.map (renameTnc oid target d₀.name.isSome) := by
  have hglobal := global_same hstatic
  have hn := hv.tnc_ids
  rw [hp.tncs] at hn
  have hm₀ := List.mem_map_of_mem (f := fun d =>
    (resolveTncDef cfg.adapters cfg.global.adapter .dynamic d).1) hd
  rw [hp'.tncs, hp.tncs, List.map_append, hstatic, hobj, List.map_map, List.map_map]
  congr 1
  · refine (List.map_congr_left (fun t ht => ?_)).symm.trans (List.map_id _) |>.symm
    have hother : t.id ≠ d₀.id := front_ne hn hm₀ t ht
    rw [hid] at hother
    rw [renameTnc, if_neg hother, id]
  · refine List.map_congr_left (fun d hm => ?_)
    rw [Function.comp_apply, Function.comp_apply, hadapters, hglobal]
    by_cases ho : d.id = oid
    · have hsame : d = d₀ := by
        rw [List.map_append, List.map_map] at hn
        exact List.inj_on_of_nodup_map (List.nodup_append.mp hn).2.1 hm hd (ho.trans hid.symm)
      subst hsame
      rw [if_pos ho, tnc_withId, ho]
    · rw [if_neg ho]
      have hid' : (resolveTncDef cfg.adapters cfg.global.adapter .dynamic d).1.id = d.id := rfl
      rw [renameTnc, if_neg (hid' ▸ ho)]

omit hp' hp in
theorem static_bridges : (staticPart cfg).bridges.map (fun b =>
    if b.source.isStatic then b else renameBridge kind oid target b) =
      (staticPart cfg').bridges := by
  rw [hstatic]
  refine (List.map_congr_left (fun b hb => ?_)).trans (List.map_id _)
  rw [if_pos (List.mem_filter.mp hb).2, id]

/-- The bridges after a rename are those of the renamed config exactly if what is written
means the object. -/
theorem bridges_renamed {doc : Table} (hne : oid ≠ target)
    (hscope : scopeOf net cfg' = renamedScope (scopeOf net cfg) oid target named kind)
    (hr : Renames (scopeOf net cfg) oid target kind)
    (hobj : (setAsideCollisions statics f').1.bridge =
      (setAsideCollisions statics f).1.bridge.map (written doc kind oid target))
    (htakes : ∀ d ∈ (setAsideCollisions statics f).1.bridge, ∀ i p, d.ports[i]? = some p →
      writes doc kind oid (d.id.getD "?") d.name i = true → takes kind p.kind = true) :
    cfg'.bridges = cfg.bridges.map (fun b =>
        if b.source.isStatic then b else renameBridge kind oid target b) ↔
      ∀ d ∈ (setAsideCollisions statics f).1.bridge, ∀ i p, d.ports[i]? = some p →
        writes doc kind oid (d.id.getD "?") d.name i = true →
          Means (scopeOf net cfg) kind oid p.kind := by
  rw [hp'.bridges, hp.bridges, List.map_append, static_bridges hstatic, hobj,
    List.filterMap_map, List.map_filterMap, List.append_cancel_left_eq]
  have hone : ∀ d ∈ (setAsideCollisions statics f).1.bridge,
      ((resolveBridge (scopeOf net cfg') .dynamic (written doc kind oid target d)).1 =
        (resolveBridge (scopeOf net cfg) .dynamic d).1.map (fun b =>
          if b.source.isStatic then b else renameBridge kind oid target b) ↔
        ∀ i p, d.ports[i]? = some p → writes doc kind oid (d.id.getD "?") d.name i = true →
          Means (scopeOf net cfg) kind oid p.kind) := by
    intro d hd
    have h' := hp'.bridge _ (hobj ▸ List.mem_map_of_mem hd)
    rw [hscope] at h' ⊢
    rw [← bridge_renamed hr hne (htakes d hd) (hp.bridge d hd) h']
    obtain ⟨b, hb⟩ := resolveBridge_resolves (hp.bridge d hd)
    have hsource : b.source = .dynamic := resolveBridge_source hb
    have hdynamic : ¬b.source.isStatic = true := by
      rw [hsource]
      exact Bool.false_ne_true
    rw [hb, Option.map_some, Option.map_some, if_neg hdynamic]
    rfl
  rw [filterMap_eq_iff (fun d hd => ?_) (fun d hd => ?_)]
  · exact forall₂_congr hone
  · obtain ⟨b, hb⟩ := resolveBridge_resolves (hp'.bridge _ (hobj ▸ List.mem_map_of_mem hd))
    exact Option.isSome_iff_exists.mpr ⟨b, hb⟩
  · obtain ⟨b, hb⟩ := resolveBridge_resolves (hp.bridge d hd)
    exact Option.isSome_iff_exists.mpr ⟨_, congrArg (Option.map _) hb⟩

end

/-- Whether an object has a name of its own. What has none is named after its id. -/
def hasName : (kind : Kind) → Def kind → Bool
  | .tnc, d => (d : TncDef).name.isSome
  | _, _ => true

/-- A config after a rename, the ports of its bridges aside. -/
structure RenamedObjects (net : IpNetLib) (cfg cfg' : Config) (kind : Kind) (oid target : String)
    (named : Bool) : Prop where
  renames : Renames (scopeOf net cfg) oid target kind
  scope : scopeOf net cfg' = renamedScope (scopeOf net cfg) oid target named kind
  rest : { cfg' with bridges := cfg.bridges } =
    { renamed cfg kind oid target named with bridges := cfg.bridges }

section
variable {doc u t : Table} (hst : ∀ f ∈ statics, f.1.isStatic = true) (hne : oid ≠ target)
  (h : readFile (Table.plain doc) = some f) (hb : Built net statics f st cfg)
  (hb' : Built net statics f' st cfg')
include hst hne h hb hb'

theorem adapter_renamed {d₀ : AdapterDef}
    (h' : readFile (Table.plain (renameDoc doc .adapter oid target t)) = some f')
    (hobj : (setAsideCollisions statics f').1.adapter =
      (setAsideCollisions statics f).1.adapter.map
        (fun d => if d.id = oid then { d with id := target } else d))
    (hd : d₀ ∈ (setAsideCollisions statics f).1.adapter) (hid : d₀.id = oid) :
    RenamedObjects net cfg cfg' .adapter oid target true := by
  have hp := parts hb hst
  have hp' := parts hb' hst
  have hvalid : Valid cfg := hb.valid
  have hvalid' : Valid cfg' := hb'.valid
  have hstatic := static_same hst hb hb'
  have hadapters := adapters_renamed hp hp' hstatic hvalid hobj hd hid
  obtain ⟨a, ha⟩ := hp.adapter d₀ hd
  have hm : a ∈ cfg.adapters := by
    rw [hp.adapters]
    exact List.mem_append_right _ (List.mem_filterMap.mpr ⟨d₀, hd, by rw [ha]; rfl⟩)
  have haid : a.id = oid := (resolveAdapter_id ha).trans hid
  have hself : ∀ a : Adapter, a.id = oid → (renameAdapter oid target a).id = target := by
    intro a ho
    rw [renameAdapter, if_pos ho]
  have hfree := free_of_nodup hself (fun a ho => by rw [renameAdapter, if_neg ho]) hne
    (hadapters ▸ hvalid'.adapter_ids) hm haid
  have hpo : AdapterValue.parse oid = .id oid := haid ▸ parse_resolved ha
  obtain ⟨a', ha'⟩ := hp'.adapter { d₀ with id := target }
    (hobj ▸ List.mem_map.mpr ⟨d₀, hd, if_pos hid⟩)
  have hpt : AdapterValue.parse target = .id target := by
    have hp := parse_resolved ha'
    rw [resolveAdapter_id ha'] at hp
    exact hp
  obtain ⟨a₁, hfind⟩ : ∃ a₁, cfg.adapters.reverse.find? (fun a => a.id == oid) = some a₁ := by
    refine Option.isSome_iff_exists.mp (List.find?_isSome.mpr ⟨a, List.mem_reverse.mpr hm, ?_⟩)
    simp [haid]
  obtain ⟨g, hg, htnc⟩ := kept_tncs h h' (hp.distinct hvalid .tnc)
  have htncs := tncs_follow hp hp' hstatic hne hfree hpo hpt hfind hadapters hg htnc
  have hglobal := global_same hstatic
  refine ⟨.adapter hfree hpo hpt hfind, ?_, ?_⟩
  · simp only [scopeOf, renamedScope, hadapters, hglobal, htncs]
  · simp only [renamed, hadapters, hglobal, control_same hstatic, htncs, if_true, reduceCtorEq,
      if_false]

theorem tnc_renamed {d₀ : TncDef}
    (h' : readFile (Table.plain (renameDoc doc .tnc oid target t)) = some f')
    (hobj : (setAsideCollisions statics f').1.tnc = (setAsideCollisions statics f).1.tnc.map
      (fun d => if d.id = oid then { d with id := target } else d))
    (hd : d₀ ∈ (setAsideCollisions statics f).1.tnc) (hid : d₀.id = oid) :
    RenamedObjects net cfg cfg' .tnc oid target (hasName .tnc d₀) := by
  have hp := parts hb hst
  have hp' := parts hb' hst
  have hvalid : Valid cfg := hb.valid
  have hvalid' : Valid cfg' := hb'.valid
  have hstatic := static_same hst hb hb'
  have hget : Entries.get (key .adapter) (renameDoc doc .tnc oid target t) =
      Entries.get (key .adapter) doc := by
    rw [renameDoc, paths_replaced (by decide)]
    refine (get_setAll_ne _ (fun p hp => ?_) _).trans (get_modify_ne (by decide) doc oid _)
    rcases paths_cases hp with ⟨x, n, rfl⟩ | ⟨hadapter, -⟩
    · exact Kind.noConfusion
    · cases hadapter
  have hsame : f'.adapter = f.adapter := objects_untouched h h' hget
  have hadapters : cfg'.adapters = cfg.adapters := by
    rw [hp'.adapters, hp.adapters, hstatic]
    simp only [setAsideCollisions, hsame]
  have htncs := tncs_renamed hp hp' hstatic hvalid hadapters hobj hd hid
  have hfree : ∀ t ∈ cfg.tncs, t.id ≠ target := by
    refine free_of_nodup (fun t ho => ?_) (fun t ho => ?_) hne
      (htncs ▸ hvalid'.tnc_ids) (a := (resolveTncDef cfg.adapters cfg.global.adapter
        .dynamic d₀).1) ?_ hid
    · rw [renameTnc, if_pos ho]
    · rw [renameTnc, if_neg ho]
    · rw [hp.tncs]
      exact List.mem_append_right _ (List.mem_map_of_mem hd)
  have hglobal := global_same hstatic
  refine ⟨.tnc hfree, ?_, ?_⟩
  · simp only [scopeOf, renamedScope, hadapters, hglobal, htncs, hasName]
  · simp only [renamed, hadapters, hglobal, control_same hstatic, htncs, hasName, if_true,
      reduceCtorEq, if_false]

variable (h' : readFile (Table.plain (renameDoc doc kind oid target t)) = some f')
  (hu : Doc.table doc kind oid = some u) {d₀ : Def kind}
  (hread : readDef kind (Table.plain u) = some d₀)
  (hnew : readDef kind (Table.plain t) = some (withId kind d₀ target))
  (hs : oid ∉ staticIds statics kind) (hs' : target ∉ staticIds statics kind)
include h' hu hread hnew hs hs'

/-- What a rename makes of everything but the bridges. -/
theorem objects_renamed (hk : kind ≠ .bridge) :
    RenamedObjects net cfg cfg' kind oid target (hasName kind d₀) := by
  have hobj := kept_object hk h h' ((parts hb hst).distinct hb.valid kind) hu hread hnew hs hs'
  obtain ⟨i, d, hfound⟩ := found_of_table h hu
  obtain rfl := Option.some.inj (hread.symm.trans hfound.reads)
  have hid : defId kind d₀ = some oid :=
    (defId_of_read hread).symm.trans (StoredObjects.table_id hu)
  have hd : d₀ ∈ objects kind (setAsideCollisions statics f).1 := by
    rw [objects_kept]
    exact List.mem_filter.mpr ⟨List.mem_of_getElem? hfound.object, (kept_object_iff hk hid).mpr hs⟩
  cases kind with
  | bridge => exact absurd rfl hk
  | adapter =>
    simp only [objects, defId, withId, Option.some.injEq] at hobj
    exact adapter_renamed hst hne h hb hb' h' hobj hd (Option.some.inj hid)
  | tnc =>
    simp only [objects, defId, withId, Option.some.injEq] at hobj
    exact tnc_renamed hst hne h hb hb' h' hobj hd (Option.some.inj hid)

/-- The config after a rename is the old one with the id replaced exactly if what is written
in bridges means the object. -/
theorem config_renamed (hk : kind ≠ .bridge) :
    cfg' = renamed cfg kind oid target (hasName kind d₀) ↔
      ∀ d ∈ (setAsideCollisions statics f).1.bridge, ∀ i p, d.ports[i]? = some p →
        writes doc kind oid (d.id.getD "?") d.name i = true →
          Means (scopeOf net cfg) kind oid p.kind := by
  obtain ⟨hr, hscope, hrest⟩ := objects_renamed hst hne h hb hb' h' hu hread hnew hs hs' hk
  have hp := parts hb hst
  obtain ⟨hobj, htakes⟩ := kept_bridges hk h h' (hp.distinct hb.valid .bridge)
  rw [← bridges_renamed hp (parts hb' hst) (static_same hst hb hb') hne hscope hr hobj htakes]
  constructor
  · intro he
    rw [he]
    rfl
  · intro he
    calc cfg' = { ({ cfg' with bridges := cfg.bridges } : Config) with
          bridges := cfg'.bridges } := rfl
      _ = { renamed cfg kind oid target (hasName kind d₀) with bridges := cfg'.bridges } := by
        rw [hrest]
      _ = renamed cfg kind oid target (hasName kind d₀) := by
        rw [he]
        rfl

end

end KissTncBridge.Proofs.RenamedConfig
