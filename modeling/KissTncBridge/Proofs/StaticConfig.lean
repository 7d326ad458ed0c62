import KissTncBridge.Lib.Lists
import KissTncBridge.Proofs.BuildFacts
import KissTncBridge.Proofs.ChangeSteps

namespace KissTncBridge.Proofs.StaticConfig
open Lib Conf BuildFacts ChangeSteps

def staticPart (cfg : Config) : Config :=
  { cfg with
    adapters := cfg.adapters.filter (fun a => a.source.isStatic)
    tncs := cfg.tncs.filter (fun t => t.source.isStatic)
    bridges := cfg.bridges.filter (fun b => b.source.isStatic) }

theorem parseConfD_static {toml : TomlLib Doc} (h : parseConfD toml dir e = .ok f) :
    f.1.isStatic = true := by
  unfold parseConfD at h
  dsimp only at h
  split at h
  · cases h
  · split at h
    · cases h
    · cases h
      rfl

/-- The files that are loaded are all static ones. -/
theorem load_static {toml : TomlLib Doc} {fs : StaticFiles} (h : load toml fs = .ok files) :
    ∀ f ∈ files, f.1.isStatic = true := by
  unfold load at h
  cases hm : parseStatic toml fs.mainFile fs.main with
  | error p => simp [hm, bind, Except.bind] at h
  | ok main =>
    simp only [hm, bind, Except.bind] at h
    split at h
    · cases h
      simp [Source.isStatic]
    · cases h
    · split at h
      · cases h
      · rename_i hrest
        cases h
        exact List.forall_mem_cons.mpr ⟨rfl, mapM_ok (fun _ _ => parseConfD_static) hrest⟩

section
variable {source : Source} (hs : source.isStatic = true)
include hs

/-- What a static object takes for its adapter is a static adapter, or is an
error. -/
theorem adapterValue_static {adapters : List Adapter} {object value : String}
    (h : (resolveAdapterValue adapters value source object).2 = []) :
    resolveAdapterValue (adapters.filter (fun a => a.source.isStatic)) value source object =
      resolveAdapterValue adapters value source object := by
  unfold resolveAdapterValue at h ⊢
  cases hv : AdapterValue.parse value with
  | mac m => rfl
  | hci name => rfl
  | id aid =>
    simp only [hv, hs] at h ⊢
    rw [← List.filter_reverse, find?_filter_found]
    intro a ha
    by_contra hna
    simp [ha, hna] at h

/-- So is a TNC. -/
theorem findTnc_static {tncs : List Tnc} {object tnc : String}
    (h : checkTncVisible (tncs.find? (fun t => t.id == tnc)) tnc source object = []) :
    (tncs.filter (fun t => t.source.isStatic)).find? (fun t => t.id == tnc) =
      tncs.find? (fun t => t.id == tnc) := by
  refine find?_filter_found (fun t ht => ?_)
  by_contra hn
  simp [checkTncVisible, ht, hs, hn] at h

end

def staticScope (sc : Scope) : Scope :=
  { sc with
    adapters := sc.adapters.filter (fun a => a.source.isStatic)
    tncs := sc.tncs.filter (fun t => t.source.isStatic) }

section
variable {source : Source} (hs : source.isStatic = true) (sc : Scope)
include hs

theorem tncPort_static {pick : Tnc → Option α} {mk : Tnc → α → Duration → PortKind}
    (h : (resolveTncPort sc source object sect tnc idle pick mk).2 = []) :
    resolveTncPort (staticScope sc) source object sect tnc idle pick mk =
      resolveTncPort sc source object sect tnc idle pick mk := by
  have hv : checkTncVisible (sc.tncs.find? (fun t => t.id == tnc)) tnc source object = [] := by
    unfold resolveTncPort at h
    dsimp only at h
    split at h <;> simp only [List.append_eq_nil_iff] at h
    · exact h.2
    · exact h.1.2
  unfold resolveTncPort
  rw [show (staticScope sc).tncs.find? (fun t => t.id == tnc) = _ from findTnc_static hs hv]

theorem kind_static {kind : PortDefKind} (h : (resolveKind sc source object kind).2 = []) :
    resolveKind (staticScope sc) source object kind = resolveKind sc source object kind := by
  cases kind with
  | tcpClient | tcpServer => rfl
  | bleServer adapter maxClients =>
    cases adapter with
    | none => rfl
    | some a =>
      have ha : (resolveAdapterValue sc.adapters a source object).2 = [] :=
        (List.append_eq_nil_iff.mp h).1
      simp only [resolveKind, staticScope, adapterValue_static hs ha]
  | sppClient | bleClient | serial => exact tncPort_static hs sc h

theorem port_static (h : (resolvePort sc source object before p).2 = []) :
    resolvePort (staticScope sc) source object before p =
      resolvePort sc source object before p := by
  have hk := (List.append_eq_nil_iff.mp h).2
  unfold resolvePort
  simp only [kind_static hs sc hk]

theorem ports_static {before ports : List PortDef}
    (h : (resolvePorts sc source object before ports).flatMap Prod.snd = []) :
    resolvePorts (staticScope sc) source object before ports =
      resolvePorts sc source object before ports := by
  induction ports generalizing before with
  | nil => rfl
  | cons p rest ih =>
    simp only [resolvePorts, List.flatMap_cons, List.append_eq_nil_iff] at h ⊢
    rw [port_static hs sc h.1, ih h.2]

theorem bridge_static {d : BridgeDef} (h : (resolveBridge sc source d).2 = []) :
    resolveBridge (staticScope sc) source d = resolveBridge sc source d := by
  unfold resolveBridge at h ⊢
  cases hd : d.id with
  | none => rfl
  | some bid =>
    simp only [hd, List.append_eq_nil_iff] at h ⊢
    rw [ports_static hs sc h.2]

end

def sectionAdapter (adapters : List Adapter) (sel : AdapterSel) (source : Source)
    (object : String) : Option String → AdapterSel × List Problem
  | some a => resolveAdapterValue adapters a source object
  | none => (sel, [])

theorem resolveTncDef_eq : resolveTncDef adapters sel source d =
    let at' := sectionAdapter adapters sel source ("tnc " ++ d.id)
    let spp := d.spp.map (fun spp => at' spp.adapter)
    let ble := d.ble.map (fun ble => at' ble.adapter)
    let r := resolveTnc d source (spp.map Prod.fst) (ble.map Prod.fst)
    (r.1, (spp.map Prod.snd).getD [] ++ (ble.map Prod.snd).getD [] ++ r.2) := rfl

theorem sectionAdapter_static {adapters : List Adapter} {source : Source}
    (hs : source.isStatic = true) {sect : Option σ} {get : σ → Option String}
    (h : ((sect.map (fun x => sectionAdapter adapters sel source object (get x))).map
      Prod.snd).getD [] = []) :
    sect.map (fun x => sectionAdapter (adapters.filter (fun a => a.source.isStatic)) sel source
      object (get x)) = sect.map (fun x => sectionAdapter adapters sel source object (get x)) := by
  cases sect with
  | none => rfl
  | some x =>
    simp only [Option.map_some, Option.getD_some, Option.some.injEq] at h ⊢
    cases hx : get x with
    | none => rfl
    | some v =>
      rw [hx] at h
      exact adapterValue_static hs h

theorem tncDef_static {adapters : List Adapter} {source : Source} (hs : source.isStatic = true)
    {d : TncDef} (h : (resolveTncDef adapters sel source d).2 = []) :
    resolveTncDef (adapters.filter (fun a => a.source.isStatic)) sel source d =
      resolveTncDef adapters sel source d := by
  rw [resolveTncDef_eq] at h
  simp only [List.append_eq_nil_iff] at h
  obtain ⟨⟨hspp, hble⟩, -⟩ := h
  rw [resolveTncDef_eq, resolveTncDef_eq]
  simp only [sectionAdapter_static hs hspp, sectionAdapter_static hs hble]

theorem resolveAdapter_source (h : resolveAdapter d source = .ok a) : a.source = source := by
  unfold resolveAdapter at h
  dsimp only at h
  repeat' split at h
  all_goals cases h
  rfl

theorem resolveBridge_source (h : (resolveBridge sc source d).1 = some b) : b.source = source := by
  unfold resolveBridge at h
  cases hd : d.id with
  | none => simp [hd] at h
  | some bid =>
    simp only [hd, Option.some.injEq] at h
    rw [← h]

section
variable {statics : List (Source × ConfigFile)} {file : ConfigFile}
  (hst : ∀ f ∈ statics, f.1.isStatic = true)

theorem lastSet_append_none {get : ConfigFile → Option α} (h : get file = none) :
    lastSet (statics ++ [(source, file)]) get = lastSet statics get := by
  simp [lastSet, h]

theorem eachDef_append (get : ConfigFile → List α) :
    eachDef (statics ++ [(source, file)]) get =
      eachDef statics get ++ (get file).map (fun x => (source, x)) := by
  simp [eachDef]

include hst

theorem eachDef_static {get : ConfigFile → List α} (hd : d ∈ eachDef statics get) :
    d.1.isStatic = true := by
  obtain ⟨f, hf, hd⟩ := List.mem_flatMap.mp hd
  obtain ⟨x, -, rfl⟩ := List.mem_map.mp hd
  exact hst f hf

/-- The static ones among the objects that all files make are what the static
files make, if each definition makes the same from what is static. -/
theorem made_static {get : ConfigFile → List α} {make makeStatic : Source × α → Option β}
    {src : β → Source} (hsrc : ∀ d b, make d = some b → src b = d.1)
    (hmake : ∀ d ∈ eachDef statics get, makeStatic d = make d) :
    (eachDef statics get).filterMap makeStatic =
      ((eachDef (statics ++ [(.dynamic, file)]) get).filterMap make).filter
        (fun b => (src b).isStatic) := by
  rw [eachDef_append, List.filterMap_append, List.filter_append, List.filterMap_congr hmake]
  have hkept : ((eachDef statics get).filterMap make).filter (fun b => (src b).isStatic) =
      (eachDef statics get).filterMap make := by
    refine List.filter_eq_self.mpr (fun b hb => ?_)
    obtain ⟨d, hd, hb⟩ := List.mem_filterMap.mp hb
    rw [hsrc d b hb]
    exact eachDef_static hst hd
  have hgone : (((get file).map (fun x => (Source.dynamic, x))).filterMap make).filter
      (fun b => (src b).isStatic) = [] := by
    refine List.filter_eq_nil_iff.mpr (fun b hb => ?_)
    obtain ⟨d, hd, hb⟩ := List.mem_filterMap.mp hb
    obtain ⟨x, -, rfl⟩ := List.mem_map.mp hd
    rw [hsrc _ b hb]
    exact Bool.false_ne_true
  rw [hkept, hgone, List.append_nil]

end

section
variable (net : IpNetLib) (files : List (Source × ConfigFile))

def madeAdapters : List Adapter :=
  ((eachDef files ConfigFile.adapter).map (fun d => resolveAdapter d.2 d.1)).filterMap okOf

def globalAdapter : AdapterSel × List Problem :=
  match lastSet files (fun f => f.global.bind GlobalSection.adapter) with
  | some (source, value) =>
    resolveAdapterValue (madeAdapters files) value source "[global] adapter"
  | none => (.default, [])

def madeTncs : List (Tnc × List Problem) :=
  (eachDef files ConfigFile.tnc).map (fun d =>
    resolveTncDef (madeAdapters files) (globalAdapter files).1 d.1 d.2)

def scope : Scope :=
  ⟨net, madeAdapters files, (globalAdapter files).1, (madeTncs files).map Prod.fst⟩

def madeBridges : List (Option Bridge × List Problem) :=
  (eachDef files ConfigFile.bridge).map (fun d => resolveBridge (scope net files) d.1 d.2)

def made : Config where
  global := ⟨((lastSet files (fun f => f.global.bind GlobalSection.logLevel)).map Prod.snd).getD
    DEFAULT_LOG_LEVEL, (globalAdapter files).1⟩
  control := ⟨((lastSet files (fun f => f.control.bind ControlSection.group)).map Prod.snd).getD
    DEFAULT_CONTROL_GROUP⟩
  adapters := madeAdapters files
  tncs := (madeTncs files).map Prod.fst
  bridges := (madeBridges net files).filterMap Prod.fst

def wrong : List Problem :=
  ((eachDef files ConfigFile.adapter).map (fun d => resolveAdapter d.2 d.1)).filterMap errorOf ++
    (globalAdapter files).2 ++ (madeTncs files).flatMap Prod.snd ++
    (madeBridges net files).flatMap Prod.snd

theorem resolve_eq : resolve net files =
    if (wrong net files).isEmpty then .ok (made net files) else .error (wrong net files) := rfl

theorem resolve_ok : resolve net files = .ok cfg ↔ wrong net files = [] ∧ made net files = cfg := by
  rw [resolve_eq]
  split
  · rename_i h
    simp [List.isEmpty_iff.mp h]
  · rename_i h
    simp only [reduceCtorEq, false_iff, not_and]
    intro hw
    simp [hw] at h

end

section
variable {statics : List (Source × ConfigFile)} {file : ConfigFile}
  (hst : ∀ f ∈ statics, f.1.isStatic = true)
  (ho : file.global = none ∧ file.control = none)
include hst

theorem madeAdapters_static (file : ConfigFile) : madeAdapters statics =
    (madeAdapters (statics ++ [(.dynamic, file)])).filter (fun a => a.source.isStatic) := by
  unfold madeAdapters
  rw [List.filterMap_map, List.filterMap_map]
  refine made_static hst (fun d a h => ?_) (fun _ _ => rfl)
  simp only [Function.comp_apply] at h
  cases hr : resolveAdapter d.2 d.1 with
  | error p => simp [hr, okOf] at h
  | ok b =>
    rw [hr] at h
    cases h
    exact resolveAdapter_source hr

/-- Nothing is wrong with what a static definition makes of all files, so it
makes the same of the static ones. -/
theorem unwrong_static {get : ConfigFile → List α}
    {make makeStatic : Source × α → γ × List Problem}
    (hmake : ∀ d, d.1.isStatic = true → (make d).2 = [] → makeStatic d = make d)
    (hw : ((eachDef (statics ++ [(.dynamic, file)]) get).map make).flatMap Prod.snd = []) :
    (∀ d ∈ eachDef statics get, makeStatic d = make d) ∧
      ((eachDef statics get).map makeStatic).flatMap Prod.snd = [] := by
  have hn : ∀ d ∈ eachDef statics get, (make d).2 = [] := by
    intro d hd
    refine List.flatMap_eq_nil_iff.mp hw _ (List.mem_map_of_mem ?_)
    rw [eachDef_append]
    exact List.mem_append_left _ hd
  have heq : ∀ d ∈ eachDef statics get, makeStatic d = make d := fun d hd =>
    hmake d (eachDef_static hst hd) (hn d hd)
  refine ⟨heq, List.flatMap_eq_nil_iff.mpr (fun r hr => ?_)⟩
  obtain ⟨d, hd, rfl⟩ := List.mem_map.mp hr
  rw [heq d hd]
  exact hn d hd

include ho

theorem globalAdapter_static (h : (globalAdapter (statics ++ [(.dynamic, file)])).2 = []) :
    globalAdapter statics = globalAdapter (statics ++ [(.dynamic, file)]) := by
  have hl : lastSet (statics ++ [(.dynamic, file)]) (fun f => f.global.bind GlobalSection.adapter) =
      lastSet statics (fun f => f.global.bind GlobalSection.adapter) :=
    lastSet_append_none (by rw [ho.1]; rfl)
  unfold globalAdapter at h ⊢
  rw [hl] at h ⊢
  cases hg : lastSet statics (fun f => f.global.bind GlobalSection.adapter) with
  | none => rfl
  | some g =>
    have hs : g.1.isStatic = true := by
      obtain ⟨f, hf, hfg⟩ := List.mem_filterMap.mp (List.mem_of_getLast? hg)
      obtain ⟨x, -, rfl⟩ := Option.map_eq_some_iff.mp hfg
      exact hst f hf
    simp only [hg] at h ⊢
    rw [madeAdapters_static hst file]
    exact adapterValue_static hs h

theorem madeTncs_static (hg : (globalAdapter (statics ++ [(.dynamic, file)])).2 = [])
    (ht : (madeTncs (statics ++ [(.dynamic, file)])).flatMap Prod.snd = []) :
    (madeTncs statics).map Prod.fst =
      ((madeTncs (statics ++ [(.dynamic, file)])).map Prod.fst).filter
        (fun t => t.source.isStatic) ∧ (madeTncs statics).flatMap Prod.snd = [] := by
  unfold madeTncs at ht ⊢
  rw [globalAdapter_static hst ho hg, madeAdapters_static hst file]
  obtain ⟨heq, hn⟩ := unwrong_static hst (fun d hs => tncDef_static hs) ht
  refine ⟨?_, hn⟩
  rw [List.map_map, List.map_map, ← List.filterMap_eq_map, ← List.filterMap_eq_map]
  refine made_static hst (fun d t h => ?_) (fun d hd => ?_)
  · cases h
    rfl
  · exact congrArg (fun r => some (Prod.fst r)) (heq d hd)

theorem resolve_static (h : resolve net (statics ++ [(.dynamic, file)]) = .ok cfg) :
    resolve net statics = .ok (staticPart cfg) := by
  obtain ⟨hw, rfl⟩ := (resolve_ok _ _).mp h
  simp only [wrong, List.append_eq_nil_iff] at hw
  obtain ⟨⟨⟨ha, hg⟩, ht⟩, hb⟩ := hw
  have hglobal := globalAdapter_static hst ho hg
  have hadapters := madeAdapters_static hst file
  obtain ⟨htncs, htn⟩ := madeTncs_static hst ho hg ht
  have hscope : scope net statics = staticScope (scope net (statics ++ [(.dynamic, file)])) := by
    simp only [scope, staticScope, hglobal, ← hadapters, ← htncs]
  obtain ⟨heq, hbn⟩ := unwrong_static hst
    (fun d hs => bridge_static hs (scope net (statics ++ [(.dynamic, file)]))) hb
  rw [← hscope] at heq hbn
  have hbridges : (madeBridges net statics).filterMap Prod.fst =
      ((madeBridges net (statics ++ [(.dynamic, file)])).filterMap Prod.fst).filter
        (fun b => b.source.isStatic) := by
    unfold madeBridges
    rw [List.filterMap_map, List.filterMap_map]
    exact made_static hst (fun d b h => resolveBridge_source h)
      (fun d hd => congrArg Prod.fst (heq d hd))
  refine (resolve_ok _ _).mpr ⟨?_, ?_⟩
  · simp only [wrong, List.append_eq_nil_iff]
    refine ⟨⟨⟨?_, hglobal ▸ hg⟩, htn⟩, hbn⟩
    rw [eachDef_append, List.map_append, List.filterMap_append, List.append_eq_nil_iff] at ha
    exact ha.1
  · have hlevel : lastSet (statics ++ [(.dynamic, file)])
        (fun f => f.global.bind GlobalSection.logLevel) =
        lastSet statics (fun f => f.global.bind GlobalSection.logLevel) :=
      lastSet_append_none (by rw [ho.1]; rfl)
    have hgroup : lastSet (statics ++ [(.dynamic, file)])
        (fun f => f.control.bind ControlSection.group) =
        lastSet statics (fun f => f.control.bind ControlSection.group) :=
      lastSet_append_none (by rw [ho.2]; rfl)
    simp only [made, staticPart, hglobal, hadapters, htncs, hbridges, hlevel, hgroup]

end

theorem staticPart_applyOverrides (cfg : Config) (st : State) :
    staticPart (applyOverrides cfg st) = applyOverrides (staticPart cfg) st := by
  unfold staticPart applyOverrides
  simp only [List.filter_map]
  congr 3
  funext b
  simp only [Function.comp_apply]
  split
  · split <;> rfl
  · rfl

/-- What is static of a built config is what the static files and the overrides
make without `dynamic.toml`. -/
theorem Built.staticPart_eq {statics : List (Source × ConfigFile)}
    (h : Built net statics file st cfg) (hst : ∀ f ∈ statics, f.1.isStatic = true) :
    ∃ c, resolve net statics = .ok c ∧ staticPart cfg = applyOverrides c st := by
  obtain ⟨c, hc, rfl⟩ := h.resolves
  have hkept : (setAsideCollisions statics file).1.global = none ∧
      (setAsideCollisions statics file).1.control = none := h.objects
  exact ⟨staticPart c, resolve_static hst hkept hc, staticPart_applyOverrides c st⟩

/-- Whatever `dynamic.toml` says, if there is one, the static adapters, TNCs and
bridges of a config that builds are the same, down to every field, and so are
its global settings. -/
theorem static_independent {toml : TomlLib Doc} {fs : StaticFiles} {sources sources' : Sources}
    (hl : load toml fs = .ok sources.statics) (hs : sources'.statics = sources.statics)
    (hst : sources'.state = sources.state)
    (hb : build toml net host sources = .ok (cfg, report))
    (hb' : build toml net host' sources' = .ok (cfg', report')) :
    staticPart cfg = staticPart cfg' := by
  obtain ⟨file, -, h⟩ := (build_iff toml net host sources).mp ⟨report, hb⟩
  obtain ⟨file', -, h'⟩ := (build_iff toml net host' sources').mp ⟨report', hb'⟩
  rw [hs, hst] at h'
  obtain ⟨c, hc, hp⟩ := Built.staticPart_eq h (load_static hl)
  obtain ⟨c', hc', hp'⟩ := Built.staticPart_eq h' (load_static hl)
  rw [hc] at hc'
  cases hc'
  exact hp.trans hp'.symm

/-- The dynamic bridge on and off beside the static one. -/
theorem static_independent_field :
    (∃ report, build sampleToml fieldEnv.net (some fieldEnv.host) (fieldSources true .empty) =
      .ok (fieldConfig false none true, report)) ∧
    (∃ report, build sampleToml fieldEnv.net (some fieldEnv.host) (fieldSources false .empty) =
      .ok (fieldConfig false none false, report)) ∧
    fieldConfig false none true ≠ fieldConfig false none false ∧
    staticPart (fieldConfig false none true) = staticPart (fieldConfig false none false) := by
  have hmain : sampleToml.parseFile SampleDoc.field.text = .ok SampleDoc.field.file :=
    sampleFile_ok.mpr ⟨.field, SampleDoc.strip_text .field, rfl⟩
  have hload : load sampleToml fieldEnv.statics = .ok (fieldSources true .empty).statics :=
    load_main rfl rfl hmain
  have hbuild : ∀ on, ∃ report, build sampleToml fieldEnv.net (some fieldEnv.host)
      (fieldSources on .empty) = .ok (fieldConfig false none on, report) := by
    intro on
    have h := build_field on .empty
    rw [applyOverrides_empty] at h
    exact h (by cases on <;> decide +kernel)
  obtain ⟨report, hb⟩ := hbuild true
  obtain ⟨report', hb'⟩ := hbuild false
  have hs : (fieldSources false .empty).statics = (fieldSources true .empty).statics := rfl
  have hst : (fieldSources false .empty).state = (fieldSources true .empty).state := rfl
  exact ⟨⟨_, hb⟩, ⟨_, hb'⟩, by decide, static_independent hload hs hst hb hb'⟩

end KissTncBridge.Proofs.StaticConfig
