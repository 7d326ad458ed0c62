import KissTncBridge.Proofs.RenamedFile
import KissTncBridge.Proofs.ValidConfig

namespace KissTncBridge.Proofs.Renaming
open Conf Control BuildFacts DocumentReads EffectiveObjects Lib References RenamedFile StaticConfig
  Supervisor ValidConfig

variable {net : IpNetLib} {statics : List (Source × ConfigFile)} {file : ConfigFile} {st : State}
    {cfg : Config}
  {kind : Kind} {oid target : String}

/-- What the ports of a config are resolved against. -/
def scopeOf (net : IpNetLib) (cfg : Config) : Scope :=
  ⟨net, cfg.adapters, cfg.global.adapter, cfg.tncs⟩

/-- The objects of a config that is built: static ones, and one for each dynamic
definition that is kept. -/
structure Parts (net : IpNetLib) (statics : List (Source × ConfigFile)) (file : ConfigFile)
    (cfg : Config) : Prop where
  adapters : cfg.adapters = (staticPart cfg).adapters ++
    (setAsideCollisions statics file).1.adapter.filterMap
      (fun d => okOf (resolveAdapter d .dynamic))
  adapter : ∀ d ∈ (setAsideCollisions statics file).1.adapter, ∃ a,
    resolveAdapter d .dynamic = .ok a
  tncs : cfg.tncs = (staticPart cfg).tncs ++ (setAsideCollisions statics file).1.tnc.map (fun d =>
    (resolveTncDef cfg.adapters cfg.global.adapter .dynamic d).1)
  tnc : ∀ d ∈ (setAsideCollisions statics file).1.tnc,
    (resolveTncDef cfg.adapters cfg.global.adapter .dynamic d).2 = []
  bridges : cfg.bridges = (staticPart cfg).bridges ++
      (setAsideCollisions statics file).1.bridge.filterMap (fun d =>
    (resolveBridge (scopeOf net cfg) .dynamic d).1)
  bridge : ∀ d ∈ (setAsideCollisions statics file).1.bridge,
    (resolveBridge (scopeOf net cfg) .dynamic d).2 = []

/-- What all files make is what is static of it, and then what the last one
makes. -/
theorem made_split (hst : ∀ f ∈ statics, f.1.isStatic = true) (get : ConfigFile → List α)
    (make : Source × α → Option β)
    (src : β → Source) (hsrc : ∀ d b, make d = some b → src b = d.1) (k : ConfigFile) :
    (eachDef (statics ++ [(.dynamic, k)]) get).filterMap make =
      ((eachDef (statics ++ [(.dynamic, k)]) get).filterMap make).filter
        (fun b => (src b).isStatic) ++ (get k).filterMap (fun x => make (.dynamic, x)) := by
  have hstatic : (eachDef statics get).filterMap make =
      ((eachDef (statics ++ [(.dynamic, k)]) get).filterMap make).filter
        (fun b => (src b).isStatic) :=
    made_static hst hsrc (fun _ _ => rfl)
  rw [← hstatic, eachDef_append, List.filterMap_append, List.filterMap_map]
  rfl

section
variable (net) (hst : ∀ f ∈ statics, f.1.isStatic = true)
include hst

theorem adapters_split : (made net (gathered statics file)).adapters =
    (staticPart (made net (gathered statics file))).adapters ++
      (setAsideCollisions statics file).1.adapter.filterMap
        (fun d => okOf (resolveAdapter d .dynamic)) := by
  have hsource : ∀ (d : Source × AdapterDef) (a : Adapter),
      okOf (resolveAdapter d.2 d.1) = some a → a.source = d.1 := by
    intro d a hd
    cases hr : resolveAdapter d.2 d.1 with
    | error p =>
      simp only [hr, okOf] at hd
      cases hd
    | ok b =>
      simp only [hr, okOf] at hd
      cases hd
      exact resolveAdapter_source hr
  have hsplit := made_split hst ConfigFile.adapter (fun d => okOf (resolveAdapter d.2 d.1))
    Adapter.source hsource (setAsideCollisions statics file).1
  simpa [made, staticPart, madeAdapters, gathered, List.filterMap_map] using hsplit

theorem tncs_split : (made net (gathered statics file)).tncs =
    (staticPart (made net (gathered statics file))).tncs ++
      (setAsideCollisions statics file).1.tnc.map (fun d =>
        (resolveTncDef (made net (gathered statics file)).adapters
          (made net (gathered statics file)).global.adapter .dynamic d).1) := by
  have hsplit := made_split hst ConfigFile.tnc
    (fun d => some (resolveTncDef (madeAdapters (gathered statics file))
      (globalAdapter (gathered statics file)).1 d.1 d.2).1) Tnc.source
    (fun d t ht => by cases ht; rfl) (setAsideCollisions statics file).1
  rw [List.filterMap_eq_map', List.filterMap_eq_map'] at hsplit
  simpa [made, staticPart, madeTncs, gathered, List.map_map, Function.comp_def] using hsplit

theorem bridges_split : (made net (gathered statics file)).bridges =
    (staticPart (made net (gathered statics file))).bridges ++
      (setAsideCollisions statics file).1.bridge.filterMap (fun d =>
        (resolveBridge (scope net (gathered statics file)) .dynamic d).1) := by
  have hsplit := made_split hst ConfigFile.bridge
    (fun d => (resolveBridge (scope net (gathered statics file)) d.1 d.2).1)
    Conf.Bridge.source (fun d b hb => resolveBridge_source hb) (setAsideCollisions statics file).1
  simpa [made, staticPart, madeBridges, gathered, List.filterMap_map, Function.comp_def]
    using hsplit

end

theorem parts (h : Built net statics file st cfg) (hst : ∀ f ∈ statics, f.1.isStatic = true) :
    Parts net statics file cfg := by
  obtain ⟨c, hc, rfl⟩ := h.resolves
  obtain ⟨hw, rfl⟩ := (resolve_ok _ _).mp hc
  simp only [wrong, List.append_eq_nil_iff] at hw
  obtain ⟨⟨⟨ha, -⟩, ht⟩, hb⟩ := hw
  have hdef : ∀ {α : Type} {get : ConfigFile → List α} {x : α},
      x ∈ get (setAsideCollisions statics file).1 →
      (Source.dynamic, x) ∈ eachDef (gathered statics file) get := by
    intro α get x hx
    rw [gathered, eachDef_append]
    exact List.mem_append_right _ (List.mem_map_of_mem hx)
  constructor
  case adapters => exact adapters_split net hst
  case adapter =>
    intro d hd
    cases hr : resolveAdapter d .dynamic with
    | ok a => exact ⟨a, rfl⟩
    | error p =>
      have hp := List.filterMap_eq_nil_iff.mp ha _ (List.mem_map_of_mem (hdef hd))
      simp only [hr, errorOf] at hp
      cases hp
  case tncs => exact tncs_split net hst
  case tnc => exact fun d hd => List.flatMap_eq_nil_iff.mp ht _ (List.mem_map_of_mem (hdef hd))
  case bridges =>
    -- `state.toml` overrides static bridges only
    rw [staticPart_applyOverrides]
    refine (congrArg (List.map _) (bridges_split net hst)).trans ?_
    rw [List.map_append]
    congr 1
    refine (List.map_congr_left (fun b hb => ?_)).trans (List.map_id _)
    obtain ⟨d, -, hd⟩ := List.mem_filterMap.mp hb
    rw [resolveBridge_source hd]
    rfl
  case bridge => exact fun d hd => List.flatMap_eq_nil_iff.mp hb _ (List.mem_map_of_mem (hdef hd))

theorem Parts.made_bridge (hp : Parts net statics file cfg)
    (hd : d ∈ (setAsideCollisions statics file).1.bridge) :
    ∃ b, (resolveBridge (scopeOf net cfg) .dynamic d).1 = some b ∧ d.id = some b.id := by
  obtain ⟨b, hb⟩ := resolveBridge_resolves (hp.bridge d hd)
  exact ⟨b, hb, (resolveBridge_some hb).1⟩

/-- Of what is kept of `dynamic.toml`, no two objects of a kind have one id. -/
theorem Parts.distinct (hp : Parts net statics file cfg) (hv : Valid cfg) (kind : Kind) :
    Distinct statics kind file := by
  cases kind with
  | adapter =>
    have hkeys : (setAsideCollisions statics file).1.adapter.map (fun d => some d.id) =
        (((setAsideCollisions statics file).1.adapter.filterMap
          (fun d => okOf (resolveAdapter d .dynamic))).map Adapter.id).map some := by
      refine filterMap_keys (fun d hd => ?_)
      obtain ⟨a, ha⟩ := hp.adapter d hd
      refine ⟨a, by rw [ha]; rfl, ?_⟩
      rw [resolveAdapter_id ha]
    have hn := hv.adapter_ids
    rw [hp.adapters, List.map_append] at hn
    refine ⟨?_, fun d _ => Option.some_ne_none _⟩
    show ((setAsideCollisions statics file).1.adapter.map (fun d => some d.id)).Nodup
    rw [hkeys]
    exact (List.nodup_append.mp hn).2.1.map (Option.some_injective _)
  | tnc =>
    have hn := hv.tnc_ids
    rw [hp.tncs, List.map_append, List.map_map] at hn
    refine ⟨?_, fun d _ => Option.some_ne_none _⟩
    have hids : ((setAsideCollisions statics file).1.tnc.map TncDef.id).Nodup :=
      (List.nodup_append.mp hn).2.1
    have hsome := hids.map (Option.some_injective _)
    rw [List.map_map] at hsome
    exact hsome
  | bridge =>
    have hkeys : (setAsideCollisions statics file).1.bridge.map BridgeDef.id =
        (((setAsideCollisions statics file).1.bridge.filterMap (fun d =>
          (resolveBridge (scopeOf net cfg) .dynamic d).1)).map Conf.Bridge.id).map some :=
      filterMap_keys (fun d hd => hp.made_bridge hd)
    have hn := hv.bridge_ids
    rw [hp.bridges, List.map_append] at hn
    refine ⟨?_, fun d hd => ?_⟩
    · show ((setAsideCollisions statics file).1.bridge.map BridgeDef.id).Nodup
      rw [hkeys]
      exact (List.nodup_append.mp hn).2.1.map (Option.some_injective _)
    · obtain ⟨b, -, hid⟩ := hp.made_bridge hd
      exact Option.ne_none_iff_exists'.mpr ⟨_, hid⟩

def renameAdapter (oid target : String) (a : Adapter) : Adapter :=
  if a.id = oid then { a with id := target } else a

/-- A TNC without a name of its own is named after its id. -/
def renameTnc (oid target : String) (named : Bool) (t : Tnc) : Tnc :=
  if t.id = oid then { t with id := target, name := if named then t.name else target } else t

def renameKind (oid target : String) : PortKind → PortKind
  | .sppClient tnc m x c i e => .sppClient (if tnc = oid then target else tnc) m x c i e
  | .bleClient tnc m x c i e => .bleClient (if tnc = oid then target else tnc) m x c i e
  | .serial tnc m x c i e => .serial (if tnc = oid then target else tnc) m x c i e
  | k => k

theorem parse_id (h : AdapterValue.parse s = .id x) : x = s := by
  unfold AdapterValue.parse at h
  split at h
  · cases h
  · split at h
    · cases h
    · exact (AdapterValue.id.inj h).symm

/-- An adapter's id is read as an id. -/
theorem parse_resolved (h : resolveAdapter d source = .ok a) :
    AdapterValue.parse a.id = .id a.id := by
  rw [resolveAdapter_id h]
  unfold resolveAdapter at h
  dsimp only at h
  split at h
  · cases h
  · split at h
    · cases h
    · rename_i hn
      simp only [Bool.or_eq_true, not_or, Bool.not_eq_true] at hn
      obtain ⟨hhci, hmac⟩ := hn
      unfold AdapterValue.parse
      cases hm : Mac.parse d.id with
      | ok m =>
        rw [hm] at hmac
        cases hmac
      | error e => simp [hhci]

section
variable {adapters : List Adapter} {source : Source} {object value : String}

theorem find_adapter (hfree : ∀ a ∈ adapters, a.id ≠ target) (x : String) :
    (adapters.map (renameAdapter oid target)).reverse.find? (fun a => a.id == x) =
      if x = target then
        (adapters.reverse.find? (fun a => a.id == oid)).map (renameAdapter oid target)
      else if x = oid then none else adapters.reverse.find? (fun a => a.id == x) := by
  rw [← List.map_reverse]
  refine find_renamed (fun a ha => ?_) (fun a ha => ?_)
    (fun a ha => hfree a (List.mem_reverse.mp ha)) x
  · rw [renameAdapter, if_pos ha]
  · rw [renameAdapter, if_neg ha]

theorem adapterValue_other (hfree : ∀ a ∈ adapters, a.id ≠ target) (hv : value ≠ oid)
    (h : (resolveAdapterValue adapters value source object).2 = []) :
    resolveAdapterValue (adapters.map (renameAdapter oid target)) value source object =
      resolveAdapterValue adapters value source object := by
  unfold resolveAdapterValue at h ⊢
  cases hp : AdapterValue.parse value with
  | mac m => rfl
  | hci n => rfl
  | id x =>
    obtain rfl := parse_id hp
    simp only [hp] at h
    by_cases hx : x = target
    · have hnone : adapters.reverse.find? (fun a => a.id == x) = none := by
        rw [List.find?_eq_none]
        intro a ha
        have hne := hfree a (List.mem_reverse.mp ha)
        simp [hx, hne]
      rw [hnone] at h
      cases h
    · simp only [find_adapter hfree, if_neg hx, if_neg hv]

theorem adapterValue_dangling (hfree : ∀ a ∈ adapters, a.id ≠ target) (hne : oid ≠ target)
    (hp : AdapterValue.parse oid = .id oid) :
    (resolveAdapterValue (adapters.map (renameAdapter oid target)) oid source object).2 ≠ [] := by
  unfold resolveAdapterValue
  simp [hp, find_adapter hfree, hne]

theorem adapterValue_target (hfree : ∀ a ∈ adapters, a.id ≠ target)
    (hp : AdapterValue.parse target = .id target)
    (ha : adapters.reverse.find? (fun a => a.id == oid) = some a) :
    (resolveAdapterValue (adapters.map (renameAdapter oid target)) target source object).1 =
      .mac a.mac := by
  have hmac : (renameAdapter oid target a).mac = a.mac := by
    rw [renameAdapter]
    split <;> rfl
  unfold resolveAdapterValue
  simp [hp, find_adapter hfree, ha, hmac]

theorem adapterValue_oid (hp : AdapterValue.parse oid = .id oid)
    (ha : adapters.reverse.find? (fun a => a.id == oid) = some a) :
    (resolveAdapterValue adapters oid source object).1 = .mac a.mac := by
  unfold resolveAdapterValue
  simp [hp, ha]

end

end KissTncBridge.Proofs.Renaming
