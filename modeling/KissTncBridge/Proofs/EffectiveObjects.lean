import KissTncBridge.Proofs.StaticConfig
import KissTncBridge.Proofs.StoredObjects

namespace KissTncBridge.Proofs.EffectiveObjects
open Conf Control BuildFacts DocumentReads Lib StaticConfig StoredObjects Supervisor Toml TomlReads

def staticIds (statics : List (Source × ConfigFile)) : Kind → List String
  | .adapter => statics.flatMap (fun f => f.2.adapter.map AdapterDef.id)
  | .tnc => statics.flatMap (fun f => f.2.tnc.map TncDef.id)
  | .bridge => statics.flatMap (fun f => f.2.bridge.filterMap BridgeDef.id)

def staticNames (statics : List (Source × ConfigFile)) : List String :=
  statics.flatMap (fun f => f.2.bridge.map BridgeDef.name)

/-- Whether static config already uses a dynamic object's id or, if it is a
bridge, its name. -/
def Clash (statics : List (Source × ConfigFile)) (kind : Kind) (oid label : Option String) : Prop :=
  oid.getD "" ∈ staticIds statics kind ∨ kind = .bridge ∧ ∃ n ∈ staticNames statics, label = some n

/-- The name of a bridge. What else has a name may share it. -/
def defName : (kind : Kind) → Def kind → Option String
  | .adapter, _ => none
  | .tnc, _ => none
  | .bridge, b => some (BridgeDef.name b)

/-- A dynamic object is in the config, under its id and as the bridge of its
name. -/
def InEffect (cfg : Config) : (kind : Kind) → Def kind → Prop
  | .adapter, a => ∃ x ∈ cfg.adapters, x.source = .dynamic ∧ x.id = AdapterDef.id a
  | .tnc, t => ∃ x ∈ cfg.tncs, x.source = .dynamic ∧ x.id = TncDef.id t
  | .bridge, b => ∃ x ∈ cfg.bridges, x.source = .dynamic ∧ BridgeDef.id b = some x.id ∧
      x.name = BridgeDef.name b

variable {statics : List (Source × ConfigFile)}

theorem bridgeClash_iff (b : BridgeDef) : (bridgeClash statics b).isSome = true ↔
    Clash statics .bridge b.id (some b.name) := by
  unfold bridgeClash Clash
  split
  · rename_i hid
    exact iff_of_true rfl (.inl (List.contains_iff_mem.mp hid))
  · rename_i hid
    split
    · rename_i hname
      exact iff_of_true rfl (.inr ⟨rfl, _, List.contains_iff_mem.mp hname, rfl⟩)
    · rename_i hname
      refine iff_of_false (by simp) ?_
      rintro (h | ⟨-, n, hn, he⟩)
      · exact hid (List.contains_iff_mem.mpr h)
      · obtain rfl := Option.some.inj he
        exact hname (List.contains_iff_mem.mpr hn)

/-- What is kept of `dynamic.toml` is what does not clash. -/
theorem mem_kept {kind : Kind} {x : Def kind} :
    x ∈ objects kind (setAsideCollisions statics file).1 ↔
      x ∈ objects kind file ∧ ¬Clash statics kind (defId kind x) (defName kind x) := by
  cases kind with
  | adapter =>
    refine List.mem_filter.trans (and_congr_right (fun _ => ?_))
    simp [Clash, defId, staticIds]
  | tnc =>
    refine List.mem_filter.trans (and_congr_right (fun _ => ?_))
    simp [Clash, defId, staticIds]
  | bridge =>
    refine List.mem_filter.trans (and_congr_right (fun _ => ?_))
    have hnone : ∀ o : Option String, o.isNone = true ↔ ¬o.isSome = true := by simp
    exact (hnone _).trans (not_congr (bridgeClash_iff x))

section
variable (hst : ∀ f ∈ statics, f.1.isStatic = true) {file : ConfigFile}
include hst

/-- The definitions from `dynamic.toml` are the ones that are kept of it. -/
theorem mem_eachDef_dynamic {get : ConfigFile → List α} :
    (Source.dynamic, x) ∈ eachDef (gathered statics file) get ↔
    x ∈ get (setAsideCollisions statics file).1 := by
  rw [gathered, eachDef_append, List.mem_append]
  constructor
  · rintro (h | h)
    · exact absurd (eachDef_static hst h) Bool.false_ne_true
    · simpa using h
  · exact fun h => .inr (List.mem_map_of_mem h)

end

theorem resolveAdapter_id (h : resolveAdapter d source = .ok a) : a.id = d.id := by
  unfold resolveAdapter at h
  dsimp only at h
  repeat' split at h
  all_goals cases h
  rfl

theorem resolveBridge_some (h : (resolveBridge sc source d).1 = some b) :
    d.id = some b.id ∧ b.name = d.name := by
  unfold resolveBridge at h
  cases hd : d.id with
  | none => simp [hd] at h
  | some bid =>
    simp only [hd, Option.some.injEq] at h
    rw [← h]
    exact ⟨rfl, rfl⟩

theorem resolveBridge_resolves (h : (resolveBridge sc source d).2 = []) :
    ∃ b, (resolveBridge sc source d).1 = some b := by
  unfold resolveBridge at h ⊢
  cases hd : d.id with
  | none => simp [hd] at h
  | some bid => exact ⟨_, rfl⟩

/-- Overrides change no bridge's id, name or source. -/
theorem applyOverrides_bridges (cfg : Config) (st : State) : ∃ g : Conf.Bridge → Conf.Bridge,
    (∀ b, (g b).id = b.id ∧ (g b).name = b.name ∧ (g b).source = b.source) ∧
      (applyOverrides cfg st).bridges = cfg.bridges.map g := by
  refine ⟨_, fun b => ?_, rfl⟩
  split
  · split <;> exact ⟨rfl, rfl, rfl⟩
  · exact ⟨rfl, rfl, rfl⟩

section
variable {net : IpNetLib} {files : List (Source × ConfigFile)} {cfg : Config}

/-- A definition that resolves with no error makes an object with its id. -/
theorem adapter_made (h : resolve net files = .ok cfg) :
    (∃ x ∈ cfg.adapters, x.source = source ∧ x.id = oid) ↔
      ∃ d, (source, d) ∈ eachDef files ConfigFile.adapter ∧ d.id = oid := by
  obtain ⟨hw, rfl⟩ := (resolve_ok _ _).mp h
  simp only [wrong, List.append_eq_nil_iff] at hw
  obtain ⟨⟨⟨ha, -⟩, -⟩, -⟩ := hw
  constructor
  · rintro ⟨x, hx, hs, hid⟩
    obtain ⟨r, hr, hx⟩ := List.mem_filterMap.mp hx
    obtain ⟨⟨src, d⟩, hd, rfl⟩ := List.mem_map.mp hr
    cases hres : resolveAdapter d src with
    | error p =>
      rw [hres] at hx
      cases hx
    | ok a =>
      rw [hres] at hx
      obtain rfl := Option.some.inj hx
      rw [resolveAdapter_source hres] at hs
      subst hs
      exact ⟨d, hd, (resolveAdapter_id hres).symm.trans hid⟩
  · rintro ⟨d, hd, rfl⟩
    cases hres : resolveAdapter d source with
    | error p =>
      have hp : p ∈
          ((eachDef files ConfigFile.adapter).map (fun d => resolveAdapter d.2 d.1)).filterMap
          errorOf :=
        List.mem_filterMap.mpr ⟨_, List.mem_map_of_mem hd, by rw [hres]; rfl⟩
      rw [ha] at hp
      cases hp
    | ok a =>
      exact ⟨a, List.mem_filterMap.mpr ⟨_, List.mem_map_of_mem hd, by rw [hres]; rfl⟩,
        resolveAdapter_source hres, resolveAdapter_id hres⟩

theorem tnc_made (h : resolve net files = .ok cfg) :
    (∃ x ∈ cfg.tncs, x.source = source ∧ x.id = oid) ↔
      ∃ d, (source, d) ∈ eachDef files ConfigFile.tnc ∧ d.id = oid := by
  obtain ⟨-, rfl⟩ := (resolve_ok _ _).mp h
  constructor
  · rintro ⟨x, hx, hs, hid⟩
    obtain ⟨r, hr, rfl⟩ := List.mem_map.mp hx
    obtain ⟨⟨src, d⟩, hd, rfl⟩ := List.mem_map.mp hr
    obtain rfl : src = source := hs
    exact ⟨d, hd, hid⟩
  · rintro ⟨d, hd, rfl⟩
    exact ⟨_, List.mem_map_of_mem (List.mem_map_of_mem hd), rfl, rfl⟩

theorem bridge_made (h : resolve net files = .ok cfg) :
    (∃ x ∈ cfg.bridges, x.source = source ∧ oid = some x.id ∧ x.name = label) ↔
      ∃ d, (source, d) ∈ eachDef files ConfigFile.bridge ∧ d.id = oid ∧ d.name = label := by
  obtain ⟨hw, rfl⟩ := (resolve_ok _ _).mp h
  simp only [wrong, List.append_eq_nil_iff] at hw
  obtain ⟨-, hb⟩ := hw
  constructor
  · rintro ⟨x, hx, hs, hid, hname⟩
    obtain ⟨r, hr, hx⟩ := List.mem_filterMap.mp hx
    obtain ⟨⟨src, d⟩, hd, rfl⟩ := List.mem_map.mp hr
    obtain rfl : src = source := (resolveBridge_source hx).symm.trans hs
    obtain ⟨hid', hname'⟩ := resolveBridge_some hx
    exact ⟨d, hd, hid'.trans hid.symm, hname'.symm.trans hname⟩
  · rintro ⟨d, hd, rfl, rfl⟩
    have hn := List.flatMap_eq_nil_iff.mp hb _ (List.mem_map_of_mem hd)
    obtain ⟨x, hx⟩ := resolveBridge_resolves hn
    obtain ⟨hid, hname⟩ := resolveBridge_some hx
    exact ⟨x, List.mem_filterMap.mpr ⟨_, List.mem_map_of_mem hd, hx⟩,
      resolveBridge_source hx, hid, hname⟩

end

theorem inEffect_applyOverrides (cfg : Config) (st : State) (kind : Kind) (x : Def kind) :
    InEffect (applyOverrides cfg st) kind x ↔ InEffect cfg kind x := by
  cases kind with
  | adapter => exact Iff.rfl
  | tnc => exact Iff.rfl
  | bridge =>
    obtain ⟨g, hg, hb⟩ := applyOverrides_bridges cfg st
    simp only [InEffect, hb, List.mem_map, exists_exists_and_eq_and, hg]

/-- Of what `dynamic.toml` defines, a config that is built has exactly what does
not clash with static config. -/
theorem inEffect_iff {kind : Kind} {x : Def kind} (hst : ∀ f ∈ statics, f.1.isStatic = true)
    (h : Built net statics file st cfg) (hx : x ∈ objects kind file) :
    InEffect cfg kind x ↔ ¬Clash statics kind (defId kind x) (defName kind x) := by
  obtain ⟨c, hc, rfl⟩ := h.resolves
  rw [inEffect_applyOverrides]
  have hkept : ∀ {y : Def kind}, y ∈ objects kind (setAsideCollisions statics file).1 →
      defId kind y = defId kind x → defName kind y = defName kind x →
      ¬Clash statics kind (defId kind x) (defName kind x) := by
    intro y hy hid hname
    rw [← hid, ← hname]
    exact (mem_kept.mp hy).2
  cases kind with
  | adapter =>
    rw [InEffect, adapter_made hc]
    constructor
    · rintro ⟨y, hy, hid⟩
      exact hkept ((mem_eachDef_dynamic hst).mp hy) (congrArg some hid) rfl
    · exact fun hn => ⟨x, (mem_eachDef_dynamic hst).mpr (mem_kept.mpr ⟨hx, hn⟩), rfl⟩
  | tnc =>
    rw [InEffect, tnc_made hc]
    constructor
    · rintro ⟨y, hy, hid⟩
      exact hkept ((mem_eachDef_dynamic hst).mp hy) (congrArg some hid) rfl
    · exact fun hn => ⟨x, (mem_eachDef_dynamic hst).mpr (mem_kept.mpr ⟨hx, hn⟩), rfl⟩
  | bridge =>
    rw [InEffect, bridge_made hc]
    constructor
    · rintro ⟨y, hy, hid, hname⟩
      exact hkept ((mem_eachDef_dynamic hst).mp hy) hid (congrArg some hname)
    · exact fun hn => ⟨x, (mem_eachDef_dynamic hst).mpr (mem_kept.mpr ⟨hx, hn⟩), rfl, rfl⟩

/-- An object as it is written has the id, and a bridge the name, of what it is
read as. -/
theorem clash_of_read (statics : List (Source × ConfigFile)) {kind : Kind} {x : Def kind}
    (h : readDef kind v = some x) :
    strOf v "id" = defId kind x ∧
      (Clash statics kind (strOf v "id") (strOf v "name") ↔
        Clash statics kind (defId kind x) (defName kind x)) := by
  cases v with
  | table es =>
    cases kind with
    | adapter =>
      have hid : strOf (.table es) "id" = defId .adapter x := readAdapter_id h
      refine ⟨hid, ?_⟩
      simp [Clash, hid]
    | tnc =>
      have hid : strOf (.table es) "id" = defId .tnc x := readTnc_id h
      refine ⟨hid, ?_⟩
      simp [Clash, hid]
    | bridge =>
      obtain ⟨-, hid, hname, -⟩ := readBridge_iff.mp h
      have hid : strOf (.table es) "id" = defId .bridge x := req_of_opt hid
      have hname : strOf (.table es) "name" = defName .bridge x := hname
      rw [hid, hname]
      exact ⟨rfl, Iff.rfl⟩
  | _ => cases kind <;> cases h

end KissTncBridge.Proofs.EffectiveObjects
