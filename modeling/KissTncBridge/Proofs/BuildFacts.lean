import KissTncBridge.Config.Build

namespace KissTncBridge.Proofs.BuildFacts
open Conf

/-- What `dynamic.toml` says, given its text. No file says nothing. -/
inductive Holds (toml : TomlLib Doc) : Option String → ConfigFile → Prop where
  | missing : Holds toml none {}
  | parsed : toml.parseFile text = .ok file → Holds toml (some text) file

theorem holds_some {toml : TomlLib Doc} :
    Holds toml (some text) file ↔ toml.parseFile text = .ok file :=
  ⟨fun h => by cases h; assumption, .parsed⟩

theorem Holds.unique {toml : TomlLib Doc} (h : Holds toml text file) (h' : Holds toml text file') :
    file = file' := by
  cases h with
  | missing => cases h'; rfl
  | parsed hp => exact Except.ok.inj (hp.symm.trans (holds_some.mp h'))

/-- The static files with what does not collide of `file`. -/
def gathered (statics : List (Source × ConfigFile)) (file : ConfigFile) :
    List (Source × ConfigFile) :=
  statics ++ [(.dynamic, (setAsideCollisions statics file).1)]

/-- `cfg` is what the static files, `file` as `dynamic.toml` and the overrides
of `s` make. -/
structure Built (net : IpNetLib) (statics : List (Source × ConfigFile)) (file : ConfigFile)
    (s : State) (cfg : Config) : Prop where
  objects : file.global = none ∧ file.control = none
  resolves : ∃ c, resolve net (gathered statics file) = .ok c ∧ cfg = applyOverrides c s
  valid : (validate cfg none).errors = []

theorem Built.congr (h : Built net statics file s cfg)
    (hs : ∀ bid, s.enabledOverride bid = s'.enabledOverride bid) :
    Built net statics file s' cfg := by
  obtain ⟨c, hc, hcfg⟩ := h.resolves
  refine ⟨h.objects, ⟨c, hc, ?_⟩, h.valid⟩
  rw [hcfg]
  simp only [applyOverrides, hs]

/-- A file that defines nothing changes nothing. -/
theorem resolve_append_empty (net : IpNetLib) (files : List (Source × ConfigFile))
    (source : Source) :
    resolve net (files ++ [(source, ({} : ConfigFile))]) = resolve net files := by
  have hd : ∀ {α : Type} (get : ConfigFile → List α), get {} = [] →
      eachDef (files ++ [(source, ({} : ConfigFile))]) get = eachDef files get := by
    intro α get h
    simp [eachDef, h]
  have hs : ∀ {α : Type} (get : ConfigFile → Option α), get {} = none →
      lastSet (files ++ [(source, ({} : ConfigFile))]) get = lastSet files get := by
    intro α get h
    simp [lastSet, h]
  unfold resolve
  rw [hd _ rfl, hd _ rfl, hd _ rfl, hs _ rfl, hs _ rfl, hs _ rfl]

theorem resolve_gathered_empty (net : IpNetLib) (statics : List (Source × ConfigFile)) :
    resolve net (gathered statics {}) = resolve net statics := resolve_append_empty net statics _

section
variable {toml : TomlLib Doc} {sources : Sources}

theorem gather_ok (hf : Holds toml (sources.dynamic.map DynamicFile.text) file)
    (ho : file.global = none ∧ file.control = none) (net : IpNetLib) :
    ∃ files warnings, gather toml sources = .ok (files, warnings) ∧
      resolve net files = resolve net (gathered sources.statics file) := by
  unfold gather parseDynamic
  cases hd : sources.dynamic with
  | none =>
    rw [hd] at hf
    cases hf
    exact ⟨_, _, rfl, (resolve_gathered_empty net _).symm⟩
  | some dyn =>
    rw [hd] at hf
    have hp : toml.parseFile dyn.text = .ok file := holds_some.mp hf
    simp only [hp, ho, Option.isSome_none, Bool.false_eq_true, or_self, if_false]
    exact ⟨_, _, rfl, rfl⟩

theorem gather_holds (h : gather toml sources = .ok (files, warnings)) :
    ∃ file, Holds toml (sources.dynamic.map DynamicFile.text) file ∧
      file.global = none ∧ file.control = none := by
  unfold gather parseDynamic at h
  cases hd : sources.dynamic with
  | none => exact ⟨{}, .missing, rfl, rfl⟩
  | some dyn =>
    simp only [hd] at h
    cases hp : toml.parseFile dyn.text with
    | error msg => simp [hp] at h
    | ok file =>
      simp only [hp] at h
      split at h
      · simp at h
      · rename_i heq
        split at heq
        · simp at heq
        · rename_i ho
          simp only [not_or, Bool.not_eq_true, Option.isSome_eq_false_iff,
            Option.isNone_iff_eq_none]
            at ho
          exact ⟨file, .parsed hp, ho⟩

/-- Whether a config is built, and which one, does not depend on the host, the
notes or where the files are. -/
theorem build_iff (toml : TomlLib Doc) (net : IpNetLib) (host : Option Host) (sources : Sources) :
    (∃ report, build toml net host sources = .ok (cfg, report)) ↔
      ∃ file, Holds toml (sources.dynamic.map DynamicFile.text) file ∧
        Built net sources.statics file sources.state cfg := by
  constructor
  · rintro ⟨report, h⟩
    unfold build at h
    cases hg : gather toml sources with
    | error ps => simp [hg, bind, Except.bind] at h
    | ok g =>
      obtain ⟨files, warnings⟩ := g
      obtain ⟨file, hf, ho⟩ := gather_holds hg
      obtain ⟨_, _, hg', hr⟩ := gather_ok hf ho net
      obtain ⟨rfl, _⟩ := Prod.mk.inj (Except.ok.inj (hg.symm.trans hg'))
      cases hc : resolve net files with
      | error ps => simp [hg, hc, bind, Except.bind] at h
      | ok c =>
        simp only [hg, hc, bind, Except.bind] at h
        split at h
        · rename_i hv
          obtain ⟨rfl, _⟩ := Prod.mk.inj (Except.ok.inj h)
          exact ⟨file, hf, ho, ⟨c, hr ▸ hc, rfl⟩, List.isEmpty_iff.mp hv⟩
        · simp at h
  · rintro ⟨file, hf, ho, ⟨c, hc, rfl⟩, hv⟩
    obtain ⟨files, warnings, hg, hr⟩ := gather_ok hf ho net
    have hv : (validate (applyOverrides c sources.state) host).errors = [] := hv
    unfold build
    simp only [hg, hr, hc, bind, Except.bind, hv, List.isEmpty_nil, if_true]
    exact ⟨_, rfl⟩

end

end KissTncBridge.Proofs.BuildFacts
