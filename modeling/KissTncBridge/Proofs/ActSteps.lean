import KissTncBridge.Proofs.ApplyEffects
import KissTncBridge.Proofs.BuildFacts
import KissTncBridge.Proofs.ChangeSteps

namespace KissTncBridge.Proofs.ActSteps
open Lib Conf Bridge Reconcile Supervisor Daemon StateFile ChangeSteps BuildFacts ValidConfig
open ApplyFrame ApplyEffects

variable {Doc : Type} {env : Env Doc} {d d' : Daemon Doc}

def actEnv : Act Doc → Env Doc
  | .change env _ _ _ | .reload env _ _ | .adjustName env _ _ _ | .retryPublicName env _ => env

def core (d : Daemon Doc) : Config × Std.TreeMap String RunningBridge × List Effect × Bool :=
  (d.cfg, d.bridges, d.log, d.announcer)

theorem cfg_of_core (h : core d' = core d) : d'.cfg = d.cfg := congrArg Prod.fst h

theorem bridges_of_core (h : core d' = core d) : d'.bridges = d.bridges :=
  congrArg (fun c => c.2.1) h

theorem log_of_core (h : core d' = core d) : d'.log = d.log := congrArg (fun c => c.2.2.1) h

theorem port_of_core (h : core d' = core d) (bid pid : String) :
    d'.port bid pid = d.port bid pid := by
  unfold Daemon.port
  rw [bridges_of_core h]

theorem core_updateState (d : Daemon Doc) (f : State → State) :
    core (d.updateState env f).2 = core d := by
  rcases updateState_cases env d f with ⟨_, h⟩ | ⟨_, _, h⟩ | ⟨_, _, h⟩
  · rw [h]
  · rw [h]
  · rw [h]
    rfl

theorem core_saveStore {store store' : DynamicStore Doc}
    (h : d.saveStore env store = .ok (store', d')) : core d' = core d := by
  rcases saveStore_cases h with ⟨_, _, rfl⟩ | ⟨_, _, rfl⟩ <;> rfl

theorem core_saveOverrides (h : d.saveOverrides env os = (.ok (), d')) : core d' = core d := by
  rcases saveOverrides_cases env d os with ⟨_, hs⟩ | ⟨d'', hu, hs⟩ | ⟨_, err, hs⟩
  · rw [hs] at h
    cases h
    rfl
  · rw [hs] at h
    cases h
    exact (congrArg (fun r => core r.2) hu).symm.trans (core_updateState d _)
  · rw [hs] at h
    cases h

theorem planFor_core (h : core d' = core d) (snapshot : String → Option Snapshot) (new : Config) :
    d'.planFor env snapshot new = d.planFor env snapshot new := by
  unfold Daemon.planFor Daemon.runtime
  rw [cfg_of_core h, bridges_of_core h]

theorem build_valid {toml : TomlLib Doc} {sources : Sources} {cfg : Config}
    (h : build toml net host sources = .ok (cfg, report)) : Valid cfg := by
  obtain ⟨_, _, hb⟩ := (build_iff toml net host sources).mp ⟨report, h⟩
  exact hb.valid

/-- The daemon moves to a config that builds, by the plan for it. -/
def Moves (env : Env Doc) (d d' : Daemon Doc) : Prop :=
  ∃ d₁ snapshot new, core d₁ = core d ∧ Valid new ∧
    core d' = core (d₁.apply env (d₁.planFor env snapshot new) new)

theorem change_moves (d : Daemon Doc) (snapshot : String → Option Snapshot) (nonDisruptive : Bool)
    (edit : Edit Doc) : core (d.change env snapshot nonDisruptive edit).2 = core d ∨
      Moves env d (d.change env snapshot nonDisruptive edit).2 := by
  rcases change_cases env d snapshot nonDisruptive edit with
    ⟨_, hc⟩ | ⟨_, _, _, hc⟩ | ⟨e, cfg, report, store, saved, d₁, ha, hs, ho, hc⟩
  · rw [hc]
    exact .inl rfl
  · rw [hc]
    exact .inl rfl
  · have h₁ : core d₁ = core d := (core_saveOverrides ho).trans (core_saveStore hs)
    rw [hc]
    have hd : ∀ (d₂ : Daemon Doc) (sources : Sources) (store : DynamicStore Doc), core { d₂ with
        sources := sources, store := store, bluezErrors := [] } = core d₂ := fun _ _ _ => rfl
    refine .inr ⟨d₁, snapshot, cfg, h₁, build_valid ha.builds, ?_⟩
    rw [planFor_core h₁, hd]

theorem reload_moves (h : d.reload env snapshot nonDisruptive = some (r, d')) :
    core d' = core d ∨ Moves env d d' := by
  unfold Daemon.reload at h
  split at h
  · cases h
    exact .inl rfl
  · split at h
    · cases h
      exact .inl rfl
    · rename_i cfg report hb
      dsimp only at h
      split at h
      · cases h
        exact .inl rfl
      · obtain ⟨store, _, hr⟩ := Option.bind_eq_some_iff.mp h
        cases hr
        exact .inr ⟨d, snapshot, cfg, rfl, build_valid hb, rfl⟩

/-- An act leaves what runs alone, moves to another config, or is about public
names. -/
theorem act_cases (h : d.act a = some d') : core d' = core d ∨ Moves (actEnv a) d d' ∨
    (∃ env b c n, a = .adjustName env b c n ∧ d' = d.adjustName env b c n) ∨
    ∃ env b, a = .retryPublicName env b ∧ d' = d.retryPublicName env b := by
  cases a with
  | change env snapshot nonDisruptive edit =>
    cases h
    exact (change_moves d snapshot nonDisruptive edit).imp_right .inl
  | reload env snapshot nonDisruptive =>
    obtain ⟨⟨r, d''⟩, hr, rfl⟩ := Option.map_eq_some_iff.mp h
    exact (reload_moves hr).imp_right .inl
  | adjustName env b c n =>
    cases h
    exact .inr (.inr (.inl ⟨env, b, c, n, rfl, rfl⟩))
  | retryPublicName env b =>
    cases h
    exact .inr (.inr (.inr ⟨env, b, rfl, rfl⟩))

/-- A daemon that starts moves from having nothing to its first config. -/
theorem start_moves {disk : Disk} (h : start env disk = some (.ok d)) :
    ∃ d₀, d₀.cfg.bridges = [] ∧ Valid d₀.cfg ∧ d₀.bridges = ∅ ∧ d₀.log = [] ∧ d₀.announcer = false ∧
      Moves env d₀ d := by
  obtain ⟨sources, cfg, report, store, _, hb, _, _, rfl⟩ := start_cases h
  exact ⟨unstarted env disk sources cfg store, rfl, by rfl, rfl, rfl, rfl,
    _, _, cfg, rfl, build_valid hb, rfl⟩

/-- What the daemon has done stays done. -/
theorem apply_emits_more (env : Env Doc) (d : Daemon Doc) (plan : Plan) (new : Config) :
    Emits (fun _ => True) d (d.apply env plan new) := by
  have hstop : ∀ (d : Daemon Doc) bp, Emits (fun _ => True) d (d.applyStop bp) := by
    intro d bp
    unfold Daemon.applyStop
    split
    · exact emits_stopBridge (all_lenient _) (fun _ => ⟨trivial, fun _ _ => trivial⟩)
    · exact foldl_inv (P := Emits (fun _ => True) d) _ _ _ (.refl d)
        (fun s pp _ hs => hs.trans (emits_stopOne (all_lenient _) (fun _ _ _ => trivial)))
    · exact .refl d
  have hlive : ∀ (d : Daemon Doc) bp, Emits (fun _ => True) d (d.applyLive env new bp) := by
    intro d bp
    unfold Daemon.applyLive
    split
    · exact .refl d
    · rename_i nb hf
      have hid : nb.id = bp.id := by simpa using List.find?_some hf
      dsimp only
      refine Emits.trans ?_ (emits_of_log (log_modifyBridge ..))
      refine foldl_inv (P := Emits (fun _ => True) d) _ _ _ ?_ (fun s pp _ hs => hs.trans
        (emits_applyPort (all_lenient _) hid (fun _ _ _ _ _ _ => trivial) (fun _ _ _ => trivial)))
      refine Emits.trans ?_ (emits_sendSettings _ bp nb (fun _ => trivial))
      split
      · exact emits_publicNameChanged (all_lenient _) d
      · exact .refl d
  have hlog : Emits (fun _ => True) (d.stops plan) (if plan.global.contains "log_level" then
      (d.stops plan).emit (.logLevel new.global.logLevel) else d.stops plan) := by
    split
    · exact emits_emit trivial
    · exact .refl _
  have h₁ : Emits (fun _ => True) d (d.stops plan) :=
    foldl_inv (P := Emits (fun _ => True) d) _ _ _ (.refl d)
      (fun s bp _ hs => hs.trans (hstop s bp))
  have h₂ : Emits (fun _ => True) d ((d.stops plan).lives env new plan) :=
    foldl_inv (P := Emits (fun _ => True) d) _ _ _ (h₁.trans hlog)
      (fun s bp _ hs => hs.trans (hlive s bp))
  exact (foldl_inv (P := Emits (fun _ => True) d) _ _ _ h₂
    (fun s bp _ hs => hs.trans (emits_applyStart (all_lenient _) s))).trans (emits_of_log rfl)

theorem cfg_adjustName (d : Daemon Doc) (b c n : String) : (d.adjustName env b c n).cfg = d.cfg :=
  (cfg_of_rest (rest_modifyBridge ..)).trans (cfg_of_core (core_updateState d _))

theorem cfg_retryPublicName (d : Daemon Doc) (b : String) :
    (d.retryPublicName env b).cfg = d.cfg := by
  have hst : ∀ f, (d.updateState env f).2.cfg = d.cfg := fun f => cfg_of_core (core_updateState d f)
  unfold Daemon.retryPublicName
  dsimp only
  split
  · exact hst _
  · have hm : ∀ f g, ((d.updateState env f).2.modifyBridge b g).cfg = d.cfg :=
      fun f g => (cfg_of_rest (rest_modifyBridge ..)).trans (hst f)
    split
    · exact (cfg_of_rest (rest_announceBridge ..)).trans (hm _ _)
    · exact hm _ _

theorem retryPublicName_emits (d : Daemon Doc) (b : String) :
    Emits (fun _ => True) d (d.retryPublicName env b) := by
  have hst : ∀ f, Emits (fun _ => True) d (d.updateState env f).2 :=
    fun f => emits_of_log (log_updateState d f)
  unfold Daemon.retryPublicName
  dsimp only
  split
  · exact hst _
  · have hm : ∀ f g, Emits (fun _ => True) d ((d.updateState env f).2.modifyBridge b g) :=
      fun f g => (hst f).trans (emits_of_log (log_modifyBridge ..))
    split
    · exact (hm _ _).trans (emits_announceBridge (all_lenient _) _)
    · exact hm _ _

/-- No act takes back what was done. -/
theorem act_emits (h : d.act a = some d') : Emits (fun _ => True) d d' := by
  rcases act_cases h with
    hc | ⟨d₁, snapshot, new, h₁, _, hc⟩ | ⟨env, b, c, n, _, rfl⟩ | ⟨env, b, _, rfl⟩
  · exact emits_of_log (log_of_core hc)
  · have hd : Emits (fun _ => True) d d₁ := emits_of_log (log_of_core h₁)
    exact (hd.trans (apply_emits_more ..)).trans (emits_of_log (log_of_core hc))
  · exact emits_of_log ((log_modifyBridge ..).trans (log_updateState d _))
  · exact retryPublicName_emits d b

end KissTncBridge.Proofs.ActSteps
