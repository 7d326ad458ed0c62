import KissTncBridge.Lib.Runs
import KissTncBridge.Proofs.BuildFacts
import KissTncBridge.Proofs.ChangeSteps

namespace KissTncBridge.Proofs.Persistence
open Lib Conf Bridge Reconcile Supervisor Daemon StateFile BuildFacts ChangeSteps BluezErrors

/-- The three copies of `dynamic.toml` say the same, so do the three copies of
the overrides, and the config in effect is what they make. -/
structure Synced (net : IpNetLib) (toml : TomlLib Doc) (d : Daemon Doc) : Prop where
  file : ∃ file, Holds toml d.disk.dynamic file ∧
    toml.parseFile (d.store.text toml) = .ok file ∧
    Built net d.sources.statics file d.sources.state d.cfg
  stored : Stored toml d
  overrides : ∀ bid, d.sources.state.enabledOverride bid = d.state.enabledOverride bid

section
variable {toml : TomlLib Doc} (hl : toml.Lawful)
include hl

/-- The text a store would write says what its document says. -/
theorem parse_text {store : DynamicStore Doc}
    (h : toml.parseFile (toml.docText store.doc) = .ok file) :
    toml.parseFile (store.text toml) = .ok file := by
  unfold DynamicStore.text
  dsimp only
  split
  · exact h
  · exact hl.withHeader _ _ h

theorem parse_stripHeader (h : toml.parseFile text = .ok file) :
    toml.parseFile (stripHeader text) = .ok file := by
  unfold stripHeader
  split
  · rename_i hp
    obtain ⟨behind, hb⟩ := List.isPrefixOf_iff_prefix.mp hp
    refine hl.behindHeader _ _ ?_
    rw [← hb, List.drop_left]
    have ht : DYNAMIC_HEADER ++ String.ofList behind = text := by
      rw [← String.toList_inj, String.toList_append, String.toList_ofList, hb]
    rwa [ht]
  · exact h

/-- A store over what was read says what was read. -/
theorem storeFromSources_holds {env : Env Doc} (ht : env.toml = toml) {sources : Sources}
    (h : Holds toml (sources.dynamic.map DynamicFile.text) file) :
    ∃ store, storeFromSources env sources = some store ∧
      toml.parseFile (store.text toml) = .ok file := by
  subst ht
  have hp : env.toml.parseFile (stripHeader ((sources.dynamic.map DynamicFile.text).getD "")) =
      .ok file := by
    generalize sources.dynamic.map DynamicFile.text = text at h ⊢
    cases h with
    | missing => exact parse_stripHeader hl hl.empty
    | parsed hp => exact parse_stripHeader hl hp
  obtain ⟨doc, hd, hf⟩ := hl.document _ _ hp
  refine ⟨⟨env.dynamicPath, doc, (sources.dynamic.map DynamicFile.text).map revision⟩, ?_,
    parse_text hl hf⟩
  simp only [storeFromSources, DynamicStore.fromText, hd]

/-- Blank text is left out only where there was no file, and says nothing. -/
theorem edited_holds {env : Env Doc} (ht : env.toml = toml) (d : Daemon Doc) (e : Edited Doc)
    (h : Holds toml ((d.editedSources env e).dynamic.map DynamicFile.text) file) :
    toml.parseFile ((d.editedStore e).text toml) = .ok file := by
  subst ht
  unfold editedSources at h
  dsimp only at h
  split at h
  · exact holds_some.mp h
  · rename_i hb
    cases h
    simp only [Bool.or_eq_true, Bool.not_eq_true', not_or, Bool.not_eq_false] at hb
    have hblank := hb.1
    unfold DynamicStore.text at hblank ⊢
    dsimp only at hblank ⊢
    split at hblank
    · rename_i hbody
      rw [if_pos hbody]
      exact hl.blank _ hbody
    · rw [not_blank_of_head (head_append header_head) (by decide)] at hblank
      cases hblank

end

theorem applyTo_congr (os : Overrides) {s t : State}
    (h : ∀ bid, s.enabledOverride bid = t.enabledOverride bid) (bid : String) :
    (os.applyTo s).enabledOverride bid = (os.applyTo t).enabledOverride bid := by
  induction os generalizing s t with
  | nil => exact h bid
  | cons o os ih =>
    refine ih (fun b => ?_)
    rw [enabledOverride_set, enabledOverride_set, h b]

/-- Saving overrides touches nothing but the state, which has them after. -/
theorem saveOverrides_ok {env : Env Doc} (hl : env.toml.Lawful) {d d' : Daemon Doc} {os : Overrides}
    (h : d.saveOverrides env os = (.ok (), d')) :
    d'.disk.dynamic = d.disk.dynamic ∧ (Stored env.toml d → Stored env.toml d') ∧
      ∀ bid, d'.state.enabledOverride bid = (os.applyTo d.state).enabledOverride bid := by
  rcases saveOverrides_cases env d os with ⟨rfl, ho⟩ | ⟨d₁, hu, ho⟩ | ⟨_, _, ho⟩
  · obtain rfl := (Prod.mk.inj (ho.symm.trans h)).2
    exact ⟨rfl, fun hst => hst, fun _ => rfl⟩
  · obtain rfl := (Prod.mk.inj (ho.symm.trans h)).2
    have hst : Stored env.toml d → Stored env.toml (d.updateState env os.applyTo).2 :=
      stored_updateState hl os.applyTo
    rw [hu] at hst
    rcases updateState_cases env d os.applyTo with ⟨hs, hu'⟩ | ⟨_, _, hu'⟩ | ⟨body, _, hu'⟩
    · obtain rfl := (Prod.mk.inj (hu'.symm.trans hu)).2
      exact ⟨rfl, hst, fun bid => (enabledOverride_of_same hs bid).symm⟩
    · simp [hu] at hu'
    · obtain rfl := (Prod.mk.inj (hu'.symm.trans hu)).2
      exact ⟨rfl, hst, fun _ => rfl⟩
  · simp [h] at ho

theorem synced_calm (h : Synced net toml d) (hc : Calm toml d d') (hcfg : d'.cfg = d.cfg) :
    Synced net toml d' := by
  obtain ⟨file, hd, ht, hb⟩ := h.file
  refine ⟨⟨file, ?_, ?_, ?_⟩, hc.stored h.stored, ?_⟩
  · rwa [hc.dynamic]
  · rwa [hc.store]
  · rwa [hc.sources, hcfg]
  · intro bid
    rw [hc.sources, hc.overrides, h.overrides]

section
variable {env : Env Doc} (hl : env.toml.Lawful)
include hl

/-- With writes that succeed, no change stops halfway. -/
theorem synced_change (hw : env.writeState = .ok ()) {d : Daemon Doc}
    (h : Synced env.net env.toml d) (snapshot : String → Option Snapshot) (nonDisruptive : Bool)
    (edit : Edit Doc) :
    Synced env.net env.toml (d.change env snapshot nonDisruptive edit).2 := by
  rcases change_cases env d snapshot nonDisruptive edit with
    ⟨_, hc⟩ | ⟨e, _, hh, _⟩ | ⟨e, cfg, report, store, saved, d', ha, hs, ho, hc⟩
  · rwa [hc]
  · obtain ⟨body, _, hb, _⟩ := hl.state (e.overrides.applyTo d.state)
    obtain ⟨msg, hm⟩ := hh.unwritable.fails body hb
    simp [hw] at hm
  · rw [hc]
    obtain ⟨file, hf, hbuilt⟩ := (build_iff env.toml env.net _ _).mp ⟨report, ha.builds⟩
    have htext := edited_holds hl rfl d e hf
    obtain ⟨hdyn, hst, hov⟩ := saveOverrides_ok hl ho
    have hcalm := apply_calm hl d' (d.planFor env snapshot cfg) cfg
    obtain ⟨hdisk, hstext, hstored, hstate⟩ : Holds env.toml saved.disk.dynamic file ∧
        env.toml.parseFile (store.text env.toml) = .ok file ∧ Stored env.toml saved ∧
        saved.state = d.state := by
      rcases saveStore_cases hs with ⟨ht, rfl, rfl⟩ | ⟨_, hdoc, rfl⟩
      · obtain ⟨file', hd', ht', _⟩ := h.file
        rw [← ht, htext] at ht'
        obtain rfl := Except.ok.inj ht'
        exact ⟨hd', htext, h.stored, rfl⟩
      · refine ⟨.parsed htext, ?_, h.stored, rfl⟩
        rw [DynamicStore.text, hdoc]
        exact htext
    refine ⟨⟨file, ?_, hstext, hbuilt⟩, hcalm.stored (hst hstored), fun bid => ?_⟩
    · change Holds env.toml (d'.apply env (d.planFor env snapshot cfg) cfg).disk.dynamic file
      rwa [hcalm.dynamic, hdyn]
    · change (e.overrides.applyTo d.sources.state).enabledOverride bid =
        (d'.apply env (d.planFor env snapshot cfg) cfg).state.enabledOverride bid
      rw [hcalm.overrides, hov, hstate]
      exact applyTo_congr e.overrides h.overrides bid

/-- What is read again and built is what `dynamic.toml` and `state.toml` say. -/
theorem synced_read {d : Daemon Doc} {sources : Sources} {store : DynamicStore Doc} {cfg : Config}
    (hst : Stored env.toml d) (hr : readAgain env d.disk = .ok sources)
    (hrd : env.readDynamic = .ok ()) (hrs : env.readState = .ok ())
    (hb : build env.toml env.net (some env.host) sources = .ok (cfg, report))
    (hs : storeFromSources env sources = some store) (plan : Plan) :
    Synced env.net env.toml
      { d.apply env plan cfg with sources := sources, store := store } := by
  obtain ⟨st, hload, hsame⟩ := hst
  obtain ⟨statics, hstatics⟩ : ∃ statics, load env.toml env.statics = .ok statics := by
    cases hlo : load env.toml env.statics with
    | error p => simp [readAgain, readSources, hlo, bind, Except.bind, Except.mapError] at hr
    | ok statics => exact ⟨statics, rfl⟩
  obtain rfl := Except.ok.inj ((readAgain_ok hstatics hrd hrs (hload env.stateDir)).symm.trans hr)
  obtain ⟨file, hf, hbuilt⟩ := (build_iff env.toml env.net _ _).mp ⟨report, hb⟩
  have hcalm := apply_calm hl d plan cfg
  have hmap : (d.disk.dynamic.map (fun text => (⟨env.dynamicPath, text⟩ : DynamicFile))).map
      DynamicFile.text = d.disk.dynamic := by
    cases d.disk.dynamic <;> rfl
  refine ⟨⟨file, ?_, ?_, hbuilt⟩, hcalm.stored ⟨st, hload, hsame⟩, fun bid => ?_⟩
  · change Holds env.toml (d.apply env plan cfg).disk.dynamic file
    rwa [hcalm.dynamic, ← hmap]
  · obtain ⟨store', hs', ht'⟩ := storeFromSources_holds hl rfl hf
    obtain rfl := Option.some.inj (hs'.symm.trans hs)
    exact ht'
  · change st.enabledOverride bid = (d.apply env plan cfg).state.enabledOverride bid
    rw [hcalm.overrides, enabledOverride_of_same hsame]

theorem synced_reload {d d' : Daemon Doc} (h : Synced env.net env.toml d)
    (hrd : env.readDynamic = .ok ()) (hrs : env.readState = .ok ())
    (hr : d.reload env snapshot nonDisruptive = some (r, d')) :
    Synced env.net env.toml d' := by
  unfold reload at hr
  cases hread : readAgain env d.disk with
  | error ps =>
    simp only [hread, Option.some.injEq, Prod.mk.injEq] at hr
    rwa [← hr.2]
  | ok sources =>
    cases hb : build env.toml env.net (some env.host) sources with
    | error ps =>
      simp only [hread, hb, Option.some.injEq, Prod.mk.injEq] at hr
      rwa [← hr.2]
    | ok built =>
      simp only [hread, hb] at hr
      split at hr
      · simp only [Option.some.injEq, Prod.mk.injEq] at hr
        rwa [← hr.2]
      · cases hs : storeFromSources env sources with
        | none => simp [hs] at hr
        | some store =>
          simp only [hs, Option.bind_eq_bind, Option.bind_some, Option.some.injEq,
            Prod.mk.injEq] at hr
          rw [← hr.2]
          have hsync := synced_read hl h.stored hread hrd hrs hb hs (d.planFor env snapshot built.1)
          exact synced_calm hsync (calm_of_rest rfl) rfl

/-- A reload always answers: a text that builds makes a store. -/
theorem reload_answers (d : Daemon Doc) (snapshot : String → Option Snapshot)
    (nonDisruptive : Bool) : ∃ r, d.reload env snapshot nonDisruptive = some r := by
  unfold reload
  cases hread : readAgain env d.disk with
  | error ps => exact ⟨_, rfl⟩
  | ok sources =>
    cases hb : build env.toml env.net (some env.host) sources with
    | error ps => simp only [hb]; exact ⟨_, rfl⟩
    | ok built =>
      obtain ⟨file, hf, _⟩ := (build_iff env.toml env.net _ _).mp ⟨built.2, hb⟩
      obtain ⟨store, hs, _⟩ := storeFromSources_holds hl rfl hf
      simp only [hb, hs]
      split
      · exact ⟨_, rfl⟩
      · exact ⟨_, rfl⟩

theorem synced_start {disk : Disk} {d : Daemon Doc}
    (hp : ∀ text, disk.state = some text → ∃ s, env.toml.parseState text = .ok s)
    (hrd : env.readDynamic = .ok ()) (hrs : env.readState = .ok ())
    (h : start env disk = some (.ok d)) : Synced env.net env.toml d := by
  obtain ⟨sources, cfg, report, store, hread, hb, hs, _, rfl⟩ := start_cases h
  obtain ⟨s, hload⟩ : ∃ s, ∀ dir, loadState env.toml dir disk (.ok ()) = .ok s := by
    cases hd : disk.state with
    | none => exact ⟨.empty, fun dir => loadState_none hd dir⟩
    | some text =>
      obtain ⟨s, hs⟩ := hp text hd
      exact ⟨s, fun dir => by simp only [loadState, hd, hs]⟩
  have hst : Stored env.toml (unstarted env disk sources cfg store) :=
    ⟨s, hload, by simp only [unstarted, openState, hrs, hload, same_refl]⟩
  have hcalm := apply_calm hl (unstarted env disk sources cfg store)
    ((unstarted env disk sources cfg store).planFor env (fun _ => none) cfg) cfg
  have hsync := synced_read hl hst hread hrd hrs hb hs
    ((unstarted env disk sources cfg store).planFor env (fun _ => none) cfg)
  exact synced_calm hsync ⟨hcalm.sources, hcalm.store, rfl, fun _ => rfl, fun h => h⟩ rfl

theorem synced_adjustName {d : Daemon Doc} (h : Synced env.net env.toml d)
    (bid configured next : String) :
    Synced env.net env.toml (d.adjustName env bid configured next) := by
  have hcalm :=
    calm_updateState hl d (fun s b => enabledOverride_setAdjusted s bid configured next b)
  refine synced_calm h (hcalm.keep (rest_modifyBridge ..)) ?_
  exact (cfg_of_rest (rest_modifyBridge ..)).trans (cfg_updateState ..)

theorem synced_retryPublicName {d : Daemon Doc} (h : Synced env.net env.toml d) (bid : String) :
    Synced env.net env.toml (d.retryPublicName env bid) := by
  have hcalm := calm_updateState hl d (fun s b => enabledOverride_clearAdjusted s bid b)
  have hr : rest (d.retryPublicName env bid) =
      rest (d.updateState env (fun s => s.clearAdjustedPublicName bid)).2 := by
    unfold retryPublicName
    dsimp only
    split
    · rfl
    · split
      · rw [rest_announceBridge, rest_modifyBridge]
      · exact rest_modifyBridge ..
  exact synced_calm h (hcalm.keep hr) ((cfg_of_rest hr).trans (cfg_updateState ..))

end

structure Writes (net : IpNetLib) (toml : TomlLib Doc) (env : Env Doc) : Prop where
  net : env.net = net
  toml : env.toml = toml
  dynamic : env.writeDynamic = .ok ()
  state : env.writeState = .ok ()

structure Reads (env : Env Doc) : Prop where
  dynamic : env.readDynamic = .ok ()
  state : env.readState = .ok ()

/-- What goes well in a step: every write, and the reads of a reload. -/
def GoesWell (net : IpNetLib) (toml : TomlLib Doc) : Act Doc → Prop
  | .change env .. | .adjustName env .. | .retryPublicName env _ => Writes net toml env
  | .reload env .. => Writes net toml env ∧ Reads env

theorem synced_act (hl : toml.Lawful) (hw : GoesWell net toml a) (h : Synced net toml d)
    (hs : act d a = some d') : Synced net toml d' := by
  cases a with
  | change env snapshot nonDisruptive edit =>
    obtain ⟨rfl, rfl, _, hstate⟩ := hw
    obtain rfl := Option.some.inj hs
    exact synced_change hl hstate h snapshot nonDisruptive edit
  | reload env snapshot nonDisruptive =>
    obtain ⟨⟨rfl, rfl, _, _⟩, hr⟩ := hw
    obtain ⟨⟨r, d₁⟩, hreload, rfl⟩ := Option.map_eq_some_iff.mp hs
    exact synced_reload hl h hr.dynamic hr.state hreload
  | adjustName env bid configured next =>
    obtain ⟨rfl, rfl, _, _⟩ := hw
    obtain rfl := Option.some.inj hs
    exact synced_adjustName hl h bid configured next
  | retryPublicName env bid =>
    obtain ⟨rfl, rfl, _, _⟩ := hw
    obtain rfl := Option.some.inj hs
    exact synced_retryPublicName hl h bid

theorem synced_run (hl : toml.Lawful) (h : Synced net toml d)
    (hr : Reach act (fun _ a => GoesWell net toml a) d acts d') : Synced net toml d' :=
  hr.invariant h (fun _ _ _ hs hok hstep => synced_act hl hok hs hstep)

/-- What is on disk makes the config in effect, wherever and on whatever host it
is read. -/
theorem Synced.builds (h : Synced net toml d)
    (hs : ∀ dir, loadState toml dir d.disk (.ok ()) = .ok s) (host : Option Host) (path : String)
    (legacy : Bool) (notes : List Problem) :
    ∃ report, build toml net host ⟨d.sources.statics, d.disk.dynamic.map (fun text => ⟨path, text⟩),
      s, legacy, notes⟩ = .ok (d.cfg, report) := by
  obtain ⟨file, hd, _, hb⟩ := h.file
  obtain ⟨s', hload, hsame⟩ := h.stored
  obtain rfl := Except.ok.inj ((hs "").symm.trans (hload ""))
  refine (build_iff toml net host _).mpr ⟨file, ?_, hb.congr (fun bid => ?_)⟩
  · rw [Option.map_map]
    have hm : DynamicFile.text ∘ (fun text => (⟨path, text⟩ : DynamicFile)) = fun text => text :=
      rfl
    rwa [hm, Option.map_id']
  · rw [h.overrides, enabledOverride_of_same hsame]

/-- A daemon started again from the same static files, with BlueZ up, has the same
config. -/
theorem Synced.restarts {env : Env Doc} (hl : env.toml.Lawful) (h : Synced env.net env.toml d)
    (hr : Reads env) (hz : HasBluez env)
    (hstatics : load env.toml env.statics = .ok d.sources.statics) :
    ∃ d', start env d.disk = some (.ok d') ∧ d'.cfg = d.cfg := by
  obtain ⟨s, hload, _⟩ := h.stored
  have hread := readAgain_ok hstatics hr.dynamic hr.state (hload env.stateDir)
  obtain ⟨report, hb⟩ := h.builds hload (some env.host) env.dynamicPath
    env.statics.legacyConfPresent []
  obtain ⟨file, hf, _⟩ := (build_iff env.toml env.net _ _).mp ⟨report, hb⟩
  obtain ⟨store, hs, _⟩ := storeFromSources_holds hl rfl hf
  exact ⟨_, start_ok hz hread hb hs, rfl⟩

/-- After any run of changes, reloads and public-name changes whose writes
succeed, what is on disk makes the config in effect, the three copies of the
overrides agree, and a restart that reaches BlueZ comes back to the same config. -/
theorem persisted_is_running {env : Env Doc} {disk : Disk} {d₀ d : Daemon Doc}
    {acts : List (Act Doc)} (hl : env.toml.Lawful) (hr : Reads env)
    (hp : ∀ text, disk.state = some text → ∃ s, env.toml.parseState text = .ok s)
    (hstart : start env disk = some (.ok d₀))
    (hrun : Reach act (fun _ a => GoesWell env.net env.toml a) d₀ acts d) :
    ∃ s, (∀ dir, loadState env.toml dir d.disk (.ok ()) = .ok s) ∧
      (∀ host path legacy notes, ∃ report, build env.toml env.net host
        ⟨d.sources.statics, d.disk.dynamic.map (fun text => ⟨path, text⟩), s, legacy, notes⟩ =
          .ok (d.cfg, report)) ∧
      (∀ bid, d.sources.state.enabledOverride bid = d.state.enabledOverride bid ∧
        s.enabledOverride bid = d.state.enabledOverride bid) ∧
      ∀ env' : Env Doc, env'.net = env.net → env'.toml = env.toml → Reads env' → HasBluez env' →
        load env.toml env'.statics = .ok d.sources.statics →
        ∃ d', start env' d.disk = some (.ok d') ∧ d'.cfg = d.cfg := by
  have h := synced_run hl (synced_start hl hp hr.dynamic hr.state hstart) hrun
  obtain ⟨s, hload, hsame⟩ := h.stored
  refine ⟨s, hload, fun host path legacy notes => h.builds hload host path legacy notes, ?_, ?_⟩
  · exact fun bid => ⟨h.overrides bid, enabledOverride_of_same hsame bid⟩
  · intro env' hnet htoml hreads hbluez hstatics
    rw [← hnet, ← htoml] at h
    rw [← htoml] at hl hstatics
    exact h.restarts hl hreads hbluez hstatics

theorem field_writes : Writes fieldEnv.net fieldEnv.toml fieldEnv := ⟨rfl, rfl, rfl, rfl⟩

noncomputable def switchAct : Act SampleDoc :=
  .change fieldEnv (fun _ => none) false (bridgeSwitch sampleToml ["ktbr1"] "ktbr0")

noncomputable def reloadAct : Act SampleDoc := .reload fieldEnv (fun _ => none) false

/-- Switching to the static bridge and reloading. -/
theorem persisted_is_running_switch : ∃ d : Daemon SampleDoc,
    Reach Daemon.act (fun _ a => GoesWell fieldEnv.net fieldEnv.toml a) fieldDaemon
      [switchAct, reloadAct] d ∧
    ∃ s, (∀ dir, loadState fieldEnv.toml dir d.disk (.ok ()) = .ok s) ∧
      ∀ bid, s.enabledOverride bid = d.state.enabledOverride bid := by
  obtain ⟨d₁, h₁⟩ : ∃ d₁, fieldDaemon.act switchAct = some d₁ := ⟨_, rfl⟩
  obtain ⟨⟨r, d⟩, hr⟩ : ∃ r, d₁.reload fieldEnv (fun _ => none) false = some r :=
    reload_answers sampleToml_lawful d₁ _ _
  have h₂ : d₁.act reloadAct = some d := Option.map_eq_some_iff.mpr ⟨_, hr, rfl⟩
  have hw₁ : GoesWell fieldEnv.net fieldEnv.toml switchAct := field_writes
  have hw₂ : GoesWell fieldEnv.net fieldEnv.toml reloadAct := ⟨field_writes, rfl, rfl⟩
  have hstart : Reach Daemon.act (fun _ a => GoesWell fieldEnv.net fieldEnv.toml a) fieldDaemon []
      fieldDaemon := .start
  have hrun := (hstart.next hw₁ h₁).next hw₂ h₂
  obtain ⟨s, hload, _, hov, _⟩ := persisted_is_running sampleToml_lawful ⟨rfl, rfl⟩
    (fun text h => by cases h) field_starts hrun
  exact ⟨d, hrun, s, hload, fun bid => (hov bid).2⟩

end KissTncBridge.Proofs.Persistence
