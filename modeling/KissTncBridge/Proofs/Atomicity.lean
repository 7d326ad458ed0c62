import KissTncBridge.Proofs.ChangeSteps

namespace KissTncBridge.Proofs.Atomicity
open Conf Bridge Reconcile Supervisor Daemon StateFile ChangeSteps

/-- A change that fails leaves the files and the daemon exactly as they were,
if and only if it does not fail at its second write: with a new `dynamic.toml`
on disk already, and overrides that can't be written to `state.toml`. -/
theorem failed_change_leaves_all (env : Env Doc) (d : Daemon Doc)
    (snapshot : String → Option Snapshot) (nonDisruptive : Bool) (edit : Edit Doc) :
    (∀ err, (d.change env snapshot nonDisruptive edit).1 = .error err →
      (d.change env snapshot nonDisruptive edit).2 = d) ↔
    ¬ ∃ e, HalfWritten env d snapshot nonDisruptive edit e ∧
      d.disk.dynamic ≠ some ((d.editedStore e).text env.toml) := by
  constructor
  · rintro h ⟨e, hh, hne⟩
    obtain ⟨err, hc⟩ := change_halfWritten hh
    have hd := h err (by rw [hc])
    rw [hc] at hd
    exact hne (congrArg (fun d => d.disk.dynamic) hd).symm
  · intro h err he
    rcases change_cases env d snapshot nonDisruptive edit with
      ⟨_, hc⟩ | ⟨e, _, hh, hc⟩ | ⟨_, _, _, _, _, _, _, _, _, hc⟩
    · rw [hc]
    · have hd : d.disk.dynamic = some ((d.editedStore e).text env.toml) := by
        by_contra hne
        exact h ⟨e, hh, hne⟩
      rw [hc, rewritten, ← hd]
    · rw [hc] at he
      cases he

/-- The host with no room left for `state.toml`. -/
noncomputable def fullEnv : Env SampleDoc :=
  { fieldEnv with writeState := .error "No space left on device (os error 28)" }

noncomputable def switchToField : Edit SampleDoc :=
  bridgeSwitch sampleToml (conflicting fieldDaemon.cfg "ktbr0") "ktbr0"

theorem switch_edits : switchToField (fieldStore true)
      ⟨(fieldSources true .empty).statics, fieldConfig false none true⟩ =
    .ok ⟨none, .shack false, [("ktbr0", some true)]⟩ := by
  have hw : conflicting fieldDaemon.cfg "ktbr0" = ["ktbr1"] := by
    change conflicting (fieldConfig false none true) "ktbr0" = ["ktbr1"]
    decide +kernel
  unfold switchToField
  rw [hw]
  rfl

theorem field_stays (bid : String) : fieldDaemon.state.enabledOverride bid = none :=
  (field_calm.overrides bid).trans (empty_enabledOverride bid)

def switched : Edited SampleDoc := ⟨none, .shack false, [("ktbr0", some true)]⟩

theorem switched_text : (fieldDaemon.editedStore switched).text fullEnv.toml = fieldText false :=
  text_shack rfl

theorem switched_override (s : State) (bid : String) :
    (switched.overrides.applyTo s).enabledOverride bid =
      if "ktbr0" = bid then some true else s.enabledOverride bid :=
  enabledOverride_set s "ktbr0" bid (some true)

/-- The switch turns the static bridge on and the dynamic one off. -/
theorem switch_accepted : ∃ report, Accepted fullEnv fieldDaemon (fun _ => none) false
    switchToField switched (fieldConfig true (some true) false) report := by
  have hs : fieldDaemon.sources = fieldSources true .empty := field_calm.sources
  have hstore : fieldDaemon.store = fieldStore true := field_calm.store
  have hedit : fieldDaemon.editedSources fullEnv switched =
      fieldSources false (switched.overrides.applyTo .empty) := by
    rw [editedSources_some fullEnv (by rw [hs]; rfl), switched_text, hs, hstore]
    rfl
  have hcfg : applyOverrides (fieldConfig false none false) (switched.overrides.applyTo .empty) =
      fieldConfig true (some true) false := by
    simp [applyOverrides, fieldConfig, switched_override, Source.isStatic]
  obtain ⟨report, hb⟩ := build_field false (switched.overrides.applyTo .empty)
    (by rw [hcfg]; decide +kernel)
  refine ⟨report, ?_, ?_, rfl⟩
  · rw [hs, hstore]
    exact switch_edits
  · rw [hedit, ← hcfg]
    exact hb

theorem switch_halfWritten :
    HalfWritten fullEnv fieldDaemon (fun _ => none) false switchToField switched := by
  have hstore : fieldDaemon.store = fieldStore true := field_calm.store
  have hdisk : fieldDaemon.disk.dynamic = some (fieldText true) := field_calm.dynamic
  refine ⟨⟨_, switch_accepted⟩, ⟨?_, rfl, ?_, rfl⟩, ?_, fun _ _ => ⟨_, rfl⟩⟩
  · rw [switched_text, hstore]
    change fieldText false ≠ (fieldStore true).text sampleToml
    rw [text_shack rfl]
    exact fieldText_ne
  · rw [hdisk, editedStore, hstore]
    rfl
  · rw [Bool.eq_false_iff]
    intro hsame
    have h := enabledOverride_of_same hsame "ktbr0"
    rw [switched_override, field_stays, if_pos rfl] at h
    cases h

/-- Switching from the running dynamic bridge to the static one while
`state.toml` can't be written: the change fails, and `dynamic.toml` has the
dynamic bridge disabled. -/
theorem switch_half_done : start fieldEnv fieldDisk = some (.ok fieldDaemon) ∧
    (∃ err, (fieldDaemon.change fullEnv (fun _ => none) false switchToField).1 = .error err) ∧
    fieldDaemon.disk.dynamic = some (DYNAMIC_HEADER ++ (SampleDoc.shack true).text) ∧
    (fieldDaemon.change fullEnv (fun _ => none) false switchToField).2.disk.dynamic =
      some (DYNAMIC_HEADER ++ (SampleDoc.shack false).text) ∧
    ¬ ∀ err, (fieldDaemon.change fullEnv (fun _ => none) false switchToField).1 = .error err →
      (fieldDaemon.change fullEnv (fun _ => none) false switchToField).2 = fieldDaemon := by
  have hdisk : fieldDaemon.disk.dynamic = some (fieldText true) := field_calm.dynamic
  obtain ⟨err, hc⟩ := change_halfWritten switch_halfWritten
  have hd : (fieldDaemon.change fullEnv (fun _ => none) false switchToField).2.disk.dynamic =
      some (fieldText false) := by
    rw [hc, switched_text]
    rfl
  refine ⟨field_starts, ⟨err, by rw [hc]⟩, hdisk, hd, fun h => ?_⟩
  rw [h err (by rw [hc]), hdisk] at hd
  exact fieldText_ne (Option.some.inj hd).symm

end KissTncBridge.Proofs.Atomicity
