import KissTncBridge.Lib.Folds
import KissTncBridge.Lib.Maps
import KissTncBridge.Supervisor.Daemon

namespace KissTncBridge.Proofs.StateFile
open Lib Conf Bridge Reconcile Supervisor Daemon

theorem same_refl (s : State) : s.same s = true := by
  simp [State.same]

theorem enabledOverride_of_same (h : State.same a b = true) (bid : String) :
    a.enabledOverride bid = b.enabledOverride bid := by
  have he : a.bridges.toList = b.bridges.toList := by simpa [State.same] using h
  have hm : a.bridges[bid]? = b.bridges[bid]? :=
    (Std.TreeMap.equiv_iff_toList_eq.mpr he).getElem?_eq
  simp only [State.enabledOverride, hm]

/-- What is dropped overrides nothing. -/
theorem enabledOverride_prune (s : State) (bid : String) :
    s.prune.enabledOverride bid = s.enabledOverride bid := by
  simp only [State.enabledOverride, State.prune, Std.TreeMap.getElem?_filter']
  cases hb : s.bridges[bid]? with
  | none => rfl
  | some b =>
    by_cases he : b.isEmpty = true
    · have hb : b = {} := by simpa [BridgeState.isEmpty] using he
      simp [hb]
    · simp [Option.filter, he]

theorem enabledOverride_insert (s : State) (b bid : String) (entry : BridgeState) :
    State.enabledOverride ⟨s.bridges.insert b entry⟩ bid =
      if b = bid then entry.enabled else s.enabledOverride bid := by
  unfold State.enabledOverride
  split
  · rename_i h
    subst h
    rw [getElem?_insert_self]
    rfl
  · rename_i h
    rw [getElem?_insert_ne h]

theorem enabledOverride_entry (s : State) (bid : String) :
    (s.entry bid).enabled = s.enabledOverride bid := by
  unfold State.entry State.enabledOverride
  cases s.bridges[bid]? <;> rfl

theorem enabledOverride_set (s : State) (b bid : String) (enabled : Option Bool) :
    (s.setEnabledOverride b enabled).enabledOverride bid =
      if b = bid then enabled else s.enabledOverride bid := by
  rw [State.setEnabledOverride, enabledOverride_prune, enabledOverride_insert]

theorem enabledOverride_setAdjusted (s : State) (b configured next bid : String) :
    (s.setAdjustedPublicName b configured next).enabledOverride bid = s.enabledOverride bid := by
  rw [State.setAdjustedPublicName, enabledOverride_insert]
  split
  · rename_i h
    rw [← h, ← enabledOverride_entry]
  · rfl

theorem enabledOverride_clearAdjusted (s : State) (b bid : String) :
    (s.clearAdjustedPublicName b).enabledOverride bid = s.enabledOverride bid := by
  unfold State.clearAdjustedPublicName
  split
  · rename_i entry hb
    rw [enabledOverride_prune, enabledOverride_insert]
    split
    · rename_i h
      subst h
      simp [State.enabledOverride, hb]
    · rfl
  · rw [enabledOverride_prune]

structure Unwritable (env : Env Doc) (d : Daemon Doc) (next : State) : Prop where
  changed : next.same d.state = false
  fails : ∀ body, env.toml.stateText next = .ok body → ∃ e, env.writeState = .error e

def restated (d : Daemon Doc) (next : State) (body : String) : Daemon Doc :=
  { d with state := next, disk := { d.disk with state := some (STATE_HEADER ++ body) } }

theorem updateState_cases (env : Env Doc) (d : Daemon Doc) (f : State → State) :
    (f d.state).same d.state = true ∧ d.updateState env f = (.ok (), d) ∨
    Unwritable env d (f d.state) ∧ (∃ e, d.updateState env f = (.error e, d)) ∨
    ∃ body, env.toml.stateText (f d.state) = .ok body ∧
      d.updateState env f = (.ok (), restated d (f d.state) body) := by
  unfold updateState
  simp only
  by_cases hs : (f d.state).same d.state = true
  · exact .inl ⟨hs, by rw [if_pos hs]⟩
  · rw [if_neg hs]
    have hs : (f d.state).same d.state = false := by simpa using hs
    cases ht : env.toml.stateText (f d.state) with
    | error e => exact .inr (.inl ⟨⟨hs, fun _ hb => by simp [ht] at hb⟩, e, rfl⟩)
    | ok body =>
      cases hw : env.writeState with
      | error e => exact .inr (.inl ⟨⟨hs, fun _ _ => ⟨e, hw⟩⟩, e, rfl⟩)
      | ok _ => exact .inr (.inr ⟨body, rfl, rfl⟩)

theorem updateState_unwritable {env : Env Doc} {d : Daemon Doc} {f : State → State}
    (h : Unwritable env d (f d.state)) : ∃ e, d.updateState env f = (.error e, d) := by
  unfold updateState
  simp only [h.changed, Bool.false_eq_true, if_false]
  cases ht : env.toml.stateText (f d.state) with
  | error e => exact ⟨e, rfl⟩
  | ok body =>
    obtain ⟨e, he⟩ := h.fails body ht
    exact ⟨e, by rw [he]⟩

def Stored (toml : TomlLib Doc) (d : Daemon Doc) : Prop :=
  ∃ s, (∀ dir, loadState toml dir d.disk (.ok ()) = .ok s) ∧ s.same d.state = true

theorem stored_restated {env : Env Doc} (hl : env.toml.Lawful) (d : Daemon Doc)
    (hb : env.toml.stateText next = .ok body) : Stored env.toml (restated d next body) := by
  obtain ⟨body', s, hb', hs, hsame⟩ := hl.state next
  obtain rfl : body = body' := Except.ok.inj (hb.symm.trans hb')
  exact ⟨s, fun dir => by simp [loadState, restated, hs], hsame⟩

theorem stored_updateState {env : Env Doc} (hl : env.toml.Lawful) {d : Daemon Doc}
    (f : State → State) (h : Stored env.toml d) : Stored env.toml (d.updateState env f).2 := by
  rcases updateState_cases env d f with ⟨_, hu⟩ | ⟨_, _, hu⟩ | ⟨body, hb, hu⟩
  · rwa [hu]
  · rwa [hu]
  · rw [hu]
    exact stored_restated hl d hb

def rest (d : Daemon Doc) : Config × Sources × DynamicStore Doc × State × Disk :=
  (d.cfg, d.sources, d.store, d.state, d.disk)

theorem rest_emit (d : Daemon Doc) (e : Effect) : rest (d.emit e) = rest d := rfl

theorem rest_modifyBridge (d : Daemon Doc) (bid : String) (f : RunningBridge → RunningBridge) :
    rest (d.modifyBridge bid f) = rest d := by
  unfold modifyBridge
  split <;> rfl

theorem rest_setPort (d : Daemon Doc) (bid pid : String) (rp : RunningPort) :
    rest (d.setPort bid pid rp) = rest d := rest_modifyBridge ..

theorem rest_bridgeCmd (d : Daemon Doc) (bid : String) (c : BridgeCmd) :
    rest (d.bridgeCmd bid c) = rest d := by
  unfold bridgeCmd
  split <;> rfl

theorem rest_announceDown (d : Daemon Doc) (bid pid : String) :
    rest (d.announceDown bid pid) = rest d := by
  unfold announceDown
  split <;> rfl

theorem rest_announceBridge (env : Env Doc) (d : Daemon Doc) (b : Conf.Bridge) :
    rest (d.announceBridge env b) = rest d := by
  unfold announceBridge
  split
  · dsimp only
    split <;> rfl
  · rfl

theorem rest_startFollowing (env : Env Doc) (d : Daemon Doc) (rp : RunningPort) :
    rest (d.startFollowing env rp).1 = rest d := rfl

theorem rest_startPort (env : Env Doc) (d : Daemon Doc) (b : Conf.Bridge) (p : Port) :
    rest (d.startPort env b p) = rest d := by
  unfold startPort
  split
  · rfl
  · split
    · dsimp only
      split
      · rw [rest_emit, rest_setPort, rest_startFollowing]
      · rw [rest_emit, rest_setPort]
    · split
      · rw [rest_emit, rest_setPort]
      · rfl
    all_goals rfl

theorem rest_stopPort (d : Daemon Doc) (bid pid : String) : rest (d.stopPort bid pid) = rest d := by
  unfold stopPort
  split
  · rfl
  · dsimp only
    rw [rest_emit]
    split
    · rw [rest_announceDown, rest_modifyBridge]
    · exact rest_modifyBridge ..
    · exact rest_modifyBridge ..

theorem rest_updatePort (env : Env Doc) (d : Daemon Doc) (b : Conf.Bridge) (p : Port) :
    rest (d.updatePort env b p) = rest d := by
  unfold updatePort
  split
  · dsimp only
    split
    · rw [rest_announceDown, rest_setPort]
    · split
      · rw [rest_setPort, rest_startFollowing, rest_announceBridge, rest_setPort]
      · exact rest_setPort ..
  · exact rest_setPort ..
  · rfl

theorem rest_stopBridge (d : Daemon Doc) (bid : String) : rest (d.stopBridge bid) = rest d := by
  unfold Daemon.stopBridge
  split
  · rfl
  · rename_i rb _
    have hk : rest (rb.ports.keys.foldl (fun d p => d.stopPort bid p) d) = rest d :=
      foldl_keep rest _ _ _ (fun d p _ => rest_stopPort d bid p)
    dsimp only
    split <;> exact hk

theorem rest_applyStop (d : Daemon Doc) (bp : BridgePlan) : rest (d.applyStop bp) = rest d := by
  unfold applyStop
  split
  · exact rest_stopBridge d bp.id
  · refine foldl_keep rest _ _ _ (fun d pp _ => ?_)
    unfold stopOne
    dsimp only
    split
    · exact rest_stopPort ..
    · rfl
  · rfl

theorem rest_applyPort (env : Env Doc) (bid : String) (nb : Conf.Bridge) (d : Daemon Doc)
    (pp : PortPlan) : rest (d.applyPort env bid nb pp) = rest d := by
  have ht : ∀ np, rest (d.touchPort env bid nb np pp) = rest d := by
    intro np
    unfold touchPort
    split
    · split
      · exact rest_bridgeCmd ..
      · rfl
    · exact rest_updatePort ..
    · rfl
  unfold applyPort
  split
  · rfl
  · dsimp only
    split
    · unfold kickAll
      rw [foldl_keep rest _ _ _ (fun d s _ => rest_bridgeCmd ..), ht]
    · exact ht _

theorem rest_sendSettings (d : Daemon Doc) (bp : BridgePlan) (nb : Conf.Bridge) :
    rest (d.sendSettings bp nb) = rest d := by
  unfold sendSettings
  split
  · split
    · exact rest_bridgeCmd ..
    · rfl
  · rfl

theorem rest_restartPort (env : Env Doc) (bid : String) (nb : Conf.Bridge) (d : Daemon Doc)
    (pp : PortPlan) : rest (d.restartPort env bid nb pp) = rest d := by
  unfold restartPort
  split
  · split
    · exact rest_startPort ..
    · rfl
  · rfl

theorem cfg_of_rest (h : rest d' = rest d) : d'.cfg = d.cfg := congrArg Prod.fst h

theorem cfg_updateState (env : Env Doc) (d : Daemon Doc) (f : State → State) :
    (d.updateState env f).2.cfg = d.cfg := by
  rcases updateState_cases env d f with ⟨_, hu⟩ | ⟨_, _, hu⟩ | ⟨_, _, hu⟩
  · rw [hu]
  · rw [hu]
  · rw [hu]
    rfl

/-- From `d` to `d'`, the sources, the store and `dynamic.toml` are as they
were, and so are the enable overrides. -/
structure Calm (toml : TomlLib Doc) (d d' : Daemon Doc) : Prop where
  sources : d'.sources = d.sources
  store : d'.store = d.store
  dynamic : d'.disk.dynamic = d.disk.dynamic
  overrides : ∀ bid, d'.state.enabledOverride bid = d.state.enabledOverride bid
  stored : Stored toml d → Stored toml d'

theorem Calm.trans (h : Calm toml d d') (h' : Calm toml d' d'') : Calm toml d d'' :=
  ⟨h'.sources.trans h.sources, h'.store.trans h.store, h'.dynamic.trans h.dynamic,
    fun bid => (h'.overrides bid).trans (h.overrides bid), h'.stored ∘ h.stored⟩

/-- What only changes what runs, or the config in effect, is calm. -/
theorem calm_of_rest (h : (rest d').2 = (rest d).2) : Calm toml d d' := by
  simp only [rest, Prod.mk.injEq] at h
  obtain ⟨hs, ht, hst, hd⟩ := h
  refine ⟨hs, ht, by rw [hd], fun bid => by rw [hst], fun hstored => ?_⟩
  obtain ⟨s, hload, hsame⟩ := hstored
  exact ⟨s, by rwa [hd], by rwa [hst]⟩

theorem Calm.refl (toml : TomlLib Doc) (d : Daemon Doc) : Calm toml d d := calm_of_rest rfl

theorem Calm.keep (h : Calm toml d d') (hr : rest d'' = rest d') : Calm toml d d'' :=
  h.trans (calm_of_rest (by rw [hr]))

section
variable {env : Env Doc} (hl : env.toml.Lawful)
include hl

/-- So is a change of the state that keeps every override. -/
theorem calm_updateState (d : Daemon Doc) {f : State → State}
    (hf : ∀ s bid, (f s).enabledOverride bid = s.enabledOverride bid) :
    Calm env.toml d (d.updateState env f).2 := by
  have hst := fun h => stored_updateState hl (d := d) f h
  rcases updateState_cases env d f with ⟨_, hu⟩ | ⟨_, _, hu⟩ | ⟨body, _, hu⟩
  · rw [hu]
    exact .refl _ d
  · rw [hu]
    exact .refl _ d
  · rw [hu] at hst ⊢
    exact ⟨rfl, rfl, rfl, hf d.state, hst⟩

theorem calm_effectivePublicName (d : Daemon Doc) (bid configured : String) :
    Calm env.toml d (d.effectivePublicName env bid configured).2 := by
  unfold effectivePublicName
  split
  · exact .refl _ d
  · dsimp only
    split
    · exact calm_updateState hl d (fun s b => enabledOverride_clearAdjusted s bid b)
    · exact .refl _ d

theorem calm_startBridge (d : Daemon Doc) (b : Conf.Bridge) :
    Calm env.toml d (d.startBridge env b) := by
  unfold startBridge
  split
  · exact .refl _ d
  · split
    · refine (calm_effectivePublicName hl d b.id b.publicName).keep ?_
      dsimp only
      rw [foldl_keep rest _ _ _ (fun d p _ => rest_startPort env d b p)]
      split
      · exact rest_announceBridge ..
      · rfl
    · exact .refl _ d
    · exact calm_of_rest rfl

theorem calm_publicNameChanged (d : Daemon Doc) (b : Conf.Bridge) :
    Calm env.toml d (d.publicNameChanged env b) := by
  refine (calm_updateState hl d (fun s bid => enabledOverride_clearAdjusted s b.id bid)).keep ?_
  unfold publicNameChanged
  dsimp only
  split
  · rw [rest_emit, rest_modifyBridge]
  · exact rest_modifyBridge ..

theorem calm_applyLive (new : Config) (d : Daemon Doc) (bp : BridgePlan) :
    Calm env.toml d (d.applyLive env new bp) := by
  unfold applyLive
  split
  · exact .refl _ d
  · rename_i nb _
    dsimp only
    have hr : ∀ d : Daemon Doc, rest ((bp.ports.foldl (applyPort env bp.id nb)
        (d.sendSettings bp nb)).modifyBridge bp.id (fun rb => { rb with cfg := nb })) = rest d := by
      intro d
      rw [rest_modifyBridge, foldl_keep rest _ _ _ (fun d pp _ => rest_applyPort env bp.id nb d pp),
        rest_sendSettings]
    split
    · exact (calm_publicNameChanged hl d nb).keep (hr _)
    · exact (Calm.refl _ d).keep (hr _)

theorem calm_applyStart (new : Config) (d : Daemon Doc) (bp : BridgePlan) :
    Calm env.toml d (d.applyStart env new bp) := by
  unfold applyStart
  split
  · exact .refl _ d
  · rename_i nb _
    split
    · exact calm_startBridge hl d nb
    · exact (Calm.refl _ d).keep
        (foldl_keep rest _ _ _ (fun d pp _ => rest_restartPort env bp.id nb d pp))
    · exact .refl _ d

/-- Applying a plan writes nothing but collision adjustments it drops. -/
theorem apply_calm (d : Daemon Doc) (plan : Plan) (new : Config) :
    Calm env.toml d (d.apply env plan new) := by
  have hstops : Calm env.toml d (d.stops plan) :=
    (Calm.refl _ d).keep (foldl_keep rest _ _ _ (fun d bp _ => rest_applyStop d bp))
  have hlives : ∀ d : Daemon Doc, Calm env.toml d (d.lives env new plan) := by
    intro d
    unfold lives
    dsimp only
    refine foldl_inv (P := Calm env.toml d) _ _ _ ?_
      (fun t bp _ ht => ht.trans (calm_applyLive hl new t bp))
    split
    · exact (Calm.refl _ d).keep (rest_emit ..)
    · exact .refl _ d
  have hstarts : ∀ d : Daemon Doc, Calm env.toml d (d.starts env new plan) := fun d =>
    foldl_inv (P := Calm env.toml d) _ _ _ (.refl _ d)
      (fun t bp _ ht => ht.trans (calm_applyStart hl new t bp))
  exact ((hstops.trans (hlives _)).trans (hstarts _)).trans (calm_of_rest rfl)

end

end KissTncBridge.Proofs.StateFile
