import Mathlib.Logic.Function.Iterate
import KissTncBridge.Dnssd.Naming
import KissTncBridge.Lib.Maps
import KissTncBridge.Lib.Runs

namespace KissTncBridge.Proofs.NameAdjustments
open Dnssd Lib Conf

variable {a a' a'' : Announcer} {s s' : Naming}

structure Quiet (a a' : Announcer) : Prop where
  names : a'.names = a.names
  state : a'.state = a.state

theorem Quiet.refl (a : Announcer) : Quiet a a := ⟨rfl, rfl⟩

theorem Quiet.trans (h : Quiet a a') (h' : Quiet a' a'') : Quiet a a'' :=
  ⟨h'.names.trans h.names, h'.state.trans h.state⟩

/-- What happens after a change of something else. -/
theorem Quiet.after (h : Quiet a' a'') (hn : a'.names = a.names) (hs : a'.state = a.state) :
    Quiet a a'' :=
  ⟨h.names.trans hn, h.state.trans hs⟩

def Adjusts (a : Announcer) (id : String) (written : Bool) (a' : Announcer) : Prop :=
  ∃ b, a.bridges[id]? = some b ∧
    a'.names = Function.update a.names b.name (nextName (a.names b.name)) ∧
    a'.state =
      if written then a.state.setAdjustedPublicName id b.configured (nextName (a.names b.name))
      else a.state

theorem Adjusts.then {id : String} (h : Adjusts a id written a') (h' : Quiet a' a'') :
    Adjusts a id written a'' := by
  obtain ⟨b, hb, hn, hs⟩ := h
  exact ⟨b, hb, h'.names.trans hn, h'.state.trans hs⟩

theorem withdraw_quiet (a : Announcer) (g : Option GroupId) : Quiet a (a.withdraw g) := by
  cases g <;> exact ⟨rfl, rfl⟩

theorem attempt_quiet (a : Announcer) (id : String) (n : Nat) : Quiet a (a.attempt id n) := by
  cases n with
  | zero => exact .refl a
  | succ n =>
    cases hb : a.bridges[id]? with
    | none =>
      simp only [Announcer.attempt, hb]
      exact .refl a
    | some b =>
      simp only [Announcer.attempt, hb]
      split
      · exact Quiet.after (withdraw_quiet _ _) rfl rfl
      · exact ⟨rfl, rfl⟩

theorem sync_quiet (a : Announcer) (id : String) : Quiet a (a.sync id) := by
  unfold Announcer.sync
  split
  · exact attempt_quiet a id 20
  · exact .refl a

theorem syncAll_quiet (a : Announcer) (ids : List String) : Quiet a (a.syncAll ids) := by
  induction ids generalizing a with
  | nil => exact .refl a
  | cons id ids ih =>
    simp only [Announcer.syncAll]
    split
    · exact (sync_quiet a id).trans ⟨rfl, rfl⟩
    · exact (sync_quiet a id).trans (ih _)

theorem synced_quiet (a : Announcer) : Quiet a a.synced := by
  have h : Quiet a { a with todo := [] } := ⟨rfl, rfl⟩
  exact h.trans (syncAll_quiet _ _)

theorem adjustName_adjusts {id : String} (h : a.adjustName id written = some a') :
    Adjusts a id written a' := by
  obtain ⟨b, hb, he⟩ := Option.bind_eq_some_iff.mp h
  cases he
  exact ⟨b, hb, rfl, rfl⟩

theorem onCmd_quiet (a : Announcer) (c : Cmd) : Quiet a (a.onCmd c) := by
  cases c with
  | bridge id configured name =>
    simp only [Announcer.onCmd]
    split
    · exact Quiet.after (sync_quiet _ _) rfl rfl
    · exact ⟨rfl, rfl⟩
  | forget id => exact Quiet.after (withdraw_quiet _ _) rfl rfl
  | up bridge port service | down bridge port =>
    simp only [Announcer.onCmd]
    split
    · exact .refl a
    · split
      · exact Quiet.after (sync_quiet _ _) rfl rfl
      · exact ⟨rfl, rfl⟩

theorem onEvent_names (a : Announcer) (written : Bool) (ev : Event) :
    Quiet a (a.onEvent written ev) ∨
      ∃ g id, ev = .collision g ∧ a.bridgeFor g = some id ∧
      Adjusts a id written (a.onEvent written ev) := by
  cases ev with
  | established g | failure g why => exact .inl (.refl a)
  | collision g =>
    cases hf : a.bridgeFor g with
    | none =>
      left
      simp only [Announcer.onEvent, hf]
      exact .refl a
    | some id =>
      cases hadj : a.adjustName id written with
      | none =>
        left
        simp only [Announcer.onEvent, hf, hadj]
        exact .refl a
      | some a' =>
        right
        refine ⟨g, id, rfl, hf, ?_⟩
        simp only [Announcer.onEvent, hf, hadj]
        exact (adjustName_adjusts hadj).then (sync_quiet a' id)
  | serverUp =>
    left
    exact Quiet.after (syncAll_quiet _ _) rfl rfl
  | serverDown =>
    left
    have hw : ∀ (groups : List (Option GroupId)) (a : Announcer),
        Quiet a (groups.foldl Announcer.withdraw a) := by
      intro groups
      induction groups with
      | nil => exact Quiet.refl
      | cons g groups ih => exact fun a => (withdraw_quiet a g).trans (ih _)
    exact (hw _ a).trans ⟨rfl, rfl⟩

theorem published_names (a : Announcer) (p : Publishing) (calls : Calls) (written : Bool) :
    Quiet a (a.published p calls written) ∨
      (a.backend.publish p.group p.name p.services calls).1 = .error .collision ∧
        Adjusts a p.id written (a.published p calls written) := by
  cases hres : a.backend.publish p.group p.name p.services calls with
  | mk res backend' =>
    cases res with
    | ok g =>
      left
      simp only [Announcer.published, hres]
      split <;> exact Quiet.after (synced_quiet _) rfl rfl
    | error e =>
      cases e with
      | collision =>
        cases hadj :
            ({ a with backend := backend', doing := none } : Announcer).adjustName p.id written with
        | none =>
          left
          simp only [Announcer.published, hres, hadj]
          exact Quiet.after (synced_quiet _) rfl rfl
        | some a' =>
          right
          refine ⟨rfl, ?_⟩
          have hadjusts : Adjusts a p.id written a' := by
            have h := adjustName_adjusts hadj
            exact h
          simp only [Announcer.published, hres, hadj]
          split
          · exact hadjusts.then (attempt_quiet a' _ _)
          · exact hadjusts.then ((attempt_quiet a' _ _).trans (synced_quiet _))
      | unavailable why | other why =>
        left
        simp only [Announcer.published, hres]
        exact Quiet.after (synced_quiet _) rfl rfl

/-- A name that was recorded for a bridge, with the configured name that it was
made from. -/
def Recorded (st : State) (bridge configured name : String) : Prop :=
  ∃ e, st.bridges[bridge]? = some e ∧ e.publicName = some name ∧
    e.publicNameConfigured = some configured

/-- Every recorded name was made from the configured name recorded with it. -/
def Sound (st : State) : Prop :=
  ∀ bridge configured name, Recorded st bridge configured name →
    ∃ k, 1 ≤ k ∧ name = nextName^[k] configured

theorem recorded_of_prune (h : Recorded st.prune bridge configured name) :
    Recorded st bridge configured name := by
  obtain ⟨e, he, hn, hc⟩ := h
  rw [State.prune, Std.TreeMap.getElem?_filter'] at he
  obtain ⟨he, -⟩ := Option.filter_eq_some_iff.mp he
  exact ⟨e, he, hn, hc⟩

theorem recorded_insert (b : String) (entry : BridgeState) :
    Recorded ⟨st.bridges.insert b entry⟩ bridge configured name ↔
      if b = bridge then entry.publicName = some name ∧ entry.publicNameConfigured = some configured
      else Recorded st bridge configured name := by
  unfold Recorded
  split
  · rename_i h
    subst h
    simp
  · rename_i h
    rw [getElem?_insert_ne h]

theorem Sound.clear (h : Sound st) (b : String) : Sound (st.clearAdjustedPublicName b) := by
  intro bridge configured name hr
  unfold State.clearAdjustedPublicName at hr
  split at hr
  · have hrec := recorded_of_prune hr
    rw [recorded_insert] at hrec
    split at hrec
    · cases hrec.1
    · exact h bridge configured name hrec
  · exact h bridge configured name (recorded_of_prune hr)

theorem Sound.enable (h : Sound st) (b : String) (enabled : Option Bool) :
    Sound (st.setEnabledOverride b enabled) := by
  intro bridge configured name hr
  have hrec := recorded_of_prune hr
  rw [recorded_insert] at hrec
  split at hrec
  · rename_i hb
    subst hb
    cases he : st.bridges[b]? with
    | none =>
      simp only [State.entry, he] at hrec
      cases hrec.1
    | some e =>
      simp only [State.entry, he] at hrec
      exact h b configured name ⟨e, he, hrec.1, hrec.2⟩
  · exact h bridge configured name hrec

theorem Sound.adjust (h : Sound st) (b : String) (hk : 1 ≤ k) :
    Sound (st.setAdjustedPublicName b base (nextName^[k] base)) := by
  intro bridge configured name hr
  rw [State.setAdjustedPublicName, recorded_insert] at hr
  split at hr
  · obtain ⟨hn, hc⟩ := hr
    cases hn
    cases hc
    exact ⟨k, hk, rfl⟩
  · exact h bridge configured name hr

theorem adjusted_recorded {st : State} {bridge configured : String}
    (h : st.adjustedPublicName bridge configured = some name) :
    Recorded st bridge configured name := by
  simp only [State.adjustedPublicName, Option.bind_eq_bind, Option.bind_eq_some_iff] at h
  obtain ⟨e, he, h⟩ := h
  split at h
  · rename_i n w hn hw
    split at h
    · rename_i heq
      cases h
      exact ⟨e, he, hn, heq ▸ hw⟩
    · cases h
  · cases h

/-- A bridge never starts with an adjustment of another configured name. -/
theorem Sound.effective (h : Sound st) (bridge configured : String) (written : Bool) :
    (∃ k, (effectivePublicName st bridge configured written).1 = nextName^[k] configured) ∧
      Sound (effectivePublicName st bridge configured written).2 := by
  unfold effectivePublicName
  split
  · rename_i adjusted ha
    obtain ⟨k, -, hk⟩ := h bridge configured adjusted (adjusted_recorded ha)
    exact ⟨⟨k, hk⟩, h⟩
  · refine ⟨⟨0, rfl⟩, ?_⟩
    dsimp only
    split
    · exact h.clear bridge
    · exact h

structure Consistent (s : Naming) : Prop where
  names : ∀ ch, ∃ k, s.announcer.names ch = nextName^[k] (s.base ch)
  sound : Sound s.announcer.state

/-- When a bridge is moved to its next name, the announcer has the configured name
that the bridge's channel was last set from. -/
def InForce (s : Naming) (e : NamingEvent) : Prop :=
  ∀ id name b, s.moves e = some (id, name) → s.announcer.bridges[id]? = some b →
    b.configured = s.base b.name

namespace Consistent

theorem of_same (h : Consistent s) (hn : s'.announcer.names = s.announcer.names)
    (hb : s'.base = s.base) (hs : s'.announcer.state = s.announcer.state) : Consistent s' := by
  refine ⟨fun ch => ?_, ?_⟩
  · rw [hn, hb]
    exact h.names ch
  · rw [hs]
    exact h.sound

theorem updateState (h : Consistent s) (written : Bool) (hf : ∀ st, Sound st → Sound (f st)) :
    Consistent (s.updateState written f) := by
  unfold Naming.updateState
  split
  · exact ⟨h.names, hf _ h.sound⟩
  · exact h

theorem sendName (h : Consistent s) (bridge configured : String) :
    Consistent (s.sendName bridge configured) := by
  unfold Naming.sendName
  split
  · rename_i ch hr
    refine ⟨fun c => ?_, h.sound⟩
    by_cases hc : c = ch
    · subst hc
      exact ⟨0, by simp⟩
    · simp only [Function.update_of_ne hc]
      exact h.names c
  · exact h

theorem announceBridge (h : Consistent s) (bridge configured : String) :
    Consistent (s.announceBridge bridge configured) := by
  unfold Naming.announceBridge
  split
  · exact h.of_same rfl rfl rfl
  · exact h

theorem startBridge (h : Consistent s) (bridge configured : String) (announces written : Bool) :
    Consistent (s.startBridge bridge configured announces written) := by
  obtain ⟨⟨k, hk⟩, hsound⟩ := h.sound.effective bridge configured written
  have hs : Consistent { s with
      announcer := { s.announcer with
        state := (effectivePublicName s.announcer.state bridge configured written).2
        names := Function.update s.announcer.names s.channels
          (effectivePublicName s.announcer.state bridge configured written).1 }
      channels := s.channels + 1
      base := Function.update s.base s.channels configured
      running := Function.update s.running bridge (some s.channels) } := by
    refine ⟨fun c => ?_, hsound⟩
    by_cases hc : c = s.channels
    · subst hc
      exact ⟨k, by simp [hk]⟩
    · simp only [Function.update_of_ne hc]
      exact h.names c
  simp only [Naming.startBridge]
  split
  · exact hs.announceBridge bridge configured
  · exact hs

theorem publicNameChanged (h : Consistent s) (bridge configured : String)
    (announces written : Bool) :
    Consistent (s.publicNameChanged bridge configured announces written) := by
  have hs := (h.updateState written (fun _ hst => hst.clear bridge)).sendName bridge configured
  simp only [Naming.publicNameChanged]
  split
  · split
    · exact hs.of_same rfl rfl rfl
    · exact hs
  · exact hs

theorem retryPublicName (h : Consistent s) (bridge : String) (configured : Option String)
    (announces written : Bool) :
    Consistent (s.retryPublicName bridge configured announces written) := by
  have hs := h.updateState written (fun _ hst => hst.clear bridge)
  cases configured with
  | none => exact hs
  | some configured =>
    simp only [Naming.retryPublicName]
    split
    · exact (hs.sendName bridge configured).announceBridge bridge configured
    · exact hs.sendName bridge configured

/-- The announcer moves a bridge on from a name that was made from the configured
name it records. -/
theorem adjusts {id : String} (h : Consistent s) (ha : Adjusts s.announcer id written a')
    (hb : s'.base = s.base) (hs : s'.announcer = a')
    (hc : ∀ b, s.announcer.bridges[id]? = some b → b.configured = s.base b.name) :
    Consistent s' := by
  obtain ⟨b, hbr, hn, hst⟩ := ha
  obtain ⟨k, hk⟩ := h.names b.name
  have hnext : nextName (s.announcer.names b.name) = nextName^[k + 1] (s.base b.name) := by
    rw [Function.iterate_succ_apply', ← hk]
  refine ⟨fun c => ?_, ?_⟩
  · rw [hs, hn, hb]
    by_cases hcb : c = b.name
    · subst hcb
      rw [Function.update_self]
      exact ⟨k + 1, hnext⟩
    · rw [Function.update_of_ne hcb]
      exact h.names c
  · rw [hs, hst, hnext, hc b hbr]
    split
    · exact h.sound.adjust id (Nat.le_add_left 1 k)
    · exact h.sound

theorem quiet (h : Consistent s) (hq : Quiet s.announcer a') (hb : s'.base = s.base)
    (hs : s'.announcer = a') : Consistent s' := h.of_same (hs ▸ hq.names) hb (hs ▸ hq.state)

end Consistent

theorem step_consistent (h : Consistent s) (hf : InForce s e) (hs : s.step e = some s') :
    Consistent s' := by
  cases e with
  | startBridge bridge configured announces written =>
    cases hs
    exact h.startBridge bridge configured announces written
  | publicNameChanged bridge configured announces written =>
    cases hs
    exact h.publicNameChanged bridge configured announces written
  | retryPublicName bridge configured announces written =>
    cases hs
    exact h.retryPublicName bridge configured announces written
  | announceBridge bridge configured =>
    cases hs
    exact h.announceBridge bridge configured
  | setEnabled bridge enabled written =>
    cases hs
    exact h.updateState written (fun _ hst => hst.enable bridge enabled)
  | stopBridge bridge | follow bridge port service | exits | restart available =>
    cases hs
    exact h.of_same rfl rfl rfl
  | sendLate i =>
    simp only [Naming.step] at hs
    split at hs
    · cases hs
      exact h.of_same rfl rfl rfl
    · cases hs
  | signal ev =>
    obtain ⟨sig, -, rfl⟩ := Option.map_eq_some_iff.mp hs
    exact h.of_same rfl rfl rfl
  | takeCmd =>
    simp only [Naming.step] at hs
    split at hs
    · cases hs
      exact h.quiet (onCmd_quiet _ _) rfl rfl
    · cases hs
  | takeEvent written =>
    simp only [Naming.step] at hs
    split at hs
    · rename_i sig signals hd hsig
      cases hs
      rcases onEvent_names s.announcer written sig.ev with hq | ⟨g, id, hev, hfor, hadj⟩
      · exact h.quiet hq rfl rfl
      · refine h.adjusts hadj rfl rfl (fun b hb => hf id sig.name b ?_ hb)
        obtain ⟨ev, r, name⟩ := sig
        cases hev
        simp only [Naming.moves, hsig, hfor, Option.map_some]
    · cases hs
  | published calls written =>
    obtain ⟨p, hp, rfl⟩ := Option.map_eq_some_iff.mp hs
    rcases published_names s.announcer p calls written with hq | ⟨hres, hadj⟩
    · exact h.quiet hq rfl rfl
    · refine h.adjusts hadj rfl rfl (fun b hb => hf p.id p.name b ?_ hb)
      simp only [Naming.moves, hp, Option.bind_some, hres]

/-- While the announcer moves a bridge on only when it has the configured name that
the bridge's channel was last set from, every recorded name is an adjustment of
the configured name recorded with it, and no bridge starts with an adjustment of
another one. -/
theorem adjustments_consistent (h : Reach Naming.step InForce (Naming.start available) es s) :
    (∀ bridge configured name, Recorded s.announcer.state bridge configured name →
      ∃ k, 1 ≤ k ∧ name = nextName^[k] configured) ∧
    ∀ bridge configured written,
      ∃ k, (effectivePublicName s.announcer.state bridge configured written).1 =
        nextName^[k] configured := by
  have hc : Consistent s := by
    refine h.invariant ⟨fun ch => ⟨0, rfl⟩, ?_⟩ (fun _ _ _ hi hok hs => step_consistent hi hok hs)
    intro bridge configured name hr
    obtain ⟨e, he, -⟩ := hr
    simp [Naming.start, Announcer.new, State.empty] at he
  exact ⟨hc.sound, fun bridge configured written =>
    (hc.sound.effective bridge configured written).1⟩

theorem rsplitParen_spec {cs base n : List Char} (h : Text.rsplitParen cs = some (base, n)) :
    cs = base ++ ' ' :: '(' :: n := by
  induction cs generalizing base with
  | nil => cases h
  | cons c cs ih =>
    simp only [Text.rsplitParen] at h
    split at h
    · rename_i b m hb
      cases h
      rw [ih hb]
      rfl
    · split at h
      · cases h
        rfl
      · cases h

/-- A next name begins as the name does. -/
theorem nextName_head {name : String} (h : name.toList.head? = some c) :
    (nextName name).toList.head? = some c := by
  have hplain : (name ++ " (2)").toList.head? = some c := by
    rw [String.toList_append, List.head?_append, h]
    rfl
  simp only [nextName]
  split
  · rename_i base n hn
    split at hn
    · rename_i hlast
      obtain ⟨⟨base', m⟩, hsplit, hm⟩ := Option.bind_eq_some_iff.mp hn
      obtain ⟨k, -, hk⟩ := Option.map_eq_some_iff.mp hm
      cases hk
      have hspec := rsplitParen_spec hsplit
      have hlist : name.toList = base' ++ ' ' :: '(' :: m ++ [')'] := by
        rw [← hspec]
        exact (List.dropLast_append_getLast? _ hlast).symm
      rw [hlist] at h
      cases base' with
      | nil =>
        rw [← h]
        simp [String.toList_append]
      | cons x base =>
        rw [← h]
        simp [String.toList_append]
    · cases hn
  · exact hplain

theorem nextName_iterate_head (name : String) (h : name.toList.head? = some c) (k : Nat) :
    (nextName^[k] name).toList.head? = some c := by
  induction k with
  | zero => exact h
  | succ k ih =>
    rw [Function.iterate_succ_apply']
    exact nextName_head ih

/-- A bridge announces a port, and Avahi reports a collision of its name. -/
def sampleCollision : List NamingEvent :=
  [.startBridge "ktbr0" "Attic" true true, .takeCmd,
    .follow "ktbr0" "apps" (some ⟨8001, .any, .v4⟩), .takeCmd,
   .published {} true, .signal (.collision 0)]

def inForce (s : Naming) (e : NamingEvent) : Bool :=
  (s.moves e).all
    (fun m => (s.announcer.bridges[m.1]?).all (fun b => b.configured == s.base b.name))

theorem inForce_of_check (s : Naming) (e : NamingEvent) (h : inForce s e = true) : InForce s e := by
  intro id name b hm hb
  simpa [inForce, hm, hb] using h

theorem adjustments_consistent_collision :
    ∃ s, Reach Naming.step InForce (Naming.start true) (sampleCollision ++ [.takeEvent true]) s ∧
      Recorded s.announcer.state "ktbr0" "Attic" "Attic (2)" ∧ ∃ k,
        1 ≤ k ∧ "Attic (2)" = nextName^[k] "Attic" := by
  have h : Reach Naming.step InForce (Naming.start true) (sampleCollision ++ [.takeEvent true]) _ :=
    reach_of_checked inForce_of_check rfl
  exact ⟨_, h, ⟨_, rfl, rfl, rfl⟩,
    (adjustments_consistent h).1 "ktbr0" "Attic" "Attic (2)" ⟨_, rfl, rfl, rfl⟩⟩

/-- The configured name changes between the report and its handling: the next name
of the new one is recorded as an adjustment of the old one, and a bridge that is
configured as before starts with it. -/
theorem collision_records_other_name :
    ∃ s, Runs Naming.step (Naming.start true)
        (sampleCollision ++ [.publicNameChanged "ktbr0" "Cellar" true true, .takeEvent true]) s ∧
      Recorded s.announcer.state "ktbr0" "Attic" "Cellar (2)" ∧
      (effectivePublicName s.announcer.state "ktbr0" "Attic" true).1 = "Cellar (2)" ∧
      ¬ ∃ k, "Cellar (2)" = nextName^[k] "Attic" := by
  refine ⟨_, runs_of_foldlM rfl, ⟨_, rfl, rfl, rfl⟩, rfl, fun ⟨k, hk⟩ => ?_⟩
  have hc := nextName_iterate_head "Attic" rfl k
  rw [← hk] at hc
  cases hc

end KissTncBridge.Proofs.NameAdjustments
