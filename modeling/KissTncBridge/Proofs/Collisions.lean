import KissTncBridge.Proofs.EntryGroups
import KissTncBridge.Proofs.NameAdjustments

namespace KissTncBridge.Proofs.Collisions
open Dnssd Lib Conf EntryGroups NameAdjustments

variable {a a' : Announcer} {s s' : Naming} {av av' av'' : Avahi}

structure Frees (av av' : Avahi) : Prop where
  registrations : av'.registrations = av.registrations
  groups : ∀ g group, av'.groups g = some group → av.groups g = some group

theorem Frees.refl (av : Avahi) : Frees av av := ⟨rfl, fun _ _ h => h⟩

theorem Frees.trans (h : Frees av av') (h' : Frees av' av'') : Frees av av'' :=
  ⟨h'.registrations.trans h.registrations,
    fun g group hg => h.groups g group (h'.groups g group hg)⟩

theorem withdraw_frees (a : Announcer) (go : Option GroupId) :
    Frees a.backend (a.withdraw go).backend := by
  cases go with
  | none => exact .refl _
  | some g =>
    refine ⟨rfl, fun k group hk => ?_⟩
    by_cases hkg : k = g
    · subst hkg
      simp [Announcer.withdraw, Avahi.free, Avahi.set] at hk
    · simpa [Announcer.withdraw, Avahi.free, Avahi.set, Function.update_of_ne hkg] using hk

theorem attempt_frees (a : Announcer) (id : String) (n : Nat) :
    Frees a.backend (a.attempt id n).backend := by
  cases n with
  | zero => exact .refl _
  | succ n =>
    cases hb : a.bridges[id]? with
    | none =>
      simp only [Announcer.attempt, hb]
      exact .refl _
    | some b =>
      simp only [Announcer.attempt, hb]
      split
      · exact withdraw_frees (a.insert id { b with group := none }) b.group
      · exact .refl _

theorem sync_frees (a : Announcer) (id : String) : Frees a.backend (a.sync id).backend := by
  unfold Announcer.sync
  split
  · exact attempt_frees a id 20
  · exact .refl _

theorem syncAll_frees (a : Announcer) (ids : List String) :
    Frees a.backend (a.syncAll ids).backend := by
  induction ids generalizing a with
  | nil => exact .refl _
  | cons id ids ih =>
    simp only [Announcer.syncAll]
    split
    · exact sync_frees a id
    · exact (sync_frees a id).trans (ih _)

theorem synced_frees (a : Announcer) : Frees a.backend a.synced.backend :=
  syncAll_frees { a with todo := [] } a.todo

theorem adjustName_backend {id : String} (h : a.adjustName id written = some a') :
    a'.backend = a.backend := by
  obtain ⟨b, -, he⟩ := Option.bind_eq_some_iff.mp h
  cases he
  rfl

theorem onCmd_frees (a : Announcer) (c : Cmd) : Frees a.backend (a.onCmd c).backend := by
  cases c with
  | bridge id configured name =>
    simp only [Announcer.onCmd]
    split
    · rename_i b _
      exact sync_frees (a.insert id { b with configured := configured, name := name }) id
    · exact .refl _
  | forget id => exact withdraw_frees { a with bridges := a.bridges.erase id } _
  | up bridge port service =>
    simp only [Announcer.onCmd]
    split
    · exact .refl _
    · rename_i b _
      split
      · exact sync_frees
          (a.insert bridge { b with services := b.services.insert port service }) bridge
      · exact .refl _
  | down bridge port =>
    simp only [Announcer.onCmd]
    split
    · exact .refl _
    · rename_i b _
      split
      · exact sync_frees (a.insert bridge { b with services := b.services.erase port }) bridge
      · exact .refl _

theorem onEvent_frees (a : Announcer) (written : Bool) (ev : Event) :
    Frees a.backend (a.onEvent written ev).backend := by
  cases ev with
  | established g | failure g why => exact .refl _
  | collision g =>
    simp only [Announcer.onEvent]
    split
    · split
      · rename_i a' ha
        rw [← adjustName_backend ha]
        exact sync_frees a' _
      · exact .refl _
    · exact .refl _
  | serverUp => exact syncAll_frees { a with available := true } _
  | serverDown =>
    have hw : ∀ (groups : List (Option GroupId)) (a : Announcer),
        Frees a.backend (groups.foldl Announcer.withdraw a).backend := by
      intro groups
      induction groups with
      | nil => exact fun a => .refl _
      | cons g groups ih => exact fun a => (withdraw_frees a g).trans (ih _)
    exact hw _ a

structure Registers (av av' : Avahi) : Prop where
  le : av.registrations ≤ av'.registrations
  groups : ∀ g group r, av'.groups g = some group → group.registration = some r →
    av.groups g = some group ∨ av.registrations ≤ r ∧ r < av'.registrations

theorem Frees.registers (h : Frees av av') : Registers av av' :=
  ⟨Nat.le_of_eq h.registrations.symm, fun g group _ hg _ => .inl (h.groups g group hg)⟩

theorem Registers.frees (h : Registers av av') (h' : Frees av' av'') : Registers av av'' := by
  refine ⟨h'.registrations ▸ h.le, fun g group r hg hr => ?_⟩
  rw [h'.registrations]
  exact h.groups g group r (h'.groups g group hg) hr

theorem publish_registers (av : Avahi) (group : Option GroupId) (name : String)
    (services : List Announce.Service)
    (calls : Calls) : Registers av (av.publish group name services calls).2 := by
  rcases publish_cases av group name services calls with ⟨e, he, -⟩ | ⟨g, next, -, ⟨e, he⟩ | he⟩
  · rw [he]
    exact (Frees.refl av).registers
  · rw [he]
    refine Frees.registers ⟨rfl, fun k grp hk => ?_⟩
    by_cases hkg : k = g
    · subst hkg
      simp at hk
    · simpa [Function.update_of_ne hkg] using hk
  · rw [he]
    refine ⟨Nat.le_succ _, fun k grp r hk hr => ?_⟩
    by_cases hkg : k = g
    · subst hkg
      simp only [Function.update_self, Option.some.injEq] at hk
      subst hk
      cases hr
      exact .inr ⟨Nat.le_refl _, Nat.lt_succ_self _⟩
    · left
      simpa [Function.update_of_ne hkg] using hk

theorem published_registers (a : Announcer) (p : Publishing) (calls : Calls) (written : Bool) :
    Registers a.backend (a.published p calls written).backend := by
  cases hres : a.backend.publish p.group p.name p.services calls with
  | mk res backend' =>
    have hreg : Registers a.backend backend' := by
      have h := publish_registers a.backend p.group p.name p.services calls
      rw [hres] at h
      exact h
    have hgo : ∀ a' : Announcer, a'.backend = backend' → Registers a.backend a'.synced.backend := by
      intro a' ha
      have h := hreg.frees (ha ▸ synced_frees a')
      exact h
    simp only [Announcer.published, hres]
    cases res with
    | ok g =>
      dsimp only
      split
      · apply hgo
        rfl
      · apply hgo
        rfl
    | error e =>
      cases e with
      | collision =>
        dsimp only
        split
        · rename_i a' ha
          have hb : a'.backend = backend' := adjustName_backend ha
          have hatt : Registers a.backend (a'.attempt p.id p.tries).backend :=
            hreg.frees (hb ▸ attempt_frees a' _ _)
          split
          · exact hatt
          · exact hatt.frees (synced_frees _)
        · apply hgo
          rfl
      | unavailable why | other why =>
        apply hgo
        rfl

/-- The channels that the announcer's bridges have are among the first `n`. -/
def Wired (n : Nat) (a : Announcer) : Prop :=
  ∀ (id : String) (b : BridgeAnn), a.bridges[id]? = some b → b.name < n

namespace Wired

theorem insert {id : String} {b : BridgeAnn} (h : Wired n a) (hb : b.name < n) :
    Wired n (a.insert id b) := by
  intro k b' hk
  by_cases he : id = k
  · subst he
    rw [Announcer.insert, getElem?_insert_self] at hk
    cases hk
    exact hb
  · rw [Announcer.insert, getElem?_insert_ne he] at hk
    exact h k b' hk

theorem withdraw (h : Wired n a) (g : Option GroupId) : Wired n (a.withdraw g) := by
  intro id b hb
  rw [withdraw_bridges] at hb
  exact h id b hb

theorem attempt (h : Wired n a) (id : String) (k : Nat) : Wired n (a.attempt id k) := by
  cases k with
  | zero => exact h
  | succ k =>
    cases hb : a.bridges[id]? with
    | none =>
      simp only [Announcer.attempt, hb]
      exact h
    | some b =>
      have hi : Wired n (a.insert id { b with group := none }) := h.insert (h id b hb)
      simp only [Announcer.attempt, hb]
      split
      · exact hi.withdraw b.group
      · exact hi

theorem sync (h : Wired n a) (id : String) : Wired n (a.sync id) := by
  unfold Announcer.sync
  split
  · exact h.attempt id 20
  · exact h

theorem syncAll (h : Wired n a) (ids : List String) : Wired n (a.syncAll ids) := by
  induction ids generalizing a with
  | nil => exact h
  | cons id ids ih =>
    simp only [Announcer.syncAll]
    split
    · exact h.sync id
    · exact ih (h.sync id)

theorem synced (h : Wired n a) : Wired n a.synced := by
  have ht : Wired n { a with todo := [] } := h
  exact ht.syncAll a.todo

theorem adjustName {id : String} (h : Wired n a) (ha : a.adjustName id written = some a') :
    Wired n a' := by
  obtain ⟨b, -, he⟩ := Option.bind_eq_some_iff.mp ha
  cases he
  exact h

end Wired

def Carries (n : Nat) (c : Cmd) : Prop := ∀ id configured ch, c = .bridge id configured ch → ch < n

theorem onCmd_wired (h : Wired n a) (hc : Carries n c) : Wired n (a.onCmd c) := by
  cases c with
  | bridge id configured ch =>
    have hlt : ch < n := hc id configured ch rfl
    simp only [Announcer.onCmd]
    split
    · rename_i b _
      have hi : Wired n (a.insert id { b with configured := configured, name := ch }) :=
        h.insert hlt
      exact hi.sync id
    · exact h.insert hlt
  | forget id =>
    refine Wired.withdraw ?_ _
    intro k b hk
    by_cases he : id = k
    · subst he
      rw [getElem?_erase_self] at hk
      cases hk
    · rw [getElem?_erase_ne he] at hk
      exact h k b hk
  | up bridge port service =>
    simp only [Announcer.onCmd]
    split
    · exact h
    · rename_i b hb
      have hi : Wired n (a.insert bridge { b with services := b.services.insert port service }) :=
        h.insert (h bridge b hb)
      split
      · exact hi.sync bridge
      · exact hi
  | down bridge port =>
    simp only [Announcer.onCmd]
    split
    · exact h
    · rename_i b hb
      have hi : Wired n (a.insert bridge { b with services := b.services.erase port }) :=
        h.insert (h bridge b hb)
      split
      · exact hi.sync bridge
      · exact hi

theorem onEvent_wired (h : Wired n a) (written : Bool) (ev : Event) :
    Wired n (a.onEvent written ev) := by
  cases ev with
  | established g | failure g why => exact h
  | collision g =>
    simp only [Announcer.onEvent]
    split
    · split
      · rename_i ha
        exact (h.adjustName ha).sync _
      · exact h
    · exact h
  | serverUp =>
    have hu : Wired n { a with available := true } := h
    exact hu.syncAll _
  | serverDown =>
    intro id b hb
    simp only [Announcer.onEvent, Std.TreeMap.getElem?_map] at hb
    obtain ⟨b', hb', rfl⟩ := Option.map_eq_some_iff.mp hb
    exact h id b' hb'

theorem published_wired (h : Wired n a) (p : Publishing) (calls : Calls) (written : Bool) :
    Wired n (a.published p calls written) := by
  have hd : ∀ av, Wired n { a with backend := av, doing := none } := fun _ => h
  unfold Announcer.published
  dsimp only
  split
  · split
    · rename_i g _ b hb
      refine Wired.synced (Wired.insert ?_ ?_)
      · exact hd _
      · exact h p.id b hb
    · exact (hd _).synced
  · split
    · rename_i ha
      have hatt := ((hd _).adjustName ha).attempt p.id p.tries
      split
      · exact hatt
      · exact hatt.synced
    · exact (hd _).synced
  · refine Wired.synced ?_
    exact h
  · exact (hd _).synced

structure Channelled (s : Naming) : Prop where
  wired : Wired s.channels s.announcer
  running : ∀ bridge ch, s.running bridge = some ch → ch < s.channels
  queue : ∀ c ∈ s.queue, Carries s.channels c
  late : ∀ c ∈ s.late, Carries s.channels c

theorem running_update {running : String → Option Nat} {bridge : String}
    (h : ∀ k ch, running k = some ch → ch < n)
    (hv : ∀ ch, v = some ch → ch < n) (k : String) (ch : Nat)
    (hk : Function.update running bridge v k = some ch) : ch < n := by
  by_cases hkb : k = bridge
  · subst hkb
    rw [Function.update_self] at hk
    exact hv ch hk
  · rw [Function.update_of_ne hkb] at hk
    exact h k ch hk

/-- A collision's report has the registration it is about, and while its group is
registered so, it has the name in the report. -/
structure Reported (av : Avahi) (signals : List Signal) : Prop where
  registered : ∀ g group r, av.groups g = some group → group.registration = some r →
    r < av.registrations
  collided : ∀ sig ∈ signals, ∀ g, sig.ev = .collision g →
    ∃ r, sig.registration = some r ∧ r < av.registrations ∧
    ∀ group, av.groups g = some group → group.registration = some r → group.name = sig.name

theorem Reported.registers (h : Reported av signals) (hr : Registers av av') :
    Reported av' signals := by
  refine ⟨fun g group r hg hreg => ?_, fun sig hsig g hev => ?_⟩
  · rcases hr.groups g group r hg hreg with hold | ⟨-, hlt⟩
    · exact Nat.lt_of_lt_of_le (h.registered g group r hold hreg) hr.le
    · exact hlt
  · obtain ⟨r, hsr, hlt, hname⟩ := h.collided sig hsig g hev
    refine ⟨r, hsr, Nat.lt_of_lt_of_le hlt hr.le, fun group hg hreg => ?_⟩
    rcases hr.groups g group r hg hreg with hold | ⟨hle, -⟩
    · exact hname group hold hreg
    · omega

theorem Reported.fewer (h : Reported av signals) (hs : ∀ sig ∈ signals', sig ∈ signals) :
    Reported av signals' :=
  ⟨h.registered, fun sig hsig => h.collided sig (hs sig hsig)⟩

theorem Reported.report (h : Reported s.announcer.backend s.signals) (hr : s.report ev = some sig) :
    Reported s.announcer.backend (s.signals ++ [sig]) := by
  refine ⟨h.registered, fun sig' hsig g hev => ?_⟩
  rcases List.mem_append.mp hsig with hsig | hsig
  · exact h.collided sig' hsig g hev
  · obtain rfl := List.mem_singleton.mp hsig
    cases ev with
    | serverUp | serverDown =>
      cases hr
      cases hev
    | established k | failure k why =>
      simp only [Naming.report] at hr
      split at hr
      · obtain ⟨r, -, rfl⟩ := Option.map_eq_some_iff.mp hr
        cases hev
      · cases hr
    | collision k =>
      simp only [Naming.report] at hr
      split at hr
      · rename_i group hg
        obtain ⟨r, hreg, rfl⟩ := Option.map_eq_some_iff.mp hr
        cases hev
        refine ⟨r, rfl, h.registered _ group r hg hreg, fun group' hg' _ => ?_⟩
        rw [hg] at hg'
        cases hg'
        rfl
      · cases hr

/-- No `publish` is under way of the announcer's bridge that has the channel of a
bridge that runs. -/
def Idle (s : Naming) (bridge : String) : Prop :=
  ∀ (p : Publishing) (b : BridgeAnn), s.announcer.doing = some p →
    s.announcer.bridges[p.id]? = some b → s.running bridge ≠ some b.name

structure Tracked (s : Naming) : Prop where
  underway : Underway s.announcer
  channelled : Channelled s
  reported : Reported s.announcer.backend s.signals

namespace Tracked

/-- A daemon that has just begun. -/
theorem fresh (hd : s.announcer.doing = none) (hb : s.announcer.bridges = ∅)
    (hr : ∀ bridge, s.running bridge = none)
    (hq : s.queue = []) (hl : s.late = []) (hs : s.signals = [])
    (hg : ∀ g, s.announcer.backend.groups g = none) : Tracked s := by
  refine ⟨.of_none hd, ⟨fun id b h => ?_, fun bridge ch h => ?_, fun c h => ?_, fun c h => ?_⟩,
    ⟨fun g group r h => ?_, fun sig h => ?_⟩⟩
  · simp [hb] at h
  · simp [hr bridge] at h
  · simp [hq] at h
  · simp [hl] at h
  · simp [hg g] at h
  · simp [hs] at h

theorem updateState (h : Tracked s) (written : Bool) (f : State → State) :
    Tracked (s.updateState written f) := by
  unfold Naming.updateState
  split
  · exact ⟨h.underway,
      ⟨h.channelled.wired, h.channelled.running, h.channelled.queue, h.channelled.late⟩, h.reported⟩
  · exact h

theorem sendName {bridge : String} (h : Tracked s) (hi : Idle s bridge) (configured : String) :
    Tracked (s.sendName bridge configured) := by
  unfold Naming.sendName
  split
  · rename_i ch hr
    refine ⟨fun p hp => ?_,
      ⟨h.channelled.wired, h.channelled.running, h.channelled.queue, h.channelled.late⟩, h.reported⟩
    obtain ⟨b, hb, hg, hname, hservices⟩ := h.underway p hp
    have hne : b.name ≠ ch := by
      intro he
      exact hi p b hp hb (hr.trans (congrArg some he.symm))
    exact ⟨b, hb, hg, hname.trans (Function.update_of_ne hne _ _).symm, hservices⟩
  · exact h

theorem enqueue (h : Tracked s) (hc : Carries s.channels c) :
    Tracked { s with queue := s.queue ++ [c] } := by
  refine ⟨h.underway,
    ⟨h.channelled.wired, h.channelled.running, fun c' hm => ?_, h.channelled.late⟩, h.reported⟩
  rcases List.mem_append.mp hm with hm | hm
  · exact h.channelled.queue c' hm
  · obtain rfl := List.mem_singleton.mp hm
    exact hc

theorem announceBridge (h : Tracked s) (bridge configured : String) :
    Tracked (s.announceBridge bridge configured) := by
  unfold Naming.announceBridge
  split
  · rename_i ch hr
    apply h.enqueue
    intro id configured ch' he
    cases he
    exact h.channelled.running bridge ch hr
  · exact h

theorem startBridge (h : Tracked s) (bridge configured : String) (announces written : Bool) :
    Tracked (s.startBridge bridge configured announces written) := by
  have hs : Tracked { s with
      announcer := { s.announcer with
        state := (effectivePublicName s.announcer.state bridge configured written).2
        names := Function.update s.announcer.names s.channels
          (effectivePublicName s.announcer.state bridge configured written).1 }
      channels := s.channels + 1
      base := Function.update s.base s.channels configured
      running := Function.update s.running bridge (some s.channels) } := by
    refine ⟨fun p hp => ?_, ⟨fun id b hb => ?_, fun k ch hk => ?_, fun c hc id conf ch he => ?_,
      fun c hc id conf ch he => ?_⟩, h.reported⟩
    · obtain ⟨b, hb, hg, hname, hservices⟩ := h.underway p hp
      have hlt : b.name < s.channels := h.channelled.wired p.id b hb
      exact ⟨b, hb, hg, hname.trans (Function.update_of_ne (Nat.ne_of_lt hlt) _ _).symm, hservices⟩
    · exact Nat.lt_succ_of_lt (h.channelled.wired id b hb)
    · refine running_update (fun k ch hk => Nat.lt_succ_of_lt (h.channelled.running k ch hk))
        (fun c hc => ?_) k ch hk
      cases hc
      exact Nat.lt_succ_self _
    · exact Nat.lt_succ_of_lt (h.channelled.queue c hc id conf ch he)
    · exact Nat.lt_succ_of_lt (h.channelled.late c hc id conf ch he)
  simp only [Naming.startBridge]
  split
  · exact hs.announceBridge bridge configured
  · exact hs

theorem idle_updateState {bridge : String} (hi : Idle s bridge) (written : Bool)
    (f : State → State) : Idle (s.updateState written f) bridge := by
  unfold Naming.updateState
  split
  · exact hi
  · exact hi

theorem publicNameChanged {bridge : String} (h : Tracked s) (hi : Idle s bridge)
    (configured : String) (announces written : Bool) :
    Tracked (s.publicNameChanged bridge configured announces written) := by
  have hs := (h.updateState written (fun st => st.clearAdjustedPublicName bridge)).sendName
    (idle_updateState hi written _) configured
  simp only [Naming.publicNameChanged]
  split
  · rename_i ch hr
    split
    · refine ⟨hs.underway, ⟨hs.channelled.wired, hs.channelled.running, hs.channelled.queue,
        fun c hm => ?_⟩, hs.reported⟩
      rcases List.mem_append.mp hm with hm | hm
      · exact hs.channelled.late c hm
      · obtain rfl := List.mem_singleton.mp hm
        intro id conf ch' he
        cases he
        exact hs.channelled.running bridge ch hr
    · exact hs
  · exact hs

theorem retryPublicName {bridge : String} (h : Tracked s) (hi : Idle s bridge)
    (configured : Option String) (announces written : Bool) :
    Tracked (s.retryPublicName bridge configured announces written) := by
  have hs := h.updateState written (fun st => st.clearAdjustedPublicName bridge)
  cases configured with
  | none => exact hs
  | some configured =>
    have hn := hs.sendName (idle_updateState hi written _) configured
    simp only [Naming.retryPublicName]
    split
    · exact hn.announceBridge bridge configured
    · exact hn

/-- The announcer takes a step of its own, perhaps with a report that it has
handled. -/
theorem announcer (h : Tracked s) (hu : Underway a') (hw : Wired s.channels a')
    (hr : Registers s.announcer.backend a'.backend) (hq : ∀ c ∈ queue, c ∈ s.queue)
    (hs : ∀ sig ∈ signals, sig ∈ s.signals) :
    Tracked { s with announcer := a', queue := queue, signals := signals } :=
  ⟨hu, ⟨hw, h.channelled.running, fun c hc => h.channelled.queue c (hq c hc), h.channelled.late⟩,
    (h.reported.registers hr).fewer hs⟩

end Tracked

/-- When a report of a collision is handled, its group is still registered as it
was then, under the name that the bridge's channel has; and the supervisor puts no
name in the channel of a bridge while a `publish` of it is under way. -/
def Settled (s : Naming) : NamingEvent → Prop
  | .takeEvent _ => ∀ g r name signals id b, s.signals = ⟨.collision g, r, name⟩ :: signals →
      s.announcer.bridgeFor g = some id → s.announcer.bridges[id]? = some b →
      ∃ group, s.announcer.backend.groups g = some group ∧ group.registration = r ∧
        group.name = s.announcer.names b.name
  | .publicNameChanged bridge .. | .retryPublicName bridge .. => Idle s bridge
  | _ => True

/-- A bridge is moved on from a name that is not the one that collided. -/
def Mischarged (s : Naming) (e : NamingEvent) : Prop :=
  ∃ id name b, s.moves e = some (id, name) ∧ s.announcer.bridges[id]? = some b ∧
    name ≠ s.announcer.names b.name

/-- The announcer's own steps change no name but that of a bridge that they move
on, to its next name. -/
theorem announcer_moves (hs : s.step e = some s')
    (he : e = .takeCmd ∨ e = .takeEvent written ∨ e = .published calls written) :
    Quiet s.announcer s'.announcer ∨
      ∃ id name, s.moves e = some (id, name) ∧ Adjusts s.announcer id written s'.announcer := by
  rcases he with rfl | rfl | rfl
  · simp only [Naming.step] at hs
    split at hs
    · cases hs
      exact .inl (onCmd_quiet _ _)
    · cases hs
  · simp only [Naming.step] at hs
    split at hs
    · rename_i sig signals hd hsig
      cases hs
      rcases onEvent_names s.announcer written sig.ev with hq | ⟨g, id, hev, hfor, hadj⟩
      · exact .inl hq
      · right
        obtain ⟨ev, r, name⟩ := sig
        cases hev
        exact ⟨id, name, by simp only [Naming.moves, hsig, hfor, Option.map_some], hadj⟩
    · cases hs
  · obtain ⟨p, hp, rfl⟩ := Option.map_eq_some_iff.mp hs
    rcases published_names s.announcer p calls written with hq | ⟨hres, hadj⟩
    · exact .inl hq
    · exact .inr ⟨p.id, p.name, by simp only [Naming.moves, hp, Option.bind_some, hres], hadj⟩

theorem step_tracked (h : Tracked s) (hok : Settled s e) (hs : s.step e = some s') :
    Tracked s' := by
  cases e with
  | startBridge bridge configured announces written =>
    cases hs
    exact h.startBridge bridge configured announces written
  | stopBridge bridge =>
    cases hs
    have hc : Carries s.channels (.forget bridge) := fun _ _ _ he => by cases he
    have hn := h.enqueue hc
    refine ⟨hn.underway, ⟨hn.channelled.wired, fun k ch hk => ?_, hn.channelled.queue,
      hn.channelled.late⟩, hn.reported⟩
    exact running_update h.channelled.running (fun c hc => by cases hc) k ch hk
  | publicNameChanged bridge configured announces written =>
    cases hs
    exact h.publicNameChanged hok configured announces written
  | retryPublicName bridge configured announces written =>
    cases hs
    exact h.retryPublicName hok configured announces written
  | announceBridge bridge configured =>
    cases hs
    exact h.announceBridge bridge configured
  | setEnabled bridge enabled written =>
    cases hs
    exact h.updateState written _
  | follow bridge port service =>
    cases hs
    apply h.enqueue
    cases service with
    | none => exact fun _ _ _ he => by cases he
    | some service => exact fun _ _ _ he => by cases he
  | sendLate i =>
    simp only [Naming.step] at hs
    split at hs
    · rename_i c hc
      cases hs
      have hn := h.enqueue (h.channelled.late c (List.mem_of_getElem? hc))
      exact ⟨hn.underway, ⟨hn.channelled.wired, hn.channelled.running, hn.channelled.queue,
        fun c' hm => h.channelled.late c' (List.mem_of_mem_eraseIdx hm)⟩, hn.reported⟩
    · cases hs
  | signal ev =>
    obtain ⟨sig, hsig, rfl⟩ := Option.map_eq_some_iff.mp hs
    exact ⟨h.underway,
      ⟨h.channelled.wired, h.channelled.running, h.channelled.queue, h.channelled.late⟩,
        h.reported.report hsig⟩
  | takeCmd =>
    simp only [Naming.step] at hs
    split at hs
    · rename_i c queue hd hq
      cases hs
      have hc : Carries s.channels c :=
        h.channelled.queue c (by rw [hq]; exact List.mem_cons_self ..)
      refine h.announcer (onCmd_underway hd c) (onCmd_wired h.channelled.wired hc)
        (onCmd_frees _ c).registers ?_ (fun _ hm => hm)
      intro c' hm
      rw [hq]
      exact List.mem_cons_of_mem c hm
    · cases hs
  | takeEvent written =>
    simp only [Naming.step] at hs
    split at hs
    · rename_i sig signals hd hsig
      cases hs
      refine h.announcer (onEvent_underway hd written sig.ev)
        (onEvent_wired h.channelled.wired written sig.ev)
        (onEvent_frees _ written sig.ev).registers (fun _ hm => hm) ?_
      intro sig' hm
      rw [hsig]
      exact List.mem_cons_of_mem sig hm
    · cases hs
  | published calls written =>
    obtain ⟨p, hp, rfl⟩ := Option.map_eq_some_iff.mp hs
    exact h.announcer (published_underway _ p calls written)
      (published_wired h.channelled.wired p calls written)
      (published_registers _ p calls written) (fun _ hm => hm) (fun _ hm => hm)
  | exits =>
    cases hs
    have hf : Frees s.announcer.backend { s.announcer.backend with groups := fun _ => none } :=
      ⟨rfl, fun _ _ hg => by cases hg⟩
    exact ⟨h.underway,
      ⟨h.channelled.wired, h.channelled.running, h.channelled.queue, h.channelled.late⟩,
        h.reported.registers hf.registers⟩
  | restart available =>
    cases hs
    exact .fresh rfl rfl (fun _ => rfl) rfl rfl rfl (fun _ => rfl)

/-- A step in a tracked state charges a collision to the name that collided. -/
theorem step_charged (h : Tracked s) (hok : Settled s e) : ¬ Mischarged s e := by
  intro ⟨id, name, b, hm, hb, hne⟩
  apply hne
  cases e with
  | takeEvent written =>
    simp only [Naming.moves] at hm
    split at hm
    · rename_i g r name' signals hsig
      obtain ⟨id', hfor, he⟩ := Option.map_eq_some_iff.mp hm
      cases he
      obtain ⟨group, hg, hr, hname⟩ := hok g r name signals id b hsig hfor hb
      have hmem : (⟨.collision g, r, name⟩ : Signal) ∈ s.signals := by
        rw [hsig]
        exact List.mem_cons_self ..
      obtain ⟨r', hr', -, hreported⟩ := h.reported.collided _ hmem g rfl
      exact (hreported group hg (hr.trans hr')).symm.trans hname
    · cases hm
  | published calls written =>
    obtain ⟨p, hp, hres⟩ := Option.bind_eq_some_iff.mp hm
    split at hres
    · cases hres
      obtain ⟨b', hb', -, hname, -⟩ := h.underway p hp
      cases hb.symm.trans hb'
      exact hname
    · cases hres
  | _ => cases hm

/-- While reports of collisions are handled before their groups are registered
anew or their bridges named anew, and no name changes under a `publish`, a bridge
is moved to its next name for a collision of its current name only. -/
theorem collision_charged (h : Reach Naming.step Settled (Naming.start available) es s) :
    ¬ Meets Naming.step Mischarged (Naming.start available) es := by
  have hstart : Tracked (Naming.start available) :=
    .fresh rfl rfl (fun _ => rfl) rfl rfl rfl (fun _ => rfl)
  induction h with
  | start => exact not_meets_nil
  | @next es t e u hr hok hs ih =>
    rw [meets_next hr.forget]
    have ht : Tracked t := hr.invariant hstart (fun _ _ _ hi hok hs => step_tracked hi hok hs)
    exact not_or.mpr ⟨ih, step_charged ht hok⟩

def settled (s : Naming) : NamingEvent → Bool
  | .takeEvent _ =>
    match s.signals with
    | ⟨.collision g, r, _⟩ :: _ =>
      (s.announcer.bridgeFor g).all (fun id => (s.announcer.bridges[id]?).all (fun b =>
        (s.announcer.backend.groups g).any (fun group =>
          group.registration == r && group.name == s.announcer.names b.name)))
    | _ => true
  | .publicNameChanged bridge .. | .retryPublicName bridge .. =>
    s.announcer.doing.all
      (fun p => (s.announcer.bridges[p.id]?).all (fun b => s.running bridge != some b.name))
  | _ => true

theorem settled_of_check (s : Naming) (e : NamingEvent) (h : settled s e = true) : Settled s e := by
  cases e with
  | takeEvent written =>
    intro g r name signals id b hsig hfor hb
    simp only [settled, hsig, hfor, hb, Option.all_some, Option.any_eq_true_iff_get,
      Bool.and_eq_true, beq_iff_eq] at h
    obtain ⟨hg, hr, hname⟩ := h
    exact ⟨_, (Option.some_get hg).symm, hr, hname⟩
  | publicNameChanged bridge configured announces written
  | retryPublicName bridge configured announces written =>
    intro p b hp hb
    simpa [settled, hp, hb] using h
  | _ => trivial

theorem collision_charged_next :
    ∃ s, Reach Naming.step Settled (Naming.start true) (sampleCollision ++ [.takeEvent true]) s ∧
      s.announcer.names 0 = "Attic (2)" ∧
      ¬ Meets Naming.step Mischarged (Naming.start true)
        (sampleCollision ++ [.takeEvent true]) := by
  have h : Reach Naming.step Settled (Naming.start true) (sampleCollision ++ [.takeEvent true]) _ :=
    reach_of_checked settled_of_check rfl
  exact ⟨_, h, rfl, collision_charged h⟩

/-- The bridge is named anew and announced so, in the same group, before the report
about its old name is handled. -/
def sampleStale : List NamingEvent :=
  sampleCollision ++
    [.publicNameChanged "ktbr0" "Cellar" true true, .sendLate 0, .takeCmd, .published {} true]

theorem stale_collision_renames :
    ∃ s, Runs Naming.step (Naming.start true) (sampleStale ++ [.takeEvent true]) s ∧
      s.announcer.names 0 = "Cellar (2)" ∧
      Meets Naming.step Mischarged (Naming.start true) (sampleStale ++ [.takeEvent true]) := by
  have hr : Runs Naming.step (Naming.start true) sampleStale _ := runs_of_foldlM rfl
  have hne : "Attic" ≠ "Cellar" := by decide
  exact ⟨_, runs_of_foldlM rfl, rfl,
    (meets_next hr).mpr (.inr ⟨"ktbr0", "Attic", _, rfl, rfl, hne⟩)⟩

end KissTncBridge.Proofs.Collisions
