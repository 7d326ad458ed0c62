import KissTncBridge.Dnssd.Announcer
import KissTncBridge.Lib.Maps
import KissTncBridge.Lib.Ownership
import KissTncBridge.Lib.Runs

namespace KissTncBridge.Proofs.EntryGroups
open Dnssd Lib Conf
open Announce (Service)

variable {a a' : Announcer} {g : GroupId}

def heldBy (a : Announcer) (id : String) : Option GroupId := (a.bridges[id]?).bind BridgeAnn.group

def inHand (a : Announcer) : Option GroupId := a.doing.bind Publishing.group

def Alive (a : Announcer) (g : GroupId) : Prop := (a.backend.groups g).isSome = true

/-- Every group that is alive is with one bridge, or with the `publish` on its
way, and no path is given out twice. -/
structure Kept (a : Announcer) : Prop where
  owned : Owned (Alive a) (heldBy a) (inHand a)
  used : ∀ g, Alive a g ∨ inHand a = some g ∨ (∃ id, heldBy a id = some g) → g < a.backend.nextPath

/-- A `publish` on its way has the bridge's current name and services, and the
bridge has no group meanwhile. -/
def Underway (a : Announcer) : Prop :=
  ∀ p, a.doing = some p → ∃ b, a.bridges[p.id]? = some b ∧ b.group = none ∧
    p.name = a.names b.name ∧ p.services = distinct b.services

theorem addServices_cases (av : Avahi) (g : GroupId) (name : String) (services : List Service)
    (answers : List (Option PublishError)) (hg : av.groups g = some ⟨es, r⟩) :
    (∃ e, av.addServices g name services answers = (.error e, av.free g)) ∨
      av.addServices g name services answers =
        (.ok (), av.set g (some ⟨es ++ services.map (fun s => (name, s)), r⟩)) := by
  induction services generalizing av es answers with
  | nil =>
    right
    rw [Avahi.addServices, List.map_nil, List.append_nil, Avahi.set, ← hg, Function.update_eq_self]
  | cons s services ih =>
    simp only [Avahi.addServices]
    split
    · exact .inl ⟨_, rfl⟩
    · have hn : (av.set g
        ((av.groups g).map
          (fun group => { group with entries := group.entries ++ [(name, s)] }))).groups g =
          some ⟨es ++ [(name, s)], r⟩ := by simp [Avahi.set, hg]
      rcases ih _ answers.tail hn with ⟨e, he⟩ | he
      · left
        refine ⟨e, he.trans ?_⟩
        simp [Avahi.free, Avahi.set]
      · right
        rw [he]
        simp [Avahi.set]

inductive Opened (av : Avahi) : Option GroupId → GroupId → GroupId → Prop where
  | reset {k : GroupId} : (av.groups k).isSome = true → Opened av (some k) k av.nextPath
  | new : Opened av none av.nextPath (av.nextPath + 1)

theorem Opened.given {group : Option GroupId} {g next k : GroupId} (h : Opened av group g next)
    (hk : group = some k) : k = g := by
  cases h with
  | reset _ => exact (Option.some.inj hk).symm
  | new => cases hk

theorem Opened.le {group : Option GroupId} {g next : GroupId} (h : Opened av group g next) :
    av.nextPath ≤ next := by
  cases h with
  | reset _ => exact Nat.le_refl _
  | new => exact Nat.le_succ _

/-- What a `publish` can do: be refused at once, free the group it filled, or
leave exactly what it was asked for. -/
theorem publish_cases (av : Avahi) (group : Option GroupId) (name : String)
    (services : List Service) (calls : Calls) :
    (∃ e, av.publish group name services calls = (.error e, av) ∧
      ∀ g, group = some g → (av.groups g).isSome = true → calls.first.isSome = true) ∨
    ∃ g next, Opened av group g next ∧
      ((∃ e, av.publish group name services calls =
          (.error e, { av with groups := Function.update av.groups g none, nextPath := next })) ∨
        av.publish group name services calls = (.ok g,
          { groups := Function.update av.groups g
              (some ⟨services.map (fun s => (name, s)), some av.registrations⟩)
            nextPath := next
            registrations := av.registrations + 1 })) := by
  have hfill : ∀ av₁ g, av.openGroup group calls.first = (.ok g, av₁) →
      av₁.groups = Function.update av.groups g (some {}) → av₁.registrations = av.registrations →
      (∃ e, av.publish group name services calls = (.error e,
          { av with groups := Function.update av.groups g none, nextPath := av₁.nextPath })) ∨
        av.publish group name services calls = (.ok g,
          { groups := Function.update av.groups g
              (some ⟨services.map (fun s => (name, s)), some av.registrations⟩)
            nextPath := av₁.nextPath
            registrations := av.registrations + 1 }) := by
    intro av₁ g ho hg hr
    have hempty : av₁.groups g = some ⟨[], none⟩ := by rw [hg, Function.update_self]
    rcases addServices_cases av₁ g name services calls.addService hempty with ⟨e, he⟩ | he
    · left
      refine ⟨e, ?_⟩
      simp only [Avahi.publish, ho, he]
      simp [Avahi.free, Avahi.set, hg, ← hr]
    · cases hc : calls.commit with
      | some e =>
        left
        refine ⟨e, ?_⟩
        simp only [Avahi.publish, ho, he, Avahi.commit, hc]
        simp [Avahi.free, Avahi.set, hg, ← hr]
      | none =>
        right
        simp only [Avahi.publish, ho, he, Avahi.commit, hc]
        simp [Avahi.set, hg, ← hr]
  cases group with
  | some g =>
    cases hal : av.groups g with
    | some grp =>
      cases hf : calls.first with
      | some e =>
        left
        refine ⟨e, by simp [Avahi.publish, Avahi.openGroup, hal, hf], fun _ _ _ => rfl⟩
      | none =>
        right
        refine ⟨g, av.nextPath, .reset (by rw [hal]; rfl), ?_⟩
        exact hfill (av.set g (some {})) g (by simp [Avahi.openGroup, hal, hf]) rfl rfl
    | none =>
      left
      refine ⟨calls.first.getD (.other "no such entry group"), ?_, fun g' hg' hs => ?_⟩
      · cases hf : calls.first <;> simp [Avahi.publish, Avahi.openGroup, hal, hf]
      · cases hg'
        rw [hal] at hs
        cases hs
  | none =>
    cases hf : calls.first with
    | some e =>
      left
      exact ⟨e, by simp [Avahi.publish, Avahi.openGroup, hf], fun _ hg => by cases hg⟩
    | none =>
      right
      refine ⟨av.nextPath, av.nextPath + 1, .new, ?_⟩
      exact hfill { av.set av.nextPath (some {}) with nextPath := av.nextPath + 1 } av.nextPath
        (by simp [Avahi.openGroup, hf]) rfl rfl

@[simp] theorem withdraw_bridges (a : Announcer) (g : Option GroupId) :
    (a.withdraw g).bridges = a.bridges := by
  cases g <;> rfl

@[simp] theorem withdraw_doing (a : Announcer) (g : Option GroupId) :
    (a.withdraw g).doing = a.doing := by
  cases g <;> rfl

@[simp] theorem withdraw_names (a : Announcer) (g : Option GroupId) :
    (a.withdraw g).names = a.names := by
  cases g <;> rfl

@[simp] theorem withdraw_nextPath (a : Announcer) (g : Option GroupId) :
    (a.withdraw g).backend.nextPath = a.backend.nextPath := by
  cases g <;> rfl

/-- A group that is withdrawn is dead, the others are as before. -/
theorem withdraw_alive {go : Option GroupId} {k : GroupId} :
    Alive (a.withdraw go) k ↔ Alive a k ∧ go ≠ some k := by
  cases go with
  | none => simp [Announcer.withdraw]
  | some g =>
    by_cases hk : k = g
    · subst hk
      simp [Alive, Announcer.withdraw, Avahi.free, Avahi.set]
    · have hg : (some g : Option GroupId) ≠ some k := fun he => hk (Option.some.inj he).symm
      simp [Alive, Announcer.withdraw, Avahi.free, Avahi.set, Function.update_of_ne hk, hg]

theorem heldBy_of_bridges (hb : a'.bridges = a.bridges) : heldBy a' = heldBy a := by
  funext id
  rw [heldBy, heldBy, hb]

theorem heldBy_insert (a : Announcer) (id : String) (b : BridgeAnn) :
    heldBy (a.insert id b) = Function.update (heldBy a) id b.group := by
  funext k
  by_cases hk : k = id
  · subst hk
    rw [Function.update_self, heldBy, Announcer.insert, getElem?_insert_self, Option.bind_some]
  · rw [Function.update_of_ne hk, heldBy, heldBy, Announcer.insert, getElem?_insert_ne (Ne.symm hk)]

theorem heldBy_erase (a : Announcer) (id : String) :
    heldBy { a with bridges := a.bridges.erase id } = Function.update (heldBy a) id none := by
  funext k
  by_cases hk : k = id
  · subst hk
    rw [Function.update_self, heldBy, getElem?_erase_self, Option.bind_none]
  · rw [Function.update_of_ne hk, heldBy, heldBy, getElem?_erase_ne (Ne.symm hk)]

namespace Kept

theorem of_same (h : Kept a) (hg : a'.backend = a.backend) (hh : heldBy a' = heldBy a)
    (hi : inHand a' = inHand a) : Kept a' := by
  have ha : Alive a' = Alive a := by
    funext g
    rw [Alive, Alive, hg]
  refine ⟨?_, ?_⟩
  · rw [ha, hh, hi]
    exact h.owned
  · rw [ha, hh, hi, hg]
    exact h.used

/-- A bridge that keeps its group, or a new one without a group. -/
theorem insert {id : String} (h : Kept a) (hb : b.group = heldBy a id) : Kept (a.insert id b) := by
  refine h.of_same rfl ?_ rfl
  rw [heldBy_insert, hb, Function.update_eq_self]

/-- A bridge's group is taken, to be withdrawn at once. -/
theorem drop (h : Kept a) (hd : a.doing = none) (id : String)
    (hh : heldBy a' = Function.update (heldBy a) id none)
    (hg : a'.backend = a.backend) (hi : a'.doing = none) : Kept (a'.withdraw (heldBy a id)) := by
  have hnone : inHand a = none := by rw [inHand, hd]; rfl
  have hnone' : inHand (a'.withdraw (heldBy a id)) = none := by rw [inHand, withdraw_doing, hi]; rfl
  have hheld : heldBy (a'.withdraw (heldBy a id)) = Function.update (heldBy a) id none :=
    (heldBy_of_bridges (withdraw_bridges _ _)).trans hh
  have halive : ∀ k, Alive (a'.withdraw (heldBy a id)) k ↔ Alive a k ∧ heldBy a id ≠ some k := by
    intro k
    rw [withdraw_alive, Alive, Alive, hg]
  have ho := h.owned
  rw [hnone] at ho
  refine ⟨?_, ?_⟩
  · rw [hheld, hnone']
    refine ((ho.take id).fewer (fun k hk => ((halive k).mp hk).1)).letGo (fun k he hk => ?_)
    exact ((halive k).mp hk).2 he
  · intro k hk
    rw [withdraw_nextPath, hg]
    refine h.used k ?_
    rcases hk with hk | hk | ⟨j, hj⟩
    · exact .inl ((halive k).mp hk).1
    · rw [hnone'] at hk
      cases hk
    · rw [hheld] at hj
      by_cases he : j = id
      · rw [he, Function.update_self] at hj
        cases hj
      · rw [Function.update_of_ne he] at hj
        exact .inr (.inr ⟨j, hj⟩)

/-- A bridge's group is taken for a `publish`. -/
theorem take (h : Kept a) (hd : a.doing = none) (id : String)
    (hh : heldBy a' = Function.update (heldBy a) id none)
    (hg : a'.backend = a.backend) (hi : inHand a' = heldBy a id) : Kept a' := by
  have hnone : inHand a = none := by rw [inHand, hd]; rfl
  have ha : Alive a' = Alive a := by
    funext g
    rw [Alive, Alive, hg]
  have ho := h.owned
  rw [hnone] at ho
  refine ⟨?_, fun k hk => ?_⟩
  · rw [hh, hi, ha]
    exact ho.take id
  · rw [hg]
    refine h.used k ?_
    rw [ha, hh, hi] at hk
    rcases hk with hk | hk | ⟨j, hj⟩
    · exact .inl hk
    · exact .inr (.inr ⟨id, hk⟩)
    · by_cases he : j = id
      · rw [he, Function.update_self] at hj
        cases hj
      · rw [Function.update_of_ne he] at hj
        exact .inr (.inr ⟨j, hj⟩)

theorem attempt (h : Kept a) (hd : a.doing = none) (id : String) (n : Nat) :
    Kept (a.attempt id n) := by
  cases n with
  | zero => exact h
  | succ n =>
    cases hb : a.bridges[id]? with
    | none =>
      simp only [Announcer.attempt, hb]
      exact h
    | some b =>
      have hheld : heldBy a id = b.group := by rw [heldBy, hb, Option.bind_some]
      have hins : heldBy (a.insert id { b with group := none }) =
          Function.update (heldBy a) id none :=
        heldBy_insert a id _
      simp only [Announcer.attempt, hb]
      split
      · rw [← hheld]
        exact h.drop hd id hins rfl hd
      · exact h.take hd id hins rfl hheld.symm

theorem sync (h : Kept a) (hd : a.doing = none) (id : String) : Kept (a.sync id) := by
  unfold Announcer.sync
  split
  · exact h.attempt hd id 20
  · exact h

theorem syncAll (h : Kept a) (hd : a.doing = none) (ids : List String) : Kept (a.syncAll ids) := by
  induction ids generalizing a with
  | nil => exact h
  | cons id ids ih =>
    have hs := h.sync hd id
    simp only [Announcer.syncAll]
    split
    · exact hs.of_same rfl rfl rfl
    · rename_i hn
      exact ih hs (by simpa using hn)

theorem synced (h : Kept a) (hd : a.doing = none) : Kept a.synced := by
  have ht : Kept { a with todo := [] } := h.of_same rfl rfl rfl
  exact ht.syncAll hd a.todo

theorem adjustName {id : String} (h : Kept a) (ha : a.adjustName id written = some a') :
    Kept a' := by
  obtain ⟨b, -, he⟩ := Option.bind_eq_some_iff.mp ha
  cases he
  exact h.of_same rfl rfl rfl

theorem onCmd (h : Kept a) (hd : a.doing = none) (c : Cmd) : Kept (a.onCmd c) := by
  have hsync : ∀ (id : String) (b b' : BridgeAnn), a.bridges[id]? = some b → b'.group = b.group →
      Kept (a.insert id b') ∧ Kept ((a.insert id b').sync id) := by
    intro id b b' hb hg
    have hi : Kept (a.insert id b') := h.insert (by rw [hg, heldBy, hb, Option.bind_some])
    exact ⟨hi, hi.sync hd id⟩
  cases c with
  | bridge id configured name =>
    simp only [Announcer.onCmd]
    split
    · rename_i b hb
      exact (hsync id b { b with configured := configured, name := name } hb rfl).2
    · rename_i hb
      exact h.insert (by rw [heldBy, hb]; rfl)
  | forget id => exact h.drop hd id (heldBy_erase a id) rfl hd
  | up bridge port service =>
    simp only [Announcer.onCmd]
    split
    · exact h
    · rename_i b hb
      split
      · exact (hsync bridge b { b with services := b.services.insert port service } hb rfl).2
      · exact (hsync bridge b { b with services := b.services.insert port service } hb rfl).1
  | down bridge port =>
    simp only [Announcer.onCmd]
    split
    · exact h
    · rename_i b hb
      split
      · exact (hsync bridge b { b with services := b.services.erase port } hb rfl).2
      · exact (hsync bridge b { b with services := b.services.erase port } hb rfl).1

end Kept

theorem withdrawn_alive (groups : List (Option GroupId)) (a : Announcer) {k : GroupId}
    (h : Alive (groups.foldl Announcer.withdraw a) k) : Alive a k ∧ some k ∉ groups := by
  induction groups generalizing a with
  | nil => exact ⟨h, List.not_mem_nil⟩
  | cons g groups ih =>
    obtain ⟨ha, hn⟩ := ih _ h
    obtain ⟨ha, hg⟩ := withdraw_alive.mp ha
    refine ⟨ha, fun hm => ?_⟩
    rcases List.mem_cons.mp hm with he | hm
    · exact hg he.symm
    · exact hn hm

theorem withdrawn_same (groups : List (Option GroupId)) (a : Announcer) :
    (groups.foldl Announcer.withdraw a).doing = a.doing ∧
      (groups.foldl Announcer.withdraw a).names = a.names ∧
      (groups.foldl Announcer.withdraw a).backend.nextPath = a.backend.nextPath := by
  induction groups generalizing a with
  | nil => exact ⟨rfl, rfl, rfl⟩
  | cons g groups ih =>
    obtain ⟨hd, hn, hp⟩ := ih (a.withdraw g)
    exact ⟨hd.trans (withdraw_doing a g), hn.trans (withdraw_names a g),
      hp.trans (withdraw_nextPath a g)⟩

/-- When Avahi goes, every group is withdrawn. -/
theorem Kept.serverDown (h : Kept a) (hd : a.doing = none) (written : Bool) :
    Kept (a.onEvent written .serverDown) := by
  have hnone : inHand a = none := by rw [inHand, hd]; rfl
  have hdoing := withdrawn_same (a.bridges.toList.map (fun p => p.2.group)) a
  have hheld : ∀ id, heldBy (a.onEvent written .serverDown) id = none := by
    intro id
    simp only [heldBy, Announcer.onEvent, Std.TreeMap.getElem?_map]
    cases a.bridges[id]? <;> rfl
  have hhand : inHand (a.onEvent written .serverDown) = none := by
    show Option.bind (List.foldl Announcer.withdraw a _).doing _ = none
    rw [hdoing.1, hd]
    rfl
  have hdead : ∀ k, ¬ Alive (a.onEvent written .serverDown) k := by
    intro k hk
    obtain ⟨ha, hn⟩ := withdrawn_alive _ a hk
    rcases h.owned.kept k ha with hi | ⟨id, hid⟩
    · rw [hnone] at hi
      cases hi
    · obtain ⟨b, hb, hg⟩ := Option.bind_eq_some_iff.mp hid
      exact hn (List.mem_map.mpr ⟨(id, b), Std.TreeMap.mem_toList_iff_getElem?_eq_some.mpr hb, hg⟩)
  refine ⟨⟨fun k hk => absurd hk (hdead k), fun k i j hi => ?_, fun k i hi => ?_⟩, fun k hk => ?_⟩
  · rw [hheld i] at hi
    cases hi
  · rw [hhand] at hi
    cases hi
  · rcases hk with hk | hk | ⟨i, hi⟩
    · exact absurd hk (hdead k)
    · rw [hhand] at hk
      cases hk
    · rw [hheld i] at hi
      cases hi

theorem Kept.onEvent (h : Kept a) (hd : a.doing = none) (written : Bool) (ev : Event) :
    Kept (a.onEvent written ev) := by
  cases ev with
  | established g | failure g why => exact h
  | collision g =>
    simp only [Announcer.onEvent]
    split
    · split
      · rename_i id _ _ a' ha
        have hd' : a'.doing = none := by
          obtain ⟨b, -, he⟩ := Option.bind_eq_some_iff.mp ha
          cases he
          exact hd
        exact (h.adjustName ha).sync hd' id
      · exact h
    · exact h
  | serverUp =>
    have hup : Kept { a with available := true } := h.of_same rfl rfl rfl
    exact hup.syncAll hd _
  | serverDown => exact h.serverDown hd written

/-- `Reset` succeeds on a group that is alive, and a bridge keeps its name while a
`publish` of it is under way. -/
def KeepsGroup (a : Announcer) : AnnouncerEvent → Prop
  | .published calls _ => ∀ p g, a.doing = some p → p.group = some g → Alive a g →
    calls.first = none
  | .named name value => ∀ p b, a.doing = some p → a.bridges[p.id]? = some b → b.name = name →
      value = a.names name
  | .cmd _ | .event .. | .exits => True

/-- A `publish` that failed took the group with it. -/
theorem Kept.failed (h : Kept a) (hp : a.doing = some p)
    (hk : KeepsGroup a (.published calls written))
    (hpub : a.backend.publish p.group p.name p.services calls = (.error e, backend')) :
    Kept { a with backend := backend', doing := none } := by
  have hhand : inHand a = p.group := by rw [inHand, hp]; rfl
  have howned := h.owned
  rw [hhand] at howned
  rcases publish_cases a.backend p.group p.name p.services calls with
    ⟨e', he, hfirst⟩ | ⟨g, next, ho, ⟨e', he⟩ | he⟩
  · obtain ⟨-, rfl⟩ := Prod.mk.inj (he.symm.trans hpub)
    refine ⟨?_, fun k hk' => h.used k ?_⟩
    · refine howned.letGo (fun k hk' ha => ?_)
      have hnone := hk p k hp hk' ha
      rw [hnone] at hfirst
      exact absurd (hfirst k hk' ha) Bool.false_ne_true
    · rcases hk' with hk' | hk' | hk'
      · exact .inl hk'
      · cases hk'
      · exact .inr (.inr hk')
  · obtain ⟨-, rfl⟩ := Prod.mk.inj (he.symm.trans hpub)
    have halive : ∀ k,
      Alive { a with backend := { a.backend with
        groups := Function.update a.backend.groups g none, nextPath := next }, doing := none } k →
        Alive a k ∧ k ≠ g := by
      intro k hk'
      by_cases hkg : k = g
      · subst hkg
        simp [Alive] at hk'
      · simp only [Alive, Function.update_of_ne hkg] at hk'
        exact ⟨hk', hkg⟩
    refine ⟨?_, fun k hk' => ?_⟩
    · refine (howned.fewer (fun k hk' => (halive k hk').1)).letGo (fun k hk' ha => ?_)
      exact (halive k ha).2 (ho.given hk')
    · refine Nat.lt_of_lt_of_le (h.used k ?_) ho.le
      rcases hk' with hk' | hk' | hk'
      · exact .inl (halive k hk').1
      · cases hk'
      · exact .inr (.inr hk')
  · cases (Prod.mk.inj (he.symm.trans hpub)).1

theorem Underway.of_none (h : a.doing = none) : Underway a := by
  intro p hp
  rw [h] at hp
  cases hp

theorem attempt_underway (hd : a.doing = none) (id : String) (n : Nat) :
    Underway (a.attempt id n) := by
  cases n with
  | zero => exact .of_none hd
  | succ n =>
    cases hb : a.bridges[id]? with
    | none =>
      simp only [Announcer.attempt, hb]
      exact .of_none hd
    | some b =>
      simp only [Announcer.attempt, hb]
      split
      · refine .of_none ?_
        rw [withdraw_doing]
        exact hd
      · intro p hp
        cases hp
        refine ⟨{ b with group := none }, ?_, rfl, rfl, rfl⟩
        exact getElem?_insert_self _ _ _

theorem sync_underway (hd : a.doing = none) (id : String) : Underway (a.sync id) := by
  unfold Announcer.sync
  split
  · exact attempt_underway hd id 20
  · exact .of_none hd

theorem syncAll_underway (hd : a.doing = none) (ids : List String) : Underway (a.syncAll ids) := by
  induction ids generalizing a with
  | nil => exact .of_none hd
  | cons id ids ih =>
    simp only [Announcer.syncAll]
    split
    · exact sync_underway hd id
    · rename_i hn
      exact ih (by simpa using hn)

theorem synced_underway (hd : a.doing = none) : Underway a.synced := by
  refine syncAll_underway ?_ _
  exact hd

theorem adjustName_doing {id : String} (ha : a.adjustName id written = some a') :
    a'.doing = a.doing := by
  obtain ⟨b, -, he⟩ := Option.bind_eq_some_iff.mp ha
  cases he
  rfl

theorem onCmd_underway (hd : a.doing = none) (c : Cmd) : Underway (a.onCmd c) := by
  cases c with
  | bridge id configured name =>
    simp only [Announcer.onCmd]
    split
    · refine sync_underway ?_ id
      exact hd
    · exact .of_none hd
  | forget id =>
    refine .of_none ?_
    simp only [Announcer.onCmd, withdraw_doing]
    exact hd
  | up bridge port service | down bridge port =>
    simp only [Announcer.onCmd]
    split
    · exact .of_none hd
    · split
      · refine sync_underway ?_ bridge
        exact hd
      · exact .of_none hd

theorem onEvent_underway (hd : a.doing = none) (written : Bool) (ev : Event) :
    Underway (a.onEvent written ev) := by
  cases ev with
  | established g | failure g why => exact .of_none hd
  | collision g =>
    simp only [Announcer.onEvent]
    split
    · split
      · rename_i ha
        exact sync_underway ((adjustName_doing ha).trans hd) _
      · exact .of_none hd
    · exact .of_none hd
  | serverUp =>
    refine syncAll_underway ?_ _
    exact hd
  | serverDown => exact .of_none ((withdrawn_same _ a).1.trans hd)

theorem published_underway (a : Announcer) (p : Publishing) (calls : Calls) (written : Bool) :
    Underway (a.published p calls written) := by
  unfold Announcer.published
  dsimp only
  split
  · split <;> exact synced_underway rfl
  · split
    · rename_i a' ha
      split
      · exact attempt_underway (adjustName_doing ha) _ _
      · rename_i hn
        exact synced_underway (by simpa using hn)
    · exact synced_underway rfl
  · exact synced_underway rfl
  · exact synced_underway rfl

/-- What a `publish` that succeeded leaves, before the next bridge is synced. -/
theorem published_ok (hu : Underway a) (hp : a.doing = some p)
    (hpub : a.backend.publish p.group p.name p.services calls = (.ok g, backend')) :
    ∃ b, a.bridges[p.id]? = some b ∧ b.group = none ∧
      a.published p calls written =
        ({ a with backend := backend', doing := none }.insert p.id
          { b with group := some g }).synced ∧
      backend'.groups g = some ⟨(distinct b.services).map (fun s => (a.names b.name, s)),
          some a.backend.registrations⟩ := by
  obtain ⟨b, hb, hg, hname, hservices⟩ := hu p hp
  refine ⟨b, hb, hg, ?_, ?_⟩
  · simp only [Announcer.published, hpub, hb]
  · rcases publish_cases a.backend p.group p.name p.services calls with
      ⟨_, he, _⟩ | ⟨k, next, _, ⟨_, he⟩ | he⟩
    · cases (Prod.mk.inj (he.symm.trans hpub)).1
    · cases (Prod.mk.inj (he.symm.trans hpub)).1
    · obtain ⟨hk, rfl⟩ := Prod.mk.inj (he.symm.trans hpub)
      cases hk
      simp [hname, hservices]

/-- A `publish` that succeeded puts its group with the bridge. -/
theorem Kept.filled (h : Kept a) (hu : Underway a) (hp : a.doing = some p)
    (hpub : a.backend.publish p.group p.name p.services calls = (.ok g, backend')) (b : BridgeAnn) :
    Kept ({ a with backend := backend', doing := none }.insert p.id
      { b with group := some g }) := by
  have hhand : inHand a = p.group := by rw [inHand, hp]; rfl
  have hnone : heldBy a p.id = none := by
    obtain ⟨b', hb, hg, -⟩ := hu p hp
    rw [heldBy, hb, Option.bind_some, hg]
  have howned := h.owned
  rw [hhand] at howned
  rcases publish_cases a.backend p.group p.name p.services calls with
    ⟨_, he, _⟩ | ⟨k, next, ho, ⟨_, he⟩ | he⟩
  · cases (Prod.mk.inj (he.symm.trans hpub)).1
  · cases (Prod.mk.inj (he.symm.trans hpub)).1
  · obtain ⟨hk, rfl⟩ := Prod.mk.inj (he.symm.trans hpub)
    obtain rfl : k = g := Except.ok.inj hk
    generalize hentries :
      (some ⟨p.services.map (fun s => (p.name, s)), some a.backend.registrations⟩ : Option Group) =
      entries
    have halive : ∀ x, (Function.update a.backend.groups k entries x).isSome = true →
        Alive a x ∨ x = k := by
      intro x hx
      by_cases hxk : x = k
      · exact .inr hxk
      · rw [Function.update_of_ne hxk] at hx
        exact .inl hx
    have hk : Owned (fun x => (Function.update a.backend.groups k entries x).isSome = true)
        (heldBy a) (some k) := by
      generalize hgroup : p.group = group at ho howned
      cases ho with
      | reset hal =>
        refine howned.fewer (fun x hx => (halive x hx).elim (fun hx => hx) (fun he => ?_))
        subst he
        exact hal
      | new =>
        refine howned.gain (fun i hi => ?_) halive
        exact Nat.lt_irrefl _ (h.used _ (.inr (.inr ⟨i, hi⟩)))
    refine ⟨?_, fun x hx => ?_⟩
    · rw [heldBy_insert]
      exact hk.put hnone
    · rw [heldBy_insert] at hx
      have hlt : k < next := by
        generalize hgroup : p.group = group at ho
        cases ho with
        | reset hal => exact h.used k (.inl hal)
        | new => exact Nat.lt_succ_self _
      have hold : Alive a x ∨ (∃ i, heldBy a i = some x) → x < next := by
        intro hx
        refine Nat.lt_of_lt_of_le (h.used x ?_) ho.le
        rcases hx with hx | hx
        · exact .inl hx
        · exact .inr (.inr hx)
      show x < next
      rcases hx with hx | hx | ⟨i, hi⟩
      · rcases halive x hx with hx | rfl
        · exact hold (.inl hx)
        · exact hlt
      · cases hx
      · by_cases hip : i = p.id
        · rw [hip, Function.update_self] at hi
          cases hi
          exact hlt
        · rw [Function.update_of_ne hip] at hi
          exact hold (.inr ⟨i, hi⟩)

theorem Kept.published (h : Kept a) (hu : Underway a) (hp : a.doing = some p)
    (hk : KeepsGroup a (.published calls written)) : Kept (a.published p calls written) := by
  cases hres : a.backend.publish p.group p.name p.services calls with
  | mk res backend' =>
    cases res with
    | ok g =>
      obtain ⟨b, hb, -, hpub, -⟩ := published_ok hu hp hres
      rw [hpub]
      exact (h.filled hu hp hres b).synced rfl
    | error e =>
      have hf := h.failed hp hk hres
      simp only [Announcer.published, hres]
      cases e with
      | collision =>
        dsimp only
        split
        · rename_i a' ha
          have hadj : Kept a' := hf.adjustName ha
          have hd : a'.doing = none := adjustName_doing ha
          have hatt := hadj.attempt hd p.id p.tries
          split
          · exact hatt
          · rename_i hn
            exact hatt.synced (by simpa using hn)
        · exact hf.synced rfl
      | unavailable why =>
        have hav : Kept { a with backend := backend', doing := none, available := false } :=
          hf.of_same rfl rfl rfl
        exact hav.synced rfl
      | other why => exact hf.synced rfl

theorem step_kept (h : Kept a) (hu : Underway a) (hk : KeepsGroup a e) (hs : a.step e = some a') :
    Kept a' ∧ Underway a' := by
  cases e with
  | cmd c =>
    simp only [Announcer.step] at hs
    split at hs
    · cases hs
    · rename_i hd
      have hd : a.doing = none := by simpa using hd
      cases hs
      exact ⟨h.onCmd hd c, onCmd_underway hd c⟩
  | event ev written =>
    simp only [Announcer.step] at hs
    split at hs
    · cases hs
    · rename_i hd
      have hd : a.doing = none := by simpa using hd
      cases hs
      exact ⟨h.onEvent hd written ev, onEvent_underway hd written ev⟩
  | published calls written =>
    obtain ⟨p, hp, rfl⟩ := Option.map_eq_some_iff.mp hs
    exact ⟨h.published hu hp hk, published_underway a p calls written⟩
  | named name value =>
    cases hs
    refine ⟨h.of_same rfl rfl rfl, fun p hp => ?_⟩
    obtain ⟨b, hb, hg, hname, hservices⟩ := hu p hp
    refine ⟨b, hb, hg, ?_, hservices⟩
    by_cases hn : b.name = name
    · have hv : value = a.names name := hk p b hp hb hn
      rw [hname, hv, Function.update_eq_self]
    · rw [hname]
      exact (Function.update_of_ne hn value a.names).symm
  | exits =>
    cases hs
    refine ⟨⟨⟨fun k hk => ?_, h.owned.one, h.owned.apart⟩, fun k hk => h.used k ?_⟩, hu⟩
    · cases hk
    · rcases hk with hk | hk
      · cases hk
      · exact .inr hk

theorem new_kept (available : Bool) (state : State) (names : Nat → String) :
    Kept (Announcer.new available state names) ∧
    Underway (Announcer.new available state names) := by
  have hheld : ∀ id, heldBy (Announcer.new available state names) id = none := by
    intro id
    simp [heldBy, Announcer.new]
  refine ⟨⟨⟨fun k hk => ?_, fun k i j hi => ?_, fun k i hi => ?_⟩, fun k hk => ?_⟩, .of_none rfl⟩
  · cases hk
  · rw [hheld i] at hi
    cases hi
  · cases hi
  · rcases hk with hk | hk | ⟨i, hi⟩
    · cases hk
    · cases hk
    · rw [hheld i] at hi
      cases hi

/-- While `Reset` never fails on a group that is alive and no name is put during a
`publish` of its bridge, no entry group is leaked: between two commands each that is
alive is with exactly one bridge, and a `publish` that succeeds leaves the bridge a
group that holds exactly its current name with its distinct services. -/
theorem groups_kept
    (h : Reach Announcer.step KeepsGroup (Announcer.new available state names) es a) :
    (a.doing = none → ∀ g, (a.backend.groups g).isSome = true → ∃! id, heldBy a id = some g) ∧
    ∀ p calls written g backend', a.doing = some p →
      a.backend.publish p.group p.name p.services calls = (.ok g, backend') →
      ∃ b a', a.bridges[p.id]? = some b ∧ a.published p calls written = a'.synced ∧
      heldBy a' p.id = some g ∧
        (a'.backend.groups g).map Group.entries =
          some ((distinct b.services).map (fun s => (a'.names b.name, s))) := by
  obtain ⟨hk, hu⟩ : Kept a ∧ Underway a := by
    obtain ⟨hn, hnu⟩ := new_kept available state names
    exact h.invariant ⟨hn, hnu⟩ (fun _ _ _ hi hok hs => step_kept hi.1 hi.2 hok hs)
  constructor
  · intro hd g hg
    have howned := hk.owned
    rw [inHand, hd] at howned
    exact howned.owner hg
  · intro p calls written g backend' hp hpub
    obtain ⟨b, hb, -, hres, hgroup⟩ := published_ok hu hp hpub
    refine ⟨b, _, hb, hres, ?_, ?_⟩
    · rw [heldBy_insert, Function.update_self]
    · show (backend'.groups g).map Group.entries = _
      rw [hgroup]
      rfl

/-- A port comes up, and then another one of the same bridge. -/
def sampleService (port : UInt16) : Service := ⟨port, .any, .v4⟩

def samplePorts (first : Option PublishError) : List AnnouncerEvent :=
  [.cmd (.bridge "ktbr0" "Attic" 0), .cmd (.up "ktbr0" "apps" (sampleService 8001)),
    .published {} true,
   .cmd (.up "ktbr0" "more" (sampleService 8002)), .published { first := first } true]

/-- The first call of a `publish` succeeds, whatever it is, and no name is put while
one is under way. -/
def firstSucceeds : Announcer → AnnouncerEvent → Bool
  | _, .published calls _ => calls.first.isNone
  | a, .named .. => a.doing.isNone
  | _, _ => true

theorem keepsGroup_of_check (a : Announcer) (e : AnnouncerEvent)
    (h : firstSucceeds a e = true) : KeepsGroup a e := by
  cases e with
  | published calls written => exact fun _ _ _ _ _ => Option.isNone_iff_eq_none.mp h
  | named name value =>
    intro p b hp
    have hnone : a.doing.isNone = true := h
    rw [hp] at hnone
    cases hnone
  | cmd c | event ev written | exits => trivial

theorem groups_kept_ports :
    ∃ a, Reach Announcer.step KeepsGroup (Announcer.new true .empty (fun _ => "Attic"))
      (samplePorts none) a ∧
      a.doing = none ∧ (a.backend.groups 0).isSome = true ∧ ∃! id, heldBy a id = some 0 := by
  have h : Reach Announcer.step KeepsGroup (Announcer.new true .empty (fun _ => "Attic"))
      (samplePorts none) _ :=
    reach_of_checked keepsGroup_of_check rfl
  exact ⟨_, h, rfl, rfl, (groups_kept h).1 rfl 0 rfl⟩

/-- `Reset` fails, and the group with the first port goes on being announced with
no bridge that has it. -/
theorem failed_reset_leaks :
    ∃ a, Runs Announcer.step (Announcer.new true .empty (fun _ => "Attic"))
        (samplePorts (some (.other "org.freedesktop.DBus.Error.NoReply"))) a ∧
      a.doing = none ∧ a.backend.groups 0 = some ⟨[("Attic", sampleService 8001)], some 0⟩ ∧
      ¬ ∃ id, heldBy a id = some 0 := by
  refine ⟨_, runs_of_foldlM rfl, rfl, rfl, ?_⟩
  intro ⟨id, hid⟩
  obtain ⟨b, hb, hg⟩ := Option.bind_eq_some_iff.mp hid
  have hm := Std.TreeMap.mem_toList_iff_getElem?_eq_some.mpr hb
  have hnone : b.group = none := congrArg (fun p => p.2.group) (List.mem_singleton.mp hm)
  rw [hnone] at hg
  cases hg

-- A name put meanwhile: the `publish` leaves the name it was called with.
example : ([.cmd (.bridge "ktbr0" "Attic" 0), .cmd (.up "ktbr0" "apps" (sampleService 8001)),
      .named 0 "Porch", .published {} true].foldlM Announcer.step
        (Announcer.new true .empty (fun _ => "Attic"))).map
      (fun a => (a.names 0, (a.backend.groups 0).map Group.entries)) =
    some ("Porch", some [("Attic", sampleService 8001)]) := rfl

end KissTncBridge.Proofs.EntryGroups
