import KissTncBridge.Proofs.EntryGroups

namespace KissTncBridge.Proofs.AnnouncerRefines
open Dnssd Lib EntryGroups
open Announce (Service)

variable {a a' a'' : Announcer} {m : Announce.Announcer}

/-- What of a bridge's entry decides which services are announced. -/
def entryOf (b : BridgeAnn) : Announce.BridgeAnn := ⟨b.configured, b.services⟩

def cmdOf : Cmd → Announce.Cmd
  | .bridge id configured _ => .bridge id configured
  | .forget id => .forget id
  | .up bridge port service => .up bridge port service
  | .down bridge port => .down bridge port

/-- The announcer that knows no names and groups has the same entries. -/
def Refines (a : Announcer) (m : Announce.Announcer) : Prop :=
  ∀ id : String, (a.bridges[id]?).map entryOf = m.bridges[id]?

def Stays (a a' : Announcer) : Prop :=
  ∀ id : String, (a'.bridges[id]?).map entryOf = (a.bridges[id]?).map entryOf

theorem Stays.refl (a : Announcer) : Stays a a := fun _ => rfl

theorem Stays.trans (h : Stays a a') (h' : Stays a' a'') : Stays a a'' :=
  fun id => (h' id).trans (h id)

theorem Refines.stays (h : Refines a m) (hs : Stays a a') : Refines a' m :=
  fun id => (hs id).trans (h id)

theorem stays_of_bridges (h : a'.bridges = a.bridges) : Stays a a' := by
  intro id
  rw [h]

theorem insert_stays {id : String} {b b' : BridgeAnn} (hb : a.bridges[id]? = some b)
    (he : entryOf b' = entryOf b) : Stays a (a.insert id b') := by
  intro k
  by_cases hk : id = k
  · subst hk
    rw [Announcer.insert, getElem?_insert_self, hb, Option.map_some, Option.map_some, he]
  · rw [Announcer.insert, getElem?_insert_ne hk]

theorem attempt_stays (a : Announcer) (id : String) (n : Nat) : Stays a (a.attempt id n) := by
  cases n with
  | zero => exact .refl a
  | succ n =>
    cases hb : a.bridges[id]? with
    | none =>
      simp only [Announcer.attempt, hb]
      exact .refl a
    | some b =>
      have hi : Stays a (a.insert id { b with group := none }) := insert_stays hb rfl
      simp only [Announcer.attempt, hb]
      split
      · exact hi.trans (stays_of_bridges (withdraw_bridges _ _))
      · exact hi

theorem sync_stays (a : Announcer) (id : String) : Stays a (a.sync id) := by
  unfold Announcer.sync
  split
  · exact attempt_stays a id 20
  · exact .refl a

theorem syncAll_stays (a : Announcer) (ids : List String) : Stays a (a.syncAll ids) := by
  induction ids generalizing a with
  | nil => exact .refl a
  | cons id ids ih =>
    simp only [Announcer.syncAll]
    split
    · exact sync_stays a id
    · exact (sync_stays a id).trans (ih _)

theorem synced_stays (a : Announcer) : Stays a a.synced := by
  have h : Stays a { a with todo := [] } := .refl a
  exact h.trans (syncAll_stays _ _)

theorem adjustName_stays {id : String} (h : a.adjustName id written = some a') : Stays a a' := by
  obtain ⟨b, -, he⟩ := Option.bind_eq_some_iff.mp h
  cases he
  exact .refl a

theorem onEvent_stays (a : Announcer) (written : Bool) (ev : Event) :
    Stays a (a.onEvent written ev) := by
  cases ev with
  | established g | failure g why => exact .refl a
  | collision g =>
    simp only [Announcer.onEvent]
    split
    · split
      · rename_i a' ha
        exact (adjustName_stays ha).trans (sync_stays a' _)
      · exact .refl a
    · exact .refl a
  | serverUp =>
    have h : Stays a { a with available := true } := .refl a
    exact h.trans (syncAll_stays _ _)
  | serverDown =>
    intro id
    simp only [Announcer.onEvent, Std.TreeMap.getElem?_map, Option.map_map]
    rfl

theorem published_stays (a : Announcer) (p : Publishing) (calls : Calls) (written : Bool) :
    Stays a (a.published p calls written) := by
  have hd : ∀ av, Stays a { a with backend := av, doing := none } := fun _ => .refl a
  unfold Announcer.published
  dsimp only
  split
  · split
    · rename_i b hb
      refine Stays.trans ?_ (synced_stays _)
      exact (hd _).trans (insert_stays (b := b) hb rfl)
    · exact (hd _).trans (synced_stays _)
  · split
    · rename_i a' ha
      have hatt := ((hd _).trans (adjustName_stays ha)).trans (attempt_stays a' p.id p.tries)
      split
      · exact hatt
      · exact hatt.trans (synced_stays _)
    · exact (hd _).trans (synced_stays _)
  · have hu : ∀ av, Stays a { a with backend := av, doing := none, available := false } :=
      fun _ => .refl a
    exact (hu _).trans (synced_stays _)
  · exact (hd _).trans (synced_stays _)

theorem Refines.insert {id : String} {b : BridgeAnn} (h : Refines a m) :
    Refines (a.insert id b) ⟨m.bridges.insert id (entryOf b)⟩ := by
  intro k
  by_cases hk : id = k
  · subst hk
    rw [Announcer.insert, getElem?_insert_self, getElem?_insert_self, Option.map_some]
  · rw [Announcer.insert, getElem?_insert_ne hk, getElem?_insert_ne hk]
    exact h k

/-- A command does to the entries what it does without names and groups. -/
theorem Refines.onCmd (h : Refines a m) (c : Cmd) : Refines (a.onCmd c) (m.onCmd (cmdOf c)) := by
  have hsome : ∀ (id : String) (b : BridgeAnn), a.bridges[id]? = some b →
      m.bridges[id]? = some (entryOf b) := by
    intro id b hb
    rw [← h id, hb, Option.map_some]
  have hnone : ∀ id : String, a.bridges[id]? = none → m.bridges[id]? = none := by
    intro id hb
    rw [← h id, hb, Option.map_none]
  cases c with
  | bridge id configured ch =>
    cases hb : a.bridges[id]? with
    | none =>
      simp only [Announcer.onCmd, Announce.Announcer.onCmd, cmdOf, hb, hnone id hb]
      exact h.insert
    | some b =>
      simp only [Announcer.onCmd, Announce.Announcer.onCmd, cmdOf, hb, hsome id b hb]
      exact h.insert.stays (sync_stays _ id)
  | forget id =>
    intro k
    simp only [Announcer.onCmd, Announce.Announcer.onCmd, cmdOf, withdraw_bridges]
    by_cases hk : id = k
    · subst hk
      rw [getElem?_erase_self, getElem?_erase_self, Option.map_none]
    · rw [getElem?_erase_ne hk, getElem?_erase_ne hk]
      exact h k
  | up bridge port service | down bridge port =>
    cases hb : a.bridges[bridge]? with
    | none =>
      simp only [Announcer.onCmd, Announce.Announcer.onCmd, Announce.Announcer.modify, cmdOf, hb,
        hnone bridge hb]
      exact h
    | some b =>
      simp only [Announcer.onCmd, Announce.Announcer.onCmd, Announce.Announcer.modify, cmdOf, hb,
        hsome bridge b hb]
      split
      · exact h.insert.stays (sync_stays _ bridge)
      · exact h.insert

def taken : AnnouncerEvent → List Announce.Cmd
  | .cmd c => [cmdOf c]
  | _ => []

/-- In every run the announcer has the bridges and services that its commands
alone have given it, whatever Avahi did meanwhile. -/
theorem announcer_refines (h : Runs Announcer.step (Announcer.new available state names) es a) :
    Refines a ((es.flatMap taken).foldl Announce.Announcer.onCmd .new) := by
  induction h with
  | start =>
    intro id
    simp [Announcer.new, Announce.Announcer.new]
  | @next es t e u _ _ hs ih =>
    rw [List.flatMap_append, List.foldl_append, List.flatMap_singleton]
    cases e with
    | cmd c =>
      simp only [Announcer.step] at hs
      split at hs
      · cases hs
      · cases hs
        exact ih.onCmd c
    | event ev written =>
      simp only [Announcer.step] at hs
      split at hs
      · cases hs
      · cases hs
        exact ih.stays (onEvent_stays t written ev)
    | published calls written =>
      obtain ⟨p, -, rfl⟩ := Option.map_eq_some_iff.mp hs
      exact ih.stays (published_stays t p calls written)
    | named name value =>
      cases hs
      exact ih
    | exits =>
      cases hs
      exact ih

end KissTncBridge.Proofs.AnnouncerRefines
