import KissTncBridge.Lib.Custody
import KissTncBridge.Proofs.AppPortSteps
import KissTncBridge.Proofs.StaleLinks

namespace KissTncBridge.Proofs.SessionOrder
open Lib Conf Bridge KissTncBridge.Port Supervisor Supervisor.AppPorts StaleLinks BridgeSteps
  AppPortSteps

variable {s s' : Sys} {net : IpNetLib}

theorem token_injective {o o' : Owner} (h : o.token = o'.token) : o = o' := by
  cases o with
  | tcp task =>
    cases o' with
    | tcp task' =>
      simp only [Owner.token] at h
      rw [Nat.mul_left_cancel (by decide) h]
    | ble server generation =>
      simp only [Owner.token] at h
      omega
  | ble server generation =>
    cases o' with
    | tcp task' =>
      simp only [Owner.token] at h
      omega
    | ble server' generation' =>
      simp only [Owner.token] at h
      obtain ⟨hs, hg⟩ :=
        Nat.pair_eq_pair.mp (by omega : Nat.pair server generation = Nat.pair server' generation')
      rw [hs, hg]

/-- The bridge has been told of a session under `id`, and not yet that it is
over. -/
inductive Owes (s : Sys) (sid : SessionId) : Owner → Prop where
  | tcp {task : Nat} {t : TcpSession} : s.sessions[task]? = some t → t.owes = true → t.id = sid →
      Owes s sid (.tcp task)
  | ble {server : Nat} {p : BleServerPort} {addr : Mac} {generation : Nat} :
      s.ble[server]? = some p → p.owes addr = some generation → p.sessionId addr = sid →
      Owes s sid (.ble server generation)

def note (sid : SessionId) (m : Mail) : Option (Note Nat) :=
  match m.event with
  | .sessionOpened other _ kick => if other = sid then some (.takes kick) else none
  | .sessionClosed other => if other = sid then some (.gives m.sender) else none
  | .frame .. => none

def notes (sid : SessionId) (queue : List Mail) : List (Note Nat) := queue.filterMap (note sid)

/-- Whoever is registered under an id, the events on their way hand the place
on in turn, and in the end it is held by the session that still owes its
close. -/
def Passing (s : Sys) : Prop :=
  ∀ sid, ∃ h, Passes (s.registered sid) (notes sid s.queue) h ∧
    ∀ k, h = some k ↔ ∃ o, Owes s sid o ∧ o.token = k

/-- A port that is telling the bridge of a phone has it among its clients, one
that is telling it that a phone has gone has not. -/
def Settled (p : BleServerPort) : Prop :=
  match p.doing with
  | .opening addr generation => p.clients.lookup addr = some generation
  | .closing addr _ => p.clients.lookup addr = none
  | .waiting | .leaving => True

structure Ordered (s : Sys) : Prop where
  passing : Passing s
  settled : ∀ p ∈ s.ble, Settled p
  tcp : ∀ t ∈ s.sessions, ∃ addr, t.id.peer = .tcp addr

/-- The bridge is told of a session only once nobody else has still to tell it
that a session under the same id is over. Within one `ble-server` task its loop
sees to that. -/
def Orderly (s : Sys) : Step → Prop
  | .tcp (.opens task) => ∀ (t u : TcpSession) (other : Nat), s.sessions[task]? = some t →
      s.sessions[other]? = some u → u.id = t.id → u.owes = false
  | .ble (.opens server) => ∀ (p q : BleServerPort) addr generation (other : Nat),
      s.ble[server]? = some p →
      p.doing = .opening addr generation → other ≠ server → s.ble[other]? = some q →
      q.portId = p.portId → q.owes addr = none
  | _ => True

theorem Passing.same (h : Passing s) (hr : ∀ sid, s'.registered sid = s.registered sid)
    (hq : ∀ sid, notes sid s'.queue = notes sid s.queue)
    (ho : ∀ sid o, Owes s' sid o ↔ Owes s sid o) : Passing s' := by
  intro sid
  obtain ⟨last, hp, hl⟩ := h sid
  refine ⟨last, ?_, ?_⟩
  · rw [hr, hq]
    exact hp
  · intro k
    simp only [ho]
    exact hl k

/-- A session is announced to the bridge while nobody owes a close under its
id. -/
theorem Passing.opens {o : Owner} (h : Passing s) (hr : ∀ sid, s'.registered sid = s.registered sid)
    (hq : s'.queue = s.queue ++ [⟨m, .sessionOpened sid tx o.token⟩]) (hn : ∀ o, ¬ Owes s sid o)
    (ho : ∀ other o', Owes s' other o' ↔ Owes s other o' ∨ (other = sid ∧ o' = o)) :
    Passing s' := by
  intro other
  obtain ⟨last, hp, hl⟩ := h other
  by_cases he : other = sid
  · subst he
    have hlast : last = none := by
      cases last with
      | none => rfl
      | some k =>
        obtain ⟨o', ho', _⟩ := (hl k).mp rfl
        exact absurd ho' (hn o')
    subst hlast
    refine ⟨some o.token, ?_, fun k => ?_⟩
    · rw [hr, hq]
      have hnote : notes other (s.queue ++ [⟨m, .sessionOpened other tx o.token⟩]) =
          notes other s.queue ++ [.takes o.token] := by
        simp [notes, note, List.filterMap_append]
      rw [hnote]
      exact hp.snoc_takes _
    · constructor
      · intro hk
        exact ⟨o, (ho _ _).mpr (.inr ⟨rfl, rfl⟩), Option.some.inj hk⟩
      · rintro ⟨o', ho', rfl⟩
        rcases (ho _ _).mp ho' with ho' | ⟨_, rfl⟩
        · exact absurd ho' (hn o')
        · rfl
  · refine ⟨last, ?_, fun k => ?_⟩
    · rw [hr, hq]
      have hnote : notes other (s.queue ++ [⟨m, .sessionOpened sid tx o.token⟩]) =
          notes other s.queue := by
        simp [notes, note, List.filterMap_append, Ne.symm he]
      rw [hnote]
      exact hp
    · rw [hl k]
      simp only [ho, he, false_and, or_false]

/-- A session that owes its close sends it. -/
theorem Passing.closes {o : Owner} (h : Passing s)
    (hr : ∀ sid, s'.registered sid = s.registered sid)
    (hq : s'.queue = s.queue ++ [⟨o.token, .sessionClosed sid⟩]) (howes : Owes s sid o)
    (ho : ∀ other o', Owes s' other o' ↔ Owes s other o' ∧ ¬(other = sid ∧ o' = o)) :
    Passing s' := by
  intro other
  obtain ⟨last, hp, hl⟩ := h other
  by_cases he : other = sid
  · subst he
    have hlast : last = some o.token := (hl _).mpr ⟨o, howes, rfl⟩
    subst hlast
    refine ⟨none, ?_, fun k => ?_⟩
    · rw [hr, hq]
      have hnote : notes other (s.queue ++ [⟨o.token, .sessionClosed other⟩]) =
          notes other s.queue ++ [.gives o.token] := by
        simp [notes, note, List.filterMap_append]
      rw [hnote]
      exact hp.snoc_gives
    · constructor
      · intro hk
        cases hk
      · rintro ⟨o', ho', hk⟩
        obtain ⟨ho', hne⟩ := (ho _ _).mp ho'
        have htoken := Option.some.inj ((hl _).mpr ⟨o', ho', rfl⟩)
        exact absurd ⟨rfl, (token_injective htoken).symm⟩ hne
  · refine ⟨last, ?_, fun k => ?_⟩
    · rw [hr, hq]
      have hnote : notes other (s.queue ++ [⟨o.token, .sessionClosed sid⟩]) =
          notes other s.queue := by
        simp [notes, note, List.filterMap_append, Ne.symm he]
      rw [hnote]
      exact hp
    · rw [hl k]
      simp only [ho, he, false_and, not_false_eq_true, and_true]

theorem owes_tcp_set {t t' : TcpSession} (ht : s.sessions[task]? = some t)
    (hs : s'.sessions = s.sessions.set task t') (hb : s'.ble = s.ble) :
    Owes s' sid o ↔ (o = .tcp task ∧ t'.owes = true ∧ t'.id = sid) ∨
    (o ≠ .tcp task ∧ Owes s sid o) := by
  have hlt : task < s.sessions.length := (List.getElem?_eq_some_iff.mp ht).1
  constructor
  · intro h
    cases h with
    | @tcp other u hu ho hid =>
      by_cases he : other = task
      · subst he
        rw [hs, List.getElem?_set_self hlt] at hu
        cases hu
        exact .inl ⟨rfl, ho, hid⟩
      · rw [hs, List.getElem?_set_ne (Ne.symm he)] at hu
        exact .inr ⟨fun h => he (Owner.tcp.inj h), .tcp hu ho hid⟩
    | ble hp hg hid =>
      rw [hb] at hp
      exact .inr ⟨Owner.noConfusion, .ble hp hg hid⟩
  · rintro (⟨rfl, ho, hid⟩ | ⟨hne, h⟩)
    · refine .tcp ?_ ho hid
      rw [hs, List.getElem?_set_self hlt]
    · cases h with
      | @tcp other u hu ho hid =>
        refine .tcp ?_ ho hid
        rw [hs, List.getElem?_set_ne (fun he => hne (congrArg Owner.tcp he.symm))]
        exact hu
      | ble hp hg hid =>
        refine .ble ?_ hg hid
        rw [hb]
        exact hp

theorem owes_ble_set {p p' : BleServerPort} (hp : s.ble[server]? = some p)
    (hb : s'.ble = s.ble.set server p') (hs : s'.sessions = s.sessions) :
    Owes s' sid o ↔
    (∃ addr generation, o = .ble server generation ∧ p'.owes addr = some generation ∧
        p'.sessionId addr = sid) ∨ ((∀ generation, o ≠ .ble server generation) ∧ Owes s sid o) := by
  have hlt : server < s.ble.length := (List.getElem?_eq_some_iff.mp hp).1
  constructor
  · intro h
    cases h with
    | tcp hu ho hid =>
      rw [hs] at hu
      exact .inr ⟨fun _ => Owner.noConfusion, .tcp hu ho hid⟩
    | @ble other q addr generation hq hg hid =>
      by_cases he : other = server
      · subst he
        rw [hb, List.getElem?_set_self hlt] at hq
        cases hq
        exact .inl ⟨addr, generation, rfl, hg, hid⟩
      · rw [hb, List.getElem?_set_ne (Ne.symm he)] at hq
        exact .inr ⟨fun g h => he (Owner.ble.inj h).1, .ble hq hg hid⟩
  · rintro (⟨addr, generation, rfl, hg, hid⟩ | ⟨hne, h⟩)
    · refine .ble ?_ hg hid
      rw [hb, List.getElem?_set_self hlt]
    · cases h with
      | tcp hu ho hid =>
        refine .tcp ?_ ho hid
        rw [hs]
        exact hu
      | @ble other q addr generation hq hg hid =>
        refine .ble ?_ hg hid
        rw [hb, List.getElem?_set_ne (fun he => hne generation (by rw [he]))]
        exact hq

/-- A session or a port that owes the same as before. -/
theorem owes_tcp_same {t t' : TcpSession} (ht : s.sessions[task]? = some t)
    (hs : s'.sessions = s.sessions.set task t') (hb : s'.ble = s.ble) (ho : t'.owes = t.owes)
    (hid : t'.id = t.id) (sid : SessionId) (o : Owner) : Owes s' sid o ↔ Owes s sid o := by
  rw [owes_tcp_set ht hs hb, ho, hid]
  constructor
  · rintro (⟨rfl, ho, hid⟩ | ⟨_, h⟩)
    · exact .tcp ht ho hid
    · exact h
  · intro h
    by_cases he : o = .tcp task
    · subst he
      cases h with
      | tcp hu ho hid =>
        rw [ht] at hu
        cases hu
        exact .inl ⟨rfl, ho, hid⟩
    · exact .inr ⟨he, h⟩

theorem owes_of_server {p : BleServerPort} (hp : s.ble[server]? = some p) :
    Owes s sid (.ble server generation) ↔
    ∃ addr, p.owes addr = some generation ∧ p.sessionId addr = sid := by
  constructor
  · intro h
    cases h with
    | @ble _ q addr _ hq hg hid =>
      rw [hp] at hq
      cases hq
      exact ⟨addr, hg, hid⟩
  · rintro ⟨addr, hg, hid⟩
    exact .ble hp hg hid

theorem owes_ble_same {p p' : BleServerPort} (hp : s.ble[server]? = some p)
    (hb : s'.ble = s.ble.set server p') (hs : s'.sessions = s.sessions) (ho : p'.owes = p.owes)
    (hid : p'.portId = p.portId) (sid : SessionId) (o : Owner) : Owes s' sid o ↔ Owes s sid o := by
  have hids : p'.sessionId = p.sessionId := by
    funext addr
    simp only [BleServerPort.sessionId, hid]
  rw [owes_ble_set hp hb hs, ho, hids]
  constructor
  · rintro (⟨addr, generation, rfl, hg, hid⟩ | ⟨_, h⟩)
    · exact .ble hp hg hid
    · exact h
  · intro h
    by_cases he : ∃ generation, o = .ble server generation
    · obtain ⟨generation, rfl⟩ := he
      obtain ⟨addr, hg, hid⟩ := (owes_of_server hp).mp h
      exact .inl ⟨addr, generation, rfl, hg, hid⟩
    · exact .inr ⟨fun generation h => he ⟨generation, h⟩, h⟩

theorem owes_tcp_gain {t t' : TcpSession} (ht : s.sessions[task]? = some t)
    (hs : s'.sessions = s.sessions.set task t') (hb : s'.ble = s.ble) (hn : t.owes = false)
    (ho : t'.owes = true) (hid : t'.id = t.id) (sid : SessionId) (o : Owner) :
    Owes s' sid o ↔ Owes s sid o ∨ (sid = t.id ∧ o = .tcp task) := by
  rw [owes_tcp_set ht hs hb, ho, hid]
  constructor
  · rintro (⟨rfl, _, rfl⟩ | ⟨_, h⟩)
    · exact .inr ⟨rfl, rfl⟩
    · exact .inl h
  · rintro (h | ⟨rfl, rfl⟩)
    · refine .inr ⟨?_, h⟩
      rintro rfl
      cases h with
      | tcp hu hu' _ =>
        rw [ht] at hu
        cases hu
        rw [hn] at hu'
        cases hu'
    · exact .inl ⟨rfl, rfl, rfl⟩

theorem owes_tcp_loss {t t' : TcpSession} (ht : s.sessions[task]? = some t)
    (hs : s'.sessions = s.sessions.set task t') (hb : s'.ble = s.ble) (ho : t'.owes = false)
    (sid : SessionId) (o : Owner) :
    Owes s' sid o ↔ Owes s sid o ∧ ¬(sid = t.id ∧ o = .tcp task) := by
  rw [owes_tcp_set ht hs hb, ho]
  constructor
  · rintro (⟨_, h, _⟩ | ⟨hne, h⟩)
    · cases h
    · exact ⟨h, fun he => hne he.2⟩
  · rintro ⟨h, hne⟩
    refine .inr ⟨?_, h⟩
    rintro rfl
    cases h with
    | tcp hu _ hid =>
      rw [ht] at hu
      cases hu
      exact hne ⟨hid.symm, rfl⟩

theorem sessionId_injective {p : BleServerPort} (h : p.sessionId a = p.sessionId b) : a = b :=
  Peer.ble.inj (congrArg SessionId.peer h)

theorem owes_ble_gain {p p' : BleServerPort} (hp : s.ble[server]? = some p)
    (hb : s'.ble = s.ble.set server p') (hs : s'.sessions = s.sessions) (hid : p'.portId = p.portId)
    (hn : p.owes addr = none) (hg : p'.owes addr = some g)
    (ho : ∀ a, a ≠ addr → p'.owes a = p.owes a) (sid : SessionId) (o : Owner) :
    Owes s' sid o ↔ Owes s sid o ∨ (sid = p.sessionId addr ∧ o = .ble server g) := by
  have hids : ∀ a, p'.sessionId a = p.sessionId a := fun a => by
    simp only [BleServerPort.sessionId, hid]
  rw [owes_ble_set hp hb hs]
  constructor
  · rintro (⟨a, generation, rfl, ha, rfl⟩ | ⟨_, h⟩)
    · by_cases he : a = addr
      · subst he
        rw [hg] at ha
        cases ha
        exact .inr ⟨hids a, rfl⟩
      · rw [ho a he] at ha
        exact .inl (.ble hp ha (hids a).symm)
    · exact .inl h
  · rintro (h | ⟨rfl, rfl⟩)
    · by_cases he : ∃ generation, o = .ble server generation
      · obtain ⟨generation, rfl⟩ := he
        obtain ⟨a, ha, rfl⟩ := (owes_of_server hp).mp h
        have hne : a ≠ addr := by
          rintro rfl
          rw [hn] at ha
          cases ha
        refine .inl ⟨a, generation, rfl, ?_, hids a⟩
        rw [ho a hne]
        exact ha
      · exact .inr ⟨fun generation h => he ⟨generation, h⟩, h⟩
    · exact .inl ⟨addr, g, rfl, hg, hids addr⟩

theorem owes_ble_loss {p p' : BleServerPort} (hp : s.ble[server]? = some p)
    (hb : s'.ble = s.ble.set server p') (hs : s'.sessions = s.sessions) (hid : p'.portId = p.portId)
    (hg : p.owes addr = some g) (hn : p'.owes addr = none)
    (ho : ∀ a, a ≠ addr → p'.owes a = p.owes a) (sid : SessionId) (o : Owner) :
    Owes s' sid o ↔ Owes s sid o ∧ ¬(sid = p.sessionId addr ∧ o = .ble server g) := by
  have hids : ∀ a, p'.sessionId a = p.sessionId a := fun a => by
    simp only [BleServerPort.sessionId, hid]
  rw [owes_ble_set hp hb hs]
  constructor
  · rintro (⟨a, generation, rfl, ha, rfl⟩ | ⟨hne, h⟩)
    · have hne : a ≠ addr := by
        rintro rfl
        rw [hn] at ha
        cases ha
      rw [ho a hne] at ha
      refine ⟨.ble hp ha (hids a).symm, fun he => ?_⟩
      rw [hids] at he
      exact hne (sessionId_injective he.1)
    · exact ⟨h, fun he => hne g he.2⟩
  · rintro ⟨h, hno⟩
    by_cases he : ∃ generation, o = .ble server generation
    · obtain ⟨generation, rfl⟩ := he
      obtain ⟨a, ha, rfl⟩ := (owes_of_server hp).mp h
      have hne : a ≠ addr := by
        rintro rfl
        rw [hg] at ha
        cases ha
        exact hno ⟨rfl, rfl⟩
      refine .inl ⟨a, generation, rfl, ?_, hids a⟩
      rw [ho a hne]
      exact ha
    · exact .inr ⟨fun generation h => he ⟨generation, h⟩, h⟩

theorem registered_of_sessions (h : s'.run.sessions = s.run.sessions) (sid : SessionId) :
    s'.registered sid = s.registered sid := by
  unfold Sys.registered
  rw [h]

theorem owes_of_same (hs : s'.sessions = s.sessions) (hb : s'.ble = s.ble) (sid : SessionId)
    (o : Owner) : Owes s' sid o ↔ Owes s sid o := by
  constructor
  · intro ho
    cases ho with
    | tcp ht ho hid => exact .tcp (hs ▸ ht) ho hid
    | ble hp hg hid => exact .ble (hb ▸ hp) hg hid
  · intro ho
    cases ho with
    | tcp ht ho hid => exact .tcp (hs.symm ▸ ht) ho hid
    | ble hp hg hid => exact .ble (hb.symm ▸ hp) hg hid

/-- A step that touches neither the sessions nor what is on its way. -/
theorem Ordered.aside (h : Ordered s) (hr : s'.run.sessions = s.run.sessions)
    (hq : s'.queue = s.queue)
    (hs : s'.sessions = s.sessions) (hb : s'.ble = s.ble) : Ordered s' := by
  refine ⟨h.passing.same (registered_of_sessions hr) (fun sid => by rw [hq]) (owes_of_same hs hb),
    ?_, ?_⟩
  · rw [hb]
    exact h.settled
  · rw [hs]
    exact h.tcp

theorem owes_tcp_new (hs : s'.sessions = s.sessions ++ [t]) (hb : s'.ble = s.ble)
    (ho : t.owes = false) (sid : SessionId) (o : Owner) : Owes s' sid o ↔ Owes s sid o := by
  constructor
  · intro h
    cases h with
    | @tcp other u hu hu' hid =>
      rw [hs] at hu
      rcases Nat.lt_or_ge other s.sessions.length with hlt | hge
      · rw [List.getElem?_append_left hlt] at hu
        exact .tcp hu hu' hid
      · rw [List.getElem?_append_right hge, List.getElem?_singleton] at hu
        split at hu
        · cases hu
          rw [ho] at hu'
          cases hu'
        · cases hu
    | ble hp hg hid => exact .ble (hb ▸ hp) hg hid
  · intro h
    cases h with
    | tcp hu hu' hid =>
      refine .tcp ?_ hu' hid
      rw [hs, List.getElem?_append_left (List.getElem?_eq_some_iff.mp hu).1]
      exact hu
    | ble hp hg hid => exact .ble (hb.symm ▸ hp) hg hid

theorem owes_ble_new (hb : s'.ble = s.ble ++ [p]) (hs : s'.sessions = s.sessions)
    (ho : ∀ addr, p.owes addr = none) (sid : SessionId) (o : Owner) :
    Owes s' sid o ↔ Owes s sid o := by
  constructor
  · intro h
    cases h with
    | tcp hu hu' hid => exact .tcp (hs ▸ hu) hu' hid
    | @ble other q addr g hq hg hid =>
      rw [hb] at hq
      rcases Nat.lt_or_ge other s.ble.length with hlt | hge
      · rw [List.getElem?_append_left hlt] at hq
        exact .ble hq hg hid
      · rw [List.getElem?_append_right hge, List.getElem?_singleton] at hq
        split at hq
        · cases hq
          rw [ho] at hg
          cases hg
        · cases hq
  · intro h
    cases h with
    | tcp hu hu' hid => exact .tcp (hs.symm ▸ hu) hu' hid
    | ble hp hg hid =>
      refine .ble ?_ hg hid
      rw [hb, List.getElem?_append_left (List.getElem?_eq_some_iff.mp hp).1]
      exact hp

/-- A session keeps the id it was accepted under. -/
theorem tcp_ids_set {t t' : TcpSession} (h : ∀ t ∈ s.sessions, ∃ addr, t.id.peer = .tcp addr)
    (ht : s.sessions[task]? = some t) (hid : t'.id = t.id) :
    ∀ u ∈ s.sessions.set task t', ∃ addr, u.id.peer = .tcp addr := by
  intro u hu
  rcases List.mem_or_eq_of_mem_set hu with hu | rfl
  · exact h u hu
  · rw [hid]
    exact h t (List.mem_of_getElem? ht)

theorem tcp_ordered (h : Ordered s) (hok : Orderly s (.tcp e)) (hs : s.tcpStep net e = some s') :
    Ordered s' := by
  cases tcp_turn hs with
  | starts | stops | accepts | refuses => exact h.aside rfl rfl rfl rfl
  | admits =>
    refine ⟨h.passing.same (fun _ => rfl) (fun _ => rfl) (owes_tcp_new rfl rfl rfl), h.settled, ?_⟩
    intro t ht
    rcases List.mem_append.mp ht with ht | ht
    · exact h.tcp t ht
    · cases List.mem_singleton.mp ht
      exact ⟨_, rfl⟩
  | @opens task t ht hph =>
    have hn : ∀ o, ¬ Owes s t.id o := by
      intro o ho
      cases ho with
      | tcp hu ho hid =>
        rw [hok t _ _ ht hu hid] at ho
        cases ho
      | ble hp hg hid =>
        obtain ⟨addr, hpeer⟩ := h.tcp t (List.mem_of_getElem? ht)
        rw [← hid] at hpeer
        cases hpeer
    refine ⟨h.passing.opens (fun _ => rfl) rfl hn (owes_tcp_gain ht rfl rfl ?_ rfl rfl), h.settled,
      tcp_ids_set h.tcp ht rfl⟩
    simp [TcpSession.owes, hph]
  | @breaks task t ht hph =>
    refine ⟨h.passing.same (fun _ => rfl) (fun _ => rfl) (owes_tcp_same ht rfl rfl ?_ rfl),
      h.settled, tcp_ids_set h.tcp ht rfl⟩
    simp [TcpSession.owes, hph]
  | @uncounts task t p ht hp hph =>
    refine ⟨h.passing.same (fun _ => rfl) (fun _ => rfl) (owes_tcp_same ht rfl rfl ?_ rfl),
      h.settled, tcp_ids_set h.tcp ht rfl⟩
    simp [TcpSession.owes, hph]
  | @closes task t ht hph =>
    have howes : t.owes = true := by simp [TcpSession.owes, hph]
    exact ⟨h.passing.closes (fun _ => rfl) rfl (.tcp ht howes rfl) (owes_tcp_loss ht rfl rfl rfl),
      h.settled, tcp_ids_set h.tcp ht rfl⟩

theorem attach_spec {p p' : BleServerPort} (h : p.attach addr = some p') :
    p.doing = .waiting ∧ (p' = p ∨ (p.clients.lookup addr = none ∧ p' = { p with
      generation := p.generation + 1
      clients := p.clients.insert addr (p.generation + 1)
      doing := .opening addr (p.generation + 1) })) := by
  unfold BleServerPort.attach at h
  split at h
  · rename_i hd
    refine ⟨hd, ?_⟩
    cases h
    split
    · unfold BleServerPort.ensureClient
      split
      · exact .inl rfl
      · rename_i hn
        exact .inr ⟨hn, rfl⟩
    · exact .inl rfl
  · cases h

theorem report_spec {p p' : BleServerPort} (h : p.report addr g = some p') :
    p.doing = .waiting ∧ (p' = p ∨ (p.clients.lookup addr = some g ∧ p' = { p with
      clients := p.clients.erase addr
      doing := .closing addr g })) := by
  unfold BleServerPort.report at h
  split at h
  · rename_i hd
    refine ⟨hd, ?_⟩
    cases h
    split
    · rename_i hg
      exact .inr ⟨hg, rfl⟩
    · exact .inl rfl
  · cases h

/-- Word of a phone is taken without a word to the bridge yet. -/
theorem attach_owes {p p' : BleServerPort} (h : p.attach addr = some p') :
    p'.owes = p.owes ∧ p'.portId = p.portId ∧ (Settled p → Settled p') := by
  obtain ⟨hd, rfl | ⟨hn, rfl⟩⟩ := attach_spec h
  · exact ⟨rfl, rfl, fun h => h⟩
  · refine ⟨?_, rfl, fun _ => AList.lookup_insert _⟩
    funext a
    simp only [BleServerPort.owes, hd]
    split
    · rename_i he
      rw [he, hn]
    · rename_i he
      exact AList.lookup_insert_ne he

theorem report_owes {p p' : BleServerPort} (h : p.report addr g = some p') :
    p'.owes = p.owes ∧ p'.portId = p.portId ∧ (Settled p → Settled p') := by
  obtain ⟨hd, rfl | ⟨hg, rfl⟩⟩ := report_spec h
  · exact ⟨rfl, rfl, fun h => h⟩
  · refine ⟨?_, rfl, fun _ => AList.lookup_erase _ _⟩
    funext a
    simp only [BleServerPort.owes, hd]
    split
    · rename_i he
      rw [he, hg]
    · rename_i he
      exact AList.lookup_erase_ne he

theorem exit_owes {p p' : BleServerPort} (h : p.exit = some p') :
    p'.owes = p.owes ∧ p'.portId = p.portId ∧ Settled p' := by
  unfold BleServerPort.exit at h
  split at h
  · rename_i hd
    cases h
    refine ⟨?_, rfl, trivial⟩
    funext a
    simp only [BleServerPort.owes, hd]
  · cases h

theorem settled_set {p' : BleServerPort} (h : ∀ p ∈ s.ble, Settled p) (hp : Settled p') :
    ∀ p ∈ s.ble.set server p', Settled p := by
  intro p hm
  rcases List.mem_or_eq_of_mem_set hm with hm | rfl
  · exact h p hm
  · exact hp

/-- A `ble-server` port goes on without sending anything. -/
theorem Ordered.ble_silent {p p' : BleServerPort} (h : Ordered s) (hp : s.ble[server]? = some p)
    (ho : p'.owes = p.owes) (hid : p'.portId = p.portId) (hset : Settled p') :
    Ordered { s with ble := s.ble.set server p' } :=
  ⟨h.passing.same (fun _ => rfl) (fun _ => rfl) (owes_ble_same hp rfl rfl ho hid),
    settled_set h.settled hset, h.tcp⟩

theorem ble_ordered (h : Ordered s) (hok : Orderly s (.ble e)) (hs : s.bleStep e = some s') :
    Ordered s' := by
  cases ble_turn hs with
  | starts =>
    refine ⟨h.passing.same (fun _ => rfl) (fun _ => rfl) (owes_ble_new rfl rfl (fun _ => rfl)), ?_,
      h.tcp⟩
    intro p hp
    rcases List.mem_append.mp hp with hp | hp
    · exact h.settled p hp
    · cases List.mem_singleton.mp hp
      trivial
  | @stops _ p hp =>
    have hset : Settled p := h.settled p (List.mem_of_getElem? hp)
    exact h.ble_silent hp rfl rfl hset
  | @limits _ _ p hp _ =>
    have hset : Settled p := h.settled p (List.mem_of_getElem? hp)
    exact h.ble_silent hp rfl rfl hset
  | attaches hp ha =>
    obtain ⟨ho, hid, hset⟩ := attach_owes ha
    exact h.ble_silent hp ho hid (hset (h.settled _ (List.mem_of_getElem? hp)))
  | reports hp hr =>
    obtain ⟨ho, hid, hset⟩ := report_owes hr
    exact h.ble_silent hp ho hid (hset (h.settled _ (List.mem_of_getElem? hp)))
  | exits hp he =>
    obtain ⟨ho, hid, hset⟩ := exit_owes he
    exact h.ble_silent hp ho hid hset
  | @opens server addr g p hp hd =>
    have hown : p.owes addr = none := by simp [BleServerPort.owes, hd]
    have hn : ∀ o, ¬ Owes s (p.sessionId addr) o := by
      intro o ho
      cases ho with
      | tcp hu _ hid =>
        obtain ⟨a, hpeer⟩ := h.tcp _ (List.mem_of_getElem? hu)
        rw [hid] at hpeer
        cases hpeer
      | @ble other q a g' hq hg hid =>
        have ha : a = addr := Peer.ble.inj (congrArg SessionId.peer hid)
        subst ha
        by_cases he : other = server
        · subst he
          rw [hp] at hq
          cases hq
          rw [hown] at hg
          cases hg
        · rw [hok p q a g other hp hd he hq (congrArg SessionId.port hid)] at hg
          cases hg
    have hsettled : p.clients.lookup addr = some g := by
      have := h.settled p (List.mem_of_getElem? hp)
      simpa only [Settled, hd] using this
    refine ⟨h.passing.opens (fun _ => rfl) rfl hn (owes_ble_gain hp rfl rfl rfl hown hsettled ?_),
      settled_set h.settled trivial, h.tcp⟩
    intro a ha
    simp [BleServerPort.owes, hd, ha]
  | @closes server addr g p hp hd =>
    have hown : p.owes addr = some g := by simp [BleServerPort.owes, hd]
    have hsettled : p.clients.lookup addr = none := by
      have := h.settled p (List.mem_of_getElem? hp)
      simpa only [Settled, hd] using this
    refine ⟨h.passing.closes (fun _ => rfl) rfl (.ble hp hown rfl)
      (owes_ble_loss hp rfl rfl rfl hown hsettled ?_), settled_set h.settled trivial, h.tcp⟩
    intro a ha
    simp [BleServerPort.owes, hd, ha]
  | @leaves server addr g p hp hd hg =>
    have hown : p.owes addr = some g := by simpa [BleServerPort.owes, hd] using hg
    refine ⟨h.passing.closes (fun _ => rfl) rfl (.ble hp hown rfl)
      (owes_ble_loss hp rfl rfl rfl hown ?_ ?_), settled_set h.settled ?_, h.tcp⟩
    · simp [BleServerPort.owes, hd]
    · intro a ha
      simp [BleServerPort.owes, hd, AList.lookup_erase_ne ha]
    · simp [Settled, hd]

/-- A step of the bridge that is no event from an app leaves every session with
its token. -/
theorem kicks_kept {r r' : Run} (hs : r.step e = some r') (hn : ∀ now ev, e ≠ .app now ev)
    (sid : SessionId) :
    (r'.sessions.lookup sid).map Session.kick = (r.sessions.lookup sid).map Session.kick := by
  by_cases hf : ∃ now g f, e = .tnc now (.frame g f)
  · obtain ⟨now, g, f, rfl⟩ := hf
    cases hs
    by_cases hg : g = r.generation
    · subst hg
      rw [(onTnc_frame f).2 sid, Option.map_map]
      rfl
    · simp [Run.onTnc, hg]
  · have hc := step_sessions hs (fun now g f he => hf ⟨now, g, f, he⟩)
    cases hc with
    | same hsame => rw [hsame]
    | opened => exact absurd rfl (hn _ _)
    | closed => exact absurd rfl (hn _ _)
    | @takes other x f tx hl _ hsame =>
      rw [hsame]
      by_cases he : sid = other
      · subst he
        rw [lookup_replace_self _ (AList.lookup_isSome.mp (by rw [hl]; rfl)), hl]
        rfl
      · rw [lookup_replace_ne he]
    | @gone other x hl hsame =>
      rw [hsame]
      by_cases he : sid = other
      · subst he
        rw [lookup_replace_self _ (AList.lookup_isSome.mp (by rw [hl]; rfl)), hl]
        rfl
      · rw [lookup_replace_ne he]

/-- What taking an event does to who is registered. -/
theorem registered_takes (hs : s.run.step (.app now ev) = some run) (sid : SessionId) :
    Sys.registered { s with run := run, queue := queue } sid = match ev with
      | .sessionOpened other _ kick => if sid = other then some kick else s.registered sid
      | .sessionClosed other => if sid = other then none else s.registered sid
      | .frame .. => s.registered sid := by
  obtain rfl : run = s.run.onApp now ev := by
    cases step_turn hs with
    | app _ => rfl
    | writer _ hw => cases hw
    | slot hw => cases hw
  unfold Sys.registered
  cases ev with
  | sessionOpened other tx kick =>
    dsimp only
    rw [opened_sessions]
    split
    · rename_i he
      subst he
      rw [AList.lookup_insert]
      rfl
    · rename_i he
      rw [AList.lookup_insert_ne he]
  | sessionClosed other =>
    dsimp only
    rw [closed_sessions]
    split
    · rename_i he
      subst he
      rw [AList.lookup_erase]
      rfl
    · rename_i he
      rw [AList.lookup_erase_ne he]
  | frame other f =>
    dsimp only
    rw [frame_sessions]

theorem takes_passing (h : Passing s) (hq : s.queue = m :: queue)
    (hs : s.run.step (.app now m.event) = some run) :
    Passing { s with run := run, queue := queue } := by
  intro sid
  obtain ⟨last, hp, hl⟩ := h sid
  refine ⟨last, ?_, fun k => ?_⟩
  · rw [registered_takes hs sid]
    rw [hq] at hp
    obtain ⟨sender, event⟩ := m
    cases event with
    | sessionOpened other tx kick =>
      by_cases he : other = sid
      · subst he
        have hnote : notes other (⟨sender, .sessionOpened other tx kick⟩ :: queue) =
            .takes kick :: notes other queue := by simp [notes, note]
        rw [hnote] at hp
        simpa using hp.of_takes.2
      · have hnote : notes sid (⟨sender, .sessionOpened other tx kick⟩ :: queue) =
            notes sid queue := by
          simp [notes, note, he]
        rw [hnote] at hp
        simpa [Ne.symm he] using hp
    | sessionClosed other =>
      by_cases he : other = sid
      · subst he
        have hnote : notes other (⟨sender, .sessionClosed other⟩ :: queue) =
            .gives sender :: notes other queue := by simp [notes, note]
        rw [hnote] at hp
        simpa using hp.of_gives.2
      · have hnote : notes sid (⟨sender, .sessionClosed other⟩ :: queue) = notes sid queue := by
          simp [notes, note, he]
        rw [hnote] at hp
        simpa [Ne.symm he] using hp
    | frame other f => exact hp
  · have ho : ∀ o, Owes { s with run := run, queue := queue } sid o ↔ Owes s sid o :=
      owes_of_same (by rfl) (by rfl) sid
    simp only [ho]
    exact hl k

theorem bridge_ordered (h : Ordered s) (hs : s.bridgeStep e = some s') : Ordered s' := by
  cases bridge_turn hs with
  | takes hq hr => exact ⟨takes_passing h.passing hq hr, h.settled, h.tcp⟩
  | takesCmd _ hr =>
    refine ⟨h.passing.same (kicks_kept hr nofun) (fun _ => rfl) (owes_of_same rfl rfl),
      h.settled, h.tcp⟩
  | turn ha _ hr =>
    exact ⟨h.passing.same (kicks_kept hr ha) (fun _ => rfl) (owes_of_same rfl rfl),
      h.settled, h.tcp⟩
  | frame _ =>
    refine ⟨h.passing.same (fun _ => rfl) (fun sid => ?_) (owes_of_same rfl rfl), h.settled, h.tcp⟩
    simp [notes, note]
  | command => exact h.aside rfl rfl rfl rfl

theorem reload_ordered (h : Ordered s) (hs : s.reloadStep net e = some s') : Ordered s' := by
  cases reload_turn hs <;> exact h.aside rfl rfl rfl rfl

theorem step_ordered (h : Ordered s) (hok : Orderly s e) (hs : s.step net e = some s') :
    Ordered s' := by
  cases e with
  | bridge e => exact bridge_ordered h hs
  | tcp e => exact tcp_ordered h hok hs
  | ble e => exact ble_ordered h hok hs
  | reload e => exact reload_ordered h hs

theorem start_registered (bridge : String) (connector : Connector)
    (settings : TncSettings) (now : Now)
    (sid : SessionId) : (Sys.start bridge connector settings now).registered sid = none := by
  have hempty : (Run.start bridge connector settings now).sessions = ∅ := by
    simp only [Run.start]
    split
    · exact (startConnect_keeps _).sessions
    · rfl
  unfold Sys.registered Sys.start
  dsimp only
  rw [hempty]
  rfl

theorem start_ordered (bridge : String) (connector : Connector) (settings : TncSettings)
    (now : Now) : Ordered (Sys.start bridge connector settings now) := by
  refine ⟨fun sid => ⟨none, ?_, fun k => ?_⟩, fun p hp => absurd hp List.not_mem_nil,
    fun t ht => absurd ht List.not_mem_nil⟩
  · rw [start_registered]
    exact .done
  · constructor
    · intro hk
      cases hk
    · rintro ⟨o, ho, _⟩
      cases ho with
      | tcp ht => cases ht
      | ble hp => cases hp

theorem reach_ordered
    (hr : Reach (Sys.step net) Orderly (Sys.start bridge connector settings now) es s) :
    Ordered s :=
  hr.invariant (start_ordered ..) (fun _ _ _ h hok hs => step_ordered h hok hs)

/-- The bridge has taken word of the session with token `k`, and not yet that it
is over. -/
def Served (s : Sys) (sid : SessionId) (k : Nat) : Prop :=
  ((∃ o, Owes s sid o ∧ o.token = k) ∨ ⟨k, .sessionClosed sid⟩ ∈ s.queue) ∧
    ∀ sender tx, ⟨sender, .sessionOpened sid tx k⟩ ∉ s.queue

theorem takes_mem_notes (h : .takes k ∈ notes sid queue) :
    ∃ sender tx, ⟨sender, .sessionOpened sid tx k⟩ ∈ queue := by
  obtain ⟨⟨sender, event⟩, hm, hn⟩ := List.mem_filterMap.mp h
  unfold note at hn
  split at hn
  · rename_i other tx kick he
    split at hn
    · rename_i hs
      cases hn
      dsimp only at he
      subst hs he
      exact ⟨sender, tx, hm⟩
    · cases hn
  · split at hn <;> cases hn
  · cases hn

theorem Passing.served (h : Passing s) (hk : Served s sid k) : s.registered sid = some k := by
  obtain ⟨last, hp, hl⟩ := h sid
  obtain ⟨hk, hn⟩ := hk
  have ht : .takes k ∉ notes sid s.queue := by
    intro hm
    obtain ⟨sender, tx, hm⟩ := takes_mem_notes hm
    exact hn sender tx hm
  rcases hk with ho | hc
  · rw [(hl k).mpr ho] at hp
    exact hp.first_of_last ht
  · refine hp.first_of_gives ?_ ht
    exact List.mem_filterMap.mpr ⟨_, hc, by simp [note]⟩

/-- The session registered when a close is taken is the one that close was sent
for, and a session is registered from when the bridge takes word of it until it
takes its own close. -/
theorem own_close_only
    (hr : Reach (Sys.step net) Orderly (Sys.start bridge connector settings now) es s) :
    (∀ k sid rest, s.queue = ⟨k, .sessionClosed sid⟩ :: rest → s.registered sid = some k) ∧
      ∀ sid k, Served s sid k → s.registered sid = some k := by
  have h := (reach_ordered hr).passing
  refine ⟨fun k sid rest hq => ?_, fun sid k hk => h.served hk⟩
  obtain ⟨last, hp, _⟩ := h sid
  have hnote : notes sid s.queue = .gives k :: notes sid rest := by simp [hq, notes, note]
  rw [hnote] at hp
  exact hp.of_gives.1

def anyNet : IpNetLib := ⟨fun _ => none, fun _ _ => false⟩

def shack : Sys := Sys.start "ktbr0" (.tcp "tnc.local" 8001) sampleSettings ⟨0, 0⟩

def laptop : SocketAddr := .v4 0xc0a80d81#32 50000

def phone : Mac := ⟨0x0000_001a_7dda_7113#48⟩

def laptopSession : SessionId := ⟨"tcp-server0", .tcp laptop⟩

def phoneSession : SessionId := ⟨"ble-server0", .ble phone⟩

def opensPort : Step := .tcp (.starts "tcp-server0" (.addr (.v4 0 8001)) false ⟨none, []⟩)

def takesNext : Step := .bridge (.takes ⟨0, 0⟩)

def connects (task : Nat) : List Step :=
  [.tcp (.accepts 0 laptop), .tcp (.admits 0), .tcp (.opens task), takesNext]

def attaches (server : Nat) : List Step :=
  [.ble (.attaches server phone), .ble (.opens server), takesNext]

/-- The laptop's connection is reset and it connects again from the same port,
before its first session says that it is over. -/
def reconnects : List Step :=
  opensPort :: connects 0 ++ [.tcp (.breaks 0)] ++ connects 1 ++
    [.tcp (.uncounts 0), .tcp (.closes 0)]

/-- The adapter is powered off and on, and the phone attaches to the port's new
task before the first one, which still drops the phone's link, says that the
session is over. -/
def powerCycles : List Step :=
  .ble (.starts "ble-server0" 4) :: attaches 0 ++ [.ble (.stops 0), .ble (.exits 0),
    .ble (.starts "ble-server0" 4)] ++ attaches 1 ++ [.ble (.leaves 0 phone)]

/-- After these steps the bridge takes the close of session `k` and by it
removes the later session `k'`, which goes on. -/
def Removes (es : List Step) (sid : SessionId) (k k' : Nat) : Prop :=
  ∃ t t', Runs (Sys.step anyNet) shack es t ∧ t.queue = [⟨k, .sessionClosed sid⟩] ∧
    t.registered sid = some k' ∧ t.step anyNet takesNext = some t' ∧
    Served t' sid k' ∧ t'.registered sid = none

theorem removes_of_eval (ht : (es.foldlM (Sys.step anyNet) shack).map (fun t =>
      (t.queue, t.registered sid)) = some ([⟨k, .sessionClosed sid⟩], some k'))
    (ht' : ((es ++ [takesNext]).foldlM (Sys.step anyNet) shack).map (fun t =>
      (t.queue, t.registered sid)) = some ([], none))
    (ho : ∀ t, (es ++ [takesNext]).foldlM (Sys.step anyNet) shack = some t →
      ∃ o, Owes t sid o ∧ o.token = k') : Removes es sid k k' := by
  obtain ⟨t, hrun, hsees⟩ := Option.map_eq_some_iff.mp ht
  obtain ⟨t', hrun', hsees'⟩ := Option.map_eq_some_iff.mp ht'
  simp only [Prod.mk.injEq] at hsees hsees'
  have howes := ho t' hrun'
  rw [List.foldlM_append, hrun] at hrun'
  have hstep : t.step anyNet takesNext = some t' := by simpa using hrun'
  refine ⟨t, t', runs_of_foldlM hrun, hsees.1, hsees.2, hstep, ⟨.inl howes, ?_⟩, hsees'.2⟩
  intro sender tx hm
  rw [hsees'.1] at hm
  cases hm

theorem earlier_close_removes :
    Removes reconnects laptopSession (Owner.tcp 0).token (Owner.tcp 1).token ∧
      Removes powerCycles phoneSession (Owner.ble 0 1).token (Owner.ble 1 1).token := by
  constructor
  · refine removes_of_eval (by decide +kernel) (by decide +kernel) (fun t ht => ⟨.tcp 1, ?_, rfl⟩)
    have heval : ((reconnects ++ [takesNext]).foldlM (Sys.step anyNet) shack).map
        (fun t : Sys => t.sessions[1]?) = some (some ⟨0, laptopSession, .serving⟩) := by
      decide +kernel
    rw [ht] at heval
    exact .tcp (Option.some.inj heval) rfl rfl
  · refine removes_of_eval (by decide +kernel) (by decide +kernel) (fun t ht => ⟨.ble 1 1, ?_, rfl⟩)
    have heval : ((powerCycles ++ [takesNext]).foldlM (Sys.step anyNet) shack).map
        (fun t : Sys => t.ble[1]?.map (fun p => (p.portId, p.owes phone))) =
        some (some ("ble-server0", some 1)) := by
      decide +kernel
    rw [ht] at heval
    obtain ⟨p, hp, hsees⟩ := Option.map_eq_some_iff.mp (Option.some.inj heval)
    simp only [Prod.mk.injEq] at hsees
    refine .ble hp hsees.2 ?_
    simp only [BleServerPort.sessionId, hsees.1]
    rfl

def isOrderly (s : Sys) : Step → Bool
  | .tcp (.opens task) =>
    s.sessions.all (fun u => !u.owes || s.sessions[task]?.all (fun t => t.id != u.id))
  | .ble (.opens _) => s.ble.length == 1
  | _ => true

theorem orderly_of_isOrderly (s : Sys) (e : Step) (h : isOrderly s e = true) : Orderly s e := by
  cases e with
  | bridge e => trivial
  | reload e => trivial
  | tcp e =>
    cases e with
    | opens task =>
      intro t u other ht hu hid
      have hall := List.all_eq_true.mp h u (List.mem_of_getElem? hu)
      simpa [ht, hid] using hall
    | _ => trivial
  | ble e =>
    cases e with
    | opens server =>
      intro p q addr g other hp _ hne hq _
      have hlen : s.ble.length = 1 := by simpa [isOrderly] using h
      have hs := (List.getElem?_eq_some_iff.mp hp).1
      have ho := (List.getElem?_eq_some_iff.mp hq).1
      omega
    | _ => trivial

def comesBack : List Step :=
  opensPort :: connects 0 ++
    [.tcp (.breaks 0), .tcp (.uncounts 0), .tcp (.closes 0), takesNext] ++ connects 1

theorem own_close_only_laptop : ∃ t, Reach (Sys.step anyNet) Orderly shack comesBack t ∧
    t.sessions.map TcpSession.phase = [.done, .serving] ∧
    t.registered laptopSession = some (Owner.tcp 1).token ∧
    (∀ k sid rest, t.queue = ⟨k, .sessionClosed sid⟩ :: rest → t.registered sid = some k) ∧
    ∀ sid k, Served t sid k → t.registered sid = some k := by
  have heval :
    (comesBack.foldlM (fun t e => if isOrderly t e then t.step anyNet e else none) shack).map
      (fun t => (t.sessions.map TcpSession.phase, t.registered laptopSession)) =
      some ([.done, .serving], some (Owner.tcp 1).token) := by
    decide +kernel
  obtain ⟨t, hrun, hsees⟩ := Option.map_eq_some_iff.mp heval
  simp only [Prod.mk.injEq] at hsees
  have hr := reach_of_checked orderly_of_isOrderly hrun
  exact ⟨t, hr, hsees.1, hsees.2, own_close_only hr⟩

end KissTncBridge.Proofs.SessionOrder
