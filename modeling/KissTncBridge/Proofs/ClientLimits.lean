import KissTncBridge.Lib.Indices
import KissTncBridge.Proofs.PlanKicks
import KissTncBridge.Proofs.SessionFates

namespace KissTncBridge.Proofs.ClientLimits
open Lib Conf Bridge Reconcile KissTncBridge.Port Supervisor Supervisor.AppPorts
open SessionOrder AppPortSteps SessionFates PlanKicks

variable {s s' : Sys} {net : IpNetLib} {server task : Nat} {t t' : TcpSession}
    {p p' : TcpServerPort}

/-- A session of a port's task that runs and will not be told to end. -/
structure Stays (s : Sys) (server task : Nat) (t : TcpSession) : Prop where
  found : s.sessions[task]? = some t
  server : t.server = server
  running : t.running = true
  kept : ¬Slated s task t.id

/-- Nothing makes a session stay that was to go. -/
theorem stays_step (ho : Ordered s) (hg : Tagged s) (hs : s.step net e = some s')
    (h : Stays s' server task t') (hlt : task < s.sessions.length) :
    ∃ t, Stays s server task t ∧ t.id = t'.id := by
  obtain ⟨t, ht, hgo⟩ := (step_ages hs).back h.found hlt
  refine ⟨t, ⟨ht, hgo.server.symm.trans h.server, hgo.running h.running, fun hsl => h.kept ?_⟩,
    hgo.id.symm⟩
  rw [← hgo.id] at hsl
  exact slated_step ho hg hs h.found h.running hsl

structure Homed (s : Sys) : Prop where
  named : ∀ (task : Nat) t, s.sessions[task]? = some t →
    ∃ p, s.tcp[t.server]? = some p ∧ t.id.port = p.portId
  counted : ∀ (server : Nat) p, s.tcp[server]? = some p → ∀ tasks : Finset Nat,
    (∀ task ∈ tasks, ∃ t, s.sessions[task]? = some t ∧ t.server = server ∧ t.counted = true) →
    tasks.card ≤ p.sessions

def Same (f : TcpServerPort → α) (l l' : List TcpServerPort) : Prop :=
  ∀ (server : Nat) p, l[server]? = some p → ∃ p', l'[server]? = some p' ∧ f p' = f p

theorem Same.refl (f : TcpServerPort → α) (l : List TcpServerPort) : Same f l l :=
  fun _ p hp => ⟨p, hp, rfl⟩

theorem Same.set {f : TcpServerPort → α} {l : List TcpServerPort} (hp : l[server]? = some p)
    (hf : f p' = f p) : Same f l (l.set server p') := by
  intro other q hq
  by_cases he : server = other
  · subst he
    obtain rfl := Option.some.inj (hp.symm.trans hq)
    exact ⟨p', List.getElem?_set_self (List.getElem?_eq_some_iff.mp hp).1, hf⟩
  · exact ⟨q, by rw [List.getElem?_set_ne he, hq], rfl⟩

theorem Same.append (f : TcpServerPort → α) (l more : List TcpServerPort) :
    Same f l (l ++ more) := by
  intro server p hp
  refine ⟨p, ?_, rfl⟩
  rw [List.getElem?_append_left (List.getElem?_eq_some_iff.mp hp).1, hp]

/-- Only a reload changes a port's settings. -/
theorem step_settings (hs : s.step net e = some s') (hne : e ≠ .reload .updates) :
    Same (fun p => (p.portId, p.live)) s.tcp s'.tcp := by
  cases e with
  | bridge e => cases bridge_turn hs <;> exact .refl _ _
  | ble e => cases ble_turn hs <;> exact .refl _ _
  | reload e =>
    cases reload_turn hs with
    | updates => exact absurd rfl hne
    | asks | plans | kicks | applied => exact .refl _ _
  | tcp e =>
    cases tcp_turn hs with
    | starts => exact .append _ _ _
    | stops hp => exact .set hp rfl
    | accepts hp => exact .set hp rfl
    | admits hp => exact .set hp rfl
    | refuses hp => exact .set hp rfl
    | uncounts _ hp => exact .set hp rfl
    | opens | breaks | closes => exact .refl _ _

theorem step_ports (hs : s.step net e = some s') : Same TcpServerPort.portId s.tcp s'.tcp := by
  have hother : e ≠ .reload .updates → Same TcpServerPort.portId s.tcp s'.tcp := by
    intro hne server p hp
    obtain ⟨p', hp', hset⟩ := step_settings hs hne server p hp
    exact ⟨p', hp', (Prod.mk.inj hset).1⟩
  cases e with
  | bridge e => exact hother nofun
  | ble e => exact hother nofun
  | tcp e => exact hother nofun
  | reload e =>
    cases reload_turn hs with
    | updates _ hp => exact .set hp rfl
    | asks | plans | kicks | applied => exact hother nofun

/-- The ports' counters, where no session is new. -/
theorem counted_next (h : Homed s) (ha : Ages s.sessions s'.sessions)
    (hlen : s'.sessions.length = s.sessions.length) (hp : s.tcp[server]? = some p)
    (hc : p.sessions ≤ p'.sessions) (tasks : Finset Nat)
    (ht : ∀ task ∈ tasks, ∃ t, s'.sessions[task]? = some t ∧ t.server = server ∧ t.counted = true) :
    tasks.card ≤ p'.sessions := by
  refine (h.counted server p hp tasks (fun task hm => ?_)).trans hc
  obtain ⟨t', ht', hserver, hcount⟩ := ht task hm
  obtain ⟨t, ht, hgo⟩ := ha.back ht' (hlen ▸ (List.getElem?_eq_some_iff.mp ht').1)
  exact ⟨t, ht, hgo.server.symm.trans hserver, hgo.counted hcount⟩

theorem named_step (h : Homed s) (hs : s.step net e = some s') (ht : s'.sessions[task]? = some t') :
    ∃ p, s'.tcp[t'.server]? = some p ∧ t'.id.port = p.portId := by
  have hold : task < s.sessions.length → ∃ p, s'.tcp[t'.server]? = some p ∧
      t'.id.port = p.portId := by
    intro hlt
    obtain ⟨t, ht₀, hgo⟩ := (step_ages hs).back ht hlt
    obtain ⟨p, hp, hport⟩ := h.named task t ht₀
    obtain ⟨p', hp', hid⟩ := step_ports hs t.server p hp
    rw [hgo.server, hgo.id]
    exact ⟨p', hp', hport.trans hid.symm⟩
  rcases Nat.lt_or_ge task s.sessions.length with hlt | hge
  · exact hold hlt
  · have hnew := List.getElem?_eq_some_iff.mp ht
    cases e with
    | bridge e => cases bridge_turn hs <;> exact absurd hnew.1 (Nat.not_lt.mpr hge)
    | ble e => cases ble_turn hs <;> exact absurd hnew.1 (Nat.not_lt.mpr hge)
    | reload e => cases reload_turn hs <;> exact absurd hnew.1 (Nat.not_lt.mpr hge)
    | tcp e =>
      cases tcp_turn hs with
      | starts | stops | accepts | refuses => exact absurd hnew.1 (Nat.not_lt.mpr hge)
      | opens | breaks | uncounts | closes =>
        exact absurd (List.length_set ▸ hnew.1) (Nat.not_lt.mpr hge)
      | @admits _ server _ p hp =>
        rcases getElem?_snoc_cases ht with ⟨-, rfl⟩ | ht₀
        · exact ⟨_, List.getElem?_set_self (List.getElem?_eq_some_iff.mp hp).1, rfl⟩
        · exact absurd (List.getElem?_eq_some_iff.mp ht₀).1 (Nat.not_lt.mpr hge)

theorem counted_admits (h : Homed s) (hp : s.tcp[server]? = some p) (other : Nat)
    (hq : (s.tcp.set server { p with taken := none, sessions := p.sessions + 1 })[other]? = some p')
    (tasks : Finset Nat) (ht : ∀ task ∈ tasks, ∃ t,
      (s.sessions ++ [⟨server, ⟨p.portId, .tcp peer⟩, .opening⟩])[task]? = some t ∧
        t.server = other ∧ t.counted = true) :
    tasks.card ≤ p'.sessions := by
  have hold : ∀ {task : Nat} {t : TcpSession}, task ∈ tasks → (s.sessions ++
      [⟨server, ⟨p.portId, .tcp peer⟩, .opening⟩])[task]? = some t → task ≠ s.sessions.length →
      s.sessions[task]? = some t := by
    intro task t _ ht hne
    exact (getElem?_snoc_cases ht).resolve_left (fun hl => hne hl.1)
  rcases getElem?_set_cases hq with ⟨rfl, rfl⟩ | ⟨hne, hq⟩
  · have hcard := h.counted other p hp (tasks.erase s.sessions.length) (fun task hm => ?_)
    · have := Finset.pred_card_le_card_erase (s := tasks) (a := s.sessions.length)
      dsimp only
      omega
    · obtain ⟨hne, hm⟩ := Finset.mem_erase.mp hm
      obtain ⟨t, htask, hserver, hcount⟩ := ht task hm
      exact ⟨t, hold hm htask hne, hserver, hcount⟩
  · refine h.counted other p' hq tasks (fun task hm => ?_)
    obtain ⟨t, htask, hserver, hcount⟩ := ht task hm
    rcases getElem?_snoc_cases htask with ⟨-, rfl⟩ | htask
    · exact absurd hserver.symm hne
    · exact ⟨t, htask, hserver, hcount⟩

theorem counted_uncounts (h : Homed s) (ht : s.sessions[task]? = some t)
    (hp : s.tcp[t.server]? = some p) (hph : t.phase = .leaving) (other : Nat)
    (hq : (s.tcp.set t.server { p with sessions := p.sessions - 1 })[other]? = some p')
    (tasks : Finset Nat) (hm : ∀ x ∈ tasks, ∃ u,
      (s.sessions.set task { t with phase := .closing })[x]? = some u ∧ u.server = other ∧
        u.counted = true) :
    tasks.card ≤ p'.sessions := by
  have hold : ∀ x ∈ tasks, x ≠ task ∧ ∃ u, s.sessions[x]? = some u ∧ u.server = other ∧
      u.counted = true := by
    intro x hx
    obtain ⟨u, hu, hserver, hcount⟩ := hm x hx
    rcases getElem?_set_cases hu with ⟨rfl, rfl⟩ | ⟨hne, hu⟩
    · cases hcount
    · exact ⟨hne, u, hu, hserver, hcount⟩
  rcases getElem?_set_cases hq with ⟨rfl, rfl⟩ | ⟨-, hq⟩
  · have hcard := h.counted t.server p hp (insert task tasks) (fun x hx => ?_)
    · rw [Finset.card_insert_of_notMem (fun hx => (hold task hx).1 rfl)] at hcard
      dsimp only
      omega
    · rcases Finset.mem_insert.mp hx with rfl | hx
      · exact ⟨t, ht, rfl, by simp [TcpSession.counted, hph]⟩
      · exact (hold x hx).2
  · exact h.counted other p' hq tasks (fun x hx => (hold x hx).2)

theorem tcp_counted (h : Homed s) (hs : s.tcpStep net e = some s') (hq : s'.tcp[other]? = some p')
    (tasks : Finset Nat)
    (hm : ∀ task ∈ tasks, ∃ t, s'.sessions[task]? = some t ∧ t.server = other ∧ t.counted = true) :
    tasks.card ≤ p'.sessions := by
  have hturn := tcp_turn hs
  have ha := tcp_ages hturn
  cases hturn with
  | admits hp => exact counted_admits h hp other hq tasks hm
  | uncounts ht hp hph => exact counted_uncounts h ht hp hph other hq tasks hm
  | opens => exact counted_next h ha (List.length_set ..) hq (Nat.le_refl _) tasks hm
  | breaks => exact counted_next h ha (List.length_set ..) hq (Nat.le_refl _) tasks hm
  | closes => exact counted_next h ha (List.length_set ..) hq (Nat.le_refl _) tasks hm
  | starts =>
    rcases getElem?_snoc_cases hq with ⟨rfl, rfl⟩ | hq
    · refine Nat.le_zero.mpr
        (Finset.card_eq_zero.mpr (Finset.eq_empty_of_forall_notMem (fun task hx => ?_)))
      obtain ⟨t, ht, hserver, -⟩ := hm task hx
      obtain ⟨p, hp, -⟩ := h.named task t ht
      rw [hserver, List.getElem?_eq_none (Nat.le_refl _)] at hp
      cases hp
    · exact counted_next h ha rfl hq (Nat.le_refl _) tasks hm
  | stops hp | accepts hp | refuses hp =>
    rcases getElem?_set_cases hq with ⟨rfl, rfl⟩ | ⟨-, hq⟩
    · exact counted_next h ha rfl hp (Nat.le_refl _) tasks hm
    · exact counted_next h ha rfl hq (Nat.le_refl _) tasks hm

theorem step_homed (h : Homed s) (hs : s.step net e = some s') : Homed s' := by
  refine ⟨fun task t ht => named_step h hs ht, fun other p' hq tasks hm => ?_⟩
  cases e with
  | tcp e => exact tcp_counted h hs hq tasks hm
  | bridge e =>
    cases bridge_turn hs <;> exact counted_next h (.refl _) rfl hq (Nat.le_refl _) tasks hm
  | ble e => cases ble_turn hs <;> exact counted_next h (.refl _) rfl hq (Nat.le_refl _) tasks hm
  | reload e =>
    cases reload_turn hs with
    | updates _ hp =>
      rcases getElem?_set_cases hq with ⟨rfl, rfl⟩ | ⟨-, hq⟩
      · exact counted_next h (.refl _) rfl hp (Nat.le_refl _) tasks hm
      · exact counted_next h (.refl _) rfl hq (Nat.le_refl _) tasks hm
    | asks | plans | kicks
    | applied => exact counted_next h (.refl _) rfl hq (Nat.le_refl _) tasks hm

def Allows (net : IpNetLib) (allow : List IpNet) (sid : SessionId) : Prop :=
  ∀ ip, sid.peer.ip = some ip → allowed net allow ip = true

/-- Whether a client has just been taken under another limit than the port has
now. -/
def stale (p : TcpServerPort) : Nat :=
  match p.taken with
  | some (_, live) => if live.maxClients = p.live.maxClients then 0 else 1
  | none => 0

/-- The port's limits bind the sessions that stay, and the client it has just
taken. -/
structure Within (net : IpNetLib) (s : Sys) (server : Nat) (p : TcpServerPort) : Prop where
  allowed : ∀ task t, Stays s server task t → Allows net p.live.allow t.id
  taken : ∀ peer live, p.taken = some (peer, live) →
    Reconcile.allowed net live.allow peer.ip = true →
    Reconcile.allowed net p.live.allow peer.ip = true
  limit : ∀ n, p.live.maxClients = some n → ∀ tasks : Finset Nat,
    (∀ task ∈ tasks, ∃ t, Stays s server task t) → tasks.card + stale p ≤ n.toNat

theorem Within.nobody (hno : ∀ task t, ¬Stays s server task t) (hnone : p.taken = none) :
    Within net s server p := by
  refine ⟨fun task t ht => absurd ht (hno task t), fun _ _ hl => ?_, fun n _ tasks hm => ?_⟩
  · rw [hnone] at hl
    cases hl
  · have hempty : tasks = ∅ := Finset.eq_empty_of_forall_notMem (fun task hx => by
      obtain ⟨t, ht⟩ := hm task hx
      exact hno task t ht)
    simp [hempty, stale, hnone]

def Bound (net : IpNetLib) (s : Sys) : Prop :=
  ∀ (server : Nat) p, s.tcp[server]? = some p → Within net s server p

/-- No session is new, and the settings are the same. -/
theorem Within.next (h : Within net s server p)
    (hstay : ∀ task t', Stays s' server task t' → ∃ t, Stays s server task t ∧ t.id = t'.id)
    (hlive : p'.live = p.live)
    (htaken : p'.taken = p.taken ∨ p'.taken = none ∨ ∃ peer, p'.taken = some (peer, p'.live)) :
    Within net s' server p' := by
  have hstale : stale p' ≤ stale p := by
    rcases htaken with he | he | ⟨peer, he⟩
    · rw [stale, stale, he, hlive]
    · simp [stale, he]
    · simp [stale, he]
  refine ⟨fun task t' ht' => ?_, fun peer live hl ha => ?_, fun n hn tasks hm => ?_⟩
  · obtain ⟨t, ht, hid⟩ := hstay task t' ht'
    rw [hlive, ← hid]
    exact h.allowed task t ht
  · rcases htaken with he | he | ⟨peer', he⟩
    · rw [hlive]
      exact h.taken peer live (he ▸ hl) ha
    · rw [he] at hl
      cases hl
    · rw [he] at hl
      obtain ⟨-, rfl⟩ := Prod.mk.inj (Option.some.inj hl)
      exact ha
  · have hcard := h.limit n (hlive ▸ hn) tasks (fun task hx => ?_)
    · omega
    · obtain ⟨t', ht'⟩ := hm task hx
      obtain ⟨t, ht, -⟩ := hstay task t' ht'
      exact ⟨t, ht⟩

/-- A client is let in by the settings read for it. -/
theorem within_admits (h : Within net s server p) (hh : Homed s) (hp : s.tcp[server]? = some p)
    (htaken : p.taken = some (peer, live)) (hadmits : p.admits net peer live = true)
    (hstay : ∀ task t', Stays s' server task t' →
      (∃ t, Stays s server task t ∧ t.id = t'.id) ∨ task = s.sessions.length ∧
        t'.id.peer = .tcp peer)
    (hlive : p'.live = p.live) (hnone : p'.taken = none) : Within net s' server p' := by
  rw [TcpServerPort.admits, Bool.and_eq_true, Bool.not_eq_true'] at hadmits
  obtain ⟨hallow, hroom⟩ := hadmits
  refine ⟨fun task t' ht' => ?_, fun peer live hl ha => ?_, fun n hn tasks hm => ?_⟩
  · rw [hlive]
    rcases hstay task t' ht' with ⟨t, ht, hid⟩ | ⟨-, hpeer⟩
    · rw [← hid]
      exact h.allowed task t ht
    · intro ip hip
      rw [hpeer] at hip
      obtain rfl := Option.some.inj hip
      exact h.taken peer live htaken hallow
  · rw [hnone] at hl
    cases hl
  · rw [hlive] at hn
    have hnow : stale p' = 0 := by simp [stale, hnone]
    have hold : ∀ task ∈ tasks.erase s.sessions.length, ∃ t, Stays s server task t := by
      intro task hx
      obtain ⟨hne, hx⟩ := Finset.mem_erase.mp hx
      obtain ⟨t', ht'⟩ := hm task hx
      rcases hstay task t' ht' with ⟨t, ht, -⟩ | ⟨he, -⟩
      · exact ⟨t, ht⟩
      · exact absurd he hne
    have hcard := Finset.pred_card_le_card_erase (s := tasks) (a := s.sessions.length)
    by_cases hsame : live.maxClients = p.live.maxClients
    · -- The limit is the one the client was taken under, and the counter is below it.
      have hcount := hh.counted server p hp (tasks.erase s.sessions.length) (fun task hx => by
        obtain ⟨t, ht⟩ := hold task hx
        refine ⟨t, ht.found, ht.server, ?_⟩
        have hrun := ht.running
        unfold TcpSession.running at hrun
        unfold TcpSession.counted
        split at hrun <;> simp_all)
      rw [hsame, hn] at hroom
      simp only [Option.any_some, decide_eq_false_iff_not, not_le] at hroom
      omega
    · have hlimit := h.limit n hn _ hold
      have hstale : stale p = 1 := by simp [stale, htaken, hsame]
      omega

/-- A session of the snapshot has the token it had there, and is registered as
long as it runs. -/
def Known (s : Sys) (x : SessionId × Nat) : Prop :=
  ∀ task, x.2 = (Owner.tcp task).token → ∃ t, s.sessions[task]? = some t ∧ t.id = x.1 ∧
    (t.running = true → s.registered x.1 = some x.2)

theorem known_step (ho : Ordered s) (hg : Tagged s) (hs : s.step net e = some s') (h : Known s x) :
    Known s' x := by
  intro task hk
  obtain ⟨t, ht, hid, hreg⟩ := h task hk
  obtain ⟨t', ht', hgo⟩ := step_ages hs task t ht
  refine ⟨t', ht', hgo.id.trans hid, fun hrun => ?_⟩
  have hr := hreg (hgo.running hrun)
  rw [hk, ← hid, ← hgo.id] at hr
  have hr' := registered_step ho hg hs ht' hrun hr
  rw [hk, ← hid, ← hgo.id]
  exact hr'

structure Shows (snap : Snapshot) (seen : List (SessionId × Nat)) : Prop where
  same : (snap.sessions.map SessionInfo.id).Perm (seen.map Prod.fst)
  nodup : (seen.map Prod.fst).Nodup

theorem shows_snapshot (s : Sys) : Shows s.run.snapshot s.seen := by
  have hkeys : s.seen.map Prod.fst = s.run.sessions.keys := by
    simp only [Sys.seen, List.map_map, AList.keys, List.keys]
    rfl
  refine ⟨?_, by rw [hkeys]; exact s.run.sessions.nodupKeys⟩
  rw [hkeys]
  refine ((List.mergeSort_perm ..).map _).trans (.of_eq ?_)
  simp only [List.map_map, AList.keys, List.keys]
  rfl

theorem known_seen (hg : Tagged s) (hx : x ∈ s.seen) : Known s x := by
  obtain ⟨e, he, rfl⟩ := List.mem_map.mp hx
  have hreg : s.registered e.1 = some e.2.kick := by
    rw [Sys.registered, AList.mem_lookup_iff.mpr he]
    rfl
  intro task hk
  have hk : e.2.kick = (Owner.tcp task).token := hk
  obtain ⟨t, ht, hid⟩ := hg.registered e.1 task (by rw [hreg, hk])
  exact ⟨t, ht, hid, fun _ => hreg⟩

/-- The kicks of an update cover what the snapshot showed: whoever a new allow
list rejects goes, and no more stay than a new limit lets. -/
structure Covers (net : IpNetLib) (ids : List SessionId) (p : TcpServerPort) (u : Update) :
    Prop where
  allow : u.live.allow ≠ p.live.allow → ∀ sid ∈ ids, sid.port = p.portId →
    ¬Allows net u.live.allow sid → sid ∈ u.kicks
  limit : u.live.maxClients ≠ p.live.maxClients → ∀ n, u.live.maxClients = some n →
    (ids.filter (fun sid => sid.port == p.portId && !u.kicks.contains sid)).length ≤ n.toNat

theorem runtime_sessions (s : Sys) (snap : Snapshot) (pid : String) :
    ((s.runtime snap).sessions s.run.id pid).map SessionView.id =
      (snap.sessions.map SessionInfo.id).filter (fun sid => sid.port == pid) := by
  simp only [Sys.runtime, Runtime.sessions, Std.TreeMap.getElem?_insert_self, Option.map_some,
    Option.getD_some, List.filter_map, List.map_map]
  rfl

/-- A port is updated only in place. -/
theorem updated_inPlace {np : Conf.Port} {listen : Listen}
    (hk : np.kind = .tcpServer listen n allow announce)
    (ha : (comparePort net rt bid p.port np).action = .updated) :
    np.role = .app ∧ listen = p.listen := by
  by_cases hrole : p.port.role = np.role
  · have hrestart : (compareKind net rt bid p.port np).restart = false := by
      simp only [comparePort, hrole, ne_eq, not_true, if_false] at ha
      split at ha
      · cases ha
      · rename_i hr
        simpa using hr
    rw [PlanFacts.compareKind_restart, hk] at hrestart
    refine ⟨hrole.symm, ?_⟩
    have hl : (p.listen == listen) = true := by
      simpa [TcpServerPort.port, PlanFacts.sameLink] using hrestart
    exact (beq_iff_eq.mp hl).symm
  · simp [comparePort, hrole, Diff.relink] at ha

def change (p : TcpServerPort) (live : TcpLive) (announce : Bool) : InPlace where
  id := p.portId
  role := .app
  listen := p.listen
  oldMax := p.live.maxClients
  newMax := live.maxClients
  oldAllow := p.live.allow
  newAllow := live.allow
  oldAnnounce := p.announce
  newAnnounce := announce

theorem update_spec (hu : s.update net snap np = some u) :
    ∃ p, s.tcp[np.1]? = some p ∧ u.server = np.1 ∧ u.kicks =
      (comparePort net (s.runtime snap) s.run.id (change p u.live u.announce).old
        (change p u.live u.announce).new).disconnects := by
  obtain ⟨server, np⟩ := np
  obtain ⟨p, hp, hu⟩ := Option.bind_eq_some_iff.mp hu
  refine ⟨p, hp, ?_⟩
  dsimp only at hu
  split at hu
  · rename_i listen n allow announce ha hk
    obtain ⟨hrole, rfl⟩ := updated_inPlace hk ha
    obtain rfl := Option.some.inj hu
    obtain ⟨pid, role, kind⟩ := np
    dsimp only at hk hrole
    subst hk hrole
    exact ⟨rfl, rfl⟩
  · cases hu

theorem update_live (hu : s.update net snap np = some u) :
    ∃ listen, np.2.kind = .tcpServer listen u.live.maxClients u.live.allow u.announce := by
  obtain ⟨p, -, hu⟩ := Option.bind_eq_some_iff.mp hu
  dsimp only at hu
  split at hu
  · rename_i listen n allow announce ha hk
    obtain rfl := Option.some.inj hu
    exact ⟨listen, hk⟩
  · cases hu

section
variable {c : InPlace} {rt : Runtime} {ids : List SessionId}
  (hsame : ((rt.sessions bid c.id).map SessionView.id).Perm
      (ids.filter (fun sid => sid.port == c.id)))
include hsame

theorem kicks_rejected (ha : c.newAllow ≠ c.oldAllow) (hsid : sid ∈ ids) (hport : sid.port = c.id)
    (hno : ¬Allows net c.newAllow sid) :
    sid ∈ (comparePort net rt bid c.old c.new).disconnects := by
  have hm : sid ∈ (rt.sessions bid c.id).map SessionView.id :=
    hsame.mem_iff.mpr (List.mem_filter.mpr ⟨hsid, by simp [hport]⟩)
  obtain ⟨x, hx, rfl⟩ := List.mem_map.mp hm
  refine (mem_disconnects net rt bid c).mpr (.inl ⟨x, hx, rfl, ?_⟩)
  obtain ⟨ip, hip, hrej⟩ : ∃ ip, x.id.peer.ip = some ip ∧ allowed net c.newAllow ip = false := by
    by_contra hall
    refine hno (fun ip hip => ?_)
    by_contra hf
    exact hall ⟨ip, hip, by simpa using hf⟩
  have hne : (c.oldAllow == c.newAllow) = false := beq_eq_false_iff_ne.mpr (Ne.symm ha)
  simp [InPlace.stays, hne, hip, hrej]

theorem kicks_beyond (hnodup : ids.Nodup) (hmax : c.newMax ≠ c.oldMax) (hn : c.newMax = some n) :
    (ids.filter (fun sid => sid.port == c.id &&
      !(comparePort net rt bid c.old c.new).disconnects.contains sid)).length ≤ n.toNat := by
  have hd : ((rt.sessions bid c.id).map SessionView.id).Nodup :=
    hsame.nodup_iff.mpr (hnodup.filter _)
  have hlimit : c.limit = some n.toNat := by
    rw [InPlace.limit, if_neg (fun he => hmax he.symm), hn]
    rfl
  have hsplit : ids.filter (fun sid => sid.port == c.id &&
      !(comparePort net rt bid c.old c.new).disconnects.contains sid) =
      (ids.filter (fun sid => sid.port == c.id)).filter (fun sid =>
        !(comparePort net rt bid c.old c.new).disconnects.contains sid) := by
    rw [List.filter_filter]
    exact List.filter_congr (fun sid _ => Bool.and_comm _ _)
  have hsurv := congrArg List.length (survivors_eq net rt bid c hd)
  have hage : ((byAge (rt.sessions bid c.id)).filter (fun x =>
      decide (x.id ∉ (comparePort net rt bid c.old c.new).disconnects))).length =
      (((rt.sessions bid c.id).map SessionView.id).filter (fun sid =>
        !(comparePort net rt bid c.old c.new).disconnects.contains sid)).length := by
    rw [List.filter_map, List.length_map]
    refine Eq.trans ?_
      ((List.mergeSort_perm (rt.sessions bid c.id) (fun a b => a.seq ≤ b.seq)).filter _).length_eq
    refine congrArg List.length (List.filter_congr (fun x _ => ?_))
    simp
  rw [hsplit, ← (hsame.filter _).length_eq, ← hage, hsurv, hlimit]
  exact (List.length_filter_le _ _).trans (List.length_take_le _ _)

end

theorem update_covers (hu : s.update net snap np = some u) (hshow : Shows snap seen) :
    ∃ p, s.tcp[u.server]? = some p ∧ Covers net (seen.map Prod.fst) p u := by
  obtain ⟨p, hp, hserver, hkicks⟩ := update_spec hu
  have hsame :
    (((s.runtime snap).sessions s.run.id (change p u.live u.announce).id).map SessionView.id).Perm
      ((seen.map Prod.fst).filter (fun sid => sid.port == (change p u.live u.announce).id)) := by
    rw [runtime_sessions]
    exact hshow.same.filter _
  refine ⟨p, hserver ▸ hp, fun ha sid hsid hport hno => ?_, fun hmax n hn => ?_⟩
  · rw [hkicks]
    exact kicks_rejected hsame ha hsid hport hno
  · rw [hkicks]
    exact kicks_beyond hsame hshow.nodup hmax hn

def Watched (net : IpNetLib) (s : Sys) : Prop :=
  match s.reload with
  | .idle | .asked => True
  | .answered snap seen => Shows snap seen ∧ ∀ x ∈ seen, Known s x
  | .applying seen _ rest => (∀ x ∈ seen, Known s x) ∧ (rest.map Update.server).Nodup ∧
    ∀ u ∈ rest, ∃ p, s.tcp[u.server]? = some p ∧ Covers net (seen.map Prod.fst) p u

theorem Covers.congr (h : Covers net ids p u) (hs : (p'.portId, p'.live) = (p.portId, p.live)) :
    Covers net ids p' u := by
  obtain ⟨hid, hlive⟩ := Prod.mk.inj hs
  refine ⟨fun ha sid hm hport hno => ?_, fun hmax n hn => ?_⟩
  · exact h.allow (hlive ▸ ha) sid hm (hport.trans hid) hno
  · rw [hid]
    exact h.limit (hlive ▸ hmax) n hn

/-- A reload that a step leaves where it is. -/
theorem watched_aside (ho : Ordered s) (hg : Tagged s) (hs : s.step net e = some s')
    (hne : e ≠ .reload .updates) (hr : s'.reload = s.reload) (h : Watched net s) :
    Watched net s' := by
  have hknown : ∀ {seen : List (SessionId × Nat)}, (∀ x ∈ seen, Known s x) → ∀ x ∈ seen,
      Known s' x :=
    fun hk x hx => known_step ho hg hs (hk x hx)
  unfold Watched at h ⊢
  rw [hr]
  split at h
  · trivial
  · trivial
  · exact ⟨h.1, hknown h.2⟩
  · obtain ⟨hk, hnodup, hcovers⟩ := h
    refine ⟨hknown hk, hnodup, fun u hu => ?_⟩
    obtain ⟨p, hp, hc⟩ := hcovers u hu
    obtain ⟨p', hp', hset⟩ := step_settings hs hne u.server p hp
    exact ⟨p', hp', hc.congr hset⟩

theorem servers_sublist (s : Sys) (nps : List (Nat × Conf.Port)) :
    ((nps.filterMap (s.update net snap)).map Update.server).Sublist (nps.map Prod.fst) := by
  induction nps with
  | nil => exact .slnil
  | cons np nps ih =>
    rw [List.map_cons]
    cases hu : s.update net snap np with
    | none =>
      rw [List.filterMap_cons_none hu]
      exact ih.cons _
    | some u =>
      obtain ⟨p, -, hserver, -⟩ := update_spec hu
      rw [List.filterMap_cons_some hu, List.map_cons, hserver]
      exact ih.cons_cons _

theorem bridge_watched (ho : Ordered s) (hg : Tagged s) (hs : s.step net (.bridge e) = some s')
    (h : Watched net s) : Watched net s' := by
  have hstep := hs
  cases bridge_turn hs with
  | takes | turn | frame | command => exact watched_aside ho hg hstep nofun rfl h
  | @takesCmd c cmds now run hq hr =>
    by_cases hc : c = .snapshot ∧ s.reload = .asked
    · unfold Watched
      simp only [hc, and_self, if_true]
      rw [if_pos hc] at hstep
      exact ⟨shows_snapshot s, fun x hx => known_step ho hg hstep (known_seen hg hx)⟩
    · refine watched_aside ho hg hstep nofun ?_ h
      simp only [if_neg hc]

theorem reload_watched (ho : Ordered s) (hg : Tagged s) (hs : s.step net (.reload e) = some s')
    (h : Watched net s) : Watched net s' := by
  have hstep := hs
  have hknown : ∀ {seen : List (SessionId × Nat)}, (∀ x ∈ seen, Known s x) → ∀ x ∈ seen,
      Known s' x :=
    fun hk x hx => known_step ho hg hstep (hk x hx)
  cases reload_turn hs with
  | asks => trivial
  | applied => trivial
  | @plans snap seen nps hi hnodup =>
    rw [Watched, hi] at h
    refine ⟨hknown h.2, (servers_sublist s nps).nodup hnodup, fun u hu => ?_⟩
    obtain ⟨np, -, hu⟩ := List.mem_filterMap.mp hu
    exact update_covers hu h.1
  | @updates seen rest u p hi hp =>
    rw [Watched, hi] at h
    obtain ⟨hk, hnodup, hcovers⟩ := h
    rw [List.map_cons, List.nodup_cons] at hnodup
    refine ⟨hknown hk, hnodup.2, fun v hv => ?_⟩
    obtain ⟨q, hq, hc⟩ := hcovers v (List.mem_cons_of_mem _ hv)
    refine ⟨q, ?_, hc⟩
    have hne : u.server ≠ v.server := by
      intro he
      exact hnodup.1 (he ▸ List.mem_map_of_mem hv)
    dsimp only
    rw [List.getElem?_set_ne hne, hq]
  | @kicks seen sid kicks rest hi =>
    rw [Watched, hi] at h
    exact ⟨hknown h.1, h.2⟩

theorem step_watched (ho : Ordered s) (hg : Tagged s) (hs : s.step net e = some s')
    (h : Watched net s) : Watched net s' := by
  cases e with
  | bridge e => exact bridge_watched ho hg hs h
  | reload e => exact reload_watched ho hg hs h
  | tcp e =>
    refine watched_aside ho hg hs nofun ?_ h
    cases tcp_turn hs <;> rfl
  | ble e =>
    refine watched_aside ho hg hs nofun ?_ h
    cases ble_turn hs <;> rfl

/-- A session that runs and has not been told to end, which the plan was made
without. -/
structure Missed (s : Sys) (seen : List (SessionId × Nat)) (server task : Nat) (t : TcpSession) :
    Prop where
  found : s.sessions[task]? = some t
  server : t.server = server
  running : t.running = true
  kept : ¬Cancelled s task
  unseen : (Owner.tcp task).token ∉ seen.map Prod.snd

def runningAt (s : Sys) (server : Nat) : List TcpSession :=
  s.sessions.filter (fun t => t.server == server && t.running)

/-- When new limits reach a port, nobody got in between the snapshot and them
whom they would keep out: a new list allows the sessions the snapshot did not
show and the client just taken; under a new limit there are none of either, or
there is room for all. -/
def Gapless (net : IpNetLib) (s : Sys) : Prop :=
  ∀ seen u rest p, s.reload = .applying seen [] (u :: rest) → s.tcp[u.server]? = some p →
    (u.live.allow ≠ p.live.allow →
      (∀ task t, Missed s seen u.server task t → Allows net u.live.allow t.id) ∧
        ∀ peer live, p.taken = some (peer, live) → allowed net live.allow peer.ip = true →
          allowed net u.live.allow peer.ip = true) ∧
    (u.live.maxClients ≠ p.live.maxClients → ∀ n, u.live.maxClients = some n →
      (p.taken = none ∧ ∀ task t, ¬Missed s seen u.server task t) ∨
        (runningAt s u.server).length + p.taken.isSome.toNat ≤ n.toNat)

/-- Sessions are told of in order, and no reload finds a gap. -/
def Timely (net : IpNetLib) (s : Sys) (e : Step) : Prop :=
  Orderly s e ∧ (e = .reload .updates → Gapless net s)

/-- Who stays is known from the snapshot and not kicked, or was missed. -/
theorem stays_seen (hk : ∀ x ∈ seen, Known s x) (hsessions : s'.sessions = s.sessions)
    (hrun : s'.run = s.run) (hr : s'.reload = .applying seen kicks rest)
    (h : Stays s' server task t) :
    (t.id, (Owner.tcp task).token) ∈ seen ∧ t.id ∉ kicks ∨ Missed s seen server task t := by
  have hfound : s.sessions[task]? = some t := hsessions ▸ h.found
  by_cases hm : (Owner.tcp task).token ∈ seen.map Prod.snd
  · obtain ⟨⟨sid, k⟩, hx, hk'⟩ := List.mem_map.mp hm
    obtain ⟨t', ht', hid, hreg⟩ := hk (sid, k) hx task hk'
    obtain rfl := Option.some.inj (hfound.symm.trans ht')
    have hreg := hreg h.running
    dsimp only at hk' hid hreg
    subst hk' hid
    refine .inl ⟨hx, fun hkick => h.kept (.inr ⟨?_, .inr ?_⟩)⟩
    · rw [registered_of_sessions (congrArg Run.sessions hrun)]
      exact hreg
    · rw [hr]
      exact hkick
  · refine .inr ⟨hfound, h.server, h.running, fun hc => h.kept (.inl ?_), hm⟩
    rw [Cancelled, hrun]
    exact hc

/-- As many stay as the snapshot showed and the kicks leave. -/
theorem stays_card {seen : List (SessionId × Nat)} (keep : SessionId → Bool) (tasks : Finset Nat)
    (h : ∀ task ∈ tasks, ∃ sid, (sid, (Owner.tcp task).token) ∈ seen ∧ keep sid = true) :
    tasks.card ≤ ((seen.map Prod.fst).filter keep).length := by
  have hsub : tasks.image (fun task => (Owner.tcp task).token) ⊆
      ((seen.filter (fun x => keep x.1)).map Prod.snd).toFinset := by
    intro k hkm
    obtain ⟨task, hx, rfl⟩ := Finset.mem_image.mp hkm
    obtain ⟨sid, hm, hkeep⟩ := h task hx
    rw [List.mem_toFinset]
    exact List.mem_map.mpr ⟨_, List.mem_filter.mpr ⟨hm, hkeep⟩, rfl⟩
  have hinj : Function.Injective (fun task => (Owner.tcp task).token) := fun a b he =>
    Owner.tcp.inj (token_injective he)
  calc tasks.card = (tasks.image (fun task => (Owner.tcp task).token)).card :=
        (Finset.card_image_of_injective tasks hinj).symm
    _ ≤ ((seen.filter (fun x => keep x.1)).map Prod.snd).toFinset.card := Finset.card_le_card hsub
    _ ≤ ((seen.filter (fun x => keep x.1)).map Prod.snd).length := List.toFinset_card_le _
    _ = ((seen.map Prod.fst).filter keep).length := by
      rw [List.length_map, List.filter_map, List.length_map]
      rfl

theorem card_running (s : Sys) (server : Nat) (tasks : Finset Nat)
    (h : ∀ task ∈ tasks, ∃ t, s.sessions[task]? = some t ∧
    t.server = server ∧ t.running = true) : tasks.card ≤ (runningAt s server).length := by
  rw [runningAt, ← card_indices]
  refine Finset.card_le_card (fun task hx => mem_indices.mpr ?_)
  obtain ⟨t, ht, hserver, hrun⟩ := h task hx
  exact ⟨t, ht, by simp [hserver, hrun]⟩

/-- New limits bind where nobody got in between. -/
theorem within_updates (hh : Homed s) (hw : Watched net s) (hgap : Gapless net s)
    (hstay : ∀ server task t', Stays s' server task t' → ∃ t, Stays s server task t ∧ t.id = t'.id)
    (hi : s.reload = .applying seen [] (u :: rest)) (hp : s.tcp[u.server]? = some p)
    (hs' : s' = { s with
      tcp := s.tcp.set u.server { p with live := u.live, announce := u.announce }
      reload := .applying seen u.kicks rest })
    (h : Within net s u.server p) :
    Within net s' u.server { p with live := u.live, announce := u.announce } := by
  obtain ⟨hallow, hmax⟩ := hgap seen u rest p hi hp
  rw [Watched, hi] at hw
  obtain ⟨hk, -, hcovers⟩ := hw
  obtain ⟨q, hq, hc⟩ := hcovers u (List.mem_cons_self ..)
  obtain rfl := Option.some.inj (hp.symm.trans hq)
  have hseen : ∀ {task t}, Stays s' u.server task t →
      (t.id, (Owner.tcp task).token) ∈ seen ∧ t.id ∉ u.kicks ∨ Missed s seen u.server task t :=
    fun ht => stays_seen hk (by rw [hs']) (by rw [hs']) (by rw [hs']) ht
  have hport : ∀ {task t}, Stays s' u.server task t → t.id.port = p.portId := by
    intro task t ht
    have hfound : s.sessions[task]? = some t := by
      have := ht.found
      rwa [hs'] at this
    obtain ⟨q, hq, hid⟩ := hh.named task t hfound
    rw [ht.server, hp] at hq
    obtain rfl := Option.some.inj hq
    exact hid
  refine ⟨fun task t ht => ?_, fun peer live hl ha => ?_, fun n hn tasks hm => ?_⟩
  · by_cases he : u.live.allow = p.live.allow
    · obtain ⟨t₀, ht₀, hid⟩ := hstay _ _ _ ht
      dsimp only
      rw [he, ← hid]
      exact h.allowed task t₀ ht₀
    · rcases hseen ht with ⟨hm, hkick⟩ | hmiss
      · by_contra hno
        exact hkick (hc.allow he t.id (List.mem_map_of_mem hm) (hport ht) hno)
      · exact (hallow he).1 task t hmiss
  · by_cases he : u.live.allow = p.live.allow
    · dsimp only
      rw [he]
      exact h.taken peer live hl ha
    · exact (hallow he).2 peer live hl ha
  · by_cases he : u.live.maxClients = p.live.maxClients
    · have hcard := h.limit n (he ▸ hn) tasks (fun task hx => by
        obtain ⟨t, ht⟩ := hm task hx
        obtain ⟨t₀, ht₀, -⟩ := hstay _ _ _ ht
        exact ⟨t₀, ht₀⟩)
      have hstale : stale { p with live := u.live, announce := u.announce } = stale p := by
        simp only [stale, he]
      rw [hstale]
      exact hcard
    · rcases hmax he n hn with ⟨hnone, hnobody⟩ | hroom
      · have hcard := stays_card (fun sid => sid.port == p.portId && !u.kicks.contains sid) tasks
          (fun task hx => by
            obtain ⟨t, ht⟩ := hm task hx
            obtain ⟨hmem, hkick⟩ := (hseen ht).resolve_right (hnobody task t)
            exact ⟨t.id, hmem, by simp [hport ht, hkick]⟩)
        have hlimit := hc.limit he n hn
        have hstale : stale { p with live := u.live, announce := u.announce } = 0 := by
          simp [stale, hnone]
        omega
      · have hcard := card_running s u.server tasks (fun task hx => by
          obtain ⟨t, ht⟩ := hm task hx
          have hfound := ht.found
          rw [hs'] at hfound
          exact ⟨t, hfound, ht.server, ht.running⟩)
        have hstale : stale { p with live := u.live, announce := u.announce } ≤
            p.taken.isSome.toNat := by
          unfold stale
          dsimp only
          split
          · rename_i hl
            rw [hl]
            split <;> simp
          · simp
        omega

theorem Bound.next (h : Bound net s)
    (hstay : ∀ server task t', Stays s' server task t' → ∃ t, Stays s server task t ∧ t.id = t'.id)
    (htcp : ∀ (server : Nat) p', s'.tcp[server]? = some p' →
      ∃ p, s.tcp[server]? = some p ∧ p'.live = p.live ∧
      (p'.taken = p.taken ∨ p'.taken = none ∨ ∃ peer, p'.taken = some (peer, p'.live))) :
    Bound net s' := by
  intro server p' hp'
  obtain ⟨p, hp, hlive, htaken⟩ := htcp server p' hp'
  exact (h server p hp).next (hstay server) hlive htaken

theorem admits_bound (hb : Bound net s) (hh : Homed s) (hp : s.tcp[server]? = some p)
    (htaken : p.taken = some (peer, live)) (hadmits : p.admits net peer live = true)
    (hs' : s' = { s with
      tcp := s.tcp.set server { p with taken := none, sessions := p.sessions + 1 }
      sessions := s.sessions ++ [⟨server, ⟨p.portId, .tcp peer⟩, .opening⟩] })
    (hstay : ∀ server task t', Stays s' server task t' → task < s.sessions.length →
      ∃ t, Stays s server task t ∧ t.id = t'.id) : Bound net s' := by
  have hnew : ∀ {other task t'}, Stays s' other task t' →
    (∃ t, Stays s other task t ∧ t.id = t'.id) ∨
      task = s.sessions.length ∧ t' = ⟨server, ⟨p.portId, .tcp peer⟩, .opening⟩ := by
    intro other task t' ht
    have hfound := ht.found
    rw [hs'] at hfound
    rcases getElem?_snoc_cases hfound with he | hold
    · exact .inr he
    · exact .inl (hstay _ _ _ ht (List.getElem?_eq_some_iff.mp hold).1)
  intro other p' hp'
  have htcp : (s.tcp.set server { p with taken := none, sessions := p.sessions + 1 })[other]? =
      some p' := by
    rw [hs'] at hp'
    exact hp'
  rcases getElem?_set_cases htcp with ⟨rfl, rfl⟩ | ⟨hne, hq⟩
  · refine within_admits (hb other p hp) hh hp htaken hadmits (fun task t' ht => ?_) rfl rfl
    exact (hnew ht).imp_right (fun he => ⟨he.1, by rw [he.2]⟩)
  · refine (hb other p' hq).next (fun task t' ht => ?_) rfl (.inl rfl)
    rcases hnew ht with hold | ⟨-, rfl⟩
    · exact hold
    · exact absurd ht.server.symm hne

theorem tcp_bound (ho : Ordered s) (hg : Tagged s) (hh : Homed s) (hb : Bound net s)
    (hs : s.step net (.tcp e) = some s') : Bound net s' := by
  have hstep := hs
  have hold : ∀ server task t', Stays s' server task t' → task < s.sessions.length →
      ∃ t, Stays s server task t ∧ t.id = t'.id := fun _ _ _ ht hlt => stays_step ho hg hstep ht hlt
  have hstay : s'.sessions.length = s.sessions.length → ∀ server task t', Stays s' server task t' →
      ∃ t, Stays s server task t ∧ t.id = t'.id := by
    intro hlen server task t' ht
    exact hold _ _ _ ht (hlen ▸ (List.getElem?_eq_some_iff.mp ht.found).1)
  cases tcp_turn hs with
  | admits hp htaken hadmits => exact admits_bound hb hh hp htaken hadmits rfl hold
  | opens => exact hb.next (hstay (List.length_set ..)) (fun _ p' hp' => ⟨p', hp', rfl, .inl rfl⟩)
  | breaks => exact hb.next (hstay (List.length_set ..)) (fun _ p' hp' => ⟨p', hp', rfl, .inl rfl⟩)
  | closes => exact hb.next (hstay (List.length_set ..)) (fun _ p' hp' => ⟨p', hp', rfl, .inl rfl⟩)
  | uncounts _ hp =>
    refine hb.next (hstay (List.length_set ..)) (fun other p' hp' => ?_)
    rcases getElem?_set_cases hp' with ⟨rfl, rfl⟩ | ⟨-, hq⟩
    · exact ⟨_, hp, rfl, .inl rfl⟩
    · exact ⟨p', hq, rfl, .inl rfl⟩
  | stops hp =>
    refine hb.next (hstay rfl) (fun other p' hp' => ?_)
    rcases getElem?_set_cases hp' with ⟨rfl, rfl⟩ | ⟨-, hq⟩
    · exact ⟨_, hp, rfl, .inl rfl⟩
    · exact ⟨p', hq, rfl, .inl rfl⟩
  | accepts hp =>
    refine hb.next (hstay rfl) (fun other p' hp' => ?_)
    rcases getElem?_set_cases hp' with ⟨rfl, rfl⟩ | ⟨-, hq⟩
    · exact ⟨_, hp, rfl, .inr (.inr ⟨_, rfl⟩)⟩
    · exact ⟨p', hq, rfl, .inl rfl⟩
  | refuses hp =>
    refine hb.next (hstay rfl) (fun other p' hp' => ?_)
    rcases getElem?_set_cases hp' with ⟨rfl, rfl⟩ | ⟨-, hq⟩
    · exact ⟨_, hp, rfl, .inr (.inl rfl)⟩
    · exact ⟨p', hq, rfl, .inl rfl⟩
  | starts =>
    intro other p' hp'
    rcases getElem?_snoc_cases hp' with ⟨rfl, rfl⟩ | hq
    · refine .nobody (fun task t ht => ?_) rfl
      obtain ⟨t₀, ht₀, -⟩ := hstay rfl _ _ _ ht
      obtain ⟨p, hp, -⟩ := hh.named task t₀ ht₀.found
      rw [ht₀.server, List.getElem?_eq_none (Nat.le_refl _)] at hp
      cases hp
    · exact (hb other p' hq).next (hstay rfl other) rfl (.inl rfl)

theorem reload_bound (ho : Ordered s) (hg : Tagged s) (hh : Homed s) (hw : Watched net s)
    (hb : Bound net s)
    (hok : Timely net s (.reload e)) (hs : s.step net (.reload e) = some s') : Bound net s' := by
  have hstep := hs
  have hstay : s'.sessions.length = s.sessions.length → ∀ server task t', Stays s' server task t' →
      ∃ t, Stays s server task t ∧ t.id = t'.id := by
    intro hlen server task t' ht
    exact stays_step ho hg hstep ht (hlen ▸ (List.getElem?_eq_some_iff.mp ht.found).1)
  cases reload_turn hs with
  | asks | plans | kicks | applied =>
    exact hb.next (hstay rfl) (fun _ p' hp' => ⟨p', hp', rfl, .inl rfl⟩)
  | @updates seen rest u p hi hp =>
    intro other p' hp'
    rcases getElem?_set_cases hp' with ⟨rfl, rfl⟩ | ⟨-, hq⟩
    · exact within_updates hh hw (hok.2 rfl) (hstay rfl) hi hp rfl (hb _ p hp)
    · exact (hb other p' hq).next (hstay rfl other) rfl (.inl rfl)

theorem step_bound (ho : Ordered s) (hg : Tagged s) (hh : Homed s) (hw : Watched net s)
    (hb : Bound net s) (hok : Timely net s e) (hs : s.step net e = some s') : Bound net s' := by
  have hstep := hs
  cases e with
  | tcp e => exact tcp_bound ho hg hh hb hs
  | reload e => exact reload_bound ho hg hh hw hb hok hs
  | bridge e =>
    refine hb.next (fun server task t' ht => stays_step ho hg hstep ht ?_)
      (fun _ p' hp' => ⟨p', ?_, rfl, .inl rfl⟩)
    · have hlt := (List.getElem?_eq_some_iff.mp ht.found).1
      cases bridge_turn hs <;> exact hlt
    · cases bridge_turn hs <;> exact hp'
  | ble e =>
    refine hb.next (fun server task t' ht => stays_step ho hg hstep ht ?_)
      (fun _ p' hp' => ⟨p', ?_, rfl, .inl rfl⟩)
    · have hlt := (List.getElem?_eq_some_iff.mp ht.found).1
      cases ble_turn hs <;> exact hlt
    · cases ble_turn hs <;> exact hp'

structure Kept (net : IpNetLib) (s : Sys) : Prop where
  ordered : Ordered s
  tagged : Tagged s
  homed : Homed s
  watched : Watched net s
  bound : Bound net s

theorem step_kept (h : Kept net s) (hok : Timely net s e) (hs : s.step net e = some s') :
    Kept net s' where
  ordered := step_ordered h.ordered hok.1 hs
  tagged := step_tagged h.tagged hs
  homed := step_homed h.homed hs
  watched := step_watched h.ordered h.tagged hs h.watched
  bound := step_bound h.ordered h.tagged h.homed h.watched h.bound hok hs

theorem start_kept (net : IpNetLib) (bridge : String) (connector : Connector)
    (settings : TncSettings) (now : Now) : Kept net (Sys.start bridge connector settings now) where
  ordered := start_ordered ..
  tagged := by
    refine ⟨fun sid task hreg => ?_, fun _ _ _ _ hm => ?_, fun _ _ hm => ?_⟩
    · rw [start_registered] at hreg
      cases hreg
    · cases hm
    · cases hm
  homed := ⟨fun _ _ ht => (by cases ht), fun _ _ hp => (by cases hp)⟩
  watched := trivial
  bound := fun _ _ hp => by cases hp

/-- The reload is over, and whoever was to go has gone. -/
structure Quiet (s : Sys) : Prop where
  applied : s.reload = .idle
  taken : s.cmds = []
  gone : ∀ (task : Nat) t, s.sessions[task]? = some t → t.running = true → ¬Cancelled s task

structure Binds (net : IpNetLib) (s : Sys) (server : Nat) (p : TcpServerPort) : Prop where
  allowed : ∀ t ∈ runningAt s server, Allows net p.live.allow t.id
  limit : ∀ n, p.live.maxClients = some n → (runningAt s server).length ≤ n.toNat

/-- In every run that is timely, once a reload is over and its kicks are taken,
nobody is left whom a port's allow list rejects, and no more than its limit. -/
theorem limits_bind
    (hr : Reach (Sys.step net) (Timely net) (Sys.start bridge connector settings now) es s)
    (hq : Quiet s) (hp : s.tcp[server]? = some p) : Binds net s server p := by
  have hk : Kept net s := hr.invariant (start_kept ..) (fun _ _ _ h hok hs => step_kept h hok hs)
  have hw := hk.bound server p hp
  have hstays : ∀ {task t}, s.sessions[task]? = some t → t.server = server → t.running = true →
      Stays s server task t := by
    intro task t ht hserver hrun
    refine ⟨ht, hserver, hrun, ?_⟩
    rintro (hc | ⟨-, hm | hm⟩)
    · exact hq.gone task t ht hrun hc
    · rw [hq.taken] at hm
      cases hm
    · rw [hq.applied] at hm
      cases hm
  refine ⟨fun t ht => ?_, fun n hn => ?_⟩
  · obtain ⟨hm, hrun⟩ := List.mem_filter.mp ht
    simp only [Bool.and_eq_true, beq_iff_eq] at hrun
    obtain ⟨task, ht⟩ := List.mem_iff_getElem?.mp hm
    exact hw.allowed task t (hstays ht hrun.1 hrun.2)
  · rw [runningAt, ← card_indices]
    refine (Nat.le_add_right _ _).trans (hw.limit n hn _ (fun task hx => ?_))
    obtain ⟨t, ht, hrun⟩ := mem_indices.mp hx
    simp only [Bool.and_eq_true, beq_iff_eq] at hrun
    exact ⟨t, hstays ht hrun.1 hrun.2⟩

theorem kicks_nil (hu : s.update net snap np = some u) (hnone : snap.sessions = []) :
    u.kicks = [] := by
  obtain ⟨p, -, -, hkicks⟩ := update_spec hu
  have hids := runtime_sessions s snap (change p u.live u.announce).id
  rw [hnone] at hids
  have hnil := List.map_eq_nil_iff.mp hids
  rw [hkicks, List.eq_nil_iff_forall_not_mem]
  intro sid hsid
  rcases (mem_disconnects ..).mp hsid with ⟨x, hx, -⟩ | ⟨x, hx, -⟩
  · rw [hnil] at hx
    cases hx
  · rw [hnil, byAge, List.mergeSort_nil] at hx
    cases hl : (change p u.live u.announce).limit <;> simp [beyond, hl] at hx

/-- A new list that rejects one of the sessions shown kicks that one. -/
theorem kicks_one (hu : s.update net snap np = some u) (hshow : Shows snap seen)
    (hp : s.tcp[np.1]? = some p) (hmax : u.live.maxClients = p.live.maxClients)
    (hallow : u.live.allow ≠ p.live.allow)
    (hone : ((seen.map Prod.fst).filter (fun sid => sid.port == p.portId)).filter
      (fun sid => sid.peer.ip.any (fun ip => !allowed net u.live.allow ip)) = [sid]) :
    u.kicks = [sid] := by
  obtain ⟨q, hq, -, hkicks⟩ := update_spec hu
  obtain rfl := Option.some.inj (hp.symm.trans hq)
  have hlimit : (change p u.live u.announce).limit = none := if_pos hmax.symm
  have hne : (p.live.allow == u.live.allow) = false := beq_eq_false_iff_ne.mpr hallow.symm
  have hids := runtime_sessions s snap p.portId
  have hrejected : (((s.runtime snap).sessions s.run.id p.portId).filter (fun x =>
      !(change p u.live u.announce).stays net x)).map SessionView.id = [sid] := by
    have hfilter : (((s.runtime snap).sessions s.run.id p.portId).filter (fun x =>
        !(change p u.live u.announce).stays net x)).map SessionView.id =
        (((s.runtime snap).sessions s.run.id p.portId).map SessionView.id).filter
          (fun sid => sid.peer.ip.any (fun ip => !allowed net u.live.allow ip)) := by
      rw [List.filter_map]
      refine congrArg _ (List.filter_congr (fun x _ => ?_))
      simp [InPlace.stays, change, hne]
    rw [hfilter, hids, ← List.perm_singleton, ← hone]
    exact (hshow.same.filter _).filter _
  have hkick : (compareKind net (s.runtime snap) s.run.id (change p u.live u.announce).old
      (change p u.live u.announce).new).kick = [sid] := by
    rw [inPlace_kick, hlimit, beyond, List.map_nil, List.append_nil]
    exact hrejected
  rw [hkicks, disconnects_eq, hkick, List.mergeSort_singleton]
  rfl

/-- A reload of one port kicks whom its update says. -/
theorem tightens_kicks (hr : s.reload = .answered snap seen)
    (hkicks : ∀ u, s.update net snap np = some u → u.kicks = kicks)
    (hplans : s.reloadStep net (.plans [np]) = some s₁)
    (hupdates : s₁.reloadStep net .updates = some s₂) : s₂.reload = .applying seen kicks [] := by
  cases reload_turn hplans with
  | @plans snap' seen' _ hi _ =>
    rw [hr] at hi
    cases hi
    cases reload_turn hupdates with
    | @updates seen rest u p hi' _ =>
      cases hu : s.update net snap np with
      | none => simp [hu] at hi'
      | some v =>
        simp only [List.filterMap_cons, hu, List.filterMap_nil, Reload.applying.injEq,
          List.cons.injEq] at hi'
        obtain ⟨rfl, -, rfl, rfl⟩ := hi'
        rw [hkicks v hu]

def isAside : Step → Bool
  | .tcp _ | .ble _ | .bridge (.takes _) => true
  | _ => false

theorem aside_reload (he : isAside e = true) (hs : s.step net e = some s') :
    s'.reload = s.reload := by
  cases e with
  | tcp e => cases tcp_turn hs <;> rfl
  | ble e => cases ble_turn hs <;> rfl
  | reload e => cases he
  | bridge e => cases bridge_turn hs <;> first | rfl | cases he

theorem foldlM_reload {es : List Step} (h : ∀ e ∈ es, isAside e = true)
    (hs : es.foldlM (Sys.step net) s = some s') : s'.reload = s.reload := by
  induction es generalizing s with
  | nil =>
    cases hs
    rfl
  | cons e es ih =>
    obtain ⟨t, ht, hs⟩ := Option.bind_eq_some_iff.mp hs
    rw [ih (fun x hx => h x (List.mem_cons_of_mem _ hx)) hs]
    exact aside_reload (h e (List.mem_cons_self ..)) ht

/-- A check that no reload finds a gap: it was planned with every client there is. -/
def isTimely (s : Sys) (e : Step) : Bool :=
  isOrderly s e && match e, s.reload with
    | .reload .updates, .applying seen _ _ =>
      (List.range s.sessions.length).all
        (fun task => (seen.map Prod.snd).contains (Owner.tcp task).token) &&
        s.tcp.all (fun p => p.taken.isNone)
    | _, _ => true

theorem timely_of_isTimely (net : IpNetLib) (s : Sys) (e : Step) (h : isTimely s e = true) :
    Timely net s e := by
  obtain ⟨ho, hg⟩ := (Bool.and_eq_true _ _).mp h
  refine ⟨orderly_of_isOrderly s e ho, ?_⟩
  rintro rfl seen u rest p hr hp
  rw [hr] at hg
  obtain ⟨hseen, hall⟩ := (Bool.and_eq_true _ _).mp hg
  have htaken : p.taken = none := by
    simpa using List.all_eq_true.mp hall p (List.mem_of_getElem? hp)
  have hmissed : ∀ task t, ¬Missed s seen u.server task t := by
    intro task t hm
    have htask := (List.getElem?_eq_some_iff.mp hm.found).1
    exact hm.unseen
      (List.contains_iff_mem.mp (List.all_eq_true.mp hseen task (List.mem_range.mpr htask)))
  refine ⟨fun _ => ⟨fun task t hm => absurd hm (hmissed task t), fun peer live hl => ?_⟩,
    fun _ _ _ => .inl ⟨htaken, hmissed⟩⟩
  rw [htaken] at hl
  cases hl

def seenBy : Reload → Option (List (SessionId × Nat))
  | .answered _ seen => some seen
  | _ => none

theorem seenBy_some {r : Reload} (h : seenBy r = some seen) : ∃ snap, r = .answered snap seen := by
  cases r with
  | idle | asked | applying => cases h
  | answered snap seen' =>
    obtain rfl := Option.some.inj h
    exact ⟨snap, rfl⟩

def asksBridge : List Step := [.reload .asks, .bridge (.takesCmd ⟨0, 0⟩)]

def tightens (np : Conf.Port) : List Step := [.reload (.plans [(0, np)]), .reload .updates]

def checked (net : IpNetLib) (s : Sys) (e : Step) : Option Sys :=
  if isTimely s e then s.step net e else none

theorem checked_step (h : checked net s e = some s') : s.step net e = some s' := by
  unfold checked at h
  split at h
  · exact h
  · cases h

theorem checked_kept (h : es.foldlM (checked net) shack = some s) :
    Reach (Sys.step net) (Timely net) shack es s ∧ Kept net s := by
  have hr := reach_of_checked (timely_of_isTimely net) h
  exact ⟨hr, hr.invariant (start_kept ..) (fun _ _ _ h hok hs => step_kept h hok hs)⟩

/-- A reload that found nobody is over with the update of the port, whatever
the port does meanwhile. -/
theorem tightens_applied {before after : List Step}
    (hseen : (before.foldlM (checked net) shack).map (fun s => seenBy s.reload) = some (some []))
    (hs : (before ++ tightens np ++ after).foldlM (Sys.step net) shack = some s)
    (haside : after.all isAside = true) :
    s.step net (.reload .applied) = some { s with reload := .idle } := by
  obtain ⟨s₀, hrun, hsees⟩ := Option.map_eq_some_iff.mp hseen
  obtain ⟨hr, hk⟩ := checked_kept hrun
  obtain ⟨snap, hanswered⟩ := seenBy_some hsees
  have hnone : snap.sessions = [] := by
    have hw := hk.watched
    rw [Watched, hanswered] at hw
    exact List.map_eq_nil_iff.mp hw.1.same.eq_nil
  rw [List.append_assoc, List.foldlM_append] at hs
  obtain ⟨s₀', hrun', hs⟩ := Option.bind_eq_some_iff.mp hs
  obtain rfl := hr.unique (runs_of_foldlM hrun')
  obtain ⟨s₁, hplans, hs⟩ := Option.bind_eq_some_iff.mp hs
  obtain ⟨s₂, hupdates, hs⟩ := Option.bind_eq_some_iff.mp hs
  have hreload : s.reload = .applying [] [] [] := by
    rw [foldlM_reload (List.all_eq_true.mp haside) hs]
    exact tightens_kicks hanswered (fun u hu => kicks_nil hu hnone) hplans hupdates
  simp [Sys.step, Sys.reloadStep, hreload]

theorem quiet_applied (hcmds : s.cmds = []) (hsessions : s.sessions = [t])
    (hout : .cancel (Owner.tcp 0).token ∉ s.run.out) : Quiet { s with reload := .idle } := by
  refine ⟨rfl, hcmds, fun task u hu _ hc => ?_⟩
  dsimp only at hu
  rw [hsessions] at hu
  obtain rfl : task = 0 := Nat.lt_one_iff.mp (List.getElem?_eq_some_iff.mp hu).1
  exact hout hc

/-- The laptop is let in, and says so to the bridge, which is asked for a
snapshot before it takes word of the laptop. -/
def getsIn : List Step :=
  [opensPort, .tcp (.accepts 0 laptop), .tcp (.admits 0), .tcp (.opens 0)] ++ asksBridge

def lanOnly : Conf.Port :=
  ⟨"tcp-server0", .app, .tcpServer (.addr (.v4 0 8001)) none [⟨.v4 0xc0a80400#32, 24⟩] false⟩

/-- The laptop, which the new list rejects, stays. -/
theorem gap_client_stays : ∃ s p,
    Runs (Sys.step prefixNet) shack
      (getsIn ++ tightens lanOnly ++ [takesNext] ++ [.reload .applied]) s ∧
    Quiet s ∧ s.queue = [] ∧ s.tcp[0]? = some p ∧ p.live = ⟨none, [⟨.v4 0xc0a80400#32, 24⟩]⟩ ∧
    s.registered laptopSession = some (Owner.tcp 0).token ∧ ¬Binds prefixNet s 0 p := by
  have hfirst : (getsIn.foldlM (checked prefixNet) shack).map (fun s => seenBy s.reload) =
      some (some []) := by
    decide +kernel
  have heval :
      ((getsIn ++ tightens lanOnly ++ [takesNext]).foldlM (Sys.step prefixNet) shack).map (fun s =>
      (s.tcp[0]?.map TcpServerPort.live, s.sessions, s.registered laptopSession,
        s.queue.isEmpty && s.cmds.isEmpty && !s.run.out.contains (.cancel (Owner.tcp 0).token))) =
      some (some ⟨none, [⟨.v4 0xc0a80400#32, 24⟩]⟩, [⟨0, laptopSession, .serving⟩],
        some (Owner.tcp 0).token, true) := by
    decide +kernel
  obtain ⟨s, hrun, hsees⟩ := Option.map_eq_some_iff.mp heval
  simp only [Prod.mk.injEq, Bool.and_eq_true, List.isEmpty_iff, Bool.not_eq_true',
    List.contains_eq_mem, decide_eq_false_iff_not] at hsees
  obtain ⟨hlive, hsessions, hreg, ⟨hqueue, hcmds⟩, hout⟩ := hsees
  obtain ⟨p, hp, hlive⟩ := Option.map_eq_some_iff.mp hlive
  refine ⟨{ s with reload := .idle }, p,
    .next (runs_of_foldlM hrun) trivial (tightens_applied hfirst hrun (by decide)),
    quiet_applied hcmds hsessions hout, hqueue, hp, hlive, hreg, fun hb => ?_⟩
  have hallow :=
    hb.allowed ⟨0, laptopSession, .serving⟩ (by simp [runningAt, hsessions, TcpSession.running])
  rw [hlive] at hallow
  exact absurd (hallow (.v4 0xc0a80d81#32) rfl) (by decide)

def desktop : SocketAddr := .v4 0xc0a80414#32 50000

def desktopSession : SessionId := ⟨"tcp-server0", .tcp desktop⟩

def bothIn : List Step :=
  (opensPort :: connects 0) ++
    [.tcp (.accepts 0 desktop), .tcp (.admits 0), .tcp (.opens 1), takesNext] ++ asksBridge

def laptopGoes : List Step :=
  [.reload .kicks, .bridge (.takesCmd ⟨0, 0⟩), .tcp (.breaks 0), .tcp (.uncounts 0),
    .tcp (.closes 0), takesNext, .reload .applied]

def bothSeen : List (SessionId × Nat) :=
  [(desktopSession, (Owner.tcp 1).token), (laptopSession, (Owner.tcp 0).token)]

/-- A reload that shuts the laptop out kicks the laptop. -/
theorem shuts_out (hs : (bothIn ++ tightens lanOnly).foldlM (checked prefixNet) shack = some s) :
    s.reload = .applying bothSeen [laptopSession] [] := by
  rw [List.foldlM_append] at hs
  obtain ⟨s₀, hrun, hs⟩ := Option.bind_eq_some_iff.mp hs
  have heval : (bothIn.foldlM (checked prefixNet) shack).map (fun s => (seenBy s.reload, s.tcp.map
      (fun p => (p.portId, p.live)))) = some (some bothSeen, [("tcp-server0", ⟨none, []⟩)]) := by
    decide +kernel
  rw [hrun, Option.map_some] at heval
  obtain ⟨hseen, htcp⟩ := Prod.mk.inj (Option.some.inj heval)
  obtain ⟨snap, hanswered⟩ := seenBy_some hseen
  obtain ⟨-, hk⟩ := checked_kept hrun
  have hw := hk.watched
  rw [Watched, hanswered] at hw
  obtain ⟨s₁, hplans, hs⟩ := Option.bind_eq_some_iff.mp hs
  obtain ⟨s₂, hupdates, hs⟩ := Option.bind_eq_some_iff.mp hs
  obtain rfl := Option.some.inj hs
  refine tightens_kicks hanswered (fun u hu => ?_) (checked_step hplans) (checked_step hupdates)
  obtain ⟨p, hp, -⟩ := update_spec hu
  obtain ⟨listen, hlive⟩ := update_live hu
  simp only [lanOnly, PortKind.tcpServer.injEq] at hlive
  obtain ⟨-, hmax, hallow, -⟩ := hlive
  have hat : (p.portId, p.live) = ("tcp-server0", ⟨none, []⟩) := by
    have hmem := List.mem_map_of_mem (f := fun p => (p.portId, p.live)) (List.mem_of_getElem? hp)
    rw [htcp] at hmem
    exact List.mem_singleton.mp hmem
  obtain ⟨hid, hold⟩ := Prod.mk.inj hat
  refine kicks_one hu hw.1 hp ?_ ?_ ?_
  · rw [← hmax, hold]
  · rw [← hallow, hold]
    decide
  · rw [hid, ← hallow]
    decide

theorem laptop_leaves : ((bothIn ++ tightens lanOnly).foldlM (checked prefixNet) shack).bind
    (fun s => (laptopGoes.foldlM (checked prefixNet)
      { s with reload := .applying bothSeen [laptopSession] [] }).map (fun s =>
        (s.tcp[0]?.map TcpServerPort.live, s.reload, s.sessions,
          s.cmds.isEmpty && !s.run.out.contains (.cancel (Owner.tcp 1).token)))) =
    some (some ⟨none, [⟨.v4 0xc0a80400#32, 24⟩]⟩, .idle,
      [⟨0, laptopSession, .done⟩, ⟨0, desktopSession, .serving⟩], true) := by
  decide +kernel

/-- The new list rejects the laptop, which is there and goes; the desktop stays. -/
theorem limits_bind_laptop : ∃ s p,
    Reach (Sys.step prefixNet) (Timely prefixNet) shack
      (bothIn ++ tightens lanOnly ++ laptopGoes) s ∧
    Quiet s ∧ s.tcp[0]? = some p ∧ p.live = ⟨none, [⟨.v4 0xc0a80400#32, 24⟩]⟩ ∧
    runningAt s 0 = [⟨0, desktopSession, .serving⟩] ∧ Binds prefixNet s 0 p := by
  obtain ⟨s₁, hfirst, hends⟩ := Option.bind_eq_some_iff.mp laptop_leaves
  obtain ⟨s, hgoes, hsees⟩ := Option.map_eq_some_iff.mp hends
  simp only [Prod.mk.injEq, Bool.and_eq_true, List.isEmpty_iff, Bool.not_eq_true',
    List.contains_eq_mem, decide_eq_false_iff_not] at hsees
  obtain ⟨hlive, hreload, hsessions, hcmds, hout⟩ := hsees
  obtain ⟨p, hp, hlive⟩ := Option.map_eq_some_iff.mp hlive
  have hsame : { s₁ with reload := .applying bothSeen [laptopSession] [] } = s₁ := by
    rw [← shuts_out hfirst]
  have hrun : (bothIn ++ tightens lanOnly ++ laptopGoes).foldlM (checked prefixNet) shack =
      some s := by
    rw [List.foldlM_append, hfirst, ← hgoes, hsame]
    rfl
  obtain ⟨hr, -⟩ := checked_kept hrun
  have hq : Quiet s := by
    refine ⟨hreload, hcmds, fun task t ht hrunning hc => ?_⟩
    rw [hsessions] at ht
    match task with
    | 0 =>
      obtain rfl := Option.some.inj ht
      cases hrunning
    | 1 => exact hout hc
    | n + 2 => cases ht
  refine ⟨s, p, hr, hq, hp, hlive, ?_, limits_bind hr hq hp⟩
  rw [runningAt, hsessions]
  rfl

end KissTncBridge.Proofs.ClientLimits
