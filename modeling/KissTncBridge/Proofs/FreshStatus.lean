import KissTncBridge.Tui.World
import KissTncBridge.Proofs.EventDelivery

namespace KissTncBridge.Proofs.FreshStatus
open Tui Control Lib
open EventDelivery (told queued Effect step_effect Roomy)

variable {ε : Type} {s s' : Connection ε} {a : ConnStep ε} {w v : World ε} {c c' : Conn} {h : Nat}

def unhandled (s : Connection ε) (h : Nat) : List (Received ε) :=
  (s.lines.drop h).filterMap (told .state)

/-- A state event is on its way to the TUI: in a line, in the hand of the forwarder, or
still kept for it. -/
def Coming (s : Connection ε) (h : Nat) : Prop :=
  ∃ f, s.forwarders .state = some f ∧
    ((∃ e, Received.message e ∈ unhandled s h) ∨ (∃ e, f.hand = some (.message e)) ∨
      f.next < (s.sent .state).length)

def Subscribed (s : Connection ε) : Prop :=
  ∃ f, s.forwarders .state = some f ∧ f.next ≤ (s.sent .state).length

/-- A connection's lines only grow, and the writer takes what is there. -/
theorem lines_grow (hs : s.step a = some s') : (∃ more, s'.lines = s.lines ++ more) ∧
    (s'.written = s.written ∨ s.written < s.lines.length ∧ s'.written = s.written + 1) := by
  cases a with
  | publish topic event =>
    obtain rfl := Option.some.inj hs
    exact ⟨⟨[], (List.append_nil _).symm⟩, .inl rfl⟩
  | subscribe topics =>
    obtain rfl := Option.some.inj hs
    exact ⟨⟨[], (List.append_nil _).symm⟩, .inl rfl⟩
  | recv topic =>
    obtain ⟨f, -, hs⟩ := Option.bind_eq_some_iff.mp hs
    obtain ⟨-, hs⟩ := Option.ite_none_left_eq_some.mp hs
    obtain ⟨got, -, rfl⟩ := Option.map_eq_some_iff.mp hs
    exact ⟨⟨[], (List.append_nil _).symm⟩, .inl rfl⟩
  | trySend topic =>
    obtain ⟨f, -, hs⟩ := Option.bind_eq_some_iff.mp hs
    obtain ⟨got, -, rfl⟩ := Option.map_eq_some_iff.mp hs
    refine ⟨?_, .inl rfl⟩
    dsimp only
    split
    · exact ⟨_, rfl⟩
    · exact ⟨[], (List.append_nil _).symm⟩
  | send =>
    obtain ⟨-, hs⟩ := Option.ite_none_right_eq_some.mp hs
    obtain rfl := Option.some.inj hs
    exact ⟨⟨_, rfl⟩, .inl rfl⟩
  | write =>
    obtain ⟨hlt, hs⟩ := Option.ite_none_right_eq_some.mp hs
    obtain rfl := Option.some.inj hs
    exact ⟨⟨[], (List.append_nil _).symm⟩, .inr ⟨hlt, rfl⟩⟩

theorem written_next (hw : s.written ≤ s.lines.length) (hs : s.step a = some s') :
    s'.written ≤ s'.lines.length := by
  obtain ⟨⟨more, hmore⟩, hwritten⟩ := lines_grow hs
  rw [hmore, List.length_append]
  omega

/-- What is queued of the state topic comes after what is not yet taken in. -/
theorem unhandled_next {got : List (Received ε)} (hs : s.step a = some s') (hh : h ≤ s.lines.length)
    (hq : queued s' .state = queued s .state ++ got) : unhandled s' h = unhandled s h ++ got := by
  obtain ⟨⟨more, hmore⟩, -⟩ := lines_grow hs
  have hgot : more.filterMap (told .state) = got := by
    rw [queued, queued, hmore, List.filterMap_append] at hq
    exact List.append_cancel_left hq
  rw [unhandled, unhandled, hmore, List.drop_append_of_le_length hh, List.filterMap_append, hgot]

theorem unhandled_same (hs : s.step a = some s') (hh : h ≤ s.lines.length)
    (hq : queued s' .state = queued s .state) : unhandled s' h = unhandled s h :=
  (unhandled_next hs hh (hq.trans (List.append_nil _).symm)).trans (List.append_nil _)

theorem Subscribed.next (hsub : Subscribed s) (hs : s.step a = some s') : Subscribed s' := by
  obtain ⟨f, hf, hle⟩ := hsub
  cases step_effect hs .state with
  | same more sent forwarders lines not =>
    refine ⟨f, forwarders.trans hf, ?_⟩
    rw [sent, List.length_append]
    exact Nat.le_add_right_of_le hle
  | starts before sent forwarders lines not =>
    rw [hf] at before
    cases before
  | takes f' got next before empty got_of sent forwarders lines not =>
    refine ⟨_, forwarders, ?_⟩
    rw [sent]
    exact (recv_spec got_of).2.2.2
  | queues f' got before full sent forwarders lines room =>
    obtain rfl := Option.some.inj (hf.symm.trans before)
    exact ⟨_, forwarders, sent ▸ hle⟩
  | drops f' got before full sent forwarders lines none this =>
    obtain rfl := Option.some.inj (hf.symm.trans before)
    exact ⟨_, forwarders, sent ▸ hle⟩

/-- While the queue has room for it, a state event that is on its way stays so, also
where the forwarder fell behind; and a new one is on its way. -/
theorem coming_next (hsub : Subscribed s) (hs : s.step a = some s') (hroomy : Roomy .state s a)
    (hh : h ≤ s.lines.length)
    (hc : Coming s h ∨ (s.sent .state).length < (s'.sent .state).length) : Coming s' h := by
  obtain ⟨f, hf, hle⟩ := hsub
  have hc : Coming s h ∨ f.next < (s'.sent .state).length := hc.imp_right (Nat.lt_of_le_of_lt hle)
  cases step_effect hs .state with
  | same more sent forwarders lines not =>
    refine ⟨f, forwarders.trans hf, ?_⟩
    rcases hc with ⟨f', hf', hc⟩ | hc
    · obtain rfl := Option.some.inj (hf.symm.trans hf')
      rw [unhandled_same hs hh lines]
      refine hc.imp_right (Or.imp_right fun hlt => ?_)
      rw [sent, List.length_append]
      exact Nat.lt_add_right _ hlt
    · exact .inr (.inr hc)
  | starts before sent forwarders lines not =>
    rw [hf] at before
    cases before
  | takes f' got next before empty got_of sent forwarders lines not =>
    obtain rfl := Option.some.inj (hf.symm.trans before)
    refine ⟨_, forwarders, ?_⟩
    cases got with
    | message e => exact .inr (.inl ⟨e, rfl⟩)
    | lagged missed =>
      rw [sent]
      exact .inr (.inr (recv_lagged (by decide) got_of))
  | queues f' got before full sent forwarders lines room =>
    obtain rfl := Option.some.inj (hf.symm.trans before)
    refine ⟨_, forwarders, ?_⟩
    rw [unhandled_next hs hh lines, sent]
    rw [sent] at hc
    rcases hc with ⟨f', hf', ⟨e, he⟩ | ⟨e, he⟩ | hlt⟩ | hlt
    · exact .inl ⟨e, List.mem_append_left _ he⟩
    · obtain rfl := Option.some.inj (hf.symm.trans hf')
      obtain rfl := Option.some.inj (full.symm.trans he)
      exact .inl ⟨e, List.mem_append_right _ (List.mem_singleton.mpr rfl)⟩
    · obtain rfl := Option.some.inj (hf.symm.trans hf')
      exact .inr (.inr hlt)
    · exact .inr (.inr hlt)
  | drops f' got before full sent forwarders lines none this =>
    rw [hroomy this] at none
    cases none

theorem send_spec {c c' : Client} {id : Nat} (hs : c.send = some (id, c')) :
    id = c.nextId ∧ c'.nextId = c.nextId + 1 := by
  obtain ⟨-, hs⟩ := Option.ite_none_left_eq_some.mp hs
  obtain ⟨rfl, rfl⟩ := Prod.mk.inj (Option.some.inj hs)
  exact ⟨rfl, rfl⟩

/-- Asking for the status: it is marked for later, or it is asked for. -/
theorem refresh_spec (hr : c.refresh = some c') :
    (c.statusPending.isSome = true ∧ c'.statusPending = c.statusPending ∧ c'.statusStale = true ∧
        c'.requests = c.requests) ∨
      (c.statusPending = none ∧ c'.statusPending = some c.requests.nextId ∧
        c'.statusStale = c.statusStale ∧ c'.requests.nextId = c.requests.nextId + 1) := by
  unfold Conn.refresh at hr
  split at hr
  · rename_i hsome
    obtain rfl := Option.some.inj hr
    exact .inl ⟨hsome, rfl, rfl, rfl⟩
  · rename_i hnone
    obtain ⟨⟨id, requests⟩, hsend, rfl⟩ := Option.map_eq_some_iff.mp hr
    obtain ⟨rfl, hnext⟩ := send_spec hsend
    exact .inr ⟨by simpa using hnone, rfl, rfl, hnext⟩

structure Kept (app app' : App Nat) (c c' : Conn) : Prop where
  status : app'.status = app.status
  pending : c'.statusPending = c.statusPending
  stale : c'.statusStale = c.statusStale
  nextId : c.requests.nextId ≤ c'.requests.nextId

theorem Kept.refl (app : App Nat) (c : Conn) : Kept app app c c := ⟨rfl, rfl, rfl, Nat.le_refl _⟩

/-- What the TUI holds is the status it asked for last, and that was after the last state
event, or a state event is on its way, or another request will follow the one that is
waiting. -/
structure Current (w : World ε) (c : Conn) : Prop where
  asked_le : w.asked ≤ w.published
  id_lt : ∀ id, c.statusPending = some id → id < c.requests.nextId
  stale : c.statusStale = true → c.statusPending.isSome = true
  held : c.statusPending = none → w.tui.app.status = some w.asked
  coming : c.statusStale = false → w.asked < w.published → Coming w.events w.handled

theorem took_asked_same (hc : w.tui.conn = some c) (hp : c'.statusPending = c.statusPending)
    (app : App Nat) : (w.took ⟨app, some c'⟩).asked = w.asked := by
  simp only [World.took, Loop.statusPending, hc, Option.bind_some, hp]
  split
  · rename_i id hid
    rw [if_pos hid]
  · rfl

theorem Current.kept (hcur : Current w c) (hc : w.tui.conn = some c)
    (hk : Kept w.tui.app app c c') : Current (w.took ⟨app, some c'⟩) c' := by
  have hasked := took_asked_same hc hk.pending app
  refine ⟨?_, fun id hid => ?_, fun hst => ?_, fun hp => ?_, fun hst hlt => ?_⟩
  · rw [hasked]
    exact hcur.asked_le
  · exact Nat.lt_of_lt_of_le (hcur.id_lt id (hk.pending ▸ hid)) hk.nextId
  · rw [hk.pending]
    exact hcur.stale (hk.stale ▸ hst)
  · rw [hasked]
    exact hk.status.trans (hcur.held (hk.pending ▸ hp))
  · rw [hasked] at hlt
    exact hcur.coming (hk.stale ▸ hst) hlt

structure Refreshed (c c' : Conn) : Prop where
  pending : c'.statusPending.isSome = true
  id_lt : ∀ id, c'.statusPending = some id → id < c'.requests.nextId
  fresh : c'.statusPending = c.statusPending ∧ c'.statusStale = true ∨
    c'.statusPending ≠ c.statusPending

theorem Current.refreshed {u : World ε} (hle : w.asked ≤ w.published) (hc : w.tui.conn = some c)
    (hr : Refreshed c c')
    (hu : u = { w.took ⟨app, some c'⟩ with handled := h }) : Current u c' := by
  obtain ⟨id, hid⟩ := Option.isSome_iff_exists.mp hr.pending
  have hasked : u.asked = w.asked ∧ c'.statusStale = true ∨ u.asked = w.published := by
    subst hu
    simp only [World.took, Loop.statusPending, hc, Option.bind_some, hid]
    split
    · rename_i hsame
      rcases hr.fresh with ⟨-, hst⟩ | hne
      · exact .inl ⟨rfl, hst⟩
      · exact absurd (hid.trans hsame.symm) hne
    · exact .inr rfl
  have hpub : u.published = w.published := by
    subst hu
    rfl
  refine ⟨?_, hr.id_lt, fun _ => hr.pending, fun hp => ?_, fun hst hlt => ?_⟩
  · rcases hasked with ⟨hasked, -⟩ | hasked
    · rw [hasked, hpub]
      exact hle
    · exact Nat.le_of_eq (hasked.trans hpub.symm)
  · rw [hid] at hp
    cases hp
  · rcases hasked with ⟨-, hstale⟩ | hasked
    · rw [hst] at hstale
      cases hstale
    · rw [hasked, hpub] at hlt
      exact absurd hlt (Nat.lt_irrefl _)

theorem refreshed_of {c₁ c₂ : Conn} {app app' : App Nat}
    (hid : ∀ id, c.statusPending = some id → id < c.requests.nextId)
    (hr : c.refresh = some c₁) (hk : Kept app app' c₁ c₂) : Refreshed c c₂ := by
  rcases refresh_spec hr with ⟨hsome, hp, hst, hreq⟩ | ⟨hnone, hp, -, hnext⟩
  · refine ⟨by
      rw [hk.pending, hp, hsome], fun id h => ?_, .inl ⟨hk.pending.trans hp, hk.stale.trans hst⟩⟩
    exact Nat.lt_of_lt_of_le (hid id (hp ▸ hk.pending ▸ h)) (hreq ▸ hk.nextId)
  · refine ⟨by rw [hk.pending, hp]; rfl, fun id h => ?_, .inr ?_⟩
    · rw [hk.pending, hp] at h
      obtain rfl := Option.some.inj h
      exact Nat.lt_of_lt_of_le (hnext ▸ Nat.lt_succ_self _) hk.nextId
    · rw [hk.pending, hp, hnone]
      exact Option.some_ne_none _

/-- The same after an answer took the request that was waiting. -/
theorem refreshed_again {c₁ : Conn} (hid : ∀ id, c.statusPending = some id → id < c.requests.nextId)
    (hr : { c with statusPending := none, statusStale := false }.refresh = some c₁) :
    Refreshed c c₁ := by
  rcases refresh_spec hr with ⟨hsome, -⟩ | ⟨-, hp, -, hnext⟩
  · cases hsome
  · refine ⟨by rw [hp]; rfl, fun id h => ?_, .inr fun heq => ?_⟩
    · rw [hp] at h
      obtain rfl := Option.some.inj h
      rw [hnext]
      exact Nat.lt_succ_self _
    · rw [hp] at heq
      exact Nat.lt_irrefl _ (hid _ heq.symm)

theorem sent_status (app : App Nat) (id : Nat) (andThen : Then) :
    (app.sent id andThen).status = app.status := by
  cases andThen <;> rfl

theorem act_kept {app : App Nat} {action : Action} {t : Loop Nat}
    (ha : Loop.act app (some c) action = .ok t) : ∃ c', t.conn = some c' ∧ Kept app t.app c c' := by
  cases action with
  | none =>
    cases ha
    exact ⟨c, rfl, .refl app c⟩
  | run =>
    cases ha
    exact ⟨c, rfl, .refl app c⟩
  | request req =>
    unfold Loop.act at ha
    dsimp only at ha
    split at ha
    · cases ha
    · rename_i id requests hsend
      cases ha
      obtain ⟨-, hnext⟩ := send_spec hsend
      exact ⟨_, rfl, sent_status app id req.andThen, rfl, rfl,
        Nat.le_of_lt (hnext ▸ Nat.lt_succ_self _)⟩

theorem settle_conn {x : Except (App Nat) (Loop Nat)} (hc : (Loop.settle x).conn = some c) :
    ∃ t, x = .ok t ∧ Loop.settle x = t ∧ t.conn = some c := by
  cases x with
  | error app => cases hc
  | ok t => exact ⟨t, rfl, rfl, hc⟩

inductive Answered (app : App Nat) (c : Conn) (r : Response Nat) (t : Loop Nat) (c' : Conn) :
    Prop where
  | kept (kept : Kept app t.app c c')
  | refreshed (fresh : Refreshed c c')
  | status (id : r.id = c.statusPending) (some : r.id.isSome = true) (stale : c.statusStale = false)
    (pending : c'.statusPending = none) (unmarked : c'.statusStale = false)
    (held : t.app = app.statusAnswer r.result)

theorem answered_spec {app : App Nat} {r : Response Nat} {t : Loop Nat}
    (hid : ∀ id, c.statusPending = some id → id < c.requests.nextId)
    (ha : Loop.answered app c r = .ok t) (hc : t.conn = some c') : Answered app c r t c' := by
  unfold Loop.answered at ha
  split at ha
  · rename_i hstatus
    dsimp only at ha
    split at ha
    · split at ha
      · rename_i hr
        cases ha
        obtain rfl := Option.some.inj hc
        exact .refreshed (refreshed_again hid hr)
      · cases ha
    · rename_i hst
      cases ha
      obtain rfl := Option.some.inj hc
      exact .status hstatus.2 hstatus.1 (by simpa using hst) rfl (by simpa using hst) rfl
  · split at ha
    · cases ha
      obtain rfl := Option.some.inj hc
      exact .kept (.refl app c)
    · dsimp only at ha
      split at ha
      · cases ha
      · rename_i hr
        obtain ⟨c₂, hc₂, hk⟩ := act_kept ha
        obtain rfl := Option.some.inj (hc₂.symm.trans hc)
        have hfresh := refreshed_of (by exact hid) hr hk
        exact .refreshed ⟨hfresh.pending, hfresh.id_lt, hfresh.fresh⟩

theorem statusAnswer_stamped (app : App Nat) (asked : Nat) (result : Except String (Value Unit)) :
    (app.statusAnswer (stamped asked result)).status =
      if result = .ok (.status ()) then some asked else app.status := by
  cases result with
  | error e => rfl
  | ok value => cases value <;> rfl

theorem found_status (app : App Nat) (request : Nat) (device : BtDevice) :
    (app.found request device).1.status = app.status := by
  unfold App.found
  split
  · rfl
  · dsimp only
    split
    · rfl
    · split <;> rfl

theorem scanKey_status (app : App Nat) (k : Key) : (app.scanKey k).1.status = app.status := by
  unfold App.scanKey
  split
  · rfl
  · split
    · split <;> rfl
    · split <;> rfl
    · split
      · rfl
      · split
        · rfl
        · split
          · rfl
          · split <;> rfl
    · rfl
    · split
      · rfl
      · split <;> rfl
    · rfl

theorem answerKey_status (app : App Nat) (p : Tui.Pairing) (id : Nat) (ask : Ask) (k : Key) :
    (app.answerKey p id ask k).1.status = app.status := by
  cases ask with
  | confirm _ | authorize =>
    unfold App.answerKey
    dsimp only
    split
    · rfl
    · split <;> rfl
  | pin =>
    cases k <;> rfl
  | passkey =>
    cases k with
    | char c => exact apply_ite (fun r : App Nat × Action => r.1.status) .. |>.trans (ite_self _)
    | enter =>
      unfold App.answerKey
      dsimp only
      split
      · split <;> rfl
      · rfl
    | _ => rfl

theorem pairingKey_status (app : App Nat) (k : Key) : (app.pairingKey k).1.status = app.status := by
  unfold App.pairingKey
  split
  · rfl
  · split
    · split <;> rfl
    · split
      · split <;> rfl
      · split
        · rfl
        · exact answerKey_status ..

theorem key_status (app : App Nat) (front : Option Asked) (k : Key) (view : ViewKey) :
    (app.key front k view).1.status = app.status := by
  unfold App.key
  split
  · rfl
  · split
    · exact pairingKey_status app k
    · split
      · exact scanKey_status app k
      · split
        · rfl
        · unfold App.startScan
          split <;> rfl

theorem pairingStep_status (app : App Nat) (request : Nat)
    (step : KissTncBridge.Pairing.PairingStep) :
    (app.pairingStep request step).status = app.status := by
  unfold App.pairingStep
  split
  · rfl
  · split
    · rfl
    · split <;> rfl

/-- After what a key or an answer asks is done, whatever connection there still is was
there before. -/
theorem act_turn {app app' : App Nat} {conn : Option Conn} {action : Action}
    (hs : app'.status = app.status)
    (hc : (Loop.settle (Loop.act app' conn action)).conn = some c') :
    ∃ c, conn = some c ∧ Kept app (Loop.settle (Loop.act app' conn action)).app c c' := by
  obtain ⟨t, hact, ht, hconn⟩ := settle_conn hc
  rw [ht]
  cases conn with
  | none => cases action <;> cases hact <;> cases hconn
  | some c =>
    obtain ⟨c₂, hc₂, hk⟩ := act_kept hact
    obtain rfl := Option.some.inj (hc₂.symm.trans hconn)
    exact ⟨c, rfl, hk.status.trans hs, hk.pending, hk.stale, hk.nextId⟩

theorem key_turn {tui t : Loop Nat} (ht : tui.step (.key front k view) = some t)
    (hc : t.conn = some c') : ∃ c, tui.conn = some c ∧ Kept tui.app t.app c c' := by
  unfold Loop.step at ht
  dsimp only at ht
  split at ht
  · obtain rfl := Option.some.inj ht
    cases hc
  · obtain rfl := Option.some.inj ht
    exact act_turn (key_status tui.app front k view) hc

theorem found_turn {tui t : Loop Nat} (ht : tui.step (.found request device) = some t)
    (hc : t.conn = some c') : ∃ c, tui.conn = some c ∧ Kept tui.app t.app c c' := by
  obtain ⟨c, hconn, rfl⟩ := Option.map_eq_some_iff.mp ht
  obtain ⟨c₂, hc₂, hk⟩ := act_turn (found_status tui.app request device) hc
  obtain rfl := Option.some.inj hc₂
  exact ⟨c, hconn, hk⟩

theorem pairing_turn {tui t : Loop Nat} (ht : tui.step (.pairing request step) = some t)
    (hc : t.conn = some c') : ∃ c, tui.conn = some c ∧ Kept tui.app t.app c c' := by
  obtain ⟨c, hconn, rfl⟩ := Option.map_eq_some_iff.mp ht
  obtain rfl := Option.some.inj hc
  exact ⟨c, hconn, pairingStep_status tui.app request step, rfl, rfl, Nat.le_refl _⟩

structure Good (w : World ε) : Prop where
  live : w.opening = true ∨ w.tui.conn.isSome = true → Subscribed w.events
  written : w.events.written ≤ w.events.lines.length
  handled : w.handled ≤ w.events.lines.length
  current : ∀ c, w.tui.conn = some c → Current w c

/-- Each try to queue a state event finds room. -/
def Delivers (w : World ε) : WorldStep ε → Prop
  | .serve a => Roomy .state w.events a
  | _ => True

/-- The status request that waits is answered with a status. Any other answer does no harm
where the request is sent again for it, or where the status held was asked for with the
same state events published. -/
def Informs (w : World ε) : WorldStep ε → Prop
  | .answer id result => id.isSome = true → id = w.tui.statusPending →
      result = .ok (.status ()) ∨ (∃ c, w.tui.conn = some c ∧ c.statusStale = true) ∨
        w.tui.app.status = some w.asked
  | _ => True

theorem good_start : Good ({} : World ε) where
  live := fun h => by simp at h
  written := Nat.le_refl _
  handled := Nat.le_refl _
  current := fun _ h => nomatch h

theorem Good.took (hg : Good w) {t : Loop Nat}
    (hturn : ∀ c', t.conn = some c' → ∃ c, w.tui.conn = some c ∧ Kept w.tui.app t.app c c') :
    Good (w.took t) := by
  refine ⟨fun hlive => ?_, hg.written, hg.handled, fun c' hc' => ?_⟩
  · refine hg.live (hlive.imp_right fun hsome => ?_)
    obtain ⟨c', hc'⟩ := Option.isSome_iff_exists.mp hsome
    obtain ⟨c, hc, -⟩ := hturn c' hc'
    rw [hc]
    rfl
  · obtain ⟨c, hc, hk⟩ := hturn c' hc'
    obtain ⟨app, conn⟩ := t
    obtain rfl : conn = some c' := hc'
    exact (hg.current c hc).kept hc hk

theorem serve_step (hs : w.step (.serve a) = some v) :
    ∃ events, w.events.step a = some events ∧ v = { w with events := events } := by
  cases a with
  | subscribe topics => cases hs
  | publish | recv | trySend | send | write =>
    simp only [World.step] at hs
    obtain ⟨events, hevents, rfl⟩ := Option.map_eq_some_iff.mp hs
    exact ⟨events, hevents, rfl⟩

theorem published_grows (hs : s.step a = some s') :
    (s.sent .state).length ≤ (s'.sent .state).length := by
  cases step_effect hs .state with
  | same more sent forwarders lines not =>
    rw [sent, List.length_append]
    exact Nat.le_add_right _ _
  | starts before sent forwarders lines not => exact Nat.le_of_eq (congrArg List.length sent.symm)
  | takes f got next before empty got_of sent forwarders lines not =>
    exact Nat.le_of_eq (congrArg List.length sent.symm)
  | queues f got before full sent forwarders lines room =>
    exact Nat.le_of_eq (congrArg List.length sent.symm)
  | drops f got before full sent forwarders lines none this =>
    exact Nat.le_of_eq (congrArg List.length sent.symm)

theorem Good.serve (hg : Good w) (hroomy : Roomy .state w.events a)
    (hs : w.step (.serve a) = some v) : Good v := by
  obtain ⟨events, hevents, rfl⟩ := serve_step hs
  obtain ⟨⟨more, hmore⟩, -⟩ := lines_grow hevents
  refine ⟨fun hlive => (hg.live hlive).next hevents, written_next hg.written hevents, ?_,
    fun c hc => ?_⟩
  · dsimp only
    rw [hmore, List.length_append]
    exact Nat.le_add_right_of_le hg.handled
  · have hcur := hg.current c hc
    have hsub : Subscribed w.events := hg.live (.inr (by rw [hc]; rfl))
    have hle : w.published ≤ (events.sent .state).length := published_grows hevents
    refine ⟨Nat.le_trans hcur.asked_le hle, hcur.id_lt, hcur.stale, hcur.held, fun hst hlt => ?_⟩
    refine coming_next hsub hevents hroomy hg.handled ?_
    rcases Nat.lt_or_ge w.asked w.published with hbefore | hbefore
    · exact .inl (hcur.coming hst hbefore)
    · exact .inr (Nat.lt_of_le_of_lt hbefore hlt)

theorem told_message {line : Line ε} {e : ε} (ht : told .state line = some (.message e)) :
    eventOf line = some .state := by
  cases line with
  | other => cases ht
  | event topic got =>
    obtain ⟨rfl, hgot⟩ := Option.ite_none_right_eq_some.mp ht
    obtain rfl := Option.some.inj hgot
    rfl

/-- What the TUI takes in without asking for the status was no state event. -/
theorem Coming.skip {line : Line ε} (hc : Coming s h) (hl : s.lines[h]? = some line)
    (hne : eventOf line ≠ some .state) : Coming s (h + 1) := by
  obtain ⟨f, hf, hc⟩ := hc
  refine ⟨f, hf, hc.imp_left fun ⟨e, he⟩ => ⟨e, ?_⟩⟩
  obtain ⟨hlt, rfl⟩ := List.getElem?_eq_some_iff.mp hl
  rw [unhandled, List.drop_eq_getElem_cons hlt, List.filterMap_cons] at he
  split at he
  · exact he
  · rename_i got hgot
    rcases List.mem_cons.mp he with rfl | he
    · exact absurd (told_message hgot) hne
    · exact he

/-- A state event asks for the status. -/
theorem state_turn {tui t : Loop Nat} (ht : tui.step (.event .state) = some t)
    (hc : t.conn = some c') :
    ∃ c, tui.conn = some c ∧ c.refresh = some c' ∧ t = ⟨tui.app, some c'⟩ := by
  obtain ⟨c, hconn, rfl⟩ := Option.map_eq_some_iff.mp ht
  refine ⟨c, hconn, ?_⟩
  cases hr : c.refresh with
  | none =>
    simp only [onEvent, if_true, hr] at hc
    cases hc
  | some c₁ =>
    simp only [onEvent, if_true, hr] at hc ⊢
    obtain rfl := Option.some.inj hc
    exact ⟨rfl, rfl⟩

/-- Other events leave everything to do with the status alone. -/
theorem other_turn {tui t : Loop Nat} {e : Event} (he : e ≠ .state)
    (ht : tui.step (.event e) = some t) : t = tui := by
  obtain ⟨c, -, rfl⟩ := Option.map_eq_some_iff.mp ht
  cases e with
  | state => exact absurd rfl he
  | activity | frame | lagged => rfl

theorem read_turn {line : Line ε} {tui t : Loop Nat}
    (ht : (match eventOf line with
      | some e => tui.step (.event e)
      | none => some tui) = some t) :
    eventOf line = some .state ∧ tui.step (.event .state) = some t ∨ eventOf line ≠ some .state ∧
        t = tui := by
  cases he : eventOf line with
  | none =>
    rw [he] at ht
    exact .inr ⟨nofun, (Option.some.inj ht).symm⟩
  | some e =>
    rw [he] at ht
    by_cases hstate : e = .state
    · subst hstate
      exact .inl ⟨rfl, ht⟩
    · exact .inr ⟨fun h => hstate (Option.some.inj h), other_turn hstate ht⟩

theorem took_same (w : World ε) : w.took w.tui = w := by
  unfold World.took
  split
  · rename_i id hid
    rw [if_pos hid]
  · rfl

theorem Good.read (hg : Good w) (hs : w.step .read = some v) : Good v := by
  obtain ⟨hlt, hs⟩ := Option.ite_none_right_eq_some.mp hs
  obtain ⟨line, hline, hs⟩ := Option.bind_eq_some_iff.mp hs
  obtain ⟨t, ht, hv⟩ := Option.map_eq_some_iff.mp hs
  have hhandled : w.handled + 1 ≤ w.events.lines.length := Nat.le_trans hlt hg.written
  rcases read_turn ht with ⟨-, ht⟩ | ⟨hne, rfl⟩
  · subst hv
    refine ⟨fun hlive => hg.live (hlive.imp_right fun hsome => ?_), hg.written, hhandled,
      fun c' hc' => ?_⟩
    · obtain ⟨c', hc'⟩ := Option.isSome_iff_exists.mp hsome
      obtain ⟨c, hc, -⟩ := state_turn ht hc'
      rw [hc]
      rfl
    · obtain ⟨c, hc, hr, rfl⟩ := state_turn ht hc'
      have hcur := hg.current c hc
      exact Current.refreshed hcur.asked_le hc (refreshed_of hcur.id_lt hr (.refl w.tui.app c')) rfl
  · rw [took_same] at hv
    subst hv
    refine ⟨hg.live, hg.written, hhandled, fun c hc => ?_⟩
    have hcur := hg.current c hc
    exact ⟨hcur.asked_le, hcur.id_lt, hcur.stale, hcur.held,
      fun hst hlt' => (hcur.coming hst hlt').skip hline hne⟩

theorem Good.answer {id : Option Nat} (hg : Good w) (hi : Informs w (.answer id result))
    (hs : w.step (.answer id result) = some v) : Good v := by
  obtain ⟨t, ht, rfl⟩ := Option.map_eq_some_iff.mp hs
  obtain ⟨c, hc, rfl⟩ := Option.map_eq_some_iff.mp ht
  have hcur := hg.current c hc
  refine ⟨fun hlive => ?_, hg.written, hg.handled, fun c' hc' => ?_⟩
  · exact hg.live (hlive.imp_right fun _ => by rw [hc]; rfl)
  · obtain ⟨t, hanswered, ht, hconn⟩ := settle_conn hc'
    rw [ht]
    obtain ⟨app, conn⟩ := t
    obtain rfl : conn = some c' := hconn
    cases answered_spec hcur.id_lt hanswered rfl with
    | kept kept => exact hcur.kept hc kept
    | refreshed fresh => exact Current.refreshed hcur.asked_le hc fresh rfl
    | status hid hsome stale pending unmarked held =>
      have hours : id.isSome = true ∧ id = w.tui.statusPending := by
        refine ⟨hsome, ?_⟩
        rw [Loop.statusPending, hc]
        exact hid
      have hasked : (w.took ⟨app, some c'⟩).asked = w.asked := by
        simp only [World.took, Loop.statusPending, Option.bind_some, pending]
      refine ⟨?_, fun id hid => ?_, fun hst => ?_, fun _ => ?_, fun _ hlt => ?_⟩
      · rw [hasked]
        exact hcur.asked_le
      · rw [pending] at hid
        cases hid
      · rw [unmarked] at hst
        cases hst
      · have hstatus := statusAnswer_stamped w.tui.app w.asked result
        have happ : (w.took ⟨app, some c'⟩).tui.app.status =
            (w.tui.app.statusAnswer (stamped w.asked result)).status := congrArg App.status held
        rw [hasked, happ]
        rcases hi hours.1 hours.2 with hresult | ⟨c₂, hc₂, hstale⟩ | hsame
        · exact hstatus.trans (if_pos hresult)
        · obtain rfl := Option.some.inj (hc.symm.trans hc₂)
          rw [stale] at hstale
          cases hstale
        · refine hstatus.trans ?_
          rw [hsame, ite_self]
      · rw [hasked] at hlt
        exact hcur.coming stale hlt

theorem subscribe_good (hs : w.step .subscribe = some v) : Good v := by
  obtain ⟨hnone, hs⟩ := Option.ite_none_left_eq_some.mp hs
  obtain rfl := Option.some.inj hs
  refine ⟨fun _ => ⟨_, rfl, Nat.le_refl _⟩, Nat.le_refl _, Nat.le_refl _, fun c hc => ?_⟩
  have hc : w.tui.conn = some c := hc
  rw [hc] at hnone
  exact absurd rfl hnone

theorem open_spec {writes : Nat} (ho : Conn.open writes = some c) :
    ∃ id, c.statusPending = some id ∧ id < c.requests.nextId ∧ c.statusStale = false := by
  obtain ⟨⟨models, requests⟩, -, hr⟩ := Option.bind_eq_some_iff.mp ho
  rcases refresh_spec hr with ⟨hsome, -⟩ | ⟨-, hp, hst, hnext⟩
  · cases hsome
  · exact ⟨_, hp, hnext ▸ Nat.lt_succ_self _, hst⟩

theorem Good.retry (hg : Good w) (hs : w.step (.retry writes skipped) = some v) : Good v := by
  obtain ⟨⟨hopen, hskipped⟩, hs⟩ := Option.ite_none_right_eq_some.mp hs
  obtain ⟨t, ht, rfl⟩ := Option.map_eq_some_iff.mp hs
  obtain ⟨hnone, ht⟩ := Option.ite_none_left_eq_some.mp ht
  obtain rfl := Option.some.inj ht
  refine ⟨fun _ => hg.live (.inl hopen), hg.written, Nat.le_trans hskipped hg.written,
    fun c hc => ?_⟩
  have hc : Conn.open writes = some c := hc
  obtain ⟨id, hpending, hid, hst⟩ := open_spec hc
  have hnew : w.tui.statusPending = none := by
    rw [Loop.statusPending, Option.not_isSome_iff_eq_none.mp hnone, Option.bind_none]
  have hasked : (w.took ⟨w.tui.app, Conn.open writes⟩).asked = w.published := by
    have hnow : Loop.statusPending (⟨w.tui.app, Conn.open writes⟩ : Loop Nat) = some id := by
      rw [Loop.statusPending, hc]
      exact hpending
    unfold World.took
    dsimp only
    rw [hnow, hnew]
    rfl
  refine ⟨Nat.le_of_eq hasked, fun id' hid' => ?_, fun hstale => ?_, fun hp => ?_, fun _ hlt => ?_⟩
  · obtain rfl := Option.some.inj (hpending.symm.trans hid')
    exact hid
  · rw [hst] at hstale
    cases hstale
  · rw [hpending] at hp
    cases hp
  · rw [hasked] at hlt
    exact absurd hlt (Nat.lt_irrefl _)


theorem Good.next {e : WorldStep ε} (hg : Good w) (hd : Delivers w e) (hi : Informs w e)
    (hs : w.step e = some v) : Good v := by
  cases e with
  | serve a => exact hg.serve hd hs
  | read => exact hg.read hs
  | answer id result => exact hg.answer hi hs
  | key front k view =>
    obtain ⟨t, ht, rfl⟩ := Option.map_eq_some_iff.mp hs
    exact hg.took (fun c' hc' => key_turn ht hc')
  | found request device =>
    obtain ⟨t, ht, rfl⟩ := Option.map_eq_some_iff.mp hs
    exact hg.took (fun c' hc' => found_turn ht hc')
  | pairing request step =>
    obtain ⟨t, ht, rfl⟩ := Option.map_eq_some_iff.mp hs
    exact hg.took (fun c' hc' => pairing_turn ht hc')
  | closed =>
    obtain ⟨t, ht, rfl⟩ := Option.map_eq_some_iff.mp hs
    obtain ⟨c, hc, rfl⟩ := Option.map_eq_some_iff.mp ht
    exact hg.took (fun c' hc' => nomatch hc')
  | subscribe => exact subscribe_good hs
  | retry writes skipped => exact hg.retry hs

/-- Every state event has come through the events connection and was taken in, and no
status request waits for its answer. -/
structure Quiet (w : World ε) : Prop where
  connected : ∃ c, w.tui.conn = some c ∧ c.statusPending = none
  handled : w.handled = w.events.lines.length
  forwarded : ∃ f, w.events.forwarders .state = some f ∧ f.hand = none ∧ f.next = w.published

theorem Quiet.not_coming (hq : Quiet w) : ¬ Coming w.events w.handled := by
  rintro ⟨f, hf, hcoming⟩
  obtain ⟨f', hf', hhand, hnext⟩ := hq.forwarded
  obtain rfl := Option.some.inj (hf.symm.trans hf')
  rcases hcoming with ⟨e, he⟩ | ⟨e, he⟩ | hlt
  · rw [unhandled, hq.handled, List.drop_length] at he
    cases he
  · rw [hhand] at he
    cases he
  · exact absurd (hnext ▸ hlt) (Nat.lt_irrefl _)

theorem Good.quiet (hg : Good w) (hq : Quiet w) : w.tui.app.status = some w.published := by
  obtain ⟨c, hc, hnone⟩ := hq.connected
  have hcur := hg.current c hc
  rw [hcur.held hnone]
  congr 1
  by_contra hne
  have hst : c.statusStale = false := by
    by_contra hst
    have hsome := hcur.stale (by simpa using hst)
    rw [hnone] at hsome
    cases hsome
  exact hq.not_coming (hcur.coming hst (Nat.lt_of_le_of_ne hcur.asked_le hne))

/-- An answer that tells no status, where one is needed, leaves an old status to a TUI that
is quiet then. -/
theorem Good.uninformed {id : Option Nat} (hg : Good w) (hi : ¬ Informs w (.answer id result))
    (hs : w.step (.answer id result) = some v) (hq : Quiet v) :
    v.tui.app.status ≠ some v.published := by
  simp only [Informs, not_forall, not_or, not_exists, not_and, exists_prop] at hi
  obtain ⟨hsome, hid, hresult, hstale, hheld⟩ := hi
  obtain ⟨t, ht, rfl⟩ := Option.map_eq_some_iff.mp hs
  obtain ⟨c, hc, rfl⟩ := Option.map_eq_some_iff.mp ht
  have hcur := hg.current c hc
  obtain ⟨c', hc', hnone⟩ := hq.connected
  have hid : id = c.statusPending := by rw [hid, Loop.statusPending, hc, Option.bind_some]
  obtain ⟨t, hanswered, ht, hconn⟩ := settle_conn hc'
  rw [ht] at hq ⊢
  obtain ⟨app, conn⟩ := t
  obtain rfl : conn = some c' := hconn
  cases answered_spec hcur.id_lt hanswered rfl with
  | kept kept =>
    have hpending : c.statusPending = none := kept.pending.symm.trans hnone
    rw [hid, hpending] at hsome
    cases hsome
  | refreshed fresh =>
    have hpending := fresh.pending
    rw [hnone] at hpending
    cases hpending
  | status _ _ stale pending _ held =>
    have hasked : w.asked = w.published := by
      by_contra hne
      exact hq.not_coming (hcur.coming stale (Nat.lt_of_le_of_ne hcur.asked_le hne))
    have hstatus := statusAnswer_stamped w.tui.app w.asked result
    have happ : app.status = w.tui.app.status :=
      (congrArg App.status held).trans (hstatus.trans (if_neg hresult))
    exact fun h => hheld (happ.symm.trans (h.trans (congrArg some hasked.symm)))

/-- A quiet TUI holds a status that was asked for after the last state event, in every run
whose status requests are answered with a status where that is needed; and the first one
that is not leaves it an old status. -/
theorem status_current {es : List (WorldStep ε)}
    (h : Reach World.step (fun w e => Delivers w e ∧ Informs w e) {} es w) :
    (Quiet w → w.tui.app.status = some w.published) ∧
      ∀ e v, ¬ Informs w e → w.step e = some v → Quiet v →
        v.tui.app.status ≠ some v.published := by
  have hg : Good w := h.invariant good_start (fun _ _ _ hg hok hs => hg.next hok.1 hok.2 hs)
  refine ⟨hg.quiet, fun e v hi hs hq => ?_⟩
  cases e with
  | answer id result => exact hg.uninformed hi hs hq
  | serve | read | key | found | pairing | closed | subscribe | retry => exact absurd trivial hi

/-- The TUI connects and has a status, a bridge stops, and the request for another status
gets an answer. -/
def stopRun (result : Except String (Value Unit)) : List (WorldStep Unit) :=
  [.subscribe, .retry 9 0, .answer (some 2) (.ok (.status ())), .serve (.publish .state ()),
    .serve (.recv .state), .serve (.trySend .state), .serve .write, .read,
    .answer (some 3) result]

def goesWell (w : World Unit) : WorldStep Unit → Bool
  | .serve _ => w.events.hasRoom
  | .answer _ (.ok (.status _)) => true
  | .answer .. => false
  | _ => true

theorem delivers_of_room (w : World Unit) (e : WorldStep Unit) (h : w.events.hasRoom = true) :
    Delivers w e := by
  cases e with
  | serve a => exact fun _ => h
  | _ => trivial

theorem ok_of_goesWell (w : World Unit) (e : WorldStep Unit) (h : goesWell w e = true) :
    Delivers w e ∧ Informs w e := by
  cases e with
  | serve a => exact ⟨fun _ => h, trivial⟩
  | answer id result =>
    match result, h with
    | .ok (.status _), _ => exact ⟨trivial, fun _ _ => .inl rfl⟩
  | _ => exact ⟨trivial, trivial⟩

theorem status_current_after_stop : ∃ w : World Unit,
    Reach World.step (fun w e => Delivers w e ∧ Informs w e) {} (stopRun (.ok (.status ()))) w ∧
      w.tui.app.status = some w.published ∧ w.published = 1 := by
  have h : Reach World.step (fun w e => Delivers w e ∧ Informs w e) {}
      (stopRun (.ok (.status ()))) _ := reach_of_checked ok_of_goesWell rfl
  exact ⟨_, h, (status_current h).1 ⟨⟨_, rfl, rfl⟩, rfl, ⟨_, rfl, rfl, rfl⟩⟩, rfl⟩

/-- The daemon, about to end, answers the request with an error: the screen keeps the
status from before. -/
theorem error_leaves_old_status : ∃ w : World Unit,
    Reach World.step Delivers {} (stopRun (.error "the daemon is shutting down")) w ∧ Quiet w ∧
      w.tui.app.status = some 0 ∧ w.published = 1 := by
  have h : Reach World.step Delivers {} (stopRun (.error "the daemon is shutting down")) _ :=
    reach_of_checked delivers_of_room rfl
  exact ⟨_, h, ⟨⟨_, rfl, rfl⟩, rfl, ⟨_, rfl, rfl, rfl⟩⟩, rfl, rfl⟩

end KissTncBridge.Proofs.FreshStatus
