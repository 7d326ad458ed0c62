import KissTncBridge.Proofs.OutGrows
import KissTncBridge.Proofs.SessionOrder

namespace KissTncBridge.Proofs.SessionFates
open Lib Conf Bridge KissTncBridge.Port Supervisor Supervisor.AppPorts SessionOrder
      AppPortSteps OutGrows

variable {s s' : Sys} {net : IpNetLib} {task : Nat} {t t' : TcpSession} {sid : SessionId}

/-- A session keeps its port and its id, and never comes back to where it has
left. -/
structure Goes (t t' : TcpSession) : Prop where
  server : t'.server = t.server
  id : t'.id = t.id
  running : t'.running = true → t.running = true
  counted : t'.counted = true → t.counted = true

theorem Goes.refl (t : TcpSession) : Goes t t := ⟨rfl, rfl, fun h => h, fun h => h⟩

def Ages (l l' : List TcpSession) : Prop :=
  ∀ (task : Nat) t, l[task]? = some t → ∃ t', l'[task]? = some t' ∧ Goes t t'

theorem Ages.refl (l : List TcpSession) : Ages l l := fun _ t ht => ⟨t, ht, .refl t⟩

theorem Ages.set {l : List TcpSession} (ht : l[task]? = some t) (h : Goes t t') :
    Ages l (l.set task t') := by
  intro other u hu
  by_cases he : task = other
  · subst he
    obtain rfl := Option.some.inj (ht.symm.trans hu)
    exact ⟨t', List.getElem?_set_self (List.getElem?_eq_some_iff.mp ht).1, h⟩
  · exact ⟨u, by rw [List.getElem?_set_ne he, hu], .refl u⟩

theorem Ages.append (l more : List TcpSession) : Ages l (l ++ more) := by
  intro task t ht
  refine ⟨t, ?_, .refl t⟩
  rw [List.getElem?_append_left (List.getElem?_eq_some_iff.mp ht).1, ht]

theorem Ages.back {l l' : List TcpSession} (h : Ages l l') (ht : l'[task]? = some t')
    (hlt : task < l.length) : ∃ t, l[task]? = some t ∧ Goes t t' := by
  obtain ⟨u, hu, hg⟩ := h task l[task] (List.getElem?_eq_getElem hlt)
  obtain rfl := Option.some.inj (ht.symm.trans hu)
  exact ⟨_, List.getElem?_eq_getElem hlt, hg⟩

theorem tcp_ages (h : TcpTurn net s e s') : Ages s.sessions s'.sessions := by
  cases h with
  | starts | stops | accepts | refuses => exact .refl _
  | admits => exact .append _ _
  | opens ht hph => exact .set ht ⟨rfl, rfl, fun _ => by simp [TcpSession.running, hph], fun _ => by
      simp [TcpSession.counted, hph]⟩
  | breaks ht hph => exact .set ht ⟨rfl, rfl, nofun, fun _ => by simp [TcpSession.counted, hph]⟩
  | uncounts ht _ _ => exact .set ht ⟨rfl, rfl, nofun, nofun⟩
  | closes ht _ _ => exact .set ht ⟨rfl, rfl, nofun, nofun⟩

theorem step_ages (hs : s.step net e = some s') : Ages s.sessions s'.sessions := by
  cases e with
  | bridge e => cases bridge_turn hs <;> exact .refl _
  | tcp e => exact tcp_ages (tcp_turn hs)
  | ble e => cases ble_turn hs <;> exact .refl _
  | reload e => cases reload_turn hs <;> exact .refl _

theorem step_out (hs : s.step net e = some s') : s.run.out <+: s'.run.out := by
  cases e with
  | bridge e =>
    cases bridge_turn hs with
    | takes _ hr => exact step_grows hr
    | takesCmd _ hr => exact step_grows hr
    | turn _ _ hr => exact step_grows hr
    | frame => exact List.prefix_rfl
    | command => exact List.prefix_rfl
  | tcp e => cases tcp_turn hs <;> exact List.prefix_rfl
  | ble e => cases ble_turn hs <;> exact List.prefix_rfl
  | reload e => cases reload_turn hs <;> exact List.prefix_rfl

/-- Tokens of TCP sessions stand where their sessions put them: with the id of
the session, and in a close only once it is over. -/
structure Tagged (s : Sys) : Prop where
  registered : ∀ sid task, s.registered sid = some (Owner.tcp task).token →
    ∃ t, s.sessions[task]? = some t ∧ t.id = sid
  opened : ∀ sender sid tx task, ⟨sender, .sessionOpened sid tx (Owner.tcp task).token⟩ ∈ s.queue →
    ∃ t, s.sessions[task]? = some t ∧ t.id = sid
  closed : ∀ sid task, ⟨(Owner.tcp task).token, .sessionClosed sid⟩ ∈ s.queue →
    ∃ t, s.sessions[task]? = some t ∧ t.running = false

theorem Ages.named {l l' : List TcpSession} (h : Ages l l')
    (ht : ∃ t, l[task]? = some t ∧ t.id = sid) : ∃ t, l'[task]? = some t ∧ t.id = sid := by
  obtain ⟨t, ht, hid⟩ := ht
  obtain ⟨t', ht', hg⟩ := h task t ht
  exact ⟨t', ht', hg.id.trans hid⟩

theorem Ages.over {l l' : List TcpSession} (h : Ages l l')
    (ht : ∃ t, l[task]? = some t ∧ t.running = false) :
    ∃ t, l'[task]? = some t ∧ t.running = false := by
  obtain ⟨t, ht, hr⟩ := ht
  obtain ⟨t', ht', hg⟩ := h task t ht
  refine ⟨t', ht', ?_⟩
  cases hr' : t'.running with
  | false => rfl
  | true => exact absurd (hg.running hr') (by rw [hr]; decide)

/-- What is new in the queue, if anything, fits the sessions. -/
theorem Tagged.next (h : Tagged s) (ha : Ages s.sessions s'.sessions)
    (hr : ∀ sid task, s'.registered sid = some (Owner.tcp task).token →
      s.registered sid = some (Owner.tcp task).token ∨ ∃ t,
        s'.sessions[task]? = some t ∧ t.id = sid)
    (ho : ∀ sender sid tx task, ⟨sender, .sessionOpened sid tx (Owner.tcp task).token⟩ ∈ s'.queue →
      ⟨sender, .sessionOpened sid tx (Owner.tcp task).token⟩ ∈ s.queue ∨
        ∃ t, s'.sessions[task]? = some t ∧ t.id = sid)
    (hc : ∀ sid task, ⟨(Owner.tcp task).token, .sessionClosed sid⟩ ∈ s'.queue →
      ⟨(Owner.tcp task).token, .sessionClosed sid⟩ ∈ s.queue ∨
        ∃ t, s'.sessions[task]? = some t ∧ t.running = false) : Tagged s' where
  registered sid task hreg :=
    (hr sid task hreg).elim (fun hreg => ha.named (h.registered sid task hreg)) id
  opened sender sid tx task hm :=
    (ho sender sid tx task hm).elim (fun hm => ha.named (h.opened _ _ _ _ hm)) id
  closed sid task hm := (hc sid task hm).elim (fun hm => ha.over (h.closed sid task hm)) id

/-- A step that sends nothing. -/
theorem Tagged.silent (h : Tagged s) (ha : Ages s.sessions s'.sessions)
    (hr : ∀ sid, s'.registered sid = s.registered sid) (hq : ∀ m ∈ s'.queue, m ∈ s.queue) :
    Tagged s' :=
  h.next ha (fun sid _ hreg => .inl (hr sid ▸ hreg)) (fun _ _ _ _ hm => .inl (hq _ hm))
    (fun _ _ hm => .inl (hq _ hm))

/-- A step that sends the open of a session, or another's. -/
theorem Tagged.opens (h : Tagged s) (ha : Ages s.sessions s'.sessions)
    (hr : ∀ sid, s'.registered sid = s.registered sid)
    (hq : s'.queue = s.queue ++ [⟨sender, .sessionOpened sid tx k⟩])
    (ht : ∀ task, k = (Owner.tcp task).token → ∃ t, s'.sessions[task]? = some t ∧ t.id = sid) :
    Tagged s' := by
  refine h.next ha (fun sid _ hreg => .inl (hr sid ▸ hreg)) (fun _ other _ task hm => ?_)
    (fun _ _ hm => ?_)
  · rw [hq, List.mem_append, List.mem_singleton] at hm
    refine hm.imp_right (fun hm => ?_)
    obtain ⟨-, he⟩ := Mail.mk.inj hm
    obtain ⟨rfl, -, hk⟩ := AppEvent.sessionOpened.inj he
    exact ht task hk.symm
  · rw [hq, List.mem_append, List.mem_singleton] at hm
    exact hm.imp_right (fun hm => by cases hm)

theorem Tagged.closes (h : Tagged s) (ha : Ages s.sessions s'.sessions)
    (hr : ∀ sid, s'.registered sid = s.registered sid)
    (hq : s'.queue = s.queue ++ [⟨k, .sessionClosed sid⟩])
    (ht : ∀ task, k = (Owner.tcp task).token → ∃ t, s'.sessions[task]? = some t ∧
      t.running = false) : Tagged s' := by
  refine h.next ha (fun sid _ hreg => .inl (hr sid ▸ hreg)) (fun _ _ _ _ hm => ?_)
    (fun other task hm => ?_)
  · rw [hq, List.mem_append, List.mem_singleton] at hm
    exact hm.imp_right (fun hm => by cases hm)
  · rw [hq, List.mem_append, List.mem_singleton] at hm
    refine hm.imp_right (fun hm => ?_)
    exact ht task (Mail.mk.inj hm).1.symm

theorem bridge_tagged (h : Tagged s) (hs : s.bridgeStep e = some s') : Tagged s' := by
  cases bridge_turn hs with
  | @takes m queue now run hq hr =>
    have hsub : ∀ x ∈ queue, x ∈ s.queue := fun x hx => by
      rw [hq]
      exact List.mem_cons_of_mem _ hx
    refine h.next (.refl _) (fun sid task hreg => ?_) (fun _ _ _ _ hm => .inl (hsub _ hm))
      (fun _ _ hm => .inl (hsub _ hm))
    rw [registered_takes hr sid] at hreg
    obtain ⟨sender, ev⟩ := m
    cases ev with
    | sessionOpened other tx kick =>
      by_cases he : sid = other
      · simp only [if_pos he, Option.some.injEq] at hreg
        subst he hreg
        refine .inr (h.opened sender sid tx task ?_)
        rw [hq]
        exact List.mem_cons_self ..
      · simp only [if_neg he] at hreg
        exact .inl hreg
    | sessionClosed other =>
      by_cases he : sid = other
      · simp [he] at hreg
      · simp only [if_neg he] at hreg
        exact .inl hreg
    | frame => exact .inl hreg
  | takesCmd _ hr => exact h.silent (.refl _) (kicks_kept hr nofun) (fun _ hm => hm)
  | turn ha _ hr => exact h.silent (.refl _) (kicks_kept hr ha) (fun _ hm => hm)
  | frame =>
    refine h.next (.refl _) (fun _ _ hreg => .inl hreg) (fun _ _ _ _ hm => ?_) (fun _ _ hm => ?_)
      <;>
      exact .inl (by simpa using hm)
  | command => exact h.silent (.refl _) (fun _ => rfl) (fun _ hm => hm)

theorem tcp_tagged (h : Tagged s) (hs : s.tcpStep net e = some s') : Tagged s' := by
  have ht := tcp_turn hs
  have ha := tcp_ages ht
  cases ht with
  | starts | stops | accepts | refuses | admits | breaks | uncounts =>
    exact h.silent ha (fun _ => rfl) (fun _ hm => hm)
  | @opens task t ht hph =>
    refine h.opens ha (fun _ => rfl) rfl (fun other hk => ?_)
    obtain rfl := Owner.tcp.inj (token_injective hk)
    exact ⟨_, List.getElem?_set_self (List.getElem?_eq_some_iff.mp ht).1, rfl⟩
  | @closes task t ht hph =>
    refine h.closes ha (fun _ => rfl) rfl (fun other hk => ?_)
    obtain rfl := Owner.tcp.inj (token_injective hk)
    exact ⟨_, List.getElem?_set_self (List.getElem?_eq_some_iff.mp ht).1, rfl⟩

theorem ble_tagged (h : Tagged s) (hs : s.bleStep e = some s') : Tagged s' := by
  cases ble_turn hs with
  | starts | stops | limits | attaches | reports
  | exits => exact h.silent (.refl _) (fun _ => rfl) (fun _ hm => hm)
  | opens =>
    exact h.opens (.refl _) (fun _ => rfl) rfl
      (fun task hk => absurd (token_injective hk) Owner.noConfusion)
  | closes | leaves =>
    exact h.closes (.refl _) (fun _ => rfl) rfl
      (fun task hk => absurd (token_injective hk) Owner.noConfusion)

theorem step_tagged (h : Tagged s) (hs : s.step net e = some s') : Tagged s' := by
  cases e with
  | bridge e => exact bridge_tagged h hs
  | tcp e => exact tcp_tagged h hs
  | ble e => exact ble_tagged h hs
  | reload e => cases reload_turn hs <;> exact h.silent (.refl _) (fun _ => rfl) (fun _ hm => hm)

/-- While a session runs it stays registered. -/
theorem registered_step (ho : Ordered s) (hg : Tagged s) (hs : s.step net e = some s')
    (ht : s'.sessions[task]? = some t) (hrun : t.running = true)
    (hr : s.registered t.id = some (Owner.tcp task).token) :
    s'.registered t.id = some (Owner.tcp task).token := by
  cases e with
  | tcp e => cases tcp_turn hs <;> exact hr
  | ble e => cases ble_turn hs <;> exact hr
  | reload e => cases reload_turn hs <;> exact hr
  | bridge e =>
    cases bridge_turn hs with
    | frame => exact hr
    | command => exact hr
    | takesCmd _ hstep => exact (kicks_kept hstep nofun _).trans hr
    | turn ha _ hstep => exact (kicks_kept hstep ha _).trans hr
    | @takes m queue now run hq hstep =>
      obtain ⟨last, hp, -⟩ := ho.passing t.id
      rw [hr] at hp
      rw [registered_takes hstep]
      obtain ⟨sender, ev⟩ := m
      cases ev with
      | frame => exact hr
      | sessionOpened other tx kick =>
        by_cases he : t.id = other
        · have hn : notes t.id s.queue = .takes kick :: notes t.id queue := by
            simp [hq, notes, note, he]
          rw [hn] at hp
          cases hp
        · simpa [he] using hr
      | sessionClosed other =>
        by_cases he : t.id = other
        · have hn : notes t.id s.queue = .gives sender :: notes t.id queue := by
            simp [hq, notes, note, he]
          rw [hn] at hp
          obtain rfl := Option.some.inj hp.of_gives.1
          have hm : (⟨(Owner.tcp task).token, .sessionClosed other⟩ : Mail) ∈ s.queue := by
            rw [hq]
            exact List.mem_cons_self ..
          obtain ⟨u, hu, hover⟩ := hg.closed other task hm
          obtain rfl := Option.some.inj (ht.symm.trans hu)
          rw [hrun] at hover
          cases hover
        · simpa [he] using hr

def Cancelled (s : Sys) (task : Nat) : Prop := .cancel (Owner.tcp task).token ∈ s.run.out

def unsent : Reload → List SessionId
  | .applying _ kicks _ => kicks
  | .idle | .asked | .answered .. => []

/-- A kick is on its way to the session registered under an id. -/
def Kicked (s : Sys) (sid : SessionId) : Prop := .kick sid ∈ s.cmds ∨ sid ∈ unsent s.reload

def Slated (s : Sys) (task : Nat) (sid : SessionId) : Prop :=
  Cancelled s task ∨ s.registered sid = some (Owner.tcp task).token ∧ Kicked s sid

theorem cancelled_step (hs : s.step net e = some s') (h : Cancelled s task) : Cancelled s' task :=
  (step_out hs).subset h

/-- A kick that is taken cancels the token registered under its id. -/
theorem kick_cancels {r r' : Run} (hs : r.step (.cmd now (.kick sid)) = some r')
    (hr : (r.sessions.lookup sid).map Session.kick = some k) : .cancel k ∈ r'.out := by
  obtain rfl : r' = r.onCmd now (.kick sid) := (Option.some.inj hs).symm
  obtain ⟨x, hx, rfl⟩ := Option.map_eq_some_iff.mp hr
  simp only [Run.onCmd, hx]
  exact List.mem_append_right _ (List.mem_singleton.mpr rfl)

theorem kicked_step (hs : s.step net e = some s') (h : Kicked s sid)
    (hr : s.registered sid = some (Owner.tcp task).token) : Kicked s' sid ∨ Cancelled s' task := by
  cases e with
  | tcp e => cases tcp_turn hs <;> exact .inl h
  | ble e => cases ble_turn hs <;> exact .inl h
  | bridge e =>
    cases bridge_turn hs with
    | takes | turn | frame => exact .inl h
    | command =>
      refine .inl (h.imp_left (fun hm => ?_))
      exact List.mem_append_left _ hm
    | @takesCmd c cmds now run hq hstep =>
      rcases h with hm | hm
      · rw [hq] at hm
        rcases List.mem_cons.mp hm with rfl | hm
        · exact .inr (kick_cancels hstep hr)
        · exact .inl (.inl hm)
      · refine .inl (.inr ?_)
        have hne : s.reload ≠ .asked := by
          intro he
          rw [he] at hm
          cases hm
        simpa only [hne, and_false, if_false] using hm
  | reload e =>
    cases reload_turn hs with
    | asks hi =>
      rw [Kicked, hi] at h
      exact .inl (.inl (List.mem_append_left _ (h.resolve_right List.not_mem_nil)))
    | plans hi =>
      rw [Kicked, hi] at h
      exact .inl (.inl (h.resolve_right List.not_mem_nil))
    | updates hi =>
      rw [Kicked, hi] at h
      exact .inl (.inl (h.resolve_right List.not_mem_nil))
    | @kicks seen other kicks rest hi =>
      rw [Kicked, hi] at h
      rcases h with hm | hm
      · exact .inl (.inl (List.mem_append_left _ hm))
      · rcases List.mem_cons.mp hm with rfl | hm
        · exact .inl (.inl (List.mem_append_right _ (List.mem_singleton.mpr rfl)))
        · exact .inl (.inr hm)
    | applied hi =>
      rw [Kicked, hi] at h
      exact .inl (.inl (h.resolve_right List.not_mem_nil))

/-- A session that will be told to end will be, as long as it runs. -/
theorem slated_step (ho : Ordered s) (hg : Tagged s) (hs : s.step net e = some s')
    (ht : s'.sessions[task]? = some t) (hrun : t.running = true) (h : Slated s task t.id) :
    Slated s' task t.id := by
  rcases h with hc | ⟨hr, hk⟩
  · exact .inl (cancelled_step hs hc)
  · rcases kicked_step hs hk hr with hk | hc
    · exact .inr ⟨registered_step ho hg hs ht hrun hr, hk⟩
    · exact .inl hc

end KissTncBridge.Proofs.SessionFates
