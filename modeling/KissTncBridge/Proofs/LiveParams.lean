import KissTncBridge.Proofs.FrameFlow

namespace KissTncBridge.Proofs.LiveParams
open Bridge Conf Lib BridgeSteps Coherence FrameFlow

variable {r r' r₀ : Run} {now : Now} {t : Nat} {f : Frame}

def Passes (f : Frame) : Prop := filterAppFrame f .drop = .pass

/-- A bridge that drops parameters: the frames that wait may be sent or are
already too old at `t`, and so are those handed over since `r₀`. -/
structure Clear (t : Nat) (r₀ r : Run) : Prop where
  params : r.settings.appParams = .drop
  waiting : ∀ p ∈ r.pending, Passes p.2.1 ∨ p.1 + UPLINK_QUEUE_AGE < t
  handed : ∃ up, handed r.out = handed r₀.out ++ up ∧ ∀ x ∈ up, Passes x.2

namespace Clear

theorem of_same (h : Clear t r₀ r) (hs : r'.settings.appParams = .drop)
    (hp : ∀ p ∈ r'.pending, p ∈ r.pending)
    (ho : FrameFlow.handed r'.out = FrameFlow.handed r.out) : Clear t r₀ r' := by
  refine ⟨hs, fun p hm => h.waiting p (hp p hm), ?_⟩
  rw [ho]
  exact h.handed

theorem aside (h : Clear t r₀ r) (hs : r'.settings = r.settings) (hp : r'.pending = r.pending)
    (ho : r'.out = r.out) : Clear t r₀ r' :=
  h.of_same (hs ▸ h.params) (fun _ hm => hp ▸ hm) (by rw [ho])

theorem startConnect (h : Clear t r₀ r) : Clear t r₀ (r.startConnect now) := by
  have hk : (r.startConnect now).settings = r.settings := (startConnect_keeps r).settings
  refine h.of_same (hk ▸ h.params) ?_ ?_
  · intro p hm
    simp only [Run.startConnect] at hm
    split at hm <;> exact hm
  · simp only [Run.startConnect]
    split <;> simp [FrameFlow.handed, Run.setState]

theorem startWait (h : Clear t r₀ r) : Clear t r₀ (r.startWait now kind why) := by
  cases kind <;> exact h.aside rfl rfl rfl

theorem close (h : Clear t r₀ r) : Clear t r₀ (r.close now) := by
  have hk : (r.close now).settings = r.settings := (close_keeps r).settings
  refine h.of_same (hk ▸ h.params) (fun p hm => ?_) (handed_release r)
  cases hm

theorem giveUp (h : Clear t r₀ r) : Clear t r₀ (r.giveUp now) :=
  h.of_same h.params (fun _ hm => by cases hm) rfl

theorem letGo (h : Clear t r₀ r) : Clear t r₀ (r.letGo now) := by
  unfold Run.letGo
  split
  · exact h.close
  · exact h.aside rfl rfl rfl

theorem queuePending (h : Clear t r₀ r) (hf : Passes f) :
    Clear t r₀ (r.queuePending now f src) := by
  have hk : (r.queuePending now f src).settings = r.settings := (queuePending_keeps r).settings
  refine ⟨hk ▸ h.params, fun p hm => ?_, ?_⟩
  · have hold : p ∈ r.pending ∨ p = (now.instant, f, src) := by
      simp only [Run.queuePending] at hm
      split at hm
      · rcases List.mem_append.mp hm with hm | hm
        · exact .inl (List.mem_of_mem_tail hm)
        · exact .inr (List.mem_singleton.mp hm)
      · rcases List.mem_append.mp hm with hm | hm
        · exact .inl hm
        · exact .inr (List.mem_singleton.mp hm)
    rcases hold with hm | rfl
    · exact h.waiting p hm
    · exact .inl hf
  · have ho : (r.queuePending now f src).out = r.out := by
      simp only [Run.queuePending]
      split <;> rfl
    rw [ho]
    exact h.handed

theorem uplink (h : Clear t r₀ r) (hf : Passes f) : Clear t r₀ (r.uplink now f src) := by
  unfold Run.uplink
  split
  · rename_i l _
    split
    · obtain ⟨up, ho, hup⟩ := h.handed
      refine ⟨h.params, h.waiting, up ++ [(l, f)], ?_, fun x hx => ?_⟩
      · simp only [FrameFlow.handed, List.filterMap_append, List.filterMap_cons,
          List.filterMap_nil] at ho ⊢
        rw [ho, List.append_assoc]
      · rcases List.mem_append.mp hx with hx | hx
        · exact hup x hx
        · rw [List.mem_singleton.mp hx]
          exact hf
    · exact h.aside rfl rfl rfl
  · split
    · exact h.aside rfl rfl rfl
    · exact (h.queuePending hf).startConnect
  · exact h.queuePending hf
  · exact h.queuePending hf

/-- A frame that waited is handed over only while it is fresh. -/
theorem uplinkPending (h : Clear t r₀ r) (hp : Passes p.2.1 ∨ p.1 + UPLINK_QUEUE_AGE < t)
    (ht : t ≤ now.instant) : Clear t r₀ (Run.uplinkPending now r p) := by
  unfold Run.uplinkPending
  split
  · exact h.aside rfl rfl rfl
  · rename_i hage
    exact h.uplink (hp.resolve_right (fun hold => hage (Nat.lt_of_lt_of_le hold ht)))

theorem drain {ps : List (Nat × Frame × Option SessionId)} (h : Clear t r₀ r)
    (hp : ∀ p ∈ ps, Passes p.2.1 ∨ p.1 + UPLINK_QUEUE_AGE < t) (ht : t ≤ now.instant) :
    Clear t r₀ (ps.foldl (Run.uplinkPending now) r) := by
  induction ps generalizing r with
  | nil => exact h
  | cons p ps ih =>
    exact ih (h.uplinkPending (hp p (List.mem_cons_self ..)) ht)
      (fun q hq => hp q (List.mem_cons_of_mem _ hq))

theorem offers (h : Clear t r₀ r) (ids : List SessionId) :
    Clear t r₀ (ids.foldl (Run.offer f) r) := by
  induction ids generalizing r with
  | nil => exact h
  | cons sid ids ih =>
    refine ih ?_
    have ho := offer_offered f sid r
    refine h.of_same ?_ (fun p hm => ho.pending ▸ hm) ho.handed
    unfold Run.offer
    split
    · exact h.params
    · dsimp only
      split <;> exact h.params

theorem onApp (h : Clear t r₀ r) (ev : AppEvent) : Clear t r₀ (r.onApp now ev) := by
  cases ev with
  | sessionOpened sid tx kick =>
    simp only [Run.onApp]
    split
    · exact startConnect (h.aside rfl rfl rfl)
    · exact h.aside rfl rfl rfl
  | sessionClosed sid =>
    simp only [Run.onApp]
    split
    · exact letGo (h.aside rfl rfl rfl)
    · exact h.aside rfl rfl rfl
  | frame sid f =>
    simp only [Run.onApp]
    split
    · exact h.aside rfl rfl rfl
    · split
      · exact h.aside rfl rfl rfl
      · rename_i hv
        rw [h.params] at hv
        exact h.uplink hv

/-- Settings that go on dropping parameters. -/
theorem applySettings (h : Clear t r₀ r) (hnew : new.appParams = .drop) :
    Clear t r₀ (r.applySettings now new) := by
  have hset : Clear t r₀ { r with settings := new } := h.of_same hnew (fun _ hm => hm) rfl
  simp only [Run.applySettings]
  split
  · exact hset
  · split
    · split
      · exact startConnect (hset.aside rfl rfl rfl)
      · exact hset.aside rfl rfl rfl
    · split
      · exact hset.letGo
      · exact hset
    · exact hset

theorem onCmd (h : Clear t r₀ r) (cmd : BridgeCmd)
    (hnew : ∀ new, cmd = .settings new → new.appParams = .drop) : Clear t r₀ (r.onCmd now cmd) := by
  cases cmd with
  | settings new => exact h.applySettings (hnew new rfl)
  | connector c =>
    have hclose : Clear t r₀ (r.close now) := h.close
    have hc : Clear t r₀ { r.close now with connector := c, attempt := 0 } :=
      hclose.aside rfl rfl rfl
    simp only [Run.onCmd]
    split
    · exact hc.startConnect
    · exact hc
  | hold hold =>
    have hh : Clear t r₀ { r with held := hold, idleTimer := none } := h.aside rfl rfl rfl
    simp only [Run.onCmd]
    split
    · split
      · exact hh.startConnect
      · exact hh
    · split
      · exact hh.close
      · exact h.aside rfl rfl rfl
  | kick sid =>
    simp only [Run.onCmd]
    split
    · exact h.of_same h.params (fun _ hm => hm) (by simp [FrameFlow.handed])
    · exact h
  | snapshot => exact h.of_same h.params (fun _ hm => hm) (by simp [Run.onCmd, FrameFlow.handed])

theorem onTnc (h : Clear t r₀ r) (ev : TncEvent) : Clear t r₀ (r.onTnc now ev) := by
  cases ev with
  | frame g f =>
    simp only [Run.onTnc]
    split
    · exact h
    · have hcount : Clear t r₀
          { r with counters := { r.counters with framesDown := r.counters.framesDown + 1 } } :=
        h.aside rfl rfl rfl
      exact hcount.offers _
  | closed g err =>
    simp only [Run.onTnc]
    split
    · split
      · exact h
      · split <;> exact h.aside rfl rfl rfl
    · exact h

theorem onLink (h : Clear t r₀ r) (ev : LinkEvent) (ht : t ≤ now.instant) :
    Clear t r₀ (r.onLink now ev) := by
  have hidle : Clear t r₀ { r with link := .idle } := h.aside rfl rfl rfl
  cases ev with
  | connected res =>
    cases res with
    | ok steps =>
      have hup : Clear t r₀ { r.linkUp now steps with pending := [] } :=
        h.of_same h.params (fun _ hm => by cases hm)
          (by simp [FrameFlow.handed, Run.linkUp, Run.setState])
      have hd := hup.drain h.waiting ht
      simp only [Run.onLink]
      split
      · exact hd.close
      · exact hd
    | error err =>
      simp only [Run.onLink]
      split
      · exact hidle.giveUp
      · cases err with
        | unpaired why => exact hidle.startWait
        | deviceAbsent why => exact hidle.startWait
        | other why => exact hidle.aside rfl rfl rfl
  | backoffOver =>
    simp only [Run.onLink]
    split
    · exact hidle.startConnect
    · exact hidle.giveUp

end Clear

/-- The clock has not been set back before `t`, and parameters go on being
dropped. -/
def Onward (t : Nat) : Event → Prop
  | .cmd now (.settings new) => t ≤ now.instant ∧ new.appParams = .drop
  | .app now _ | .tnc now _ | .cmd now _ | .link now _ | .idleElapsed now => t ≤ now.instant
  | _ => True

theorem step_clear (h : Clear t r₀ r) (hon : Onward t e) (hs : r.step e = some r') :
    Clear t r₀ r' := by
  cases step_turn hs with
  | app _ => exact h.onApp _
  | tnc => exact h.onTnc _
  | cmd =>
    refine h.onCmd _ (fun new he => ?_)
    subst he
    exact hon.2
  | connected _ =>
    refine Clear.onLink ?_ _ hon
    unfold Run.connectDone
    split
    · exact h.of_same h.params (fun _ hm => hm) (by simp [handed])
    · exact h
  | backoffOver _ => exact h.onLink _ hon
  | idle _ =>
    have hi : Clear t r₀ { r with idleTimer := none } := h.aside rfl rfl rfl
    simp only [Run.onIdle]
    split
    · exact hi.close
    · exact hi
  | takes _ _ | gone _ | writer _ _ => exact h.aside rfl rfl rfl
  | slot _ => exact h

/-- New settings are in force once they are handled. -/
theorem settings_applied (r : Run) (now : Now) (new : TncSettings) :
    (r.onCmd now (.settings new)).settings = new := by
  simp only [Run.onCmd, Run.applySettings]
  split
  · rfl
  · split
    · split
      · exact (startConnect_keeps _).settings
      · rfl
    · split
      · simp only [Run.letGo]
        split
        · exact (close_keeps _).settings
        · rfl
      · rfl
    · rfl

/-- New settings leave the waiting frames where they are, unless they make the
bridge let go. -/
theorem settings_pending (r : Run) (now : Now) (new : TncSettings) :
    (r.onCmd now (.settings new)).pending =
      if abandons r (.cmd now (.settings new)) then [] else r.pending := by
  simp only [Run.onCmd, Run.applySettings]
  split
  · rename_i he
    have hn : abandons r (.cmd now (.settings new)) = false := by
      cases hc : new.connect <;> simp [abandons, he, hc]
    simp [hn]
  · split
    · rename_i ho hn
      have ha : abandons r (.cmd now (.settings new)) = false := by simp [abandons, ho]
      rw [ha]
      split
      · simp only [Run.startConnect]
        split <;> rfl
      · rfl
    · rename_i ho hn
      have ha : abandons r (.cmd now (.settings new)) =
          (r.sessions.entries.isEmpty && new.idleTimeout == 0) := by simp [abandons, ho, hn]
      rw [ha]
      split
      · rename_i hempty
        rw [hempty, Run.letGo]
        by_cases hz : new.idleTimeout = 0
        · simp [hz, Run.close, Run.disconnect, Run.setState]
        · simp [hz]
      · rename_i hempty
        simp [hempty]
    · rename_i hx hy
      have ha : abandons r (.cmd now (.settings new)) = false := by
        rw [← Bool.not_eq_true]
        intro ht
        simp only [abandons, Bool.and_eq_true, beq_iff_eq] at ht
        exact hy ht.1.1.1 ht.1.1.2
      rw [ha]
      rfl

structure Roomy (r : Run) (l n : Nat) : Prop where
  link : r.link = .connected l
  room : ∃ tx, r.writerTx = some tx ∧ tx.alive = true ∧ tx.queue.length + n ≤ tx.cap

theorem Roomy.next (now : Now) (h : Roomy r l (n + 1)) (p : Nat × Frame × Option SessionId) :
    Roomy (Run.uplinkPending now r p) l n ∧ ∃ up,
      handed (Run.uplinkPending now r p).out = handed r.out ++ up ∧
      (now.instant ≤ p.1 + UPLINK_QUEUE_AGE → (l, p.2.1) ∈ up) := by
  obtain ⟨tx, htx, halive, hroom⟩ := h.room
  have hsend : tx.trySend (.frame p.2.1) = some { tx with queue := tx.queue ++ [.frame p.2.1] } :=
    if_pos ⟨halive, by omega⟩
  unfold Run.uplinkPending
  split
  · rename_i hage
    refine ⟨⟨h.link, tx, htx, halive, by omega⟩, [], (List.append_nil _).symm, fun hfresh => ?_⟩
    omega
  · unfold Run.uplink
    simp only [h.link, htx, Option.bind_some, hsend]
    refine ⟨⟨rfl, _, rfl, halive, ?_⟩, [(l, p.2.1)],
      by simp [handed], fun _ => List.mem_singleton_self _⟩
    dsimp only
    rw [List.length_append, List.length_singleton]
    omega

theorem drain_hands (now : Now) {ps : List (Nat × Frame × Option SessionId)}
    (h : Roomy r l ps.length) :
    ∃ up, handed (ps.foldl (Run.uplinkPending now) r).out = handed r.out ++ up ∧
      ∀ p ∈ ps, now.instant ≤ p.1 + UPLINK_QUEUE_AGE → (l, p.2.1) ∈ up := by
  induction ps generalizing r with
  | nil => exact ⟨[], (List.append_nil _).symm, fun _ hm => by cases hm⟩
  | cons p ps ih =>
    obtain ⟨hnext, up, ho, hup⟩ := h.next now p
    obtain ⟨more, ho', hmore⟩ := ih hnext
    refine ⟨up ++ more, ?_, fun q hq hfresh => ?_⟩
    · rw [List.foldl_cons, ho', ho, List.append_assoc]
    · rcases List.mem_cons.mp hq with rfl | hq
      · exact List.mem_append_left _ (hup hfresh)
      · exact List.mem_append_right _ (hmore q hq hfresh)

/-- A link that comes up is handed every fresh frame that waited for it. -/
theorem connected_hands (now : Now) (h : Coherent r) (hl : r.link = .connecting task) :
    ∃ r', r.step (.link now (.connected (.ok []))) = some r' ∧ ∃ up,
      handed r'.out = handed r.out ++ up ∧
      ∀ p ∈ r.pending, now.instant ≤ p.1 + UPLINK_QUEUE_AGE → (r.nextLink, p.2.1) ∈ up := by
  refine ⟨r.connectDone.onLink now (.connected (.ok [])), by simp only [Run.step, hl], ?_⟩
  have hp : r.connectDone.pending = r.pending := by simp only [Run.connectDone, hl]
  have hn : r.connectDone.nextLink = r.nextLink := by simp only [Run.connectDone, hl, Run.nextLink]
  have ho : handed { r.connectDone.linkUp now [] with pending := [] }.out = handed r.out := by
    simp [handed, Run.connectDone, hl, Run.linkUp, Run.setState]
  have hroomy : Roomy { r.connectDone.linkUp now [] with pending := [] } r.nextLink
      r.connectDone.pending.length := by
    refine ⟨by rw [← hn]; rfl, _, rfl, rfl, ?_⟩
    have hb := h.tasks.bounded
    rw [hp]
    simp only [Chan.empty, List.length_nil, Nat.zero_add, UPLINK_QUEUE_FRAMES, WRITER_QUEUE] at hb ⊢
    omega
  obtain ⟨up, hout, hup⟩ := drain_hands now hroomy
  refine ⟨up, ?_, fun p hm => hup p (hp ▸ hm)⟩
  rw [← ho, ← hout]
  simp only [Run.onLink]
  split
  · exact handed_release _
  · rfl

theorem backoffOver_connects (now : Now) (hl : r.link = .backoff d) (hw : r.wantsLink = true) :
    r.step (.link now .backoffOver) = some ({ r with link := .idle }.startConnect now) := by
  have hw' : { r with link := .idle }.wantsLink = true := hw
  simp only [Run.step, hl, Run.onLink, hw', if_true]

/-- A link that is held up goes from waiting to connecting, and what waits for
it waits on. -/
theorem backoff_connects (now : Now) (h : Coherent r) (hl : r.link = .backoff d) :
    ∃ r', [.cmd now (.hold (some true)), .link now .backoffOver].foldlM Run.step r = some r' ∧
    Coherent r' ∧
      (∃ task, r'.link = .connecting task) ∧ r'.pending = r.pending ∧
      handed r'.out = handed r.out := by
  have hheld : r.step (.cmd now (.hold (some true))) =
      some { r with held := some true, idleTimer := none } := by
    simp [Run.step, Run.onCmd, Run.wantsLink, hl]
  have hover :=
    backoffOver_connects (r := { r with held := some true, idleTimer := none }) now hl rfl
  refine ⟨_, ?_, step_coherent (step_coherent h hheld) hover, ⟨_, startConnect_link _⟩, ?_, ?_⟩
  · rw [List.foldlM_cons, hheld, Option.bind_eq_bind, Option.bind_some, List.foldlM_cons, hover]
    rfl
  · simp only [Run.startConnect]
    split <;> rfl
  · simp only [Run.startConnect]
    split <;> simp [handed, Run.setState]

/-- A frame that waits and is fresh can still be handed over. -/
theorem waiting_handed (now : Now) (h : Coherent r) (hp : p ∈ r.pending)
    (hfresh : now.instant ≤ p.1 + UPLINK_QUEUE_AGE) :
    ∃ es r' up, Reach Run.step (fun _ => Onward now.instant) r es r' ∧
      handed r'.out = handed r.out ++ up ∧ ∃ l, (l, p.2.1) ∈ up := by
  have hw := h.queued (List.ne_nil_of_mem hp)
  rcases isWaiting_cases hw with ⟨task, hl⟩ | ⟨d, hl⟩
  · obtain ⟨r', hs, up, ho, hup⟩ := connected_hands now h hl
    refine ⟨_, r', up, Reach.start.next ?_ hs, ho, _, hup p hp hfresh⟩
    exact Nat.le_refl now.instant
  · obtain ⟨r₁, hrun, hc, ⟨task, hl₁⟩, hp₁, ho₁⟩ := backoff_connects now h hl
    obtain ⟨r', hs, up, ho, hup⟩ := connected_hands now hc hl₁
    have hfree : ∃ es₁, Reach Run.step (fun _ => Onward now.instant) r es₁ r₁ := by
      refine ⟨_, Reach.start.free hrun (fun e he _ => ?_)⟩
      rcases List.mem_pair.mp he with rfl | rfl <;> exact Nat.le_refl now.instant
    obtain ⟨es₁, hfree⟩ := hfree
    refine ⟨_, r', up, hfree.next ?_ hs, ho₁ ▸ ho, _, hup p (hp₁ ▸ hp) hfresh⟩
    exact Nat.le_refl now.instant

/-- Dropping parameters takes effect at once exactly if no parameter that can
still be sent waits for the link, or if the settings make the bridge let go. -/
theorem drop_at_once_iff (hr : Runs Run.step (Run.start bid c s now₀) es r)
    (hd : new.appParams = .drop) :
    (∀ es' r', Reach Run.step (fun _ => Onward now.instant) (r.onCmd now (.settings new)) es' r' →
      ∃ up, handed r'.out = handed (r.onCmd now (.settings new)).out ++ up ∧ ∀ x ∈ up, Passes x.2) ↔
    abandons r (.cmd now (.settings new)) = true ∨
      ∀ p ∈ r.pending, Passes p.2.1 ∨ p.1 + UPLINK_QUEUE_AGE < now.instant := by
  have hcoh : Coherent (r.onCmd now (.settings new)) := onCmd_coherent _ (reachable_coherent hr)
  have hpend := settings_pending r now new
  constructor
  · intro h
    by_cases ha : abandons r (.cmd now (.settings new)) = true
    · exact .inl ha
    · refine .inr (fun p hp => ?_)
      by_contra hn
      obtain ⟨hpass, hfresh⟩ := not_or.mp hn
      rw [if_neg ha] at hpend
      obtain ⟨es', r', up, hreach, ho, l, hup⟩ := waiting_handed now hcoh (hpend ▸ hp) (by omega)
      obtain ⟨up', ho', hall⟩ := h es' r' hreach
      rw [ho] at ho'
      rw [List.append_cancel_left ho'] at hup
      exact hpass (hall _ hup)
  · intro h es' r' hreach
    have hstart :
        Clear now.instant (r.onCmd now (.settings new)) (r.onCmd now (.settings new)) := by
      refine ⟨?_, ?_, [], (List.append_nil _).symm, fun _ hx => by cases hx⟩
      · rw [settings_applied]
        exact hd
      · intro p hp
        rw [hpend] at hp
        split at hp
        · cases hp
        · rename_i ha
          exact (h.resolve_left ha) p hp
    exact (hreach.invariant hstart (fun _ _ _ hi hon hs => step_clear hi hon hs)).handed

/-- A bridge that passes parameters, with a TXDELAY waiting for the link to come
up. -/
def sampleWaiting : List Event :=
  [.app ⟨0, 0⟩ (.sessionOpened (sampleSession 1) (.empty 4) 0),
    .app ⟨0, 0⟩ (.frame (sampleSession 1) [0x01, 0x32])]

def passingRun : Run :=
  Run.start "ktbr0" (.tcp "tnc.local" 8001) { sampleSettings with appParams := .pass } ⟨0, 0⟩

/-- The TXDELAY that waits makes the difference: once it is too old, dropping
takes effect at once. -/
theorem drop_at_once_iff_waiting :
    ∃ r, Runs Run.step passingRun sampleWaiting r ∧
    r.pending = [(0, [0x01, 0x32], some (sampleSession 1))] ∧
      ∀ es' r', Reach Run.step (fun _ => Onward 6000)
        (r.onCmd ⟨6000, 6000⟩ (.settings sampleSettings)) es' r' →
        ∃ up, handed r'.out = handed (r.onCmd ⟨6000, 6000⟩ (.settings sampleSettings)).out ++ up ∧
          ∀ x ∈ up, Passes x.2 := by
  have h : Runs Run.step passingRun sampleWaiting _ := runs_of_foldlM rfl
  refine ⟨_, h, rfl, ?_⟩
  change ∀ es' r', Reach Run.step (fun _ => Onward (⟨6000, 6000⟩ : Now).instant) _ es' r' → _
  refine (drop_at_once_iff h rfl).mpr (.inr (fun p hp => .inr ?_))
  rw [List.mem_singleton.mp hp]
  decide

/-- The settings are in force, the link comes up and the TXDELAY is sent. -/
theorem waiting_parameter_sent :
    ∃ r r', Runs Run.step passingRun sampleWaiting r ∧
      Reach Run.step (fun _ => Onward 10) (r.onCmd ⟨10, 10⟩ (.settings sampleSettings))
        [.link ⟨20, 20⟩ (.connected (.ok []))] r' ∧
      r'.settings.appParams = .drop ∧ ¬ Passes [0x01, 0x32] ∧
      handed r'.out = handed (r.onCmd ⟨10, 10⟩ (.settings sampleSettings)).out ++
        [(1, [0x01, 0x32])] := by
  refine ⟨_, _, runs_of_foldlM rfl, Reach.start.next (by decide : (10 : Nat) ≤ 20) rfl,
    rfl, ?_, rfl⟩
  unfold Passes
  decide

end KissTncBridge.Proofs.LiveParams
