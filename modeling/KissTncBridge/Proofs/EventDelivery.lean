import KissTncBridge.Control.Forward

namespace KissTncBridge.Proofs.EventDelivery
open Control Lib

variable {ε : Type} {s s' : Connection ε} {a : ConnStep ε} {as : List (ConnStep ε)} {t : Topic}

def told (t : Topic) : Line ε → Option (Received ε)
  | .event topic got => if topic = t then some got else none
  | .other => none

def queued (s : Connection ε) (t : Topic) : List (Received ε) := s.lines.filterMap (told t)

/-- What was queued of a topic, and what is about to be, accounts for every event that
the topic's forwarder has gone past since it subscribed. -/
def Accounted (s : Connection ε) (t : Topic) : Prop :=
  ∀ f, s.forwarders t = some f → Accounts (s.sent t) f.since (queued s t ++ f.hand.toList) f.next ∧
    f.next ≤ (s.sent t).length

def Roomy (t : Topic) (s : Connection ε) (a : ConnStep ε) : Prop :=
  a = .trySend t → s.hasRoom = true

inductive Effect (s s' : Connection ε) (t : Topic) (a : ConnStep ε) : Prop where
  | same (more : List ε) (sent : s'.sent t = s.sent t ++ more)
      (forwarders : s'.forwarders t = s.forwarders t)
    (lines : queued s' t = queued s t) (not : a ≠ .trySend t)
  | starts (before : s.forwarders t = none) (sent : s'.sent t = s.sent t)
    (forwarders : s'.forwarders t = some ⟨(s.sent t).length, (s.sent t).length, none⟩)
      (lines : queued s' t = queued s t)
    (not : a ≠ .trySend t)
  | takes (f : Forwarder ε) (got : Received ε) (next : Nat) (before : s.forwarders t = some f)
      (empty : f.hand = none)
    (got_of : recv BACKLOG (s.sent t) f.next = some (got, next)) (sent : s'.sent t = s.sent t)
    (forwarders : s'.forwarders t = some { f with next := next, hand := some got })
      (lines : queued s' t = queued s t)
    (not : a ≠ .trySend t)
  | queues (f : Forwarder ε) (got : Received ε) (before : s.forwarders t = some f)
      (full : f.hand = some got)
    (sent : s'.sent t = s.sent t) (forwarders : s'.forwarders t = some { f with hand := none })
    (lines : queued s' t = queued s t ++ [got]) (room : s.hasRoom = true)
  | drops (f : Forwarder ε) (got : Received ε) (before : s.forwarders t = some f)
      (full : f.hand = some got)
    (sent : s'.sent t = s.sent t) (forwarders : s'.forwarders t = some { f with hand := none })
    (lines : queued s' t = queued s t) (none : s.hasRoom = false) (this : a = .trySend t)

theorem publish_effect (h : s.step (.publish topic event) = some s') :
    Effect s s' t (.publish topic event) := by
  obtain rfl := Option.some.inj h
  by_cases ht : t = topic
  · subst ht
    exact .same [event] (Function.update_self ..) rfl rfl (by simp)
  · refine .same [] ?_ rfl rfl (by simp)
    rw [List.append_nil]
    exact Function.update_of_ne ht ..

theorem subscribe_effect (h : s.step (.subscribe topics) = some s') :
    Effect s s' t (.subscribe topics) := by
  obtain rfl := Option.some.inj h
  by_cases ht : t ∈ topics
  · cases hf : s.forwarders t with
    | none =>
      refine .starts hf rfl ?_ rfl (by simp)
      simp [ht, hf]
    | some f =>
      refine .same [] (List.append_nil _).symm ?_ rfl (by simp)
      simp [ht, hf]
  · refine .same [] (List.append_nil _).symm ?_ rfl (by simp)
    simp [ht]

theorem recv_effect (h : s.step (.recv topic) = some s') : Effect s s' t (.recv topic) := by
  obtain ⟨f, hf, h⟩ := Option.bind_eq_some_iff.mp h
  split at h
  · cases h
  · rename_i hhand
    obtain ⟨⟨got, next⟩, hgot, h⟩ := Option.map_eq_some_iff.mp h
    subst h
    by_cases ht : t = topic
    · subst ht
      exact .takes f got next hf (by simpa using hhand) hgot rfl (Function.update_self ..)
        rfl (by simp)
    · exact .same [] (List.append_nil _).symm (Function.update_of_ne ht ..) rfl (by simp)

theorem trySend_effect (h : s.step (.trySend topic) = some s') :
    Effect s s' t (.trySend topic) := by
  obtain ⟨f, hf, h⟩ := Option.bind_eq_some_iff.mp h
  obtain ⟨got, hgot, h⟩ := Option.map_eq_some_iff.mp h
  subst h
  by_cases ht : t = topic
  · subst ht
    cases hroom : s.hasRoom with
    | true =>
      refine .queues f got hf hgot rfl (Function.update_self ..) ?_ hroom
      simp [queued, told]
    | false =>
      refine .drops f got hf hgot rfl (Function.update_self ..) ?_ hroom rfl
      simp [queued]
  · refine .same [] (List.append_nil _).symm (Function.update_of_ne ht ..) ?_ (by simp [Ne.symm ht])
    cases hroom : s.hasRoom with
    | true => simp [queued, told, Ne.symm ht]
    | false => simp [queued]

theorem step_effect (h : s.step a = some s') (t : Topic) : Effect s s' t a := by
  cases a with
  | publish topic event => exact publish_effect h
  | subscribe topics => exact subscribe_effect h
  | recv topic => exact recv_effect h
  | trySend topic => exact trySend_effect h
  | send =>
    obtain ⟨-, h⟩ := Option.ite_none_right_eq_some.mp h
    obtain rfl := Option.some.inj h
    refine .same [] (List.append_nil _).symm rfl ?_ (by simp)
    simp [queued, told]
  | write =>
    obtain ⟨-, h⟩ := Option.ite_none_right_eq_some.mp h
    obtain rfl := Option.some.inj h
    exact .same [] (List.append_nil _).symm rfl rfl (by simp)

/-- Before a topic is subscribed to, nothing of it is queued. -/
structure Good (s : Connection ε) (t : Topic) : Prop where
  accounted : Accounted s t
  fresh : s.forwarders t = none → queued s t = []
  sized : ∀ f got, s.forwarders t = some f → f.hand = some got → 0 < got.size

theorem good_start : Good ({} : Connection ε) t where
  accounted := fun _ hf => nomatch hf
  fresh := fun _ => rfl
  sized := fun _ _ hf => nomatch hf

/-- A step that finds room keeps the account. -/
theorem Good.next (hg : Good s t) (hroomy : Roomy t s a) (h : s.step a = some s') : Good s' t := by
  cases step_effect h t with
  | same more sent forwarders lines not =>
    refine ⟨fun f hf => ?_, fun hf => ?_, fun f got hf hgot => ?_⟩
    · obtain ⟨hacc, hle⟩ := hg.accounted f (forwarders ▸ hf)
      rw [sent, lines, List.length_append]
      exact ⟨hacc.sent_more more, Nat.le_add_right_of_le hle⟩
    · rw [lines]
      exact hg.fresh (forwarders ▸ hf)
    · exact hg.sized f got (forwarders ▸ hf) hgot
  | starts before sent forwarders lines not =>
    refine ⟨fun f hf => ?_, fun hf => ?_, fun f got hf hgot => ?_⟩
    · obtain rfl := Option.some.inj (forwarders.symm.trans hf)
      rw [lines, hg.fresh before, sent]
      exact ⟨rfl, Nat.le_refl _⟩
    · rw [forwarders] at hf
      cases hf
    · obtain rfl := Option.some.inj (forwarders.symm.trans hf)
      cases hgot
  | takes f got next before empty got_of sent forwarders lines not =>
    refine ⟨fun f' hf => ?_, fun hf => ?_, fun f' got' hf hgot => ?_⟩
    · obtain rfl := Option.some.inj (forwarders.symm.trans hf)
      obtain ⟨hone, -, -, hle⟩ := recv_spec got_of
      have hacc := (hg.accounted f before).1
      rw [empty, Option.toList_none, List.append_nil] at hacc
      rw [lines, sent]
      exact ⟨hacc.append hone, hle⟩
    · rw [forwarders] at hf
      cases hf
    · obtain rfl := Option.some.inj (forwarders.symm.trans hf)
      obtain rfl := Option.some.inj hgot
      exact (recv_spec got_of).2.2.1
  | queues f got before full sent forwarders lines room =>
    refine ⟨fun f' hf => ?_, fun hf => ?_, fun f' got' hf hgot => ?_⟩
    · obtain rfl := Option.some.inj (forwarders.symm.trans hf)
      have hacc := hg.accounted f before
      rw [full, Option.toList_some] at hacc
      rw [lines, sent, Option.toList_none, List.append_nil]
      exact hacc
    · rw [forwarders] at hf
      cases hf
    · obtain rfl := Option.some.inj (forwarders.symm.trans hf)
      cases hgot
  | drops f got before full sent forwarders lines none this =>
    rw [hroomy this] at none
    cases none

theorem good_run (h : Reach Connection.step (Roomy t) {} as s) : Good s t := by
  induction h with
  | start => exact good_start
  | next _ hok hstep ih => exact ih.next hok hstep

/-- The forwarder has gone past more events than its lines account for. -/
def Lost (s : Connection ε) (t : Topic) : Prop :=
  ∃ f, s.forwarders t = some f ∧ f.since + total (queued s t ++ f.hand.toList) < f.next

theorem Lost.not_accounted (hl : Lost s t) : ¬ Accounted s t := by
  intro hacc
  obtain ⟨f, hf, hlt⟩ := hl
  have heq := (hacc f hf).1.total_eq
  omega

/-- What was lost is never made up for. -/
theorem Lost.next (hl : Lost s t) (h : s.step a = some s') : Lost s' t := by
  obtain ⟨f, hf, hlt⟩ := hl
  cases step_effect h t with
  | same more sent forwarders lines not => exact ⟨f, forwarders.trans hf, by rw [lines]; exact hlt⟩
  | starts before sent forwarders lines not =>
    rw [hf] at before
    cases before
  | takes f' got next before empty got_of sent forwarders lines not =>
    obtain rfl := Option.some.inj (hf.symm.trans before)
    obtain ⟨-, hnext, -⟩ := recv_spec got_of
    refine ⟨_, forwarders, ?_⟩
    rw [empty] at hlt
    rw [lines]
    simp [total, hnext] at hlt ⊢
    omega
  | queues f' got before full sent forwarders lines room =>
    obtain rfl := Option.some.inj (hf.symm.trans before)
    refine ⟨_, forwarders, ?_⟩
    rw [full] at hlt
    rw [lines]
    simpa using hlt
  | drops f' got before full sent forwarders lines none this =>
    obtain rfl := Option.some.inj (hf.symm.trans before)
    refine ⟨_, forwarders, ?_⟩
    rw [full] at hlt
    rw [lines]
    simp at hlt ⊢
    omega

/-- An event or a notice that finds no room is lost. -/
theorem Good.lost (hg : Good s t) (hroomy : ¬ Roomy t s a) (h : s.step a = some s') :
    Lost s' t := by
  obtain ⟨rfl, hfull⟩ := Classical.not_imp.mp hroomy
  cases step_effect h t with
  | same more sent forwarders lines not => exact absurd rfl not
  | starts before sent forwarders lines not => exact absurd rfl not
  | takes f got next before empty got_of sent forwarders lines not => exact absurd rfl not
  | queues f got before full sent forwarders lines room => exact absurd room hfull
  | drops f got before full sent forwarders lines none this =>
    have hall := (hg.accounted f before).1.total_eq
    have hpos := hg.sized f got before full
    refine ⟨_, forwarders, ?_⟩
    rw [full, Option.toList_some, total_append] at hall
    rw [lines, Option.toList_none, List.append_nil]
    simp only [total, List.map_cons, List.map_nil, List.sum_cons, List.sum_nil] at hall ⊢
    omega

/-- A run either finds room for all it takes of a topic, or loses some of it. -/
theorem roomy_or_lost (h : Runs Connection.step {} as s) (t : Topic) :
    Reach Connection.step (Roomy t) {} as s ∨ Lost s t := by
  induction h with
  | start => exact .inl .start
  | @next as s a s' _ _ hstep ih =>
    rcases ih with hr | hl
    · by_cases hroomy : Roomy t s a
      · exact .inl (.next hr hroomy hstep)
      · exact .inr ((good_run hr).lost hroomy hstep)
    · exact .inr (hl.next hstep)

/-- The lines queued for a client account for every event since it subscribed exactly
where each event and notice of the topic found room in the queue. -/
theorem accounted_iff (h : Runs Connection.step {} as s) (t : Topic) :
    Accounted s t ↔ Reach Connection.step (Roomy t) {} as s := by
  refine ⟨fun hacc => ?_, fun hr => (good_run hr).accounted⟩
  rcases roomy_or_lost h t with hr | hl
  · exact hr
  · exact absurd hacc hl.not_accounted

theorem accounted_heard : ∃ s : Connection Nat,
    Runs Connection.step {} [.subscribe [.state], .publish .state 7, .recv .state, .trySend .state]
      s ∧ Accounted s .state := by
  have hr : Reach Connection.step (Roomy .state) ({} : Connection Nat)
      ([] ++ [.subscribe [.state]] ++ [.publish .state 7] ++ [.recv .state] ++
          [.trySend .state]) _ :=
    .next (.next (.next (.next .start (by simp [Roomy]) rfl) (by simp [Roomy]) rfl)
      (by simp [Roomy]) rfl) (fun _ => by decide) rfl
  exact ⟨_, hr.forget, (accounted_iff hr.forget .state).mpr hr⟩

theorem replies_run (hn : n ≤ OUTBOX) :
    Reach Connection.step (Roomy t) ({} : Connection ε)
      (List.replicate n .send) { lines := List.replicate n .other } := by
  induction n with
  | zero => exact .start
  | succ n ih =>
    rw [List.replicate_succ', List.replicate_succ']
    refine .next (ih (Nat.le_of_succ_le hn)) (fun h => nomatch h) (if_pos ?_)
    simpa [Connection.hasRoom, Connection.outbox] using Nat.lt_of_succ_le hn

/-- A client that reads nothing of 256 replies, when an event is about to be queued. -/
def stalled : Connection Nat where
  sent := Function.update (fun _ => []) .state [7]
  forwarders :=
    Function.update (fun topic => if topic ∈ [Topic.state] then some ⟨0, 0, none⟩ else none) .state
    (some ⟨0, 1, some (.message 7)⟩)
  lines := List.replicate OUTBOX .other

/-- The event is lost, and no notice says so. -/
theorem full_queue_loses : ∃ (as : List (ConnStep Nat)) (s : Connection Nat),
    Runs Connection.step {} as s ∧ ¬ Accounted s .state := by
  have hreplies : Reach Connection.step (Roomy .state) ({} : Connection Nat) _ _ :=
    replies_run (Nat.le_refl OUTBOX)
  have hsub : Reach Connection.step (Roomy .state) {} (_ ++ [.subscribe [.state]]) _ :=
    .next hreplies (fun h => nomatch h) rfl
  have hpub : Reach Connection.step (Roomy .state) {} (_ ++ [.publish .state 7]) _ :=
    .next hsub (fun h => nomatch h) rfl
  have hrecv : Reach Connection.step (Roomy .state) {} (_ ++ [.recv .state]) stalled :=
    .next hpub (fun h => nomatch h) rfl
  have hfull : ¬ Roomy .state stalled (.trySend .state) := by
    intro hroomy
    have hroom := hroomy rfl
    simp [Connection.hasRoom, Connection.outbox, stalled] at hroom
  have hstep : stalled.step (.trySend .state) = some _ := rfl
  exact ⟨_, _, hrecv.forget.next trivial hstep, ((good_run hrecv).lost hfull hstep).not_accounted⟩

end KissTncBridge.Proofs.EventDelivery
