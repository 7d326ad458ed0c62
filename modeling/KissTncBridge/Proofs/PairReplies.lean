import KissTncBridge.Pairing

namespace KissTncBridge.Proofs.PairReplies
open Pairing Lib

variable {s t : State} {es : List Event} {e : Event} {a : Ask} {r : Given}

/-- The question's step, with those before it, was sent to the requester by then. -/
def ShownBy (a : Ask) (k : Nat) : Prop := ∃ n, a.stage.number = some n ∧ n < k

def Answers (s : State) (p : Ask × Given) : Prop :=
  ∃ n, p.1.stage.number = some n ∧ s.shown[n]? = some p.1.question.step ∧ n < p.2.after

/-- A reply is given only when every open question has been sent to the requester, and a
question is asked only when no reply is left over. -/
def Timely (s : State) : Event → Prop
  | .reply _ => ∀ a ∈ s.asks, ShownBy a s.shown.length
  | .ask _ => s.outstanding = []
  | _ => True

structure Good (s : State) : Prop where
  asked : ∀ a ∈ s.asks, ∀ n, a.stage.number = some n → s.line[n]? = some a.question.step
  given : ∀ r ∈ s.outstanding, r.after ≤ s.shown.length
  fresh : ∀ r ∈ s.outstanding, ∀ a ∈ s.asks, ShownBy a r.after
  answers : ∀ p ∈ s.returned, Answers s p

theorem good_start : Good {} where
  asked := fun _ h => nomatch h
  given := fun _ h => nomatch h
  fresh := fun _ h => nomatch h
  answers := fun _ h => nomatch h

theorem getElem?_more {l more : List α} {x : α} {n : Nat} (h : l[n]? = some x) :
    (l ++ more)[n]? = some x := by
  obtain ⟨hlt, -⟩ := List.getElem?_eq_some_iff.mp h
  exact (List.getElem?_append_left hlt).trans h

theorem Answers.more (h : Answers s p) (hs : ∃ more, t.shown = s.shown ++ more) : Answers t p := by
  obtain ⟨n, hn, hshown, hlt⟩ := h
  obtain ⟨more, hmore⟩ := hs
  exact ⟨n, hn, by rw [hmore]; exact getElem?_more hshown, hlt⟩

/-- Steps go on, questions end and replies go: that keeps everything. -/
theorem Good.frame (hg : Good s) (hline : ∃ more, t.line = s.line ++ more)
    (hshown : ∃ more, t.shown = s.shown ++ more)
    (hasks : ∀ a ∈ t.asks, a ∈ s.asks) (hreplies : ∀ r ∈ t.outstanding, r ∈ s.outstanding)
    (hreturned : t.returned = s.returned) : Good t := by
  obtain ⟨more, hline⟩ := hline
  refine ⟨fun a ha n hn => ?_, fun r hr => ?_,
    fun r hr a ha => hg.fresh r (hreplies r hr) a (hasks a ha), fun p hp => ?_⟩
  · rw [hline]
    exact getElem?_more (hg.asked a (hasks a ha) n hn)
  · obtain ⟨more', hmore⟩ := hshown
    rw [hmore, List.length_append]
    exact Nat.le_add_right_of_le (hg.given r (hreplies r hr))
  · exact (hg.answers p (hreturned ▸ hp)).more hshown

theorem Good.same (hg : Good s) (hline : t.line = s.line) (hshown : t.shown = s.shown)
    (hasks : ∀ a ∈ t.asks, a ∈ s.asks) (hreplies : ∀ r ∈ t.outstanding, r ∈ s.outstanding)
    (hreturned : t.returned = s.returned) : Good t :=
  hg.frame ⟨[], hline.trans (List.append_nil _).symm⟩ ⟨[], hshown.trans (List.append_nil _).symm⟩
    hasks hreplies hreturned

theorem tell_line (s : State) (st : PairingStep) :
    ({ s with steps := s.steps ++ [st] } : State).line = s.line ++ [st] := by
  simp [State.line]

theorem Good.tell (hg : Good s) (h : s.step (.tell st) = some t) : Good t := by
  obtain ⟨-, h⟩ := Option.ite_none_right_eq_some.mp h
  obtain rfl := Option.some.inj h
  split
  · exact hg.frame ⟨[st], tell_line s st⟩ ⟨[], (List.append_nil _).symm⟩ (fun _ h => h)
      (fun _ h => h) rfl
  · exact hg

theorem Good.ask (hg : Good s) (hnone : s.outstanding = []) (h : s.step (.ask question) = some t) :
    Good t := by
  obtain ⟨-, h⟩ := Option.ite_none_right_eq_some.mp h
  obtain rfl := Option.some.inj h
  refine ⟨fun a ha n hn => ?_, hg.given, fun r hr => ?_, hg.answers⟩
  · rcases List.mem_append.mp ha with ha | ha
    · exact hg.asked a ha n hn
    · obtain rfl := List.mem_singleton.mp ha
      cases hn
  · have hr : r ∈ s.outstanding := hr
    rw [hnone] at hr
    cases hr

theorem Good.send (hg : Good s) (h : s.step (.send i) = some t) : Good t := by
  unfold State.step at h
  dsimp only at h
  split at h
  · rename_i question hi
    obtain ⟨-, h⟩ := Option.ite_none_right_eq_some.mp h
    obtain rfl := Option.some.inj h
    refine ⟨fun a ha n hn => ?_, hg.given, fun r hr a ha => ?_, hg.answers⟩
    · rcases List.mem_or_eq_of_mem_set ha with ha | rfl
      · rw [State.line, ← List.append_assoc, ← List.append_assoc, List.append_assoc s.shown]
        exact getElem?_more (hg.asked a ha n hn)
      · obtain rfl := Option.some.inj hn
        simp [State.line]
    · rcases List.mem_or_eq_of_mem_set ha with ha | rfl
      · exact hg.fresh r hr a ha
      · obtain ⟨n, hn, -⟩ := hg.fresh r hr _ (List.mem_of_getElem? hi)
        cases hn
  · cases h

theorem Good.take (hg : Good s) (h : s.step .take = some t) : Good t := by
  unfold State.step at h
  dsimp only at h
  split at h
  · rename_i st steps hhand hsteps
    obtain rfl := Option.some.inj h
    refine hg.same ?_ rfl (fun _ h => h) (fun _ h => h) rfl
    simp [State.line, hhand, hsteps]
  · cases h

theorem Good.forward (hg : Good s) (h : s.step .forward = some t) : Good t := by
  obtain ⟨st, hhand, rfl⟩ := Option.map_eq_some_iff.mp h
  refine hg.frame ⟨[], ?_⟩ ⟨[st], rfl⟩ (fun _ h => h) (fun _ h => h) rfl
  simp [State.line, hhand]

theorem Good.lock (hg : Good s) (h : s.step (.lock i) = some t) : Good t := by
  unfold State.step at h
  dsimp only at h
  split at h
  · rename_i question n hi
    obtain ⟨-, h⟩ := Option.ite_none_left_eq_some.mp h
    obtain rfl := Option.some.inj h
    have hmem := List.mem_of_getElem? hi
    refine ⟨fun a ha n hn => ?_, hg.given, fun r hr a ha => ?_, hg.answers⟩
    · rcases List.mem_or_eq_of_mem_set ha with ha | rfl
      · exact hg.asked a ha n hn
      · exact hg.asked _ hmem n hn
    · rcases List.mem_or_eq_of_mem_set ha with ha | rfl
      · exact hg.fresh r hr a ha
      · obtain ⟨k, hk, hlt⟩ := hg.fresh r hr _ hmem
        exact ⟨k, hk, hlt⟩
  · cases h

theorem Good.reply {reply : Reply} (hg : Good s) (hshown : ∀ a ∈ s.asks, ShownBy a s.shown.length)
    (h : s.step (.reply reply) = some t) : Good t := by
  obtain rfl := Option.some.inj h
  have hcases : ∀ r ∈ s.replies ++ (s.inFlight ++ [⟨reply, s.shown.length⟩]), r ∈ s.outstanding ∨
      r = ⟨reply, s.shown.length⟩ := by
    intro r hr
    rw [← List.append_assoc] at hr
    exact (List.mem_append.mp hr).imp_right List.mem_singleton.mp
  refine ⟨hg.asked, fun r hr => ?_, fun r hr a ha => ?_, hg.answers⟩
  · rcases hcases r hr with hr | rfl
    · exact hg.given r hr
    · exact Nat.le_refl _
  · rcases hcases r hr with hr | rfl
    · exact hg.fresh r hr a ha
    · exact hshown a ha

theorem Good.handle (hg : Good s) (h : s.step .handle = some t) : Good t := by
  unfold State.step at h
  dsimp only at h
  split at h
  · cases h
  · rename_i r inFlight hflight
    split at h
    · obtain ⟨-, h⟩ := Option.ite_none_right_eq_some.mp h
      obtain rfl := Option.some.inj h
      refine hg.same rfl rfl (fun _ h => h) (fun r hr => ?_) rfl
      simpa [State.outstanding, hflight] using hr
    · obtain rfl := Option.some.inj h
      refine hg.same rfl rfl (fun _ h => h) (fun r' hr => ?_) rfl
      rw [State.outstanding, hflight]
      exact (List.mem_append.mp hr).elim (List.mem_append_left _)
        (fun h => List.mem_append_right _ (List.mem_cons_of_mem _ h))

/-- The question that takes a reply was sent to the requester before it was given. -/
theorem Good.recv (hg : Good s) (h : s.step (.recv i) = some t) : Good t := by
  unfold State.step at h
  dsimp only at h
  split at h
  · rename_i question n r replies hi hreplies
    obtain rfl := Option.some.inj h
    have hmem := List.mem_of_getElem? hi
    have hr : r ∈ s.outstanding := by simp [State.outstanding, hreplies]
    have hrest : ∀ r' ∈ replies ++ s.inFlight, r' ∈ s.outstanding := by
      intro r' hr'
      rw [State.outstanding, hreplies]
      exact List.mem_cons_of_mem _ hr'
    refine ⟨fun a ha => hg.asked a (List.mem_of_mem_eraseIdx ha),
      fun r' hr' => hg.given r' (hrest r' hr'), fun r' hr' a ha =>
        hg.fresh r' (hrest r' hr') a (List.mem_of_mem_eraseIdx ha), fun p hp => ?_⟩
    rcases List.mem_append.mp hp with hp | hp
    · exact hg.answers p hp
    · obtain rfl := List.mem_singleton.mp hp
      obtain ⟨k, hk, hlt⟩ := hg.fresh r hr _ hmem
      have hline := hg.asked _ hmem k hk
      rw [State.line, List.getElem?_append_left (Nat.lt_of_lt_of_le hlt (hg.given r hr))] at hline
      exact ⟨k, hk, hline, hlt⟩
  · cases h

theorem Good.next (hg : Good s) (ht : Timely s e) (h : s.step e = some t) : Good t := by
  cases e with
  | start =>
    obtain ⟨-, h⟩ := Option.ite_none_right_eq_some.mp h
    obtain rfl := Option.some.inj h
    exact hg.same rfl rfl (fun _ h => h) (fun _ h => h) rfl
  | tell st => exact hg.tell h
  | ask question => exact hg.ask ht h
  | send i => exact hg.send h
  | take => exact hg.take h
  | forward => exact hg.forward h
  | lock i => exact hg.lock h
  | reply r => exact hg.reply ht h
  | handle => exact hg.handle h
  | recv i => exact hg.recv h
  | cancel i =>
    obtain ⟨-, h⟩ := Option.ite_none_right_eq_some.mp h
    obtain rfl := Option.some.inj h
    exact hg.same rfl rfl (fun _ ha => List.mem_of_mem_eraseIdx ha) (fun _ h => h) rfl
  | finish =>
    obtain ⟨-, h⟩ := Option.ite_none_right_eq_some.mp h
    obtain rfl := Option.some.inj h
    exact hg.same rfl rfl (fun _ h => nomatch h) (fun _ hr => List.mem_append_right _ hr) rfl

/-- Where replies are given to what was shown and none is left over, every reply that a
question got was given after its step was sent to the requester. -/
theorem answered_after_shown (h : Reach State.step Timely {} es s) :
    ∀ p ∈ s.returned, Answers s p := by
  have hg : Good s := h.invariant good_start (fun _ _ _ hg ht hstep => hg.next ht hstep)
  exact hg.answers

def confirmed : State where
  phase := .running
  shown := [.confirm "482916"]
  returned := [(⟨.confirm 482916, .receiving 0⟩, ⟨{ accept := some true }, 1⟩)]

theorem confirmed_answers :
    Answers confirmed (⟨.confirm 482916, .receiving 0⟩, ⟨{ accept := some true }, 1⟩) := by
  have hasked :
      Reach State.step Timely {} ([] ++ [.start] ++ [.ask (.confirm 482916)] ++ [.send 0]) _ :=
    .next (.next (.next .start trivial rfl) rfl rfl) trivial rfl
  have hshown : Reach State.step Timely {} (_ ++ [.take] ++ [.forward] ++ [.lock 0]) _ :=
    .next (.next (.next hasked trivial rfl) trivial rfl) trivial rfl
  have hseen : ∀ a ∈ [(⟨.confirm 482916, .receiving 0⟩ : Ask)], ShownBy a 1 := by
    intro a ha
    obtain rfl := List.mem_singleton.mp ha
    exact ⟨0, rfl, Nat.one_pos⟩
  have hgiven : Reach State.step Timely {}
      (_ ++ [.reply { accept := some true }] ++ [.handle] ++ [.recv 0]) confirmed :=
    .next (.next (.next hshown hseen rfl) trivial rfl) trivial rfl
  exact answered_after_shown hgiven _ (List.mem_singleton.mpr rfl)

/-- A reply given before any question, which the first question then gets. -/
def early : State where
  phase := .running
  steps := [.confirm "482916"]
  returned := [(⟨.confirm 482916, .receiving 0⟩, ⟨{ accept := some true }, 0⟩)]

/-- It confirms a passkey that nobody was shown. -/
theorem early_reply_confirms : ∃ es p, Runs State.step {} es early ∧ p ∈ early.returned ∧
    p.1.question.answer p.2.reply = .ok .ok ∧ ¬ Answers early p := by
  have hearly :
      Runs State.step {} ([] ++ [.start] ++ [.reply { accept := some true }] ++ [.handle]) _ :=
    .next (.next (.next .start trivial rfl) trivial rfl) trivial rfl
  have hasked : Runs State.step {} (_ ++ [.ask (.confirm 482916)] ++ [.send 0]) _ :=
    .next (.next hearly trivial rfl) trivial rfl
  have hgot : Runs State.step {} (_ ++ [.lock 0] ++ [.recv 0]) early :=
    .next (.next hasked trivial rfl) trivial rfl
  refine ⟨_, _, hgot, List.mem_singleton.mpr rfl, rfl, ?_⟩
  intro ⟨n, hn, _, hlt⟩
  exact Nat.not_lt_zero n hlt

end KissTncBridge.Proofs.PairReplies
