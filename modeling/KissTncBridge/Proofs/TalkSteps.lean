import KissTncBridge.Proofs.Scanner
import KissTncBridge.Port.FakeRadio

namespace KissTncBridge.Proofs.TalkSteps
open Kiss Wire TncInit Scanner

variable {s s' : Link}

theorem bind_ok {x : Talk α} {f : α → Talk β} {b : β} :
    (x >>= f) s = .ok b s' ↔ ∃ a t, x s = .ok a t ∧ f a t = .ok b s' := by
  change EStateM.bind x f s = _ ↔ _
  unfold EStateM.bind
  cases hx : x s with
  | ok a t => simp
  | error e t => simp

/-- What an operation that goes through returns and leaves. -/
def okOf : EStateM.Result Error Link α → Option (α × Link)
  | .ok a s => some (a, s)
  | .error _ _ => none

theorem ok_of_okOf {r : EStateM.Result Error Link α} (h : okOf r = some (a, s)) : r = .ok a s := by
  cases r with
  | ok b t =>
    cases h
    rfl
  | error => cases h

theorem act_ok (h : act a s = .ok () s') : s' = { s with trace := s.trace ++ [a] } := by
  unfold act at h
  split at h
  · cases h
  · cases h
    rfl

theorem attempt_ok (h : attempt cmd wait s = .ok r s') :
    hear wait { s.radio with replies := [] } (s.trace ++ [.sent (bytes (cmd ++ "\r"))]) s.tape =
      .ok r s' := by
  obtain ⟨_, t, hc, h⟩ := bind_ok.mp h
  cases hc
  obtain ⟨_, t, ha, h⟩ := bind_ok.mp h
  rw [act_ok ha] at h
  exact h

/-- Waiting for a reply sends nothing. -/
theorem hear_silent (h : hear wait r trace tape = .ok x s') :
    ∃ as, s'.trace = trace ++ as ∧ sends as = [] := by
  fun_induction hear wait r trace tape with
  | case1 =>
    cases h
    exact ⟨[], (List.append_nil _).symm, rfl⟩
  | case3 =>
    cases h
    exact ⟨[.quiet wait], rfl, rfl⟩
  | case6 r trace b bs tape hr ih =>
    obtain ⟨as, ht, hs⟩ := ih h
    exact ⟨.got (b :: bs) :: as, by rw [ht, List.append_assoc]; rfl, hs⟩
  | _ => cases h

theorem attempt_sent (h : attempt cmd wait s = .ok x s') :
    ∃ as, s'.trace = s.trace ++ .sent (bytes (cmd ++ "\r")) :: as ∧ sends as = [] := by
  obtain ⟨as, ht, hs⟩ := hear_silent (attempt_ok h)
  exact ⟨as, by rw [ht, List.append_assoc]; rfl, hs⟩

/-- A command that is answered busy is sent again, as long as there are retries. -/
theorem ask_ok (h : ask cmd wait n s = .ok r s') :
    attempt cmd wait s = .ok r s' ∧ (r = some "?" → n = 0) ∨
      ∃ m t, n = m + 1 ∧ attempt cmd wait s = .ok (some "?") t ∧
        ask cmd wait m { t with trace := t.trace ++ [.slept BUSY_GAP] } = .ok r s' := by
  cases n with
  | zero => exact .inl ⟨h, fun _ => rfl⟩
  | succ m =>
    obtain ⟨x, t, hx, h⟩ := bind_ok.mp h
    split at h
    · rename_i hb
      subst hb
      obtain ⟨_, u, hu, h⟩ := bind_ok.mp h
      rw [act_ok hu] at h
      exact .inr ⟨m, t, rfl, hx, h⟩
    · rename_i hb
      cases h
      exact .inl ⟨hx, fun hr => absurd hr hb⟩

/-- A command begins with a write. -/
theorem ask_sent (h : ask cmd wait n s = .ok x s') :
    ∃ as, s'.trace = s.trace ++ .sent (bytes (cmd ++ "\r")) :: as := by
  induction n generalizing s with
  | zero =>
    obtain ⟨as, ht, -⟩ := attempt_sent h
    exact ⟨as, ht⟩
  | succ n ih =>
    rcases ask_ok h with ⟨ha, -⟩ | ⟨m, t, hm, ha, h⟩
    · obtain ⟨as, ht, -⟩ := attempt_sent ha
      exact ⟨as, ht⟩
    · cases hm
      obtain ⟨as, ht, -⟩ := attempt_sent ha
      obtain ⟨more, hmore⟩ := ih h
      refine ⟨as ++ [.slept BUSY_GAP] ++ .sent (bytes (cmd ++ "\r")) :: more, ?_⟩
      rw [hmore, ht]
      simp

theorem probe_ok (h : probe s = .ok wasKiss s') :
    (∃ x, command "BT" s = .ok (some x) s' ∧ wasKiss = false) ∨
      ∃ t x, command "BT" s = .ok none t ∧ command "BT" { t with
        trace := t.trace ++ [.sent KISS_RETURN] ++ [.slept AFTER_KISS_RETURN] } = .ok (some x) s' ∧
        wasKiss = true := by
  obtain ⟨x, t, hx, h⟩ := bind_ok.mp h
  cases x with
  | some x =>
    cases h
    exact .inl ⟨x, hx, rfl⟩
  | none =>
    obtain ⟨_, u, hu, h⟩ := bind_ok.mp h
    rw [act_ok hu] at h
    obtain ⟨_, v, hv, h⟩ := bind_ok.mp h
    rw [act_ok hv] at h
    obtain ⟨y, w, hy, h⟩ := bind_ok.mp h
    cases y with
    | none => cases h
    | some y =>
      cases h
      exact .inr ⟨t, y, hx, hy, rfl⟩

theorem enterKiss_ok (h : enterKiss band s = .ok () s') :
    ∃ x t, TncInit.command ("TN 2," ++ toString band) s = .ok (some x) t ∧
      "TN".toList.isPrefixOf x.toList ∧ commandWithin "BT" KISS_CHECK_WAIT t = .ok none s' := by
  obtain ⟨answer, t, hx, h⟩ := bind_ok.mp h
  split at h
  · rename_i ha
    obtain ⟨y, u, hy, h⟩ := bind_ok.mp h
    cases y with
    | some y => cases h
    | none =>
      cases h
      cases answer with
      | none => cases ha
      | some x => exact ⟨x, t, hx, ha, hy⟩
  · cases h

/-- The band init asks for and the mode it means to restore, from what the
radio said. -/
def bandOf (tn : Option String) : UInt8 := ((tn.bind parseTn).map Prod.snd).getD 0

def prevModeOf (wasKiss : Bool) (tn : Option String) : Option UInt8 :=
  if wasKiss then some 2 else (tn.bind parseTn).map Prod.fst

theorem init_ok (h : initThD7x s = .ok out s') :
    ∃ wasKiss s₁ radio s₂ tn s₃, probe s = .ok wasKiss s₁ ∧ command "ID" s₁ = .ok radio s₂ ∧
      command "TN" s₂ = .ok tn s₃ ∧ enterKiss (bandOf tn) s₃ = .ok () s' ∧
      out.frames = s'.radio.frames ∧
      out.exitKiss = exitSteps (prevModeOf wasKiss tn) (bandOf tn) := by
  obtain ⟨wasKiss, s₁, hp, h⟩ := bind_ok.mp h
  obtain ⟨radio, s₂, hi, h⟩ := bind_ok.mp h
  obtain ⟨tn, s₃, ht, h⟩ := bind_ok.mp h
  obtain ⟨_, s₄, he, h⟩ := bind_ok.mp h
  obtain ⟨link, s₅, hg, h⟩ := bind_ok.mp h
  cases hg
  cases h
  exact ⟨wasKiss, s₁, radio, s₂, tn, s₃, hp, hi, ht, he, rfl, rfl⟩

def Seen (r : Radio) (trace : List Act) : Prop :=
  { r with replies := [] } = { ({} : Radio).push (received trace) with replies := [] }

theorem received_append (a b : List Act) : received (a ++ b) = received a ++ received b := by
  simp [received]

theorem seen_silent (h : Seen r trace) (ha : received [a] = []) : Seen r (trace ++ [a]) := by
  rwa [Seen, received_append, ha, List.append_nil]

theorem seen_got (h : Seen r trace) (bs : List UInt8) : Seen (r.push bs) (trace ++ [.got bs]) := by
  have hr : received [.got bs] = bs := by simp [received]
  unfold Seen at h ⊢
  rw [push_eq] at h
  rw [received_append, hr, push_eq, push_eq, push_append, push_forget _ r,
    push_forget _ (pushUpTo MAX_FRAME {} (received trace)), h]

theorem replies_cancel {a b : Radio} {xs : List String}
    (h : { a with replies := xs ++ a.replies } = { b with replies := xs ++ b.replies }) :
    a = b := by
  obtain ⟨line, frame, state, replies, frames⟩ := a
  obtain ⟨line', frame', state', replies', frames'⟩ := b
  simp only [Radio.mk.injEq, List.append_cancel_left_eq] at h ⊢
  exact h

/-- As long as what has been received fits, the limit on frames makes no difference. -/
theorem seen_push (h : Seen r trace) (hle : MAX_FRAME ≤ lim) (hf : Fits (received trace ++ bs)) :
    r.push bs = pushUpTo lim r bs := by
  have hsource : ({} : Radio).push (received trace ++ bs) =
      pushUpTo MAX_FRAME (({} : Radio).push (received trace)) bs := push_append ..
  have hlim : pushUpTo lim {} (received trace ++ bs) =
      pushUpTo lim (({} : Radio).push (received trace)) bs := by
    rw [push_append, push_fits hle hf.before]
  have hall := hsource.symm.trans ((push_fits hle hf).trans hlim)
  unfold Seen at h
  generalize ({} : Radio).push (received trace) = seen at h hall
  have hcleared : pushUpTo MAX_FRAME { seen with replies := [] } bs =
      pushUpTo lim { seen with replies := [] } bs :=
    replies_cancel ((push_forget _ seen bs).symm.trans (hall.trans (push_forget _ seen bs)))
  rw [push_eq, push_forget _ r, h, hcleared, ← h]
  exact (push_forget _ r bs).symm

theorem seen_hear (h : hear wait r trace tape = .ok x s') (hs : Seen r trace) :
    Seen s'.radio s'.trace := by
  fun_induction hear wait r trace tape with
  | case1 =>
    cases h
    exact hs
  | case3 =>
    cases h
    exact seen_silent hs rfl
  | case6 r trace b bs tape hr ih => exact ih h (seen_got hs (b :: bs))
  | _ => cases h

theorem seen_ask (h : ask cmd wait n s = .ok x s') (hs : Seen s.radio s.trace) :
    Seen s'.radio s'.trace := by
  have hat : ∀ {s x s'}, attempt cmd wait s = .ok x s' → Seen s.radio s.trace →
      Seen s'.radio s'.trace :=
    fun h hs => seen_hear (attempt_ok h) (seen_silent hs rfl)
  induction n generalizing s with
  | zero => exact hat h hs
  | succ n ih =>
    rcases ask_ok h with ⟨ha, -⟩ | ⟨m, t, hm, ha, h⟩
    · exact hat ha hs
    · cases hm
      exact ih h (seen_silent (hat ha hs) rfl)

theorem seen_probe (h : probe s = .ok wasKiss s') (hs : Seen s.radio s.trace) :
    Seen s'.radio s'.trace := by
  rcases probe_ok h with ⟨x, hx, -⟩ | ⟨t, x, ht, hx, -⟩
  · exact seen_ask hx hs
  · exact seen_ask hx (seen_silent (seen_silent (seen_ask ht hs) rfl) rfl)

/-- The frames init passes on are those in what it has read. -/
theorem init_frames (h : initThD7x { tape } = .ok out s) :
    out.frames = (({} : Radio).push (received s.trace)).frames := by
  obtain ⟨wasKiss, s₁, radio, s₂, tn, s₃, hp, hi, ht, he, hf, -⟩ := init_ok h
  obtain ⟨x, t, hx, -, hb⟩ := enterKiss_ok he
  have h₁ := seen_probe hp (s := { tape }) rfl
  have h₃ := seen_ask ht (seen_ask hi h₁)
  have h₄ : Seen s.radio s.trace := seen_ask hb (seen_ask hx h₃)
  have hframes := congrArg Radio.frames h₄
  rw [hf]
  exact hframes

end KissTncBridge.Proofs.TalkSteps
