import KissTncBridge.Proofs.RadioTexts

namespace KissTncBridge.Proofs.RadioTalk
open Kiss Wire TncInit Scanner TalkSteps RadioQueue RadioTexts

variable {lim : Nat} {st st' : RadioState} {s s' t : Link}

inductive Query where
  | bt
  | id
  | tn
  | set (mode band : UInt8)

namespace Query

def text : Query → String
  | bt => "BT"
  | id => "ID"
  | tn => "TN"
  | set mode band => tnText mode band

/-- What a radio that is not busy answers, and what it does. -/
def answer (st : RadioState) : Query → String
  | bt => "BT 1"
  | id => "ID TH-D75"
  | tn => tnText st.mode st.band
  | set mode band => tnText mode band

def does (st : RadioState) : Query → RadioState
  | set mode band => { st with mode, band }
  | _ => st

end Query

theorem tnText_ne (mode band : UInt8) :
    tnText mode band ≠ "BT" ∧ tnText mode band ≠ "ID" ∧ tnText mode band ≠ "TN" ∧
    tnText mode band ≠ "?" := by
  refine ⟨?_, ?_, ?_, ?_⟩
  all_goals
    intro h
    have hl := congrArg String.toList h
    rw [tnText_toList] at hl
    simp at hl

theorem obey_query (st : RadioState) (q : Query) :
    st.obey q.text = (q.does st).answer (q.answer st) := by
  cases q with
  | bt => rfl
  | id => rfl
  | tn => rfl
  | set mode band =>
    obtain ⟨hbt, hid, htn, -⟩ := tnText_ne mode band
    have hm := (digits_facts mode).2.2.2
    have hb := (digits_facts band).2.2.2
    simp only [RadioState.obey, Query.text, hbt, hid, htn, if_false, stripStart_tn,
      RadioState.setTn, splitOnce_tn, hm, hb]
    rfl

theorem spoken_fixed (h : text ∈ ["BT", "ID", "TN", "BT 1", "ID TH-D75", "?"]) : Spoken text := by
  simp only [List.mem_cons, List.not_mem_nil, or_false] at h
  rcases h with rfl | rfl | rfl | rfl | rfl | rfl
  all_goals exact ⟨ascii_of_all (by decide), by decide, by decide, by decide +kernel⟩

theorem spoken_text (q : Query) : Spoken q.text := by
  cases q with
  | set mode band => exact spoken_tn mode band
  | _ => exact spoken_fixed (by decide)

theorem spoken_answer (st : RadioState) (q : Query) : Spoken (q.answer st) := by
  cases q with
  | bt => exact spoken_fixed (by decide : "BT 1" ∈ _)
  | id => exact spoken_fixed (by decide : "ID TH-D75" ∈ _)
  | tn => exact spoken_tn st.mode st.band
  | set mode band => exact spoken_tn mode band

theorem answer_ne_busy (st : RadioState) (q : Query) : q.answer st ≠ "?" := by
  cases q with
  | bt => exact (by decide : "BT 1" ≠ "?")
  | id => exact (by decide : "ID TH-D75" ≠ "?")
  | tn => exact (tnText_ne st.mode st.band).2.2.2
  | set mode band => exact (tnText_ne mode band).2.2.2

/-- A command mode radio collects the bytes of a line. -/
theorem take_line (hk : st.inKiss = false) (hb : ∀ b ∈ bs, b ≠ FEND ∧ b ≠ CR) :
    bs.foldl RadioState.take st = { st with line := st.line ++ bs } := by
  induction bs generalizing st with
  | nil => rw [List.append_nil]; rfl
  | cons b bs ih =>
    obtain ⟨hf, hc⟩ := hb b (List.mem_cons_self ..)
    have htake : st.take b = { st with line := st.line ++ [b] } := by
      simp only [RadioState.take, hk, Bool.false_eq_true, if_false, hf, ne_eq, hc,
        not_false_eq_true, if_true]
    have hk' : RadioState.inKiss { st with line := st.line ++ [b] } = false := hk
    rw [List.foldl_cons, htake, ih hk' (fun x hx => hb x (List.mem_cons_of_mem _ hx)),
      List.append_assoc, List.singleton_append]

/-- A line sent to a radio in command mode is a command. -/
theorem take_command (hk : st.inKiss = false) (hl : st.line = []) (hs : Spoken cmd) :
    (bytes (cmd ++ "\r")).foldl RadioState.take st = st.command cmd := by
  have hcr : bytes "\r" = [CR] := by decide
  have hfree : ∀ b ∈ bytes cmd, b ≠ FEND ∧ b ≠ CR := by
    intro b hb
    obtain ⟨hf, hc, -⟩ := free_ascii hs.ascii b hb
    exact ⟨hf, hc⟩
  rw [bytes_append, hcr, List.foldl_append, take_line hk hfree, hl, List.nil_append,
    List.foldl_cons, List.foldl_nil]
  have hk' : ({ st with line := bytes cmd } : RadioState).inKiss = false := hk
  have hfend : CR ≠ FEND := by decide
  simp only [RadioState.take, hk', Bool.false_eq_true, if_false, hfend, ne_eq, not_true_eq_false,
    lossy_ascii hs.ascii]
  rw [← hl]

/-- An answer that is sent to a scanner with nothing else to find is due. -/
theorem due_answer (h : Calm lim r st) (hs : Spoken text) : Due lim text r (st.answer text) := by
  have hcr : bytes "\r" = [CR] := by decide
  have hq : (st.answer text).queue = st.queue ++ (bytes text ++ [CR]) := by
    rw [RadioState.answer, bytes_append, hcr]
  have ho : (st.answer text).owed = (st.answer text).queue.length := rfl
  obtain ⟨reply, hp, hr⟩ := push_line h.idle hs.plain
  have hreply := hr hs.length
  rw [lossy_ascii hs.ascii, hs.trimmed] at hreply
  subst hreply
  have hone : (pushUpTo lim r (st.answer text).queue).replies = [text] := by
    rw [hq, push_append, hp, h.none]
    rfl
  refine ⟨?_, hone, ?_, ?_, Nat.le_of_eq ho⟩
  · rw [hq, push_append, hp]
    exact ⟨h.idle.line, h.idle.frame, by simp⟩
  · intro n hn
    obtain ⟨line, hpl, -⟩ := push_plain h.idle hs.plain
    have hnone : (pushUpTo lim r (st.queue ++ bytes text)).replies = [] := by
      rw [push_append, hpl]
      exact h.none
    rw [ho, hq, ← List.append_assoc, List.length_append, List.length_singleton] at hn
    rw [hq, ← List.append_assoc, List.take_append_of_le_length (by omega)]
    rw [← List.take_append_drop n (st.queue ++ bytes text), push_append] at hnone
    obtain ⟨more, hm⟩ := replies_push lim (pushUpTo lim r ((st.queue ++ bytes text).take n))
      ((st.queue ++ bytes text).drop n)
    rw [hnone] at hm
    exact (List.append_eq_nil_iff.mp hm.symm).1
  · rw [ho, List.take_length]
    exact hone

/-- The scanner has seen what init has received, and there is no reply to come. -/
structure Meets (lim : Nat) (s : Link) (st : RadioState) : Prop where
  seen : Seen s.radio s.trace
  calm : Calm lim s.radio st

/-- Whatever the radio passes on meanwhile, as long as init receives what fits, init
gets from `s` to `s'` with no reply left over, and a radio of which `Pre` holds
changes as `P` says. -/
def Leads (s s' : Link) (Pre : RadioState → Prop) (P : RadioState → RadioState → Prop) : Prop :=
  ∃ as, s'.trace = s.trace ++ as ∧ ∀ lim st st', MAX_FRAME ≤ lim → Fits (received s'.trace) →
    Meets lim s st → Pre (core st) → Sees lim st as st' → Meets lim s' st' ∧ P (core st) (core st')

variable {Pre Pre' : RadioState → Prop} {P Q : RadioState → RadioState → Prop}

theorem fits_before (ht : s'.trace = s.trace ++ as) (h : Fits (received s'.trace)) :
    Fits (received s.trace) := by
  rw [ht, received_append] at h
  exact h.before

theorem Leads.trans (h : Leads s t Pre P) (h' : Leads t s' Pre' Q)
    (hpre : ∀ a b, Pre a → P a b → Pre' b) : Leads s s' Pre (fun a c => ∃ b, P a b ∧ Q b c) := by
  obtain ⟨as, hs, hp⟩ := h
  obtain ⟨bs, ht, hq⟩ := h'
  refine ⟨as ++ bs, by rw [ht, hs, List.append_assoc], fun lim st st' hle hf hm hst hsees => ?_⟩
  obtain ⟨u, hu, hv⟩ := hsees.split
  obtain ⟨hmu, hpu⟩ := hp lim st u hle (fits_before ht hf) hm hst hu
  obtain ⟨hm', hq'⟩ := hq lim u st' hle hf hmu (hpre _ _ hst hpu) hv
  exact ⟨hm', core u, hpu, hq'⟩

theorem Leads.imp (h : Leads s s' Pre P) (hpre : ∀ a, Pre' a → Pre a)
    (hi : ∀ a b, Pre' a → P a b → Q a b) : Leads s s' Pre' Q := by
  obtain ⟨as, hs, hp⟩ := h
  refine ⟨as, hs, fun lim st st' hle hf hm hst hsees => ?_⟩
  obtain ⟨hm', hp'⟩ := hp lim st st' hle hf hm (hpre _ hst) hsees
  exact ⟨hm', hi _ _ hst hp'⟩

theorem Leads.or (h : Leads s s' Pre P) (h' : Leads s s' Pre' P) :
    Leads s s' (fun a => Pre a ∨ Pre' a) P := by
  obtain ⟨as, hs, hp⟩ := h
  obtain ⟨bs, hs', hp'⟩ := h'
  obtain rfl : as = bs := List.append_cancel_left (hs.symm.trans hs')
  refine ⟨as, hs, fun lim st st' hle hf hm hst hsees => ?_⟩
  rcases hst with hst | hst
  · exact hp lim st st' hle hf hm hst hsees
  · exact hp' lim st st' hle hf hm hst hsees

theorem leads_slept (s : Link) (time : Conf.Duration) :
    Leads s { s with trace := s.trace ++ [.slept time] } (fun _ => True) (fun a b => b = a) := by
  refine ⟨[.slept time], rfl, fun lim st st' _ _ hm _ hsees => ?_⟩
  obtain ⟨u, v, hu, hv, hrest⟩ := hsees.next
  cases hv
  obtain ⟨hcu, heu⟩ := hm.calm.rest hu
  obtain ⟨hcv, hev⟩ := hcu.rest hrest
  exact ⟨⟨seen_silent hm.seen rfl, hcv⟩, hev.trans heu⟩

/-- A reply is waited for until the one that is due is there, or until the wait
is over if none is. -/
theorem hear_sees (h : hear wait r trace tape = .ok x s') : ∃ as, s'.trace = trace ++ as ∧
    ∀ lim, MAX_FRAME ≤ lim → Seen r trace → Fits (received s'.trace) →
      (∀ st st', Calm lim r st → Sees lim st as st' →
        x = none ∧ Calm lim s'.radio st' ∧ core st' = core st) ∧
      ∀ st st' y, Due lim y r st → Sees lim st as st' →
        x = some y ∧ Calm lim s'.radio st' ∧ core st' = core st := by
  fun_induction hear wait r trace tape with
  | case1 r trace tape reply replies hr =>
    cases h
    refine ⟨[], (List.append_nil _).symm, fun lim _ _ _ => ⟨fun st st' hc _ => ?_,
      fun st st' y hd hsees => ?_⟩⟩
    · rw [hc.replies] at hr
      cases hr
    · obtain ⟨hd', he⟩ := hd.rest hsees
      obtain ⟨rfl, hc⟩ := hd'.found hr
      exact ⟨rfl, hc, he⟩
  | case3 r trace tape hr =>
    cases h
    refine ⟨[.quiet wait], rfl, fun lim _ _ _ => ⟨fun st st' hc hsees => ?_,
      fun st st' y hd hsees => ?_⟩⟩
    · obtain ⟨u, v, hu, hv, hrest⟩ := hsees.next
      obtain ⟨-, rfl⟩ := step_quiet hv
      obtain ⟨hcu, heu⟩ := hc.rest hu
      obtain ⟨hcv, hev⟩ := hcu.rest hrest
      exact ⟨rfl, hcv, hev.trans heu⟩
    · obtain ⟨u, v, hu, hv, -⟩ := hsees.next
      exact absurd hv ((hd.rest hu).1.not_quiet hr)
  | case6 r trace b bs tape hr ih =>
    obtain ⟨as, ht, hnext⟩ := ih h
    refine ⟨.got (b :: bs) :: as, by rw [ht, List.append_assoc]; rfl, fun lim hle hseen hf => ?_⟩
    obtain ⟨hcalm, hdue⟩ := hnext lim hle (seen_got hseen (b :: bs)) hf
    have hgot : received [.got (b :: bs)] = b :: bs := by simp [received]
    rw [ht, received_append, received_append, hgot] at hf
    have hpush := seen_push hseen hle hf.before
    refine ⟨fun st st' hc hsees => ?_, fun st st' y hd hsees => ?_⟩
    · obtain ⟨u, v, hu, hv, hrest⟩ := hsees.next
      obtain ⟨hcu, heu⟩ := hc.rest hu
      obtain ⟨hcv, hev⟩ := hcu.got hv
      rw [← hpush] at hcv
      obtain ⟨hx, hc', he⟩ := hcalm v st' hcv hrest
      exact ⟨hx, hc', he.trans (hev.trans heu)⟩
    · obtain ⟨u, v, hu, hv, hrest⟩ := hsees.next
      obtain ⟨hdu, heu⟩ := hd.rest hu
      obtain ⟨hdv, hev⟩ := hdu.got hv
      rw [← hpush] at hdv
      obtain ⟨hx, hc', he⟩ := hdue v st' y hdv hrest
      exact ⟨hx, hc', he.trans (hev.trans heu)⟩
  | _ => cases h

def told (q : Query) (a : RadioState) : String × RadioState :=
  match a.busy with
  | true :: busy => ("?", { a with busy })
  | false :: busy => (q.answer a, q.does { a with busy })
  | [] => (q.answer a, q.does a)

theorem command_told (q : Query) (st : RadioState) :
    st.command q.text = (told q st).2.answer (told q st).1 := by
  obtain ⟨mode, band, elsewhere, busy, line, kiss, queue, owed⟩ := st
  match busy with
  | [] => exact obey_query _ q
  | true :: busy => rfl
  | false :: busy =>
    refine (obey_query ⟨mode, band, elsewhere, busy, line, kiss, queue, owed⟩ q).trans ?_
    cases q <;> rfl

theorem spoken_told (q : Query) (st : RadioState) : Spoken (told q st).1 := by
  unfold told
  split
  · exact spoken_fixed (by decide : "?" ∈ _)
  · exact spoken_answer st q
  · exact spoken_answer st q

theorem told_core (q : Query) (st : RadioState) :
    told q (core st) = ((told q st).1, core (told q st).2) := by
  obtain ⟨mode, band, elsewhere, busy, line, kiss, queue, owed⟩ := st
  match busy with
  | [] => cases q <;> rfl
  | true :: busy => rfl
  | false :: busy => cases q <;> rfl

theorem told_queue (q : Query) (st : RadioState) :
    (told q st).2.queue = st.queue ∧ (told q st).2.owed = st.owed := by
  unfold told
  split
  · exact ⟨rfl, rfl⟩
  · cases q <;> exact ⟨rfl, rfl⟩
  · cases q <;> exact ⟨rfl, rfl⟩

theorem calm_told (h : Calm lim r st) (q : Query) : Calm lim r (told q st).2 := by
  obtain ⟨hq, ho⟩ := told_queue q st
  refine ⟨?_, ?_, ?_⟩
  · rw [hq]
    exact h.idle
  · rw [hq]
    exact h.none
  · rw [ho]
    exact h.owed

theorem calm_clear (h : Calm lim r st) : Calm lim { r with replies := [] } st := by
  have hr : { r with replies := [] } = r := by
    rw [← h.replies]
  rwa [hr]

/-- The radio takes commands, and has not been sent part of one. -/
def Talks (a : RadioState) : Prop := a.inKiss = false ∧ a.line = []

def Mute (a : RadioState) : Prop := a.inKiss = true ∧ a.kiss = []

/-- What an attempt starts from, once the replies are cleared and the line is sent. -/
theorem seen_cleared (h : Seen s.radio s.trace) (bs : List UInt8) :
    Seen { s.radio with replies := [] } (s.trace ++ [.sent bs]) := seen_silent h rfl

/-- A radio in command mode answers each time it is asked. -/
theorem attempt_query (h : attempt (Query.text q) wait s = .ok x s') :
    Leads s s' Talks (fun a b => x = some (told q a).1 ∧ b = (told q a).2) := by
  obtain ⟨as, ht, hnext⟩ := hear_sees (attempt_ok h)
  refine ⟨.sent (bytes (q.text ++ "\r")) :: as, by rw [ht, List.append_assoc]; rfl,
    fun lim st st' hle hf hm hst hsees => ?_⟩
  have hseen := seen_cleared hm.seen (bytes (q.text ++ "\r"))
  obtain ⟨-, hdue⟩ := hnext lim hle hseen hf
  obtain ⟨u, v, hu, hv, hrest⟩ := hsees.next
  obtain ⟨hcu, heu⟩ := hm.calm.rest hu
  rw [← heu] at hst ⊢
  have hu : Talks u := hst
  have hv : (bytes (q.text ++ "\r")).foldl RadioState.take u = v := Option.some.inj hv
  rw [take_command hu.1 hu.2 (spoken_text q), command_told] at hv
  subst hv
  have hd := due_answer (calm_told (calm_clear hcu) q) (spoken_told q u)
  obtain ⟨hx, hc', he⟩ := hdue _ st' _ hd hrest
  have htold := told_core q u
  refine ⟨⟨seen_hear (attempt_ok h) hseen, hc'⟩, ?_, ?_⟩
  · rw [hx, htold]
  · rw [he, htold]
    rfl

theorem take_mute (hm : Mute st) : (bytes "BT\r").foldl RadioState.take st = st := by
  obtain ⟨mode, band, elsewhere, busy, line, kiss, queue, owed⟩ := st
  obtain ⟨hk, hnil⟩ := hm
  cases hnil
  have hb : bytes "BT\r" = [0x42, 0x54, 0x0D] := by decide
  have hin : ∀ kiss',
      (⟨mode, band, elsewhere, busy, line, kiss', queue, owed⟩ : RadioState).inKiss = true :=
    fun _ => hk
  have h₁ : KISS_RETURN.isSuffixOf ([] ++ [0x42]) = false := by decide
  have h₂ : KISS_RETURN.isSuffixOf ([] ++ [0x42] ++ [0x54]) = false := by decide
  have h₃ : KISS_RETURN.isSuffixOf ([] ++ [0x42] ++ [0x54] ++ [0x0D]) = false := by decide
  have h₄ : (bytes "BT\r").isSuffixOf ([] ++ [0x42]) = false := by decide
  have h₅ : (bytes "BT\r").isSuffixOf ([] ++ [0x42] ++ [0x54]) = false := by decide
  have h₆ : (bytes "BT\r").isSuffixOf ([] ++ [0x42] ++ [0x54] ++ [0x0D]) = true := by decide
  rw [hb]
  simp only [List.foldl_cons, List.foldl_nil, RadioState.take, hin, if_true, h₁, h₂, h₃, h₄, h₅, h₆,
    Bool.false_eq_true, if_false]

/-- A radio in KISS mode does not answer. -/
theorem attempt_mute (h : attempt "BT" wait s = .ok x s') :
    Leads s s' Mute (fun a b => x = none ∧ b = a) := by
  obtain ⟨as, ht, hnext⟩ := hear_sees (attempt_ok h)
  refine ⟨.sent (bytes "BT\r") :: as, by rw [ht, List.append_assoc]; rfl,
    fun lim st st' hle hf hm hst hsees => ?_⟩
  have hseen := seen_cleared hm.seen (bytes "BT\r")
  obtain ⟨hcalm, -⟩ := hnext lim hle hseen hf
  obtain ⟨u, v, hu, hv, hrest⟩ := hsees.next
  obtain ⟨hcu, heu⟩ := hm.calm.rest hu
  rw [← heu] at hst ⊢
  have hv : (bytes "BT\r").foldl RadioState.take u = v := Option.some.inj hv
  have hmute : Mute u := hst
  rw [take_mute hmute] at hv
  subst hv
  obtain ⟨hx, hc', he⟩ := hcalm u st' (calm_clear hcu) hrest
  exact ⟨⟨seen_hear (attempt_ok h) hseen, hc'⟩, hx, he⟩

theorem take_return (hm : Mute st) :
    KISS_RETURN.foldl RadioState.take st = { st with mode := 0 } := by
  obtain ⟨mode, band, elsewhere, busy, line, kiss, queue, owed⟩ := st
  obtain ⟨hk, hnil⟩ := hm
  cases hnil
  have hin : ∀ kiss',
      (⟨mode, band, elsewhere, busy, line, kiss', queue, owed⟩ : RadioState).inKiss = true :=
    fun _ => hk
  have h₁ : KISS_RETURN.isSuffixOf ([] ++ [FEND]) = false := by decide
  have h₂ : KISS_RETURN.isSuffixOf ([] ++ [FEND] ++ [0xFF]) = false := by decide
  have h₃ : KISS_RETURN.isSuffixOf ([] ++ [FEND] ++ [0xFF] ++ [FEND]) = true := by decide
  have h₄ : (bytes "BT\r").isSuffixOf ([] ++ [FEND]) = false := by decide
  have h₅ : (bytes "BT\r").isSuffixOf ([] ++ [FEND] ++ [0xFF]) = false := by decide
  have hb : KISS_RETURN = [FEND, 0xFF, FEND] := rfl
  rw [hb] at h₁ h₂ h₃ ⊢
  simp only [List.foldl_cons, List.foldl_nil, RadioState.take, hin, hb, if_true, h₁, h₂, h₃, h₄, h₅,
    Bool.false_eq_true, if_false]

theorem leads_return (s : Link) :
    Leads s { s with trace := s.trace ++ [.sent KISS_RETURN] } Mute
      (fun a b => b = { a with mode := 0 }) := by
  refine ⟨[.sent KISS_RETURN], rfl, fun lim st st' _ _ hmeets hst hsees => ?_⟩
  obtain ⟨u, v, hu, hv, hrest⟩ := hsees.next
  obtain ⟨hcu, heu⟩ := hmeets.calm.rest hu
  rw [← heu] at hst ⊢
  have hv : KISS_RETURN.foldl RadioState.take u = v := Option.some.inj hv
  have hm : Mute u := hst
  rw [take_return hm] at hv
  subst hv
  have hcv : Calm lim s.radio { u with mode := 0 } := ⟨hcu.idle, hcu.none, hcu.owed⟩
  obtain ⟨hc', he⟩ := hcv.rest hrest
  exact ⟨⟨seen_silent hmeets.seen rfl, hc'⟩, he⟩

/-- What a radio in command mode answers when it is asked again while it is busy,
as often as given, and what it does. -/
def asked (q : Query) : Nat → RadioState → String × RadioState
  | 0, a => told q a
  | n + 1, a => if (told q a).1 = "?" then asked q n (told q a).2 else told q a

/-- A busy radio stays as it is. -/
theorem talks_busy (h : Talks a) (hb : (told q a).1 = "?") : Talks (told q a).2 := by
  unfold told at hb ⊢
  split at hb
  · exact h
  · exact absurd hb (answer_ne_busy a q)
  · exact absurd hb (answer_ne_busy a q)

theorem ask_query (h : ask (Query.text q) wait n s = .ok x s') :
    Leads s s' Talks (fun a b => x = some (asked q n a).1 ∧ b = (asked q n a).2) := by
  induction n generalizing s with
  | zero => exact attempt_query h
  | succ n ih =>
    rcases ask_ok h with ⟨ha, hx⟩ | ⟨m, t, hm, ha, h⟩
    · refine (attempt_query ha).imp (fun _ h => h) (fun a b _ hab => ?_)
      have hne : (told q a).1 ≠ "?" := by
        intro he
        rw [he] at hab
        exact absurd (hx hab.1) (Nat.succ_ne_zero n)
      rw [asked, if_neg hne]
      exact hab
    · cases hm
      have hfirst := (attempt_query ha).trans (leads_slept t BUSY_GAP) (fun _ _ _ _ => trivial)
      have hall := hfirst.trans (ih h) (fun a b hta hab => by
        obtain ⟨c, ⟨hbusy, rfl⟩, rfl⟩ := hab
        exact talks_busy hta (Option.some.inj hbusy).symm)
      refine hall.imp (fun _ h => h) (fun a b _ hab => ?_)
      obtain ⟨c, ⟨d, ⟨hbusy, rfl⟩, rfl⟩, hxb⟩ := hab
      rw [asked, if_pos (Option.some.inj hbusy).symm]
      exact hxb

theorem ask_mute (h : ask "BT" wait n s = .ok x s') :
    Leads s s' Mute (fun a b => x = none ∧ b = a) := by
  cases n with
  | zero => exact attempt_mute h
  | succ n =>
    rcases ask_ok h with ⟨ha, -⟩ | ⟨m, t, -, ha, h⟩
    · exact attempt_mute ha
    · have hnever : Leads t s' (fun _ => False) (fun a b => x = none ∧ b = a) := by
        obtain ⟨as, has, -⟩ := ask_query (q := .bt) h
        exact ⟨.slept BUSY_GAP :: as, by rw [has, List.append_assoc]; rfl,
          fun _ _ _ _ _ _ hf => hf.elim⟩
      refine ((attempt_mute ha).trans hnever (fun a b _ hab => by cases hab.1)).imp
        (fun _ h => h) ?_
      rintro a b - ⟨c, ⟨hx, -⟩, -⟩
      cases hx

/-- What is left of the times the radio is busy when it has been asked once more,
with as many retries as given, and whether it was busy each time. -/
def spent : Nat → List Bool → List Bool
  | _, [] => []
  | _, false :: busy => busy
  | 0, true :: busy => busy
  | n + 1, true :: busy => spent n busy

def hushed : Nat → List Bool → Bool
  | _, [] => false
  | _, false :: _ => false
  | 0, true :: _ => true
  | n + 1, true :: busy => hushed n busy

theorem asked_eq (q : Query) (n : Nat) (a : RadioState) :
    asked q n a = if hushed n a.busy then ("?", { a with busy := spent n a.busy })
      else (q.answer a, q.does { a with busy := spent n a.busy }) := by
  obtain ⟨mode, band, elsewhere, busy, line, kiss, queue, owed⟩ := a
  induction n generalizing busy with
  | zero =>
    match busy with
    | [] => rfl
    | true :: busy => rfl
    | false :: busy => cases q <;> rfl
  | succ n ih =>
    match busy with
    | [] => exact if_neg (answer_ne_busy _ q)
    | true :: busy =>
      refine (if_pos (rfl : "?" = "?")).trans ((ih busy).trans ?_)
      cases q <;> rfl
    | false :: busy =>
      refine (if_neg (answer_ne_busy _ q)).trans ?_
      rfl

/-- The band init takes up, and the mode it restores, as the radio's answers
have it. -/
def untold (busy : List Bool) : Bool :=
  hushed BUSY_RETRIES (spent BUSY_RETRIES (spent BUSY_RETRIES busy))

def newBand (a : RadioState) : UInt8 := if untold a.busy then 0 else a.band

def oldMode (a : RadioState) : Option UInt8 :=
  if a.inKiss then some 2 else if untold a.busy then none else some a.mode

def unspent (busy : List Bool) : List Bool :=
  spent BUSY_RETRIES (spent BUSY_RETRIES (spent BUSY_RETRIES (spent BUSY_RETRIES busy)))

def Entered (exitKiss : List (List UInt8)) (a b : RadioState) : Prop :=
  b = { a with mode := 2, band := newBand a, busy := unspent a.busy } ∧
    exitKiss = exitSteps (oldMode a) (newBand a)

def Fresh (a : RadioState) : Prop := a.line = [] ∧ a.kiss = []

theorem fresh_cases (h : Fresh a) : Talks a ∨ Mute a := by
  cases hk : a.inKiss with
  | false => exact .inl ⟨hk, h.1⟩
  | true => exact .inr ⟨hk, h.2⟩

/-- Asked for `BT`, a radio says whether it is in KISS mode. -/
theorem bt_leads (h : ask "BT" wait n s = .ok x s') :
    Leads s s' Fresh (fun a b => x.isNone = a.inKiss ∧
      b = if a.inKiss then a else { a with busy := spent n a.busy }) := by
  refine Leads.imp
    (.or ((ask_query (q := .bt) h).imp (fun _ h => h) ?_) ((ask_mute h).imp (fun _ h => h) ?_))
    (fun _ => fresh_cases) (fun _ _ _ h => h)
  · rintro a b ⟨hk, -⟩ ⟨rfl, rfl⟩
    refine ⟨hk.symm, ?_⟩
    rw [hk, asked_eq]
    split <;> rfl
  · rintro a b ⟨hk, -⟩ ⟨rfl, rfl⟩
    rw [hk]
    exact ⟨rfl, rfl⟩

/-- The probe gets the radio to take commands. -/
theorem probe_leads (h : probe s = .ok wasKiss s') :
    Leads s s' Fresh (fun a b => wasKiss = a.inKiss ∧
      b = { a with
        mode := if a.inKiss then 0 else a.mode, busy := spent BUSY_RETRIES a.busy }) := by
  rcases probe_ok h with ⟨x, hx, rfl⟩ | ⟨t, x, ht, hx, rfl⟩
  · refine (bt_leads hx).imp (fun _ h => h) ?_
    rintro a b - ⟨hk, rfl⟩
    have hk : a.inKiss = false := hk.symm
    rw [hk]
    exact ⟨rfl, rfl⟩
  · have hreturn : Leads t _ (fun a => a.inKiss = true ∧ Fresh a) _ :=
      ((leads_return t).trans (leads_slept _ AFTER_KISS_RETURN) (fun _ _ _ _ => trivial)).imp
        (fun a h => ⟨h.1, h.2.2⟩) (fun _ _ _ h => h)
    have hagain := hreturn.trans (bt_leads hx) (fun a b h hab => by
      obtain ⟨c, rfl, rfl⟩ := hab
      exact h.2)
    refine ((bt_leads ht).trans hagain (fun a b h hab => ?_)).imp (fun _ h => h) ?_
    · obtain ⟨hk, rfl⟩ := hab
      rw [← hk]
      exact ⟨hk.symm, h⟩
    · rintro a b - ⟨c, ⟨hk, rfl⟩, d, ⟨e, rfl, rfl⟩, -, rfl⟩
      have hk : a.inKiss = true := hk.symm
      simp only [hk, if_true]
      exact ⟨trivial, rfl⟩

/-- The radio takes commands, and is as init expects it otherwise. -/
def Open (a : RadioState) : Prop := a.inKiss = false ∧ Fresh a

theorem id_leads (h : command "ID" s = .ok x s') :
    Leads s s' Open (fun a b => b = { a with busy := spent BUSY_RETRIES a.busy }) := by
  refine (ask_query (q := .id) h).imp (fun a h => ⟨h.1, h.2.1⟩) ?_
  rintro a b - ⟨-, rfl⟩
  rw [asked_eq]
  split <;> rfl

theorem tn_leads (h : command "TN" s = .ok x s') :
    Leads s s' Open (fun a b => b = { a with busy := spent BUSY_RETRIES a.busy } ∧
      x = some (if hushed BUSY_RETRIES a.busy then "?" else tnText a.mode a.band)) := by
  refine (ask_query (q := .tn) h).imp (fun a h => ⟨h.1, h.2.1⟩) ?_
  rintro a b - ⟨rfl, rfl⟩
  rw [asked_eq]
  split
  · exact ⟨rfl, rfl⟩
  · exact ⟨rfl, rfl⟩

/-- A radio that says so has taken KISS mode. -/
theorem set_leads (h : command ("TN 2," ++ toString band) s = .ok (some x) s')
    (hx : "TN".toList.isPrefixOf x.toList) : Leads s s' Open (fun a b =>
      b = { a with mode := 2, band, busy := spent BUSY_RETRIES a.busy }) := by
  have htext : "TN 2," ++ toString band = Query.text (.set 2 band) := by
    have h2 : "TN 2," = "TN " ++ toString (2 : UInt8) ++ "," := by decide
    rw [h2]
    rfl
  unfold TncInit.command commandWithin at h
  rw [htext] at h
  refine (ask_query h).imp (fun a h => ⟨h.1, h.2.1⟩) ?_
  rintro a b - ⟨he, rfl⟩
  rw [asked_eq] at he ⊢
  split at he
  · cases he
    change "TN".toList.isPrefixOf "?".toList = true at hx
    exact absurd hx (by decide)
  · rename_i hb
    rw [if_neg hb]
    rfl

theorem parseTn_busy : parseTn "?" = none := by decide

/-- What init makes of the radio's answer to `TN`. -/
theorem found_told (u : Bool) (mode band : UInt8) :
    (some (if u then "?" else tnText mode band)).bind parseTn = if u then none
      else some (mode, band) := by
  cases u with
  | true =>
    rw [if_pos rfl, if_pos rfl]
    exact parseTn_busy
  | false =>
    rw [if_neg (by simp), if_neg (by simp)]
    exact parseTn_tn mode band

/-- Before it listens for silence, init has put the radio into KISS mode on the band,
and has the exit steps, that its answers gave. -/
theorem init_leads (h : initThD7x s = .ok out s') : ∃ t,
    Leads s t Fresh (Entered out.exitKiss) ∧
      ask "BT" KISS_CHECK_WAIT BUSY_RETRIES t = .ok none s' := by
  obtain ⟨wasKiss, s₁, radio, s₂, tn, s₃, hp, hi, ht, he, -, hexit⟩ := init_ok h
  obtain ⟨x, t, hx, htn, hbt⟩ := enterKiss_ok he
  refine ⟨t, ?_, hbt⟩
  have hopen : ∀ (a b : RadioState), Fresh a → wasKiss = a.inKiss ∧
      b = { a with mode := if a.inKiss then 0 else a.mode, busy := spent BUSY_RETRIES a.busy } →
        Open b := by
    rintro a b hf ⟨-, rfl⟩
    refine ⟨?_, hf⟩
    cases hk : a.inKiss with
    | false => exact hk
    | true => rfl
  have h₂ := (probe_leads hp).trans (id_leads hi) hopen
  have h₃ := h₂.trans (tn_leads ht) (fun a b hf hab => by
    obtain ⟨c, hc, rfl⟩ := hab
    exact hopen a c hf hc)
  have h₄ := h₃.trans (set_leads hx htn) (fun a b hf hab => by
    obtain ⟨c, ⟨d, hd, rfl⟩, rfl, -⟩ := hab
    exact hopen a d hf hd)
  refine h₄.imp (fun _ h => h) ?_
  rintro a b - ⟨c, ⟨d, ⟨e, ⟨hk, rfl⟩, rfl⟩, rfl, rfl⟩, rfl⟩
  have hband : ∀ m, bandOf (some (if untold a.busy then "?" else tnText m a.band)) = newBand a := by
    intro m
    rw [bandOf, found_told, newBand]
    cases untold a.busy <;> rfl
  refine ⟨?_, ?_⟩
  · exact congrArg (fun band => { a with mode := 2, band, busy := unspent a.busy }) (hband _)
  · have hprev : prevModeOf a.inKiss (some (if untold a.busy then "?" else
        tnText (if a.inKiss then 0 else a.mode) a.band)) = oldMode a := by
      rw [prevModeOf, found_told, oldMode]
      cases a.inKiss with
      | true => rfl
      | false => cases untold a.busy <;> rfl
    rw [hexit, hk, ← hband (if a.inKiss then 0 else a.mode), ← hprev]
    rfl

end KissTncBridge.Proofs.RadioTalk
