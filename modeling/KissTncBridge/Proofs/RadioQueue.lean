import KissTncBridge.Proofs.TalkSteps

namespace KissTncBridge.Proofs.RadioQueue
open Kiss Wire TncInit Scanner

/-- The radio takes part in what init does, and passes on frames in between, none
longer than `lim`. -/
inductive Sees (lim : Nat) : RadioState → List Act → RadioState → Prop where
  | done : Sees lim st [] st
  | air : RadioState.step st (.air raw) = some u → raw.length ≤ lim → Sees lim u as st' →
      Sees lim st as st'
  | act : RadioState.step st (.act a) = some u → Sees lim u as st' → Sees lim st (a :: as) st'

variable {lim : Nat} {st st' u : RadioState} {r : Radio}

theorem sees_of_run (h : labels.foldlM RadioState.step st = some st')
    (hl : ∀ raw ∈ heard labels, raw.length ≤ lim) : Sees lim st (acts labels) st' := by
  induction labels generalizing st with
  | nil =>
    cases h
    exact .done
  | cons label labels ih =>
    rw [List.foldlM_cons] at h
    obtain ⟨u, hu, hr⟩ := Option.bind_eq_some_iff.mp h
    cases label with
    | act a => exact .act hu (ih hr hl)
    | air raw =>
      have hl' : ∀ x ∈ raw :: heard labels, x.length ≤ lim := hl
      exact .air hu (hl' raw (List.mem_cons_self ..))
        (ih hr (fun x hx => hl' x (List.mem_cons_of_mem _ hx)))

theorem Sees.split (h : Sees lim st (a ++ b) st') :
    ∃ u, Sees lim st a u ∧ Sees lim u b st' := by
  generalize hc : a ++ b = c at h
  induction h generalizing a with
  | done =>
    obtain ⟨rfl, rfl⟩ := List.append_eq_nil_iff.mp hc
    exact ⟨_, .done, .done⟩
  | air hs hl _ ih =>
    obtain ⟨u, hu, hv⟩ := ih hc
    exact ⟨u, .air hs hl hu, hv⟩
  | act hs hr ih =>
    cases a with
    | nil =>
      subst hc
      exact ⟨_, .done, .act hs hr⟩
    | cons x a =>
      cases hc
      obtain ⟨u, hu, hv⟩ := ih rfl
      exact ⟨u, .act hs hu, hv⟩

/-- What init does next, after some frames. -/
theorem Sees.next (h : Sees lim st (a :: as) st') :
    ∃ u v, Sees lim st [] u ∧ u.step (.act a) = some v ∧ Sees lim v as st' := by
  generalize hc : a :: as = c at h
  induction h with
  | done => cases hc
  | air hs hl _ ih =>
    obtain ⟨u, v, hu, hv⟩ := ih hc
    exact ⟨u, v, .air hs hl hu, hv⟩
  | act hs hr =>
    cases hc
    exact ⟨_, _, .done, hs, hr⟩

def core (st : RadioState) : RadioState := { st with queue := [], owed := 0 }

/-- The scanner will be idle when it has read all that was sent, and no answer is
among it. -/
structure Calm (lim : Nat) (r : Radio) (st : RadioState) : Prop where
  idle : Idle (pushUpTo lim r st.queue)
  none : (pushUpTo lim r st.queue).replies = []
  owed : st.owed = 0

/-- The scanner will find one reply in what was sent, where the last answer ends. -/
structure Due (lim : Nat) (x : String) (r : Radio) (st : RadioState) : Prop where
  idle : Idle (pushUpTo lim r st.queue)
  one : (pushUpTo lim r st.queue).replies = [x]
  early : ∀ n < st.owed, (pushUpTo lim r (st.queue.take n)).replies = []
  there : (pushUpTo lim r (st.queue.take st.owed)).replies = [x]
  bound : st.owed ≤ st.queue.length

theorem step_air (h : st.step (.air raw) = some u) :
    raw ≠ [] ∧ FEND ∉ raw ∧ u = { st with queue := st.queue ++ writeFrame raw } := by
  simp only [RadioState.step] at h
  split at h
  · rename_i hr
    cases h
    exact ⟨hr.1, hr.2, rfl⟩
  · cases h

theorem step_got (h : st.step (.act (.got bs)) = some u) :
    ∃ rest, st.queue = bs ++ rest ∧ u = { st with queue := rest, owed := st.owed - bs.length } := by
  simp only [RadioState.step] at h
  split at h
  · rename_i hp
    cases h
    obtain ⟨rest, hrest⟩ := List.isPrefixOf_iff_prefix.mp hp
    refine ⟨rest, hrest.symm, ?_⟩
    rw [← hrest, List.drop_left]
  · cases h

theorem step_quiet (h : st.step (.act (.quiet wait)) = some u) : st.owed = 0 ∧ u = st := by
  simp only [RadioState.step] at h
  split at h
  · cases h
    exact ⟨by assumption, rfl⟩
  · cases h

/-- A frame on the air does not disturb a scanner that will be idle. -/
theorem push_air (hi : Idle r) (hn : raw ≠ []) (hd : FEND ∉ raw) (hl : raw.length ≤ lim) :
    Idle (pushUpTo lim r (writeFrame raw)) ∧ (pushUpTo lim r (writeFrame raw)).replies =
      r.replies := by
  have h := push_frame hi hn hd hl 0
  have hw : List.replicate (0 + 1) FEND ++ raw ++ [FEND] = writeFrame raw := rfl
  rw [hw] at h
  rw [h]
  exact ⟨⟨hi.line, hi.frame, by simp⟩, rfl⟩

theorem Calm.air (h : Calm lim r st) (hs : st.step (.air raw) = some u) (hl : raw.length ≤ lim) :
    Calm lim r u ∧ core u = core st := by
  obtain ⟨hn, hd, rfl⟩ := step_air hs
  obtain ⟨hi, hr⟩ := push_air h.idle hn hd hl
  refine ⟨⟨?_, ?_, h.owed⟩, rfl⟩
  · rw [push_append]
    exact hi
  · rw [push_append, hr, h.none]

theorem Due.air (h : Due lim x r st) (hs : st.step (.air raw) = some u) (hl : raw.length ≤ lim) :
    Due lim x r u ∧ core u = core st := by
  obtain ⟨hn, hd, rfl⟩ := step_air hs
  obtain ⟨hi, hr⟩ := push_air h.idle hn hd hl
  have hb := h.bound
  have htake : ∀ n ≤ st.owed, (st.queue ++ writeFrame raw).take n = st.queue.take n := by
    intro n hle
    exact List.take_append_of_le_length (Nat.le_trans hle hb)
  refine ⟨⟨?_, ?_, ?_, ?_, ?_⟩, rfl⟩
  · rw [push_append]
    exact hi
  · rw [push_append, hr, h.one]
  · intro n hlt
    rw [htake n (Nat.le_of_lt hlt)]
    exact h.early n hlt
  · rw [htake _ (Nat.le_refl _)]
    exact h.there
  · simp only [List.length_append]
    omega

theorem Calm.rest (h : Calm lim r st) (hs : Sees lim st [] u) :
    Calm lim r u ∧ core u = core st := by
  generalize hc : [] = c at hs
  induction hs with
  | done => exact ⟨h, rfl⟩
  | air hs hl _ ih =>
    obtain ⟨hv, he⟩ := h.air hs hl
    obtain ⟨hu, he'⟩ := ih hv hc
    exact ⟨hu, he'.trans he⟩
  | act => cases hc

theorem Due.rest (h : Due lim x r st) (hs : Sees lim st [] u) :
    Due lim x r u ∧ core u = core st := by
  generalize hc : [] = c at hs
  induction hs with
  | done => exact ⟨h, rfl⟩
  | air hs hl _ ih =>
    obtain ⟨hv, he⟩ := h.air hs hl
    obtain ⟨hu, he'⟩ := ih hv hc
    exact ⟨hu, he'.trans he⟩
  | act => cases hc

theorem Calm.got (h : Calm lim r st) (hs : st.step (.act (.got bs)) = some u) :
    Calm lim (pushUpTo lim r bs) u ∧ core u = core st := by
  obtain ⟨rest, hq, rfl⟩ := step_got hs
  have hp := push_append lim r bs rest
  rw [← hq] at hp
  refine ⟨⟨?_, ?_, ?_⟩, rfl⟩
  · rw [← hp]
    exact h.idle
  · rw [← hp]
    exact h.none
  · simp only [h.owed, Nat.zero_sub]

/-- A reply that is there when more has been read was there before. -/
theorem replies_between (ha : (pushUpTo lim r a).replies = [x])
    (habc : (pushUpTo lim r (a ++ b ++ c)).replies = [x]) :
    (pushUpTo lim r (a ++ b)).replies = [x] := by
  rw [push_append] at habc ⊢
  rw [push_append] at habc
  obtain ⟨more, hm⟩ := replies_push lim (pushUpTo lim r a) b
  obtain ⟨more', hm'⟩ := replies_push lim (pushUpTo lim (pushUpTo lim r a) b) c
  rw [hm', hm, ha] at habc
  have hlen := congrArg List.length habc
  simp only [List.length_append, List.length_singleton] at hlen
  have hnil : more = [] := List.length_eq_zero_iff.mp (by omega)
  rw [hm, ha, hnil, List.append_nil]

theorem Due.got (h : Due lim x r st) (hs : st.step (.act (.got bs)) = some u) :
    Due lim x (pushUpTo lim r bs) u ∧ core u = core st := by
  obtain ⟨rest, hq, rfl⟩ := step_got hs
  have hp := push_append lim r bs rest
  have hb := h.bound
  rw [hq, List.length_append] at hb
  have htake : ∀ n, (bs ++ rest).take (bs.length + n) = bs ++ rest.take n := by
    intro n
    rw [List.take_length_add_append]
  refine ⟨⟨?_, ?_, ?_, ?_, ?_⟩, rfl⟩
  · rw [← hp, ← hq]
    exact h.idle
  · rw [← hp, ← hq]
    exact h.one
  · intro n hlt
    have he := h.early (bs.length + n) (by simp only at hlt; omega)
    rwa [hq, htake, push_append] at he
  · by_cases hle : bs.length ≤ st.owed
    · have ht := h.there
      obtain ⟨k, hk⟩ := Nat.exists_eq_add_of_le hle
      simp only [hk, Nat.add_sub_cancel_left]
      rwa [hk, hq, htake, push_append] at ht
    · have hz : st.owed - bs.length = 0 := by omega
      have ht := h.there
      rw [hq, List.take_append_of_le_length (by omega)] at ht
      have ho := h.one
      rw [hq, ← List.take_append_drop st.owed bs] at ho
      have hbs := replies_between ht ho
      rw [List.take_append_drop] at hbs
      simpa only [hz, List.take_zero, push_nil] using hbs
  · simp only
    omega

/-- No wait ends before an answer that is due. -/
theorem Due.not_quiet (h : Due lim x r st) (hr : r.replies = []) :
    st.step (.act (.quiet wait)) ≠ some u := by
  intro hs
  have ht := h.there
  rw [(step_quiet hs).1, List.take_zero, push_nil, hr] at ht
  cases ht

/-- An answer that has been found leaves nothing due. -/
theorem Due.found (h : Due lim x r st) (hr : r.replies = y :: ys) :
    y = x ∧ Calm lim { r with replies := ys } st := by
  obtain ⟨more, hm⟩ := replies_push lim r st.queue
  have ho := h.one
  rw [hm, hr, List.cons_append] at ho
  obtain ⟨rfl, hnil⟩ := List.cons.inj ho
  obtain ⟨hys, hmore⟩ := List.append_eq_nil_iff.mp hnil
  subst hys
  have hp := push_forget lim r st.queue
  have hi := h.idle
  rw [hp] at hi
  refine ⟨rfl, ⟨⟨hi.line, hi.frame, hi.outside⟩, ?_, ?_⟩⟩
  · have hone := h.one
    rw [hp, hr] at hone
    exact (List.cons.inj hone).2
  · by_contra hne
    have he := h.early 0 (Nat.pos_of_ne_zero hne)
    rw [List.take_zero, push_nil, hr] at he
    cases he

theorem Calm.replies (h : Calm lim r st) : r.replies = [] := by
  obtain ⟨more, hm⟩ := replies_push lim r st.queue
  rw [h.none] at hm
  exact (List.append_eq_nil_iff.mp hm.symm).1

end KissTncBridge.Proofs.RadioQueue
