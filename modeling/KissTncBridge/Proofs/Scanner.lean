import KissTncBridge.Port.TncInit
import Mathlib.Data.List.Induction

namespace KissTncBridge.Proofs.Scanner
open Kiss Wire TncInit

/-- One byte, for a scanner that takes a frame of up to `lim` bytes. -/
def takeUpTo (lim : Nat) (r : Radio) (b : UInt8) : Radio :=
  if b = FEND then
    if r.state = .frame ∧ r.frame ≠ [] then
      { r with frames := r.frames ++ [r.frame], frame := [], state := .afterFrame }
    else { r with frame := [], state := .frame }
  else if r.state = .afterFrame ∧ b < 0x20 then { r with frame := r.frame ++ [b], state := .frame }
  else if r.state = .frame then
    if r.frame.length < lim then { r with frame := r.frame ++ [b] }
    else { r with frame := [], state := .text }
  else if b = CR ∨ b = LF then
    if r.line = [] then { r with state := .text }
    else { r with
      state := .text, line := [], replies := r.replies ++ [Text.trim (fromUtf8Lossy r.line)] }
  else if r.line.length < MAX_LINE then { r with state := .text, line := r.line ++ [b] }
  else { r with state := .text, line := [] }

def pushUpTo (lim : Nat) (r : Radio) (data : List UInt8) : Radio := data.foldl (takeUpTo lim) r

/-- The source's scanner is the one for its own limit. -/
theorem push_eq (r : Radio) (data : List UInt8) : r.push data = pushUpTo MAX_FRAME r data := rfl

variable {lim : Nat} {r : Radio}

theorem push_append (lim : Nat) (r : Radio) (a b : List UInt8) :
    pushUpTo lim r (a ++ b) = pushUpTo lim (pushUpTo lim r a) b := List.foldl_append

theorem push_cons (r : Radio) (b : UInt8) (bs : List UInt8) :
    pushUpTo lim r (b :: bs) = pushUpTo lim (takeUpTo lim r b) bs := rfl

@[simp] theorem push_nil (r : Radio) : pushUpTo lim r [] = r := rfl

/-- The scanner does not look at the replies it has found. -/
theorem take_replies (r : Radio) (xs : List String) (b : UInt8) :
    takeUpTo lim { r with replies := xs ++ r.replies } b =
      { takeUpTo lim r b with replies := xs ++ (takeUpTo lim r b).replies } := by
  simp only [takeUpTo]
  repeat' split
  all_goals simp_all

theorem push_replies (r : Radio) (xs : List String) (bs : List UInt8) :
    pushUpTo lim { r with replies := xs ++ r.replies } bs =
      { pushUpTo lim r bs with replies := xs ++ (pushUpTo lim r bs).replies } := by
  induction bs generalizing r with
  | nil => rfl
  | cons b bs ih => rw [push_cons, push_cons, take_replies, ih]

theorem push_forget (lim : Nat) (r : Radio) (bs : List UInt8) :
    pushUpTo lim r bs = { pushUpTo lim { r with replies := [] } bs with
      replies := r.replies ++ (pushUpTo lim { r with replies := [] } bs).replies } := by
  have h : pushUpTo lim { r with replies := r.replies ++ [] } bs = _ :=
    push_replies { r with replies := [] } r.replies bs
  rwa [List.append_nil] at h

/-- Replies that are found stay. -/
theorem replies_push (lim : Nat) (r : Radio) (bs : List UInt8) :
    ∃ more, (pushUpTo lim r bs).replies = r.replies ++ more := by
  rw [push_forget]
  exact ⟨_, rfl⟩

/-- The FENDs in front of a frame. -/
theorem push_fends (hf : r.frame = []) (n : Nat) :
    pushUpTo lim r (List.replicate (n + 1) FEND) = { r with state := .frame } := by
  have hone : ∀ r : Radio, r.frame = [] → takeUpTo lim r FEND = { r with state := .frame } := by
    intro r hf
    obtain ⟨line, frame, state, replies, frames⟩ := r
    cases hf
    simp [takeUpTo]
  induction n generalizing r with
  | zero => exact hone r hf
  | succ n ih =>
    have h := ih (r := { r with state := .frame }) hf
    rw [List.replicate_succ, push_cons, hone r hf, h]

/-- The bytes of a frame. -/
theorem push_raw (hs : r.state = .frame) (hd : FEND ∉ raw)
    (hl : r.frame.length + raw.length ≤ lim) :
    pushUpTo lim r raw = { r with frame := r.frame ++ raw } := by
  induction raw generalizing r with
  | nil => rw [push_nil, List.append_nil]
  | cons b raw ih =>
    simp only [List.mem_cons, not_or] at hd
    simp only [List.length_cons] at hl
    have hlt : r.frame.length < lim := by omega
    have htake : takeUpTo lim r b = { r with frame := r.frame ++ [b] } := by
      simp [takeUpTo, Ne.symm hd.1, hs, hlt]
    have hlen : (r.frame ++ [b]).length + raw.length ≤ lim := by
      simp only [List.length_append, List.length_singleton]
      omega
    have h := ih (r := { r with frame := r.frame ++ [b] }) hs hd.2 hlen
    rw [push_cons, htake, h, List.append_assoc, List.singleton_append]

/-- A FEND ends a frame that has begun. -/
theorem take_close (hs : r.state = .frame) (hf : r.frame ≠ []) : takeUpTo lim r FEND =
    { r with frames := r.frames ++ [r.frame], frame := [], state := .afterFrame } := by
  simp [takeUpTo, hs, hf]

structure Idle (r : Radio) : Prop where
  line : r.line = []
  frame : r.frame = []
  outside : r.state ≠ .frame

/-- After FENDs, or after the FEND of the frame before it, a frame of bytes that
fit is taken up whole and closed. -/
theorem push_frame (hi : Idle r) (hn : raw ≠ []) (hd : FEND ∉ raw) (hl : raw.length ≤ lim)
    (n : Nat) : pushUpTo lim r (List.replicate (n + 1) FEND ++ raw ++ [FEND]) =
      { r with frames := r.frames ++ [raw], state := .afterFrame } := by
  obtain ⟨line, frame, state, replies, frames⟩ := r
  obtain ⟨hline, hframe, hstate⟩ := hi
  cases hframe
  rw [push_append, push_append, push_fends rfl, push_raw rfl hd (by simpa using hl),
    List.nil_append, push_cons, take_close rfl hn, push_nil]

theorem push_open (hs : r.state = .frame) (hf : r.frame = []) (hd : FEND ∉ raw)
    (hl : raw.length ≤ lim) : pushUpTo lim r raw = { r with frame := raw } := by
  rw [push_raw hs hd (by rw [hf]; simpa using hl), hf, List.nil_append]

/-- A first byte below 0x20 goes on from the FEND of the frame before. -/
theorem push_shared (hs : r.state = .afterFrame) (hf : r.frame = []) (hn : raw ≠ [])
    (hb : ∀ b ∈ raw.head?, b < 0x20) (hd : FEND ∉ raw) (hl : raw.length ≤ lim) :
    pushUpTo lim r raw = { r with frame := raw, state := .frame } := by
  obtain ⟨b, bs, rfl⟩ := List.exists_cons_of_ne_nil hn
  simp only [List.mem_cons, not_or] at hd
  have hlow : b < 0x20 := hb b rfl
  have htake : takeUpTo lim r b = { r with frame := [b], state := .frame } := by
    simp [takeUpTo, Ne.symm hd.1, hs, hlow, hf]
  have hlen : ([b] : List UInt8).length + bs.length ≤ lim := by
    simp only [List.length_cons, List.length_nil] at hl ⊢
    omega
  rw [push_cons, htake, push_raw rfl hd.2 hlen, List.singleton_append]

/-- A line of text: no delimiter in it, and a first byte that no frame starts
with. -/
structure Plain (t : List UInt8) : Prop where
  nonempty : t ≠ []
  free : ∀ b ∈ t, b ≠ FEND ∧ b ≠ CR ∧ b ≠ LF
  letter : ∀ b ∈ t.head?, ¬ b < 0x20

theorem push_text (hs : r.state = .text) (ht : ∀ b ∈ t, b ≠ FEND ∧ b ≠ CR ∧ b ≠ LF) :
    ∃ line, pushUpTo lim r t = { r with line } ∧
      (r.line.length + t.length ≤ MAX_LINE → line = r.line ++ t) := by
  induction t generalizing r with
  | nil => exact ⟨r.line, rfl, fun _ => (List.append_nil _).symm⟩
  | cons b t ih =>
    obtain ⟨hb, hc, hlf⟩ := ht b (List.mem_cons_self ..)
    have ht' := fun x hx => ht x (List.mem_cons_of_mem b hx)
    have htake : takeUpTo lim r b =
        { r with line := if r.line.length < MAX_LINE then r.line ++ [b] else [] } := by
      obtain ⟨line, frame, state, replies, frames⟩ := r
      cases hs
      simp only [takeUpTo, if_neg hb, reduceCtorEq, false_and, if_false, hc, hlf, or_self]
      split <;> rfl
    obtain ⟨line, hp, hl⟩ := ih (r := { r with
      line := if r.line.length < MAX_LINE then r.line ++ [b] else [] }) hs ht'
    refine ⟨line, by rw [push_cons, htake, hp], fun hlen => ?_⟩
    simp only [List.length_cons] at hlen
    have hlt : r.line.length < MAX_LINE := by omega
    simp only [if_pos hlt, List.length_append, List.length_singleton] at hl
    rw [hl (by omega), List.append_assoc, List.singleton_append]

theorem take_letter (hs : r.state ≠ .frame) (hb : b ≠ FEND) (hl : ¬ b < 0x20) :
    takeUpTo lim r b = takeUpTo lim { r with state := .text } b := by
  obtain ⟨line, frame, state, replies, frames⟩ := r
  cases state with
  | text => rfl
  | frame => exact absurd rfl hs
  | afterFrame => simp [takeUpTo, hb, hl]

/-- The scanner collects the text of a line. -/
theorem push_plain (hi : Idle r) (ht : Plain t) :
    ∃ line, pushUpTo lim r t = { r with state := .text, line } ∧
      (t.length ≤ MAX_LINE → line = t) := by
  obtain ⟨b, bs, rfl⟩ := List.exists_cons_of_ne_nil ht.nonempty
  have hfirst := (ht.free b (List.mem_cons_self ..)).1
  have htext : pushUpTo lim r (b :: bs) = pushUpTo lim { r with state := .text } (b :: bs) := by
    rw [push_cons, take_letter hi.outside hfirst (ht.letter b rfl)]
    rfl
  obtain ⟨line, hp, hl⟩ : ∃ line, pushUpTo lim { r with state := .text } (b :: bs) =
      { r with state := .text, line } ∧ _ := push_text rfl ht.free
  refine ⟨line, htext.trans hp, fun hlen => ?_⟩
  simp only [hi.line, List.length_nil, Nat.zero_add, List.nil_append] at hl
  exact hl hlen

/-- A line leaves the scanner between lines, with one more reply: the line, if it
is short enough to be one. -/
theorem push_line (hi : Idle r) (ht : Plain t) :
    ∃ reply, pushUpTo lim r (t ++ [CR]) =
        { r with state := .text, replies := r.replies ++ reply } ∧
      (t.length ≤ MAX_LINE → reply = [Text.trim (fromUtf8Lossy t)]) := by
  obtain ⟨line, hp, hl⟩ : ∃ line, pushUpTo lim r t = { r with state := .text, line } ∧ _ :=
    push_plain hi ht
  rw [push_append, hp, push_cons, push_nil]
  obtain ⟨rline, frame, state, replies, frames⟩ := r
  obtain ⟨hline, hframe, -⟩ := hi
  cases hline
  cases hframe
  by_cases hn : line = []
  · refine ⟨[], by simp [takeUpTo, hn, FEND, CR], fun hlen => ?_⟩
    exact absurd ((hl hlen).symm.trans hn) ht.nonempty
  · refine ⟨[Text.trim (fromUtf8Lossy line)], by simp [takeUpTo, hn, FEND, CR], fun hlen => ?_⟩
    rw [hl hlen]

/-- No run of bytes without a FEND is longer than the frames the scanner takes. -/
def Fits (bs : List UInt8) : Prop := ∀ raw, raw <:+: bs → FEND ∉ raw → raw.length ≤ MAX_FRAME

theorem Fits.before (h : Fits (a ++ b)) : Fits a := fun raw hr hd =>
  h raw (hr.trans (List.prefix_append a b).isInfix) hd

/-- The frame that has begun is what came last. -/
structure Reading (bs : List UInt8) (r : Radio) : Prop where
  last : r.frame <:+ bs
  free : FEND ∉ r.frame
  outside : r.state ≠ .frame → r.frame = []

theorem Reading.of_nil (h : r.frame = []) : Reading bs r :=
  ⟨h ▸ List.nil_suffix, h ▸ List.not_mem_nil, fun _ => h⟩

theorem Reading.append (h : Reading bs r) (hb : b ≠ FEND) (hf : r'.frame = r.frame ++ [b])
    (hs : r'.state = .frame) : Reading (bs ++ [b]) r' := by
  refine ⟨?_, ?_, fun hn => absurd hs hn⟩
  · rw [hf]
    obtain ⟨front, rfl⟩ := h.last
    exact ⟨front, (List.append_assoc ..).symm⟩
  · simp [hf, h.free, Ne.symm hb]

theorem Reading.take (h : Reading bs r) (b : UInt8) : Reading (bs ++ [b]) (takeUpTo lim r b) := by
  unfold takeUpTo
  split
  · split <;> exact .of_nil rfl
  · rename_i hb
    split
    · exact h.append hb rfl rfl
    · split
      · rename_i hs
        split
        · exact h.append hb rfl hs
        · exact .of_nil rfl
      · rename_i hs
        have hf := h.outside hs
        split
        · split <;> exact .of_nil hf
        · split <;> exact .of_nil hf

theorem reading_push (bs : List UInt8) : Reading bs (pushUpTo lim {} bs) := by
  induction bs using List.reverseRecOn with
  | nil => exact .of_nil rfl
  | append_singleton bs b ih =>
    rw [push_append]
    exact ih.take b

/-- Bytes that fit do not get to the limit. -/
theorem take_fits (h : Reading bs r) (hle : MAX_FRAME ≤ lim) (hf : Fits (bs ++ [b])) :
    takeUpTo MAX_FRAME r b = takeUpTo lim r b := by
  unfold takeUpTo
  split
  · rfl
  · rename_i hb
    have hnext : Reading (bs ++ [b]) { r with frame := r.frame ++ [b], state := .frame } :=
      h.append hb rfl rfl
    have hlen := hf _ hnext.last.isInfix hnext.free
    rw [List.length_append, List.length_singleton] at hlen
    have hmax : r.frame.length < MAX_FRAME := hlen
    have hlim : r.frame.length < lim := Nat.lt_of_lt_of_le hmax hle
    rw [if_pos hmax, if_pos hlim]

/-- A scanner that takes longer frames finds the same in them. -/
theorem push_fits (hle : MAX_FRAME ≤ lim) (h : Fits bs) :
    ({} : Radio).push bs = pushUpTo lim {} bs := by
  rw [push_eq]
  induction bs using List.reverseRecOn with
  | nil => rfl
  | append_singleton bs b ih =>
    rw [push_append, push_append, ← ih h.before]
    exact take_fits (reading_push bs) hle h

end KissTncBridge.Proofs.Scanner
