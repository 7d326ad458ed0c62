import KissTncBridge.Proofs.FrameLimit
import KissTncBridge.Proofs.TalkSteps

namespace KissTncBridge.Proofs.HandOver
open Lib Kiss Wire TncInit Scanner TalkSteps Reassembly FrameLimit

/-- A frame as the radio sends it: its bytes, and how many FENDs more than needed
stand in front of it. -/
structure Framed where
  idle : Nat
  raw : List UInt8
deriving DecidableEq, Repr

inductive Sent where
  | frame (f : Framed)
  | line (text : List UInt8)
deriving DecidableEq, Repr

/-- The FENDs in front of a frame. A frame right after another needs none. -/
def opening (closed : Bool) (f : Framed) : List UInt8 :=
  List.replicate (if closed then f.idle else f.idle + 1) FEND

/-- The bytes the radio sends, `closed` if the last of them ended a frame. -/
def wire : Bool → List Sent → List UInt8
  | _, [] => []
  | closed, .frame f :: sent => opening closed f ++ f.raw ++ FEND :: wire true sent
  | _, .line text :: sent => text ++ CR :: wire false sent

def closes : Bool → List Sent → Bool
  | closed, [] => closed
  | _, .frame _ :: sent => closes true sent
  | _, .line _ :: sent => closes false sent

def frames (sent : List Sent) : List (List UInt8) :=
  sent.filterMap (fun | .frame f => some f.raw | .line _ => none)

def Framed.Legal (f : Framed) : Prop := f.raw ≠ [] ∧ FEND ∉ f.raw ∧ ∀ b ∈ f.raw.head?, b < 0x20

/-- A frame starts with a byte below 0x20 and a reply does not. -/
def Sent.Legal : Sent → Prop
  | .frame f => f.Legal
  | .line text => Plain text

theorem wire_append (closed : Bool) (a b : List Sent) :
    wire closed (a ++ b) = wire closed a ++ wire (closes closed a) b := by
  induction a generalizing closed with
  | nil => rfl
  | cons x a ih =>
    cases x with
    | frame f => simp [wire, closes, ih]
    | line text => simp [wire, closes, ih]

theorem closes_append (closed : Bool) (a b : List Sent) :
    closes closed (a ++ b) = closes (closes closed a) b := by
  induction a generalizing closed with
  | nil => rfl
  | cons x a ih => cases x <;> exact ih _

@[simp] theorem frames_append (a b : List Sent) : frames (a ++ b) = frames a ++ frames b :=
  List.filterMap_append

@[simp] theorem frames_map (fs : List Framed) : frames (fs.map .frame) = fs.map Framed.raw := by
  induction fs with
  | nil => rfl
  | cons f fs ih =>
    rw [List.map_cons, List.map_cons, ← ih]
    rfl

def Ready (closed : Bool) (r : Radio) : Prop := Idle r ∧ (closed = true → r.state = .afterFrame)

/-- The scanner takes up the bytes of a frame that has begun. -/
theorem push_begun (hr : Ready closed r) (f : Framed) (hn : a ≠ []) (hd : FEND ∉ a)
    (hb : ∀ b ∈ a.head?, b < 0x20) (hl : a.length ≤ MAX_FRAME) :
    pushUpTo MAX_FRAME r (opening closed f ++ a) = { r with frame := a, state := .frame } := by
  have hopen : ∀ n, pushUpTo MAX_FRAME r (List.replicate (n + 1) FEND ++ a) =
      { r with frame := a, state := .frame } := by
    intro n
    rw [push_append, push_fends hr.1.frame]
    exact push_open (r := { r with state := .frame }) rfl hr.1.frame hd hl
  cases closed with
  | false => exact hopen f.idle
  | true =>
    cases hi : f.idle with
    | succ n =>
      rw [opening, hi]
      exact hopen n
    | zero =>
      rw [opening, hi]
      exact push_shared (hr.2 rfl) hr.1.frame hn hb hd hl

theorem push_whole (hr : Ready closed r) (hf : f.Legal) (hl : f.raw.length ≤ MAX_FRAME) :
    pushUpTo MAX_FRAME r (opening closed f ++ f.raw ++ [FEND]) =
      { r with frames := r.frames ++ [f.raw], state := .afterFrame } := by
  obtain ⟨line, frame, state, replies, frames⟩ := r
  have hframe : frame = [] := hr.1.frame
  subst hframe
  rw [push_append, push_begun hr f hf.1 hf.2.1 hf.2.2 hl, push_cons, take_close rfl hf.1, push_nil]

/-- What is sent whole leaves the scanner ready for more, with its frames. -/
theorem push_wire (hr : Ready closed r) (hs : ∀ x ∈ sent, x.Legal)
    (hl : ∀ raw ∈ frames sent, raw.length ≤ MAX_FRAME) :
    Ready (closes closed sent) (pushUpTo MAX_FRAME r (wire closed sent)) ∧
      (pushUpTo MAX_FRAME r (wire closed sent)).frames = r.frames ++ frames sent := by
  induction sent generalizing closed r with
  | nil => exact ⟨hr, (List.append_nil _).symm⟩
  | cons x sent ih =>
    have hx := hs x (List.mem_cons_self ..)
    have hs' := fun y hy => hs y (List.mem_cons_of_mem x hy)
    cases x with
    | frame f =>
      have hl' : ∀ raw ∈ f.raw :: frames sent, raw.length ≤ MAX_FRAME := hl
      have hw : wire closed (.frame f :: sent) = opening closed f ++ f.raw ++ [FEND] ++
          wire true sent := by
        simp [wire]
      rw [hw, push_append, push_whole hr hx (hl' _ (List.mem_cons_self ..))]
      have hready : Ready true { r with frames := r.frames ++ [f.raw], state := .afterFrame } :=
        ⟨⟨hr.1.line, hr.1.frame, by simp⟩, fun _ => rfl⟩
      obtain ⟨hready, hframes⟩ := ih hready hs' (fun raw h => hl' raw (List.mem_cons_of_mem _ h))
      refine ⟨hready, hframes.trans ?_⟩
      exact List.append_assoc ..
    | line text =>
      have hw : wire closed (.line text :: sent) = text ++ [CR] ++ wire false sent := by simp [wire]
      obtain ⟨reply, hp, -⟩ := push_line hr.1 hx
      rw [hw, push_append, hp]
      have hready : Ready false { r with state := .text, replies := r.replies ++ reply } :=
        ⟨⟨hr.1.line, hr.1.frame, by simp⟩, fun h => by cases h⟩
      exact ih hready hs' hl

/-- The frames of `fs` that are whole in the first `n` bytes of their wire form. -/
def whole : Bool → List Framed → Nat → List Framed
  | _, [], _ => []
  | closed, f :: fs, n =>
    if (opening closed f ++ f.raw ++ [FEND]).length ≤ n then
      f :: whole true fs (n - (opening closed f ++ f.raw ++ [FEND]).length)
    else []

theorem whole_rest (h : p ++ q = wire closed (fs.map .frame)) :
    ∃ later p', fs = whole closed fs p.length ++ later ∧
      p = wire closed ((whole closed fs p.length).map .frame) ++ p' ∧
      p' ++ q = wire (closes closed ((whole closed fs p.length).map .frame)) (later.map .frame) ∧
      ∀ f ∈ later.head?, p'.length <
        (opening (closes closed ((whole closed fs p.length).map .frame)) f ++ f.raw ++
          [FEND]).length := by
  induction fs generalizing closed p with
  | nil => exact ⟨[], p, rfl, rfl, h, fun f hf => by cases hf⟩
  | cons f fs ih =>
    have hw : wire closed ((f :: fs).map .frame) =
        opening closed f ++ f.raw ++ [FEND] ++ wire true (fs.map .frame) := by
      simp [wire]
    rw [whole]
    split
    · rename_i hlen
      rw [hw] at h
      have hpre : opening closed f ++ f.raw ++ [FEND] <+: p :=
        List.prefix_of_prefix_length_le ⟨_, h.symm⟩ ⟨q, rfl⟩ hlen
      obtain ⟨p₁, rfl⟩ := hpre
      have hp : p₁ ++ q = wire true (fs.map .frame) := by
        rw [List.append_assoc] at h
        exact List.append_cancel_left h
      rw [List.length_append, Nat.add_sub_cancel_left]
      obtain ⟨later, p', hfs, hp₁, hrest, hlt⟩ := ih hp
      refine ⟨later, p', by rw [List.cons_append, ← hfs], ?_, hrest, hlt⟩
      nth_rewrite 1 [hp₁]
      simp [wire]
    · rename_i hlen
      exact ⟨f :: fs, p, rfl, rfl, h, fun g hg => by cases hg; exact Nat.lt_of_not_le hlen⟩

/-- Where a hand-over can fall in a frame that has not ended: among the FENDs in
front of it or in the frame itself. -/
theorem cut_cases (h : p ++ q = opening closed f ++ f.raw ++ FEND :: rest)
    (hp : p.length < (opening closed f ++ f.raw ++ [FEND]).length) :
    (∃ n m, p = List.replicate n FEND ∧ opening closed f = List.replicate (n + m) FEND ∧
      q = List.replicate m FEND ++ f.raw ++ FEND :: rest) ∨
    ∃ a b, a ≠ [] ∧ f.raw = a ++ b ∧ p = opening closed f ++ a ∧ q = b ++ FEND :: rest := by
  rw [List.append_assoc] at h
  rcases List.append_eq_append_iff.mp h with ⟨x, ho, hq⟩ | ⟨x, hpx, hx⟩
  · left
    have hall : ∀ b ∈ p ++ x, b = FEND := by
      rw [← ho]
      exact fun b hb => List.eq_of_mem_replicate hb
    have hp' := List.eq_replicate_of_mem (fun b hb => hall b (List.mem_append_left _ hb))
    have hx' := List.eq_replicate_of_mem (fun b hb => hall b (List.mem_append_right p hb))
    refine ⟨p.length, x.length, hp', ?_, ?_⟩
    · rw [ho, ← List.replicate_append_replicate, ← hp', ← hx']
    · rw [← hx', hq, List.append_assoc]
  · by_cases hxn : x = []
    · subst hxn
      left
      have hall :=
        List.eq_replicate_of_mem (fun b (hb : b ∈ opening closed f) => List.eq_of_mem_replicate hb)
      refine ⟨(opening closed f).length, 0, ?_, hall, ?_⟩
      · rw [hpx, List.append_nil]
        exact hall
      · simpa using hx.symm
    · right
      rcases List.append_eq_append_iff.mp hx with ⟨y, hxy, hq⟩ | ⟨y, hr, hq⟩
      · have hy : y = [] := by
          rw [hpx, hxy] at hp
          simp only [List.length_append, List.length_singleton] at hp
          exact List.length_eq_zero_iff.mp (by omega)
        subst hy
        exact ⟨x, [], hxn, by simpa using hxy.symm, hpx, by simpa using hq.symm⟩
      · exact ⟨x, y, hxn, hr, hpx, hq⟩

/-- A frame that has not ended is not passed on. -/
theorem push_cut (hr : Ready closed r) (hf : f.Legal) (hl : f.raw.length ≤ MAX_FRAME)
    (h : p ++ q = opening closed f ++ f.raw ++ FEND :: rest)
    (hp : p.length < (opening closed f ++ f.raw ++ [FEND]).length) :
    (pushUpTo MAX_FRAME r p).frames = r.frames := by
  rcases cut_cases h hp with ⟨n, m, rfl, -, -⟩ | ⟨a, b, ha, hab, rfl, -⟩
  · cases n with
    | zero => rfl
    | succ n => rw [push_fends hr.1.frame]
  · obtain ⟨-, hd, hb⟩ := hf
    obtain ⟨x, xs, rfl⟩ := List.exists_cons_of_ne_nil ha
    rw [hab] at hd hb hl
    rw [List.length_append] at hl
    rw [push_begun hr f ha (fun hm => hd (List.mem_append_left _ hm)) hb (by omega)]

theorem ended_fends (n : Nat) (x : List UInt8) :
    ended FEND (List.replicate n FEND ++ x) = ended FEND x := by
  induction n with
  | zero => rfl
  | succ n ih =>
    have hnone : ended FEND ([] ++ [FEND]) = [] := by
      rw [ended_snoc, ended_free List.not_mem_nil, unfinished_free List.not_mem_nil]
      rfl
    have hs : List.replicate (n + 1) FEND ++ x = [] ++ FEND :: (List.replicate n FEND ++ x) := rfl
    rw [hs, ended_append_cons, hnone, ih, List.nil_append]

theorem bounded_fends (n : Nat) (x : List UInt8) :
    bounded FEND (List.replicate (n + 1) FEND ++ x) = ended FEND x := by
  have hs : List.replicate (n + 1) FEND ++ x = [] ++ FEND :: (List.replicate n FEND ++ x) := rfl
  rw [hs, bounded_append_cons, bounded_snoc_free List.not_mem_nil, ended_fends, List.nil_append]

theorem ended_cons (hd : FEND ∉ raw) (x : List UInt8) :
    ended FEND (raw ++ FEND :: x) = (if raw = [] then [] else [raw]) ++ ended FEND x := by
  rw [ended_append_cons, ended_snoc, ended_free hd, unfinished_free hd]
  cases raw <;> rfl

theorem ended_frames {fs : List Framed} (hf : ∀ f ∈ fs, f.Legal) :
    ended FEND (wire closed (fs.map .frame)) = fs.map Framed.raw := by
  induction fs generalizing closed with
  | nil => exact ended_free List.not_mem_nil
  | cons f fs ih =>
    obtain ⟨hn, hd, -⟩ := hf f (List.mem_cons_self ..)
    rw [List.map_cons, wire, opening, List.append_assoc, ended_fends, ended_cons hd, if_neg hn,
      ih (fun g hg => hf g (List.mem_cons_of_mem _ hg))]
    rfl

/-- The frames put back in front of the stream open the frame after them. -/
theorem bounded_front (hd : ∀ raw ∈ done, raw ≠ [] ∧ FEND ∉ raw) (x : List UInt8) :
    bounded FEND (done.flatMap writeFrame ++ x) = done ++ if done = [] then bounded FEND x
      else ended FEND x := by
  rcases List.eq_nil_or_concat done with rfl | ⟨init, last, rfl⟩
  · rfl
  · rw [List.concat_eq_append] at hd ⊢
    have hs : (init ++ [last]).flatMap writeFrame ++ x =
        (init.flatMap writeFrame ++ FEND :: last) ++ FEND :: x := by
      simp [writeFrame]
    have hs' : init.flatMap writeFrame ++ FEND :: last ++
        [FEND] = (init ++ [last]).flatMap writeFrame := by
      simp [writeFrame]
    rw [hs, bounded_append_cons, hs', bounded_wires _ hd, if_neg (by simp)]

/-- What was read ends outside a frame: with nothing of the frames to come, or
with a FEND. And what is still to be read starts with a FEND, unless a frame has
been read whole or nothing is left. -/
def Between (done : List (List UInt8)) (p q : List UInt8) : Prop :=
  (p = [] ∨ p.getLast? = some FEND) ∧ (done ≠ [] ∨ q = [] ∨ q.head? = some FEND)

variable {f : Framed}

instance (done : List (List UInt8)) (p q : List UInt8) : Decidable (Between done p q) :=
  inferInstanceAs (Decidable (_ ∧ _))

theorem head_of_legal (hf : f.Legal) (x : List UInt8) : (f.raw ++ x).head? ≠ some FEND := by
  obtain ⟨hn, hd, -⟩ := hf
  obtain ⟨b, bs, hr⟩ := List.exists_cons_of_ne_nil hn
  rw [hr] at hd ⊢
  intro h
  cases h
  exact hd (List.mem_cons_self ..)

/-- A frame whose FENDs are cut reaches the reader if one of them does, or one of
the frames before it. -/
theorem bounded_fends_iff {later : List Framed} (hf : f.Legal) (hl : ∀ g ∈ later, g.Legal)
    (hd : ∀ raw ∈ done, raw ≠ [] ∧ FEND ∉ raw) (m : Nat) :
    bounded FEND (done.flatMap writeFrame ++
        (List.replicate m FEND ++ f.raw ++ FEND :: wire true (later.map .frame))) =
      done ++ f.raw :: later.map Framed.raw ↔
    done ≠ [] ∨ (List.replicate m FEND ++ f.raw ++ FEND :: wire true (later.map .frame)).head? =
      some FEND := by
  have hended : ended FEND (f.raw ++ FEND :: wire true (later.map .frame)) =
      f.raw :: later.map Framed.raw := by
    rw [ended_cons hf.2.1, if_neg hf.1, ended_frames hl]
    rfl
  rw [bounded_front hd, List.append_assoc, List.append_right_inj]
  split
  · rename_i hdone
    cases m with
    | succ m =>
      rw [bounded_fends, hended]
      exact iff_of_true rfl (.inr rfl)
    | zero =>
      rw [List.replicate_zero, List.nil_append, bounded_append_cons, bounded_snoc_free hf.2.1,
        ended_frames hl, List.nil_append]
      refine iff_of_false (fun h => ?_) (not_or.mpr ⟨not_not.mpr hdone, head_of_legal hf _⟩)
      simpa using congrArg List.length h
  · rename_i hdone
    rw [ended_fends, hended]
    exact iff_of_true rfl (.inl hdone)

/-- A frame that is cut never reaches the reader. -/
theorem bounded_torn {later : List Framed} (hf : f.Legal) (hl : ∀ g ∈ later, g.Legal)
    (hd : ∀ raw ∈ done, raw ≠ [] ∧ FEND ∉ raw) (ha : a ≠ []) (hab : f.raw = a ++ b) :
    bounded FEND (done.flatMap writeFrame ++ (b ++ FEND :: wire true (later.map .frame))) ≠
      done ++ f.raw :: later.map Framed.raw := by
  have hfree : FEND ∉ b := fun hb => hf.2.1 (by rw [hab]; exact List.mem_append_right _ hb)
  rw [bounded_front hd, Ne, List.append_right_inj]
  split
  · rw [bounded_append_cons, bounded_snoc_free hfree, ended_frames hl, List.nil_append]
    exact fun h => by simpa using congrArg List.length h
  · rw [ended_cons hfree, ended_frames hl]
    split
    · exact fun h => by simpa using congrArg List.length h
    · intro h
      have hb : b = f.raw := (List.cons.inj h).1
      have hlen := congrArg List.length hab
      rw [← hb, List.length_append] at hlen
      exact ha (List.length_eq_zero_iff.mp (by omega))

theorem last_of_torn (hf : f.Legal) (ha : a ≠ []) (hab : f.raw = a ++ b) (x : List UInt8) :
    ¬ (x ++ a = [] ∨ (x ++ a).getLast? = some FEND) := by
  rintro (h | h)
  · exact ha (List.append_eq_nil_iff.mp h).2
  · rw [List.getLast?_append_of_ne_nil _ ha] at h
    exact hf.2.1 (by rw [hab]; exact List.mem_append_left _ (List.mem_of_getLast? h))

/-- What a reader finds in the frames put back and the rest of the stream is what
the radio sent exactly if the hand-over falls between frames. -/
theorem bounded_iff_between {later : List Framed} (hl : ∀ g ∈ later, g.Legal)
    (hd : ∀ raw ∈ done, raw ≠ [] ∧ FEND ∉ raw)
    (h : p ++ q = wire closed (later.map .frame))
    (hp : ∀ f ∈ later.head?, p.length < (opening closed f ++ f.raw ++ [FEND]).length) :
    bounded FEND (done.flatMap writeFrame ++ q) = done ++ later.map Framed.raw ↔
    Between done p q := by
  cases later with
  | nil =>
    obtain ⟨rfl, rfl⟩ := List.append_eq_nil_iff.mp h
    rw [bounded_front hd, bounded_free List.not_mem_nil, ended_free List.not_mem_nil, ite_self]
    exact iff_of_true rfl ⟨.inl rfl, .inr (.inl rfl)⟩
  | cons f later =>
    have hf := hl f (List.mem_cons_self ..)
    have hl' := fun g hg => hl g (List.mem_cons_of_mem f hg)
    rcases cut_cases h (hp f rfl) with ⟨n, m, rfl, -, rfl⟩ | ⟨a, b, ha, hab, rfl, rfl⟩
    · have hends : List.replicate n FEND = [] ∨ (List.replicate n FEND).getLast? = some FEND := by
        cases n with
        | zero => exact .inl rfl
        | succ n => exact .inr (by simp [List.getLast?_replicate])
      have hne : List.replicate m FEND ++ f.raw ++ FEND :: wire true (later.map .frame) ≠ [] := by
        simp
      rw [List.map_cons, bounded_fends_iff hf hl' hd, Between, and_iff_right hends]
      simp only [hne, false_or]
    · exact iff_of_false (bounded_torn hf hl' hd ha hab)
        (fun hb => last_of_torn hf ha hab (opening closed f) hb.1)

/-- How many bytes a read brings, when there are as many as it takes. -/
def pieces (bs : List UInt8) : List (List UInt8) :=
  if bs = [] then [] else bs.take READ_BUF :: pieces (bs.drop READ_BUF)
termination_by bs.length
decreasing_by
  rename_i h
  have hb : 0 < READ_BUF := by decide
  have hl := List.length_pos_iff.mpr h
  rw [List.length_drop]
  omega

theorem flatten_pieces (bs : List UInt8) : (pieces bs).flatten = bs := by
  fun_induction pieces bs with
  | case1 => rfl
  | case2 bs _ ih => rw [List.flatten_cons, ih, List.take_append_drop]

theorem pieces_short (hn : bs ≠ []) (hl : bs.length ≤ READ_BUF) : pieces bs = [bs] := by
  rw [pieces, if_neg hn, List.take_of_length_le hl, List.drop_eq_nil_of_le hl, pieces, if_pos rfl]

theorem pieces_ne_nil (h : c ∈ pieces bs) : c ≠ [] := by
  fun_induction pieces bs with
  | case1 => cases h
  | case2 bs hn ih =>
    rcases List.mem_cons.mp h with rfl | h
    · intro he
      rcases List.take_eq_nil_iff.mp he with h₀ | h₀
      · cases h₀
      · exact hn h₀
    · exact ih h

theorem pollRead_front {p : Prefixed} (hp : p.pos < p.front.length) (room : Nat) :
    (p.pollRead room).1 = .ok ((p.front.drop p.pos).take room) ∧
      (p.pollRead room).2.front.drop (p.pollRead room).2.pos = (p.front.drop p.pos).drop room ∧
      (p.pollRead room).2.inner = p.inner := by
  simp only [Prefixed.pollRead, if_pos hp]
  refine ⟨?_, ?_, ?_⟩
  · have hm : (p.front.drop p.pos).take (min (p.front.length - p.pos) room) =
        (p.front.drop p.pos).take room := by
      rw [List.take_eq_take_iff, List.length_drop]
      omega
    rw [hm]
  · rw [List.drop_drop]
    split
    · rename_i he
      rw [List.drop_eq_nil_of_le (Nat.zero_le _), List.drop_eq_nil_of_le (by omega)]
    · rename_i he
      simp only
      congr 1
      omega
  · split <;> rfl

/-- A link with bytes in front of its own reads them first. -/
theorem reads_eq (p : Prefixed) : p.reads = (pieces (p.front.drop p.pos)).map .ok ++ p.inner := by
  fun_induction Prefixed.reads p with
  | case2 p hp =>
    rw [List.drop_eq_nil_of_le (Nat.le_of_not_lt hp), pieces, if_pos rfl]
    rfl
  | case1 p hp ih =>
    have hne : p.front.drop p.pos ≠ [] := by
      rw [Ne, List.drop_eq_nil_iff]
      exact Nat.not_le_of_lt hp
    obtain ⟨hread, hfront, hinner⟩ := pollRead_front hp READ_BUF
    have hpieces : pieces (p.front.drop p.pos) =
        (p.front.drop p.pos).take READ_BUF :: pieces ((p.front.drop p.pos).drop READ_BUF) := by
      rw [pieces, if_neg hne]
    rw [ih, hread, hfront, hinner, hpieces, List.map_cons, List.cons_append]

def replayed (done : List (List UInt8)) (rest : List (List UInt8)) : List (List UInt8) :=
  pieces (done.flatMap writeFrame) ++ rest

theorem flatten_replayed (done rest : List (List UInt8)) :
    (replayed done rest).flatten = done.flatMap writeFrame ++ rest.flatten := by
  rw [replayed, List.flatten_append, flatten_pieces]

theorem reads_opened (out : InitOutcome) (rest : List (List UInt8)) :
    (opened (rest.map .ok) out).link.reads = (replayed out.frames rest).map .ok := by
  rw [opened, reads_eq, replayed, List.map_append]
  rfl

theorem replayed_ne_nil (hn : ∀ c ∈ rest, c ≠ []) : ∀ c ∈ replayed done rest, c ≠ [] := by
  intro c hc
  rcases List.mem_append.mp hc with hc | hc
  · exact pieces_ne_nil hc
  · exact hn c hc

/-- Reads that all find room bring no frame longer than the scanner takes. -/
theorem short_of_room (hr : Room MAX_FRAME_BYTES [] chunks)
    (hb : bounded FEND chunks.flatten = fs) : ∀ raw ∈ fs, raw.length ≤ MAX_FRAME := by
  intro raw hm
  rw [← hb, ← List.nil_append chunks.flatten] at hm
  rcases hr.length_le hm with h | h
  · rw [bounded_free List.not_mem_nil] at h
    cases h
  · exact h

theorem legal_frames {sent : List Sent} (hs : ∀ x ∈ sent, x.Legal) :
    ∀ raw ∈ frames sent, raw ≠ [] ∧ FEND ∉ raw := by
  intro raw hm
  obtain ⟨x, hx, he⟩ := List.mem_filterMap.mp hm
  cases x with
  | line => cases he
  | frame f =>
    cases he
    have hf := hs _ hx
    exact ⟨hf.1, hf.2.1⟩

theorem legal_append {fs : List Framed} (hs : ∀ x ∈ sent, x.Legal) (hf : ∀ f ∈ fs, f.Legal) :
    ∀ x ∈ sent ++ fs.map .frame, Sent.Legal x := by
  intro x hx
  rcases List.mem_append.mp hx with hx | hx
  · exact hs x hx
  · obtain ⟨f, hm, rfl⟩ := List.mem_map.mp hx
    exact hf f hm

theorem last_wire (closed : Bool) (fs : List Framed) :
    wire closed (fs.map .frame) = [] ∧ fs = [] ∨
    (wire closed (fs.map .frame)).getLast? = some FEND := by
  induction fs generalizing closed with
  | nil => exact .inl ⟨rfl, rfl⟩
  | cons f fs ih =>
    right
    rw [List.map_cons, wire]
    rcases ih true with ⟨h, -⟩ | h
    · rw [h, List.getLast?_concat]
    · rw [List.getLast?_append_of_ne_nil _ (List.cons_ne_nil _ _), List.getLast?_cons, h]
      rfl

/-- Frames that came whole do not change where a hand-over falls. -/
theorem between_whole (closed : Bool) (fs : List Framed) (done : List (List UInt8))
    (p q : List UInt8) : Between done (wire closed (fs.map .frame) ++ p) q ↔ Between done p q := by
  by_cases hp : p = []
  · subst hp
    rw [List.append_nil]
    rcases last_wire closed fs with ⟨h, -⟩ | h
    · rw [h]
    · simp [Between, h]
  · simp only [Between, List.getLast?_append_of_ne_nil _ hp, List.append_eq_nil_iff, hp, and_false]

/-- The scanner passes on the frames that came whole. -/
theorem push_received {coming : List Framed} (hh : ∀ x ∈ sent, x.Legal) (hc : ∀ f ∈ coming, f.Legal)
    (hl : ∀ raw ∈ frames sent ++ coming.map Framed.raw, raw.length ≤ MAX_FRAME)
    (h : p ++ q = wire (closes false sent) (coming.map .frame)) :
    (({} : Radio).push (wire false sent ++ p)).frames =
      frames sent ++ (whole (closes false sent) coming p.length).map Framed.raw := by
  obtain ⟨later, p', hfs, hp, hrest, hlt⟩ := whole_rest h
  generalize whole (closes false sent) coming p.length = fs at hfs hp hrest hlt ⊢
  subst hfs
  have hall := legal_append hh (fun f hf => hc f (List.mem_append_left later hf))
  have hshort : ∀ raw ∈ frames (sent ++ fs.map .frame), raw.length ≤ MAX_FRAME := by
    intro raw hm
    refine hl raw ?_
    rw [frames_append, frames_map] at hm
    rw [List.map_append, ← List.append_assoc]
    exact List.mem_append_left _ hm
  have hready : Ready false ({} : Radio) := ⟨⟨rfl, rfl, by simp⟩, fun h => by cases h⟩
  obtain ⟨hr, hf⟩ := push_wire hready hall hshort
  have hcut : (pushUpTo MAX_FRAME (pushUpTo MAX_FRAME {} (wire false (sent ++ fs.map .frame)))
    p').frames = (pushUpTo MAX_FRAME {} (wire false (sent ++ fs.map .frame))).frames := by
    cases later with
    | nil =>
      obtain ⟨rfl, -⟩ := List.append_eq_nil_iff.mp hrest
      rfl
    | cons f later =>
      rw [closes_append] at hr
      exact push_cut hr (hc f (by simp)) (hl f.raw (by simp)) hrest (hlt f rfl)
  rw [push_eq, hp, ← List.append_assoc, ← wire_append, push_append, hcut, hf,
    frames_append, frames_map]
  rfl

/-- The frames that came whole, put back in front of the rest, are what the radio
sent exactly if the hand-over falls between frames. -/
theorem bounded_replayed {coming : List Framed} (hs : ∀ x ∈ sent, x.Legal)
    (hc : ∀ f ∈ coming, f.Legal)
    (hrest : p ++ rest.flatten = wire (closes false sent) (coming.map .frame)) :
    bounded FEND
        (replayed (frames sent ++ (whole (closes false sent) coming p.length).map Framed.raw)
          rest).flatten = frames sent ++ coming.map Framed.raw ↔
      Between (frames sent ++ (whole (closes false sent) coming p.length).map Framed.raw) p
        rest.flatten := by
  obtain ⟨later, p', hfs, hp, hq, hlt⟩ := whole_rest hrest
  generalize whole (closes false sent) coming p.length = fs at hfs hp hq hlt ⊢
  subst hfs
  have hdone := legal_frames (legal_append hs (fun f hf => hc f (List.mem_append_left later hf)))
  rw [frames_append, frames_map] at hdone
  rw [flatten_replayed, List.map_append, ← List.append_assoc, hp, between_whole]
  exact bounded_iff_between (fun f hf => hc f (List.mem_append_right fs hf)) hdone hq hlt

/-- The radio sends frames and replies, of which init reads `sent` and some of the
bytes of the frames after that, `p`, and the bridge the rest. The KISS reader over
the link then returns the radio's frames exactly if the hand-over falls between
frames and every read finds room. -/
theorem handover_iff (tape : List Event) (out : InitOutcome) (link : Link) (sent : List Sent)
    (coming : List Framed) (p : List UInt8) (rest : List (List UInt8))
    (h : initThD7x { tape } = .ok out link)
    (hs : ∀ x ∈ sent, x.Legal) (hc : ∀ f ∈ coming, f.Legal)
    (hread : received link.trace = wire false sent ++ p)
    (hrest : p ++ rest.flatten = wire (closes false sent) (coming.map .frame))
    (hn : ∀ c ∈ rest, c ≠ []) :
    KissReader.new.readAll (opened (rest.map .ok) out).link.reads =
        (frames sent ++ coming.map Framed.raw, .linkClosed) ↔
      Between (frames sent ++ (whole (closes false sent) coming p.length).map Framed.raw) p
        rest.flatten ∧ Room MAX_FRAME_BYTES []
        (replayed (frames sent ++ (whole (closes false sent) coming p.length).map Framed.raw)
          rest) := by
  have hb := bounded_replayed hs hc hrest
  rw [reads_opened, KissReader.new, readAll_eq_iff MAX_FRAME_BYTES (replayed_ne_nil hn)]
  by_cases hl : ∀ raw ∈ frames sent ++ coming.map Framed.raw, raw.length ≤ MAX_FRAME
  · rw [init_frames h, hread, push_received hs hc hl hrest, hb]
    exact and_comm
  · refine iff_of_false ?_ ?_
    · rintro ⟨hr, he⟩
      exact hl (short_of_room hr he)
    · rintro ⟨he, hr⟩
      exact hl (short_of_room hr (hb.mpr he))

/-- A radio that was off, and is heard to pass on a frame and to begin a second
one before init is done. -/
def talk (begun : List UInt8) : List Event :=
  [.bytes (bytes "BT 1\r"), .bytes (bytes "ID TH-D75\r"), .bytes (bytes "TN 0,0\r"),
    .bytes (bytes "TN 2,0\r"), .bytes ([FEND, 0x00, 0x41, FEND] ++ begun), .deadline]

def answers : List Sent :=
  [.line (bytes "BT 1"), .line (bytes "ID TH-D75"), .line (bytes "TN 0,0"), .line (bytes "TN 2,0"),
    .frame ⟨0, [0x00, 0x41]⟩]

def talked (begun : List UInt8) (radio : Radio) : Link where
  radio
  tape := []
  trace := [.sent (bytes "BT\r"), .got (bytes "BT 1\r"), .sent (bytes "ID\r"),
    .got (bytes "ID TH-D75\r"), .sent (bytes "TN\r"), .got (bytes "TN 0,0\r"),
      .sent (bytes "TN 2,0\r"), .got (bytes "TN 2,0\r"),
    .sent (bytes "BT\r"), .got ([FEND, 0x00, 0x41, FEND] ++ begun), .quiet KISS_CHECK_WAIT]

def second : Framed := ⟨1, [0x00, 0x42]⟩

theorem plain_answers : ∀ x ∈ answers, x.Legal := by
  intro x hx
  simp only [answers, List.mem_cons, List.not_mem_nil, or_false] at hx
  rcases hx with rfl | rfl | rfl | rfl | rfl
  · exact ⟨by decide, by decide +kernel, by decide +kernel⟩
  · exact ⟨by decide, by decide +kernel, by decide +kernel⟩
  · exact ⟨by decide, by decide +kernel, by decide +kernel⟩
  · exact ⟨by decide, by decide +kernel, by decide +kernel⟩
  · exact ⟨by decide, by decide +kernel, by decide +kernel⟩

theorem second_legal : ∀ f ∈ [second], f.Legal := by
  intro f hf
  cases List.mem_singleton.mp hf
  exact ⟨by decide, by decide +kernel, by decide +kernel⟩

/-- A hand-over right after the FEND of the second frame loses nothing. -/
theorem handover_iff_fend :
    KissReader.new.readAll (opened ([[0x00, 0x42, FEND]].map .ok)
        ⟨some "TH-D75", [[0x00, 0x41]], [KISS_RETURN]⟩).link.reads =
      ([[0x00, 0x41], [0x00, 0x42]], .linkClosed) :=
  (handover_iff (talk [FEND]) ⟨some "TH-D75", [[0x00, 0x41]], [KISS_RETURN]⟩
    (talked [FEND] ⟨[], [], .frame, [], [[0x00, 0x41]]⟩) answers [second]
    [FEND] [[0x00, 0x42, FEND]] (ok_of_okOf (by decide +kernel)) plain_answers second_legal
    (by decide +kernel) (by decide +kernel) (by decide)).mpr
    ⟨by decide +kernel, by
      rw [replayed, pieces_short (by decide +kernel) (by decide +kernel)]; decide +kernel⟩

/-- One byte later, the second frame is lost and its tail comes as a frame. -/
theorem handover_tears_frame :
    ¬ ∀ (tape : List Event) (out : InitOutcome) (link : Link) (sent : List Sent) (coming :
      List Framed) (p : List UInt8) (rest : List (List UInt8)), initThD7x { tape } = .ok out link →
      (∀ x ∈ sent, x.Legal) → (∀ f ∈ coming, f.Legal) → received link.trace = wire false sent ++ p →
      p ++ rest.flatten = wire (closes false sent) (coming.map .frame) → (∀ c ∈ rest, c ≠ []) →
      (KissReader.new.readAll (opened (rest.map .ok) out).link.reads).1 =
        frames sent ++ coming.map Framed.raw := by
  intro h
  have hr := h (talk [FEND, 0x00]) ⟨some "TH-D75", [[0x00, 0x41]], [KISS_RETURN]⟩
    (talked [FEND, 0x00] ⟨[], [0x00], .frame, [], [[0x00, 0x41]]⟩) answers
    [second] [FEND, 0x00] [[0x42, FEND]] (ok_of_okOf (by decide +kernel)) plain_answers second_legal
    (by decide +kernel) (by decide +kernel) (by decide)
  have hread : replayed [[0x00, 0x41]] [[0x42, FEND]] =
      [[FEND, 0x00, 0x41, FEND], [0x42, FEND]] := by
    rw [replayed, pieces_short (by decide) (by decide)]
    rfl
  rw [reads_opened, KissReader.new, (readAll_room MAX_FRAME_BYTES (replayed_ne_nil (by decide))).1
    (by rw [hread]; decide +kernel), hread] at hr
  exact absurd hr (by decide +kernel)

end KissTncBridge.Proofs.HandOver
