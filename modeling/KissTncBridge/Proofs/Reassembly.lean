import Mathlib.Data.List.Induction
import KissTncBridge.Lib.Delimited
import KissTncBridge.Lib.Runs
import KissTncBridge.Port.Stream

namespace KissTncBridge.Proofs.Reassembly
open Lib Kiss Wire

variable {b b' : KissReassemblyBuffer} {data : List UInt8}

def scanned (inFrame : Bool) (p : List UInt8) : Scan where
  frames := if inFrame then ended FEND p else bounded FEND p
  frameStart :=
    if inFrame || p.contains FEND then some (p.length - (unfinished FEND p).length) else none
  lastConsumed := p.length - (unfinished FEND p).length

theorem scanned_nil (inFrame : Bool) :
    scanned inFrame [] = ⟨[], if inFrame then some 0 else none, 0⟩ := by
  cases inFrame <;> simp [scanned]

theorem scanned_ne {b : UInt8} (hb : b ≠ FEND) (inFrame : Bool) (p : List UInt8) :
    scanned inFrame (p ++ [b]) = scanned inFrame p := by
  have hl := length_unfinished (d := FEND) p
  have hc : (p ++ [b]).contains FEND = p.contains FEND := by
    simp [Ne.symm hb]
  have hn : (p ++ [b]).length - (unfinished FEND p ++ [b]).length =
      p.length - (unfinished FEND p).length := by
    simp only [List.length_append, List.length_singleton]
    omega
  simp only [scanned, ended_snoc_ne hb, bounded_snoc_ne hb, unfinished_snoc hb, hc, hn]

theorem scanned_fend (inFrame : Bool) (p : List UInt8) :
    scanned inFrame (p ++ [FEND]) =
      { frames := if inFrame then ended FEND (p ++ [FEND]) else bounded FEND (p ++ [FEND])
        frameStart := some (p.length + 1)
        lastConsumed := p.length + 1 } := by
  have hu : unfinished FEND (p ++ [FEND]) = [] := by
    rw [unfinished_append_cons, unfinished_free List.not_mem_nil]
  simp [scanned, hu]

/-- The FEND at `n` ends the run the scan is in, if there is one and it is not
empty. -/
theorem scan_fend {buf : List UInt8} (inFrame : Bool) (hf : buf[n]? = some FEND) :
    KissReassemblyBuffer.scan buf (scanned inFrame (buf.take n)) n =
      scanned inFrame (buf.take n ++ [FEND]) := by
  have hn : n < buf.length := (List.getElem?_eq_some_iff.mp hf).1
  have hlen : (buf.take n).length = n := by
    rw [List.length_take]
    omega
  have hl := length_unfinished (d := FEND) (buf.take n)
  have hpiece : (buf.drop (n - (unfinished FEND (buf.take n)).length)).take
      (n - (n - (unfinished FEND (buf.take n)).length)) = unfinished FEND (buf.take n) := by
    rw [← List.drop_take]
    have hd := drop_unfinished (d := FEND) (buf.take n)
    rwa [hlen] at hd
  have hone : ∀ frames : List (List UInt8),
      (if n > n - (unfinished FEND (buf.take n)).length then
          frames ++ [unfinished FEND (buf.take n)] else frames) =
        frames ++ (if (unfinished FEND (buf.take n)).isEmpty then [] else
          [unfinished FEND (buf.take n)]) := by
    intro frames
    cases hu : unfinished FEND (buf.take n) with
    | nil => simp
    | cons b bs =>
      rw [hu, hlen, List.length_cons] at hl
      rw [if_pos (by rw [List.length_cons]; omega)]
      rfl
  rw [scanned_fend, KissReassemblyBuffer.scan, if_pos hf]
  cases inFrame with
  | true =>
    simp only [scanned, Bool.true_or, if_true, hlen, hpiece, hone, ended_snoc]
  | false =>
    by_cases hm : FEND ∈ buf.take n
    · have hc : (buf.take n).contains FEND = true := by simpa using hm
      simp only [scanned, Bool.false_or, hc, if_true, Bool.false_eq_true, if_false, hlen, hpiece,
        hone, bounded_snoc hm]
    · have hc : (buf.take n).contains FEND = false := by simpa using hm
      simp only [scanned, Bool.false_or, hc, Bool.false_eq_true, if_false, bounded_free hm,
        bounded_snoc_free hm, hlen]

/-- The scan of a prefix ends where the prefix says. -/
theorem scan_range (buf : List UInt8) (inFrame : Bool) (n : Nat) (hn : n ≤ buf.length) :
    (List.range n).foldl (KissReassemblyBuffer.scan buf) ⟨[], if inFrame then some 0 else none, 0⟩ =
      scanned inFrame (buf.take n) := by
  induction n with
  | zero => exact (scanned_nil inFrame).symm
  | succ n ih =>
    have hlt : n < buf.length := hn
    rw [List.range_succ, List.foldl_append, ih (Nat.le_of_succ_le hn), List.foldl_cons,
      List.foldl_nil, List.take_succ_eq_append_getElem hlt]
    by_cases hb : buf[n] = FEND
    · have hf : buf[n]? = some FEND := by rw [List.getElem?_eq_getElem hlt, hb]
      rw [hb]
      exact scan_fend inFrame hf
    · rw [scanned_ne hb, KissReassemblyBuffer.scan, if_neg]
      rw [List.getElem?_eq_getElem hlt]
      simpa using hb

/-- What draining takes out of a buffer and what it leaves. -/
theorem drainFrames_eq (b : KissReassemblyBuffer) :
    b.drainFrames =
      (if b.inFrame then ended FEND b.buf else bounded FEND b.buf,
        { b with
          buf := unfinished FEND b.buf
          inFrame := b.inFrame || b.buf.contains FEND }) := by
  have hs := scan_range b.buf b.inFrame b.buf.length (Nat.le_refl _)
  rw [List.take_length] at hs
  have hd := drop_unfinished (d := FEND) b.buf
  have hbuf : (if b.buf.length - (unfinished FEND b.buf).length > 0 then
      b.buf.drop (b.buf.length - (unfinished FEND b.buf).length) else b.buf) =
        unfinished FEND b.buf := by
    split
    · exact hd
    · rename_i hz
      have hz : b.buf.length - (unfinished FEND b.buf).length = 0 := by omega
      rw [hz, List.drop_zero] at hd
      exact hd
  have hflag : (b.inFrame || decide (b.buf.length - (unfinished FEND b.buf).length > 0) ||
      (if (b.inFrame || b.buf.contains FEND) = true then
        some (b.buf.length - (unfinished FEND b.buf).length) else none).isSome) =
        (b.inFrame || b.buf.contains FEND) := by
    by_cases hm : FEND ∈ b.buf
    · simp [hm]
    · have hc : b.buf.contains FEND = false := by simpa using hm
      rw [unfinished_free hm, Nat.sub_self, hc]
      cases b.inFrame <;> rfl
  simp only [KissReassemblyBuffer.drainFrames, hs, scanned, hbuf, hflag]

inductive Call where
  | push (data : List UInt8)
  | drain
deriving DecidableEq, Repr

def input : Call → List UInt8
  | .push data => data
  | .drain => []

def emits (b : KissReassemblyBuffer) : Call → List (List UInt8)
  | .push _ => []
  | .drain => b.drainFrames.1

def overflows (b : KissReassemblyBuffer) : Call → List (List UInt8)
  | .push data => if (b.push data).1 = .ok () then [] else [data]
  | .drain => []

def call (b : KissReassemblyBuffer) : Call → Option KissReassemblyBuffer
  | .push data => some (b.push data).2
  | .drain => some b.drainFrames.2

/-- The buffer holds the end of the stream. What it has emitted are runs of
what came before that, and a frame it is in was opened just there. -/
def Tracks (stream : List UInt8) (emitted : List (List UInt8)) (b : KissReassemblyBuffer) : Prop :=
  ∃ before, stream = before ++ b.buf ∧ emitted.Sublist (bounded FEND before) ∧
    (b.inFrame = true → ∃ x, before = x ++ [FEND])

theorem push_ok (h : (b.push data).1 = .ok ()) :
    b.buf.length + data.length ≤ b.maxSize ∧ (b.push data).2 = { b with buf := b.buf ++ data } := by
  unfold KissReassemblyBuffer.push at h ⊢
  split
  · rename_i hl
    rw [if_pos hl] at h
    cases h
  · rename_i hl
    exact ⟨Nat.le_of_not_lt hl, rfl⟩

theorem push_failed (h : (b.push data).1 ≠ .ok ()) :
    (b.push data).2 = { b with buf := [], inFrame := false } := by
  unfold KissReassemblyBuffer.push at h ⊢
  split
  · rfl
  · rename_i hl
    rw [if_neg hl] at h
    exact absurd rfl h

theorem push_tracks (h : Tracks stream emitted b) (data : List UInt8) :
    Tracks (stream ++ data) emitted (b.push data).2 := by
  obtain ⟨before, rfl, hs, hx⟩ := h
  by_cases hp : (b.push data).1 = .ok ()
  · rw [(push_ok hp).2]
    exact ⟨before, List.append_assoc .., hs, hx⟩
  · rw [push_failed hp]
    obtain ⟨more, hm⟩ := bounded_prefix (d := FEND) before (b.buf ++ data)
    refine ⟨before ++ b.buf ++ data, (List.append_nil _).symm, ?_, fun hf => by cases hf⟩
    rw [List.append_assoc, hm]
    exact List.sublist_append_of_sublist_left hs

/-- A buffer without a FEND has nothing to emit. -/
theorem drain_free (hm : FEND ∉ b.buf) : b.drainFrames = ([], b) := by
  have hc : b.buf.contains FEND = false := by simpa using hm
  rw [drainFrames_eq, ended_free hm, bounded_free hm, unfinished_free hm, hc,
    Bool.or_false, ite_self]

theorem drain_tracks (h : Tracks stream emitted b) :
    Tracks stream (emitted ++ b.drainFrames.1) b.drainFrames.2 := by
  obtain ⟨before, rfl, hs, hx⟩ := h
  by_cases hm : FEND ∈ b.buf
  · obtain ⟨x, y, hb, hy⟩ := last_delimiter hm
    have hu : unfinished FEND b.buf = y := by rw [hb, unfinished_append_cons, unfinished_free hy]
    rw [drainFrames_eq]
    refine ⟨before ++ (x ++ [FEND]), by simp [hb, unfinished_free hy], ?_,
      fun _ => ⟨before ++ x, (List.append_assoc ..).symm⟩⟩
    cases hf : b.inFrame with
    | true =>
      obtain ⟨z, rfl⟩ := hx hf
      have he : ended FEND b.buf = ended FEND (x ++ [FEND]) := by
        rw [hb, ended_append_cons, ended_free hy, List.append_nil]
      have hz : z ++ [FEND] ++ (x ++ [FEND]) = z ++ FEND :: (x ++ [FEND]) := by simp
      rw [hz, bounded_append_cons, if_pos rfl, he]
      exact hs.append_right _
    | false =>
      have he : bounded FEND b.buf = bounded FEND (x ++ [FEND]) := by
        rw [hb, bounded_append_cons, ended_free hy, List.append_nil]
      rw [if_neg (by simp), he]
      exact (hs.append_right _).trans (bounded_append before (x ++ [FEND]))
  · rw [drain_free hm, List.append_nil]
    exact ⟨before, rfl, hs, hx⟩

theorem call_tracks (h : Tracks stream emitted b) (hc : call b c = some b') :
    Tracks (stream ++ input c) (emitted ++ emits b c) b' := by
  cases c with
  | push data =>
    cases hc
    rw [emits, List.append_nil]
    exact push_tracks h data
  | drain =>
    cases hc
    rw [input, List.append_nil]
    exact drain_tracks h

theorem calls_track (h : Runs call (.new maxSize) cs b) :
    Tracks (cs.flatMap input) (along call emits (.new maxSize) cs) b := by
  induction h with
  | start => exact ⟨[], rfl, List.nil_sublist _, fun hf => by cases hf⟩
  | next hr _ hc ih =>
    rw [along_next hr hc, List.flatMap_append, List.flatMap_singleton]
    exact call_tracks ih hc

/-- As long as no push failed the buffer has missed nothing: it is outside a
frame only at the very start. -/
def Follows (stream : List UInt8) (emitted : List (List UInt8)) (b : KissReassemblyBuffer) : Prop :=
  ∃ before, stream = before ++ b.buf ∧ emitted = bounded FEND before ∧
    if b.inFrame then ∃ x, before = x ++ [FEND] else before = []

def Settled (stream : List UInt8) (emitted : List (List UInt8)) (b : KissReassemblyBuffer) : Prop :=
  emitted = bounded FEND stream ∧ b.buf = unfinished FEND stream ∧ b.inFrame = stream.contains FEND

theorem Settled.follows (h : Settled stream emitted b) : Follows stream emitted b := by
  obtain ⟨he, hb, hf⟩ := h
  by_cases hm : FEND ∈ stream
  · obtain ⟨x, y, rfl, hy⟩ := last_delimiter hm
    have hc : (x ++ FEND :: y).contains FEND = true := by simp
    rw [hc] at hf
    rw [unfinished_append_cons, unfinished_free hy] at hb
    refine ⟨x ++ [FEND], by simp [hb], ?_, by rw [hf]; exact ⟨x, rfl⟩⟩
    rw [he, bounded_append_cons, ended_free hy, List.append_nil]
  · have hc : stream.contains FEND = false := by simpa using hm
    rw [hc] at hf
    rw [unfinished_free hm] at hb
    refine ⟨[], by simp [hb], ?_, by rw [hf]; rfl⟩
    rw [he, bounded_free hm, bounded_free List.not_mem_nil]

theorem push_follows (h : Follows stream emitted b) (hp : (b.push data).1 = .ok ()) :
    Follows (stream ++ data) emitted (b.push data).2 := by
  obtain ⟨before, rfl, he, hx⟩ := h
  rw [(push_ok hp).2]
  exact ⟨before, List.append_assoc .., he, hx⟩

theorem drain_settled (h : Follows stream emitted b) :
    Settled stream (emitted ++ b.drainFrames.1) b.drainFrames.2 := by
  obtain ⟨before, rfl, rfl, hx⟩ := h
  rw [drainFrames_eq]
  cases hf : b.inFrame with
  | true =>
    rw [hf, if_pos rfl] at hx
    obtain ⟨x, rfl⟩ := hx
    have hs : x ++ [FEND] ++ b.buf = x ++ FEND :: b.buf := by simp
    rw [hs]
    refine ⟨(bounded_append_cons x b.buf).symm, (unfinished_append_cons ..).symm, by simp⟩
  | false =>
    rw [hf, if_neg (by simp)] at hx
    subst hx
    exact ⟨by simp, rfl, by simp⟩

theorem call_follows (h : Follows stream emitted b) (ho : overflows b c = [])
    (hc : call b c = some b') : Follows (stream ++ input c) (emitted ++ emits b c) b' := by
  cases c with
  | push data =>
    cases hc
    rw [emits, List.append_nil]
    by_cases hp : (b.push data).1 = .ok ()
    · exact push_follows h hp
    · rw [overflows, if_neg hp] at ho
      cases ho
  | drain =>
    cases hc
    rw [input, List.append_nil]
    exact (drain_settled h).follows

theorem new_settled (maxSize : Nat) : Settled [] [] (.new maxSize) := by
  simp [Settled, KissReassemblyBuffer.new]

theorem calls_follow (h : Runs call (.new maxSize) cs b)
    (ho : along call overflows (.new maxSize) cs = []) :
    Follows (cs.flatMap input) (along call emits (.new maxSize) cs) b := by
  induction h with
  | start => exact (new_settled maxSize).follows
  | next hr _ hc ih =>
    rw [along_next hr hc, List.append_eq_nil_iff] at ho
    rw [along_next hr hc, List.flatMap_append, List.flatMap_singleton]
    exact call_follows (ih ho.1) ho.2 hc

theorem call_total (b : KissReassemblyBuffer) (cs : List Call) : ∃ b', Runs call b cs b' := by
  induction cs using List.reverseRecOn with
  | nil => exact ⟨b, .start⟩
  | append_singleton cs c ih =>
    obtain ⟨b', h⟩ := ih
    cases c with
    | push data => exact ⟨_, .next h trivial rfl⟩
    | drain => exact ⟨_, .next h trivial rfl⟩

/-- The bytes of frames on the wire, written one after the other, have these
frames as their runs. -/
theorem ended_wires (frames : List (List UInt8)) (hf : ∀ f ∈ frames, f ≠ [] ∧ FEND ∉ f) :
    ended FEND (frames.flatMap writeFrame) = frames := by
  induction frames with
  | nil => exact ended_free List.not_mem_nil
  | cons f frames ih =>
    obtain ⟨hn, hd⟩ := hf f (List.mem_cons_self ..)
    have hone : ended FEND (f ++ [FEND]) = [f] := by
      rw [ended_snoc, ended_free hd, unfinished_free hd, if_neg (by simpa using hn)]
      rfl
    have hnone : ended FEND [FEND] = [] := by
      have h := ended_snoc (d := FEND) []
      rwa [ended_free List.not_mem_nil, unfinished_free List.not_mem_nil] at h
    have hs : (f :: frames).flatMap writeFrame =
        [] ++ FEND :: (f ++ FEND :: frames.flatMap writeFrame) := by
      simp [writeFrame]
    rw [hs, ended_append_cons, ended_append_cons f, hone,
      ih (fun g hg => hf g (List.mem_cons_of_mem _ hg)), List.nil_append, hnone]
    rfl

theorem bounded_wires (frames : List (List UInt8)) (hf : ∀ f ∈ frames, f ≠ [] ∧ FEND ∉ f) :
    bounded FEND (frames.flatMap writeFrame) = frames := by
  have he := ended_wires frames hf
  cases frames with
  | nil => exact bounded_free List.not_mem_nil
  | cons f frames =>
    have hs : (f :: frames).flatMap writeFrame =
        [] ++ FEND :: (f ++ FEND :: frames.flatMap writeFrame) := by
      simp [writeFrame]
    rw [hs] at he ⊢
    rw [bounded_append_cons, bounded_snoc_free List.not_mem_nil]
    rw [ended_append_cons] at he
    have hnone : ended FEND ([] ++ [FEND]) = [] := by
      rw [ended_snoc, ended_free List.not_mem_nil, unfinished_free List.not_mem_nil]
      rfl
    rwa [hnone] at he

/-- How a reader uses the buffer: it drains after every push. -/
def pushes (chunks : List (List UInt8)) : List Call := chunks.flatMap (fun c => [.push c, .drain])

theorem along_pushes (g : KissReassemblyBuffer → Call → List α) (b : KissReassemblyBuffer)
    (c : List UInt8) (chunks : List (List UInt8)) :
    along call g b (pushes (c :: chunks)) =
      g b (.push c) ++
        (g (b.push c).2 .drain ++ along call g (b.push c).2.drainFrames.2 (pushes chunks)) :=
  rfl

theorem input_pushes (chunks : List (List UInt8)) :
    (pushes chunks).flatMap input = chunks.flatten := by
  induction chunks with
  | nil => rfl
  | cons c chunks ih =>
    have hs : (pushes (c :: chunks)).flatMap input = c ++ (pushes chunks).flatMap input := rfl
    rw [hs, ih, List.flatten_cons]

theorem readAll_ok {r r' : KissReader} (h : r.readFrame reads = (.ok f, r', reads')) :
    r.readAll reads = (f :: (r'.readAll reads').1, (r'.readAll reads').2) := by
  rw [KissReader.readAll]
  split <;> rename_i he
  · rw [h] at he
    cases he
  · rw [h] at he
    cases he
    rfl

theorem readAll_error {r r' : KissReader} (h : r.readFrame reads = (.error e, r', reads')) :
    r.readAll reads = ([], e) := by
  rw [KissReader.readAll]
  split <;> rename_i he
  · rw [h] at he
    cases he
    rfl
  · rw [h] at he
    cases he

theorem readAll_congr {r r' : KissReader} (h : r.readFrame reads = r'.readFrame reads') :
    r.readAll reads = r'.readAll reads' := by
  rcases hq : r'.readFrame reads' with ⟨res, q, rest⟩
  cases res with
  | ok f => rw [readAll_ok (h.trans hq), readAll_ok hq]
  | error e => rw [readAll_error (h.trans hq), readAll_error hq]

theorem readFrame_pending (b : KissReassemblyBuffer) (f : List UInt8) (frames : List (List UInt8))
    (reads : List Read) :
    KissReader.readFrame ⟨b, f :: frames⟩ reads = (.ok f, ⟨b, frames⟩, reads) := by
  cases reads <;> rfl

/-- Frames that wait are read first. -/
theorem readAll_pending (b : KissReassemblyBuffer) (frames : List (List UInt8))
    (reads : List Read) : KissReader.readAll ⟨b, frames⟩ reads =
      (frames ++ (KissReader.readAll ⟨b, []⟩ reads).1, (KissReader.readAll ⟨b, []⟩ reads).2) := by
  induction frames with
  | nil => rfl
  | cons f frames ih => rw [readAll_ok (readFrame_pending b f frames reads), ih, List.cons_append]

theorem readAll_end (b : KissReassemblyBuffer) :
    KissReader.readAll ⟨b, []⟩ [] = ([], .linkClosed) := readAll_error rfl

theorem readAll_pushed (hn : data ≠ []) (hp : (b.push data).1 = .ok ()) (reads : List Read) :
    KissReader.readAll ⟨b, []⟩ (.ok data :: reads) =
      ((b.push data).2.drainFrames.1 ++
          (KissReader.readAll ⟨(b.push data).2.drainFrames.2, []⟩ reads).1,
        (KissReader.readAll ⟨(b.push data).2.drainFrames.2, []⟩ reads).2) := by
  obtain ⟨d, ds, rfl⟩ := List.exists_cons_of_ne_nil hn
  rcases hpush : b.push (d :: ds) with ⟨res, buffer⟩
  rw [hpush] at hp
  cases hp
  rw [← readAll_pending]
  refine readAll_congr ?_
  simp only [KissReader.readFrame, hpush]

theorem readAll_failed (hn : data ≠ []) (hp : (b.push data).1 ≠ .ok ()) (reads : List Read) :
    KissReader.readAll ⟨b, []⟩ (.ok data :: reads) =
      ([], .kissFrame "reassembly buffer overflow") := by
  obtain ⟨d, ds, rfl⟩ := List.exists_cons_of_ne_nil hn
  have hpush : b.push (d :: ds) =
      (.error "reassembly buffer overflow", { b with buf := [], inFrame := false }) := by
    unfold KissReassemblyBuffer.push at hp ⊢
    split
    · rfl
    · rename_i hl
      rw [if_neg hl] at hp
      exact absurd rfl hp
  have hread : KissReader.readFrame ⟨b, []⟩ (.ok (d :: ds) :: reads) =
      (.error (.kissFrame "reassembly buffer overflow"),
        ⟨{ b with buf := [], inFrame := false }, []⟩, reads) := by
    simp only [KissReader.readFrame, hpush]
  exact readAll_error hread

/-- A reader returns what the buffer emits, to the end of the stream or to the
first push that fails. -/
theorem readAll_calls (chunks : List (List UInt8)) (hn : ∀ c ∈ chunks, c ≠ [])
    (b : KissReassemblyBuffer) :
    (along call overflows b (pushes chunks) = [] →
      KissReader.readAll ⟨b, []⟩ (chunks.map .ok) =
        (along call emits b (pushes chunks), .linkClosed)) ∧
    (along call overflows b (pushes chunks) ≠ [] →
      (KissReader.readAll ⟨b, []⟩ (chunks.map .ok)).2 =
        .kissFrame "reassembly buffer overflow") := by
  induction chunks generalizing b with
  | nil => exact ⟨fun _ => readAll_end b, fun h => absurd rfl h⟩
  | cons c chunks ih =>
    have hc := hn c (List.mem_cons_self ..)
    obtain ⟨hok, hfail⟩ :=
      ih (fun x hx => hn x (List.mem_cons_of_mem _ hx)) (b.push c).2.drainFrames.2
    rw [along_pushes, along_pushes, List.map_cons]
    by_cases hp : (b.push c).1 = .ok ()
    · rw [readAll_pushed hc hp, overflows, if_pos hp, List.nil_append]
      refine ⟨fun ho => ?_, fun ho => hfail ho⟩
      rw [hok ho]
      rfl
    · rw [readAll_failed hc hp, overflows, if_neg hp]
      exact ⟨fun ho => by simp at ho, fun _ => rfl⟩

theorem along_emits (maxSize : Nat) (cs : List Call)
    (ho : along call overflows (.new maxSize) cs = [])
    (hl : ∀ data, cs.getLast? ≠ some (.push data)) :
    along call emits (.new maxSize) cs = bounded FEND (cs.flatMap input) := by
  obtain ⟨b, hr⟩ := call_total (.new maxSize) cs
  induction cs using List.reverseRecOn with
  | nil => exact (bounded_free List.not_mem_nil).symm
  | append_singleton cs c _ =>
    obtain ⟨b', hr', -, hc⟩ := hr.last
    cases c with
    | push data => exact absurd (List.getLast?_concat ..) (hl data)
    | drain =>
      rw [along_next hr' hc, List.append_eq_nil_iff] at ho
      rw [along_next hr' hc, List.flatMap_append, List.flatMap_singleton, input, List.append_nil]
      exact (drain_settled (calls_follow hr' ho.1)).1

theorem pushes_last (chunks : List (List UInt8)) (data : List UInt8) :
    (pushes chunks).getLast? ≠ some (.push data) := by
  induction chunks using List.reverseRecOn with
  | nil => simp [pushes]
  | append_singleton chunks c _ => simp [pushes]

/-- However a buffer is used, it emits runs of its input that have a FEND on
both sides, each whole and in order, and all of them if no push failed and it
was drained to the end. So a reader gets back the frames a writer wrote. -/
theorem reassembly_sound (maxSize : Nat) (cs : List Call) :
    (along call emits (.new maxSize) cs).Sublist (bounded FEND (cs.flatMap input)) ∧
    (along call overflows (.new maxSize) cs = [] → (∀ data, cs.getLast? ≠ some (.push data)) →
      along call emits (.new maxSize) cs = bounded FEND (cs.flatMap input)) ∧
    (∀ frames chunks, (∀ f ∈ frames, f ≠ [] ∧ FEND ∉ f) → (∀ c ∈ chunks, c ≠ []) →
      chunks.flatten = frames.flatMap writeFrame →
      along call overflows (.new maxSize) (pushes chunks) = [] →
      (KissReader.withMaxFrame maxSize).readAll (chunks.map .ok) = (frames, .linkClosed)) := by
  refine ⟨?_, along_emits maxSize cs, ?_⟩
  · obtain ⟨b, hr⟩ := call_total (.new maxSize) cs
    obtain ⟨before, hs, he, -⟩ := calls_track hr
    obtain ⟨more, hm⟩ := bounded_prefix (d := FEND) before b.buf
    rw [hs, hm]
    exact List.sublist_append_of_sublist_left he
  · intro frames chunks hf hn hc ho
    have hr := (readAll_calls chunks hn (.new maxSize)).1 ho
    rw [along_emits maxSize (pushes chunks) ho (pushes_last chunks), input_pushes, hc,
      bounded_wires frames hf] at hr
    exact hr

theorem reassembly_sound_split :
    (KissReader.withMaxFrame 16).readAll
      ([[0xC0, 0x00], [0x41, 0xC0, 0xC0], [0x00, 0x42, 0xC0]].map .ok) =
      ([[0x00, 0x41], [0x00, 0x42]], .linkClosed) :=
  (reassembly_sound 16 []).2.2 [[0x00, 0x41], [0x00, 0x42]]
    [[0xC0, 0x00], [0x41, 0xC0, 0xC0], [0x00, 0x42, 0xC0]] (by decide) (by decide)
      (by decide) (by decide)

end KissTncBridge.Proofs.Reassembly
