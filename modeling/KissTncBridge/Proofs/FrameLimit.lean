import KissTncBridge.Proofs.Reassembly

namespace KissTncBridge.Proofs.FrameLimit
open Lib Kiss Wire Reassembly

variable {b : KissReassemblyBuffer}

/-- Each read fits the limit beside the unfinished frame that came before it,
in a stream that goes on from `stream`. -/
def Room (maxSize : Nat) (stream : List UInt8) : List (List UInt8) → Prop
  | [] => True
  | c :: chunks =>
    (unfinished FEND stream).length + c.length ≤ maxSize ∧ Room maxSize (stream ++ c) chunks

instance decidableRoom (maxSize : Nat) (stream : List UInt8) (chunks : List (List UInt8)) :
    Decidable (Room maxSize stream chunks) :=
  match chunks with
  | [] => .isTrue trivial
  | c :: chunks =>
    have := decidableRoom maxSize (stream ++ c) chunks
    inferInstanceAs (Decidable (_ ∧ _))

/-- The limit does not change. -/
theorem push_drain_maxSize (b : KissReassemblyBuffer) (c : List UInt8) :
    (b.push c).2.drainFrames.2.maxSize = b.maxSize := by
  rw [drainFrames_eq]
  unfold KissReassemblyBuffer.push
  split <;> rfl

/-- A push fails exactly where the read has no room. -/
theorem room_iff (chunks : List (List UInt8)) (h : Settled stream emitted b) :
    along call overflows b (pushes chunks) = [] ↔ Room b.maxSize stream chunks := by
  induction chunks generalizing stream emitted b with
  | nil => exact ⟨fun _ => trivial, fun _ => rfl⟩
  | cons c chunks ih =>
    have hlen : (unfinished FEND stream).length = b.buf.length := by rw [h.2.1]
    rw [along_pushes, Room, hlen]
    by_cases hp : (b.push c).1 = .ok ()
    · have hnext := drain_settled (push_follows h.follows hp)
      have hi := ih hnext
      rw [push_drain_maxSize] at hi
      rw [overflows, if_pos hp, List.nil_append, overflows, List.nil_append, hi]
      exact (and_iff_right (push_ok hp).1).symm
    · have hl : ¬ b.buf.length + c.length ≤ b.maxSize := by
        intro hle
        refine hp ?_
        rw [KissReassemblyBuffer.push, if_neg (Nat.not_lt.mpr hle)]
      rw [overflows, if_neg hp]
      simp [hl]

/-- A reader gets to the end of its stream exactly if it finds room for every
read, and then returns the runs of the stream. -/
theorem readAll_room (maxSize : Nat) (hn : ∀ c ∈ chunks, c ≠ []) :
    (Room maxSize [] chunks →
      (KissReader.withMaxFrame maxSize).readAll (chunks.map .ok) =
        (bounded FEND chunks.flatten, .linkClosed)) ∧
    (¬ Room maxSize [] chunks →
      ((KissReader.withMaxFrame maxSize).readAll (chunks.map .ok)).2 =
        .kissFrame "reassembly buffer overflow") := by
  have hi : _ ↔ Room maxSize [] chunks := room_iff chunks (new_settled maxSize)
  obtain ⟨hok, hfail⟩ := readAll_calls chunks hn (.new maxSize)
  refine ⟨?_, ?_⟩
  · intro hr
    have ho := hi.mpr hr
    have h := hok ho
    rw [along_emits maxSize (pushes chunks) ho (pushes_last chunks), input_pushes] at h
    exact h
  · intro hr
    exact hfail (fun ho => hr (hi.mp ho))

theorem readAll_eq_iff (maxSize : Nat) (hn : ∀ c ∈ chunks, c ≠ []) :
    (KissReader.withMaxFrame maxSize).readAll (chunks.map .ok) = (frames, .linkClosed) ↔
      Room maxSize [] chunks ∧ bounded FEND chunks.flatten = frames := by
  obtain ⟨hok, hfail⟩ := readAll_room maxSize hn
  refine ⟨fun h => ?_, fun ⟨hr, hb⟩ => by rw [hok hr, hb]⟩
  by_cases hr : Room maxSize [] chunks
  · rw [hok hr] at h
    exact ⟨hr, congrArg Prod.fst h⟩
  · have hf := hfail hr
    rw [h] at hf
    cases hf

/-- Frames that find room are no longer than the limit. -/
theorem Room.length_le (h : Room maxSize stream chunks)
    (hf : f ∈ bounded FEND (stream ++ chunks.flatten)) :
    f ∈ bounded FEND stream ∨ f.length ≤ maxSize := by
  induction chunks generalizing stream with
  | nil =>
    rw [List.flatten_nil, List.append_nil] at hf
    exact .inl hf
  | cons c chunks ih =>
    rw [List.flatten_cons, ← List.append_assoc] at hf
    rcases ih h.2 hf with hf | hf
    · exact (length_new_bounded hf).imp_right (fun hl => Nat.le_trans hl h.1)
    · exact .inr hf

/-- Two readers of the same frames, split differently, return the same and do
not fail exactly if every read of both has room beside the unfinished frame
before it; what they return is then all the frames. -/
theorem chunking_independent (maxSize : Nat) (frames reads₁ reads₂ : List (List UInt8))
    (hf : ∀ f ∈ frames, f ≠ [] ∧ FEND ∉ f) (h₁ : reads₁.flatten = frames.flatMap writeFrame)
    (h₂ : reads₂.flatten = frames.flatMap writeFrame)
    (hr₁ : ∀ c ∈ reads₁, c ≠ [] ∧ c.length ≤ READ_BUF)
    (hr₂ : ∀ c ∈ reads₂, c ≠ [] ∧ c.length ≤ READ_BUF) :
    (((KissReader.withMaxFrame maxSize).readAll (reads₁.map .ok)).1 =
        ((KissReader.withMaxFrame maxSize).readAll (reads₂.map .ok)).1 ∧
      ((KissReader.withMaxFrame maxSize).readAll (reads₁.map .ok)).2 = .linkClosed ∧
      ((KissReader.withMaxFrame maxSize).readAll (reads₂.map .ok)).2 = .linkClosed ↔
      Room maxSize [] reads₁ ∧ Room maxSize [] reads₂) ∧
    (Room maxSize [] reads₁ →
      ((KissReader.withMaxFrame maxSize).readAll (reads₁.map .ok)).1 = frames) := by
  obtain ⟨hok₁, hfail₁⟩ := readAll_room maxSize (fun c hc => (hr₁ c hc).1)
  obtain ⟨hok₂, hfail₂⟩ := readAll_room maxSize (fun c hc => (hr₂ c hc).1)
  rw [h₁, bounded_wires frames hf] at hok₁
  rw [h₂, bounded_wires frames hf] at hok₂
  refine ⟨⟨?_, ?_⟩, fun hr => by rw [hok₁ hr]⟩
  · rintro ⟨-, he₁, he₂⟩
    refine ⟨?_, ?_⟩
    · by_contra hr
      rw [hfail₁ hr] at he₁
      cases he₁
    · by_contra hr
      rw [hfail₂ hr] at he₂
      cases he₂
  · rintro ⟨hr₁, hr₂⟩
    rw [hok₁ hr₁, hok₂ hr₂]
    exact ⟨rfl, rfl, rfl⟩

theorem chunking_independent_small :
    ((KissReader.withMaxFrame 4).readAll ([[0xC0, 0x00, 0x41, 0xC0]].map .ok)).1 =
      ((KissReader.withMaxFrame 4).readAll ([[0xC0], [0x00, 0x41, 0xC0]].map .ok)).1 :=
  ((chunking_independent 4 [[0x00, 0x41]] [[0xC0, 0x00, 0x41, 0xC0]] [[0xC0], [0x00, 0x41, 0xC0]]
    (by decide) (by decide) (by decide) (by decide) (by decide)).1.mpr (by decide)).1

def zeros (n : Nat) : List UInt8 := List.replicate n 0x00

theorem zeros_append (m n : Nat) : zeros m ++ zeros n = zeros (m + n) :=
  List.replicate_append_replicate

theorem length_zeros (n : Nat) : (zeros n).length = n := List.length_replicate

theorem zeros_free (n : Nat) : FEND ∉ zeros n := by
  intro hm
  exact absurd (List.eq_of_mem_replicate hm) (by decide)

theorem zeros_ne_nil (h : 0 < n) : zeros n ≠ [] := by
  intro hz
  have hl := length_zeros n
  rw [hz, List.length_nil] at hl
  omega

/-- The bytes of a frame of zeros that has begun. -/
theorem unfinished_zeros (n : Nat) : unfinished FEND (FEND :: zeros n) = zeros n := by
  have h := unfinished_append_cons (d := FEND) [] (zeros n)
  rwa [unfinished_free (zeros_free n)] at h

/-- A frame whose wire form is as long as the limit, and a short one after it. -/
def longest : List UInt8 := zeros 8190
def short : List UInt8 := [0x00, 0x41]

def atBoundary : List (List UInt8) :=
  [FEND :: zeros 2047, zeros 2048, zeros 2048, zeros 2047 ++ [FEND], writeFrame short]

/-- The same bytes, with the first frame's last FEND read along with the next
frame. -/
def pastBoundary : List (List UInt8) :=
  [FEND :: zeros 2047, zeros 2048, zeros 2048, zeros 2047, FEND :: writeFrame short]

theorem frames_legal : ∀ f ∈ [longest, short], f ≠ [] ∧ FEND ∉ f := by
  intro f hf
  simp only [List.mem_cons, List.not_mem_nil, or_false] at hf
  rcases hf with rfl | rfl
  · exact ⟨zeros_ne_nil (by omega), zeros_free _⟩
  · decide

/-- Both ways of reading give the first frame in four parts and its FENDs. -/
theorem parts_flatten (a b c e w : List UInt8) :
    [FEND :: a, b, c, e ++ [FEND], w].flatten = FEND :: (a ++ b ++ c ++ e) ++ [FEND] ++ w ∧
      [FEND :: a, b, c, e, FEND :: w].flatten = FEND :: (a ++ b ++ c ++ e) ++ [FEND] ++ w := by
  simp

theorem boundary_bytes :
    FEND :: (zeros 2047 ++ zeros 2048 ++ zeros 2048 ++ zeros 2047) ++ [FEND] ++ writeFrame short =
      [longest, short].flatMap writeFrame := by
  rw [zeros_append, zeros_append, zeros_append, List.flatMap_cons, List.flatMap_cons,
    List.flatMap_nil, List.append_nil]
  rfl

theorem atBoundary_bytes : atBoundary.flatten = [longest, short].flatMap writeFrame :=
  (parts_flatten _ _ _ _ _).1.trans boundary_bytes

theorem pastBoundary_bytes : pastBoundary.flatten = [longest, short].flatMap writeFrame :=
  (parts_flatten _ _ _ _ _).2.trans boundary_bytes

/-- How much of the first frame is there before each read. -/
theorem begun_unfinished :
    unfinished FEND ([] ++ (FEND :: zeros 2047)) = zeros 2047 ∧
      unfinished FEND ([] ++ (FEND :: zeros 2047) ++ zeros 2048) = zeros 4095 ∧
      unfinished FEND ([] ++ (FEND :: zeros 2047) ++ zeros 2048 ++ zeros 2048) = zeros 6143 ∧
      unfinished FEND ([] ++ (FEND :: zeros 2047) ++ zeros 2048 ++ zeros 2048 ++ zeros 2047) =
        zeros 8190 := by
  simp only [List.nil_append, List.cons_append, zeros_append, unfinished_zeros]
  exact ⟨trivial, trivial, trivial, trivial⟩

theorem atBoundary_room : Room MAX_FRAME_BYTES [] atBoundary := by
  obtain ⟨h₁, h₂, h₃, -⟩ := begun_unfinished
  have h₀ : unfinished FEND ([] : List UInt8) = [] := unfinished_free List.not_mem_nil
  have h₄ : unfinished FEND ([] ++ (FEND :: zeros 2047) ++ zeros 2048 ++ zeros 2048 ++
      (zeros 2047 ++ [FEND])) = [] := by
    rw [← List.append_assoc, unfinished_append_cons, h₀]
  refine ⟨?_, ?_, ?_, ?_, ?_, trivial⟩
  · rw [h₀, List.length_cons, length_zeros]
    decide
  · rw [h₁, length_zeros, length_zeros]
    decide
  · rw [h₂, length_zeros, length_zeros]
    decide
  · rw [h₃, length_zeros, List.length_append, length_zeros]
    decide
  · rw [h₄]
    decide

theorem pastBoundary_room : ¬ Room MAX_FRAME_BYTES [] pastBoundary := by
  obtain ⟨-, -, -, h⟩ := begun_unfinished
  rintro ⟨-, -, -, -, hr, -⟩
  rw [h, length_zeros] at hr
  simp only [MAX_FRAME_BYTES, writeFrame, short, List.length_cons, List.length_append,
    List.length_nil] at hr
  omega

theorem boundary_reads : (∀ c ∈ atBoundary, c ≠ [] ∧ c.length ≤ READ_BUF) ∧
    ∀ c ∈ pastBoundary, c ≠ [] ∧ c.length ≤ READ_BUF := by
  have hz : ∀ n, 0 < n → n ≤ 2048 → zeros n ≠ [] ∧ (zeros n).length ≤ READ_BUF := by
    intro n hp hn
    refine ⟨zeros_ne_nil hp, ?_⟩
    rw [length_zeros]
    exact hn
  have hfirst : FEND :: zeros 2047 ≠ [] ∧ (FEND :: zeros 2047).length ≤ READ_BUF := by
    refine ⟨List.cons_ne_nil _ _, ?_⟩
    rw [List.length_cons, length_zeros]
    exact Nat.le_refl _
  have hlast : zeros 2047 ++ [FEND] ≠ [] ∧ (zeros 2047 ++ [FEND]).length ≤ READ_BUF := by
    refine ⟨by simp, ?_⟩
    rw [List.length_append, length_zeros]
    exact Nat.le_refl _
  have h48 := hz 2048 (by omega) (by omega)
  refine ⟨?_, ?_⟩
  · intro c hc
    simp only [atBoundary, List.mem_cons, List.not_mem_nil, or_false] at hc
    rcases hc with rfl | rfl | rfl | rfl | rfl
    · exact hfirst
    · exact h48
    · exact h48
    · exact hlast
    · decide
  · intro c hc
    simp only [pastBoundary, List.mem_cons, List.not_mem_nil, or_false] at hc
    rcases hc with rfl | rfl | rfl | rfl | rfl
    · exact hfirst
    · exact h48
    · exact h48
    · exact hz 2047 (by omega) (by omega)
    · decide

/-- Whether the longest legal frame arrives depends on whether the next one's
first bytes come with its last. -/
theorem longest_frame_refused :
    (∀ f ∈ [longest, short], f ≠ [] ∧ FEND ∉ f) ∧
      (∀ f ∈ [longest, short], (writeFrame f).length ≤ MAX_FRAME_BYTES) ∧
      atBoundary.flatten = [longest, short].flatMap writeFrame ∧
      pastBoundary.flatten = [longest, short].flatMap writeFrame ∧
      (∀ c ∈ atBoundary, c ≠ [] ∧ c.length ≤ READ_BUF) ∧
      (∀ c ∈ pastBoundary, c ≠ [] ∧ c.length ≤ READ_BUF) ∧
      KissReader.new.readAll (atBoundary.map .ok) = ([longest, short], .linkClosed) ∧
      (KissReader.new.readAll (pastBoundary.map .ok)).2 =
        .kissFrame "reassembly buffer overflow" := by
  obtain ⟨hr₁, hr₂⟩ := boundary_reads
  refine ⟨frames_legal, ?_, atBoundary_bytes, pastBoundary_bytes, hr₁, hr₂, ?_, ?_⟩
  · intro f hf
    simp only [List.mem_cons, List.not_mem_nil, or_false] at hf
    rcases hf with rfl | rfl
    · rw [writeFrame, List.cons_append, List.length_cons, List.length_append, longest, length_zeros]
      exact Nat.le_refl _
    · decide
  · have h := (readAll_room MAX_FRAME_BYTES (fun c hc => (hr₁ c hc).1)).1 atBoundary_room
    rwa [atBoundary_bytes, bounded_wires _ frames_legal] at h
  · exact (readAll_room MAX_FRAME_BYTES (fun c hc => (hr₂ c hc).1)).2 pastBoundary_room

end KissTncBridge.Proofs.FrameLimit
