import KissTncBridge.Kiss.Frame

namespace KissTncBridge.Proofs.Codec
open Kiss KissFrame

/-- The bytes of an encoded frame without its delimiters. -/
def inner (wire : List UInt8) : List UInt8 := (wire.drop 1).dropLast

theorem inner_encode (f : KissFrame) : inner f.encode = f.stuffed := by
  simp [inner, encode]

theorem unstuff_plain (hb : b ≠ FESC) (bs : List UInt8) :
    unstuff (b :: bs) = (unstuff bs).map (b :: ·) := by
  rw [unstuff.eq_def]
  simp only [hb, if_false]

theorem unstuff_stuffByte (b : UInt8) (bs : List UInt8) :
    unstuff (stuffByte b ++ bs) = (unstuff bs).map (b :: ·) := by
  unfold stuffByte
  split
  · rename_i h
    subst h
    rfl
  · split
    · rename_i h
      subst h
      rfl
    · rename_i h
      exact unstuff_plain h bs

/-- Unstuffing undoes the stuffing of any data. -/
theorem unstuff_stuff (data : List UInt8) : unstuff (data.flatMap stuffByte) = .ok data := by
  induction data with
  | nil => rfl
  | cons b bs ih =>
    rw [List.flatMap_cons, unstuff_stuffByte, ih]
    rfl

theorem map_eq_ok {f : α → β} {x : Except ε α} (h : x.map f = .ok b) :
    ∃ a, x = .ok a ∧ f a = b := by
  cases x with
  | error e => cases h
  | ok a => exact ⟨a, rfl, Except.ok.inj h⟩

/-- Stuffing restores what unstuffing accepts, as long as no delimiter is in
it. -/
theorem stuff_unstuff (raw data : List UInt8) (hf : FEND ∉ raw) (h : unstuff raw = .ok data) :
    data.flatMap stuffByte = raw := by
  fun_induction unstuff raw generalizing data with
  | case1 =>
    cases h
    rfl
  | case2 => cases h
  | case3 bs ih =>
    obtain ⟨rest, hr, rfl⟩ := map_eq_ok h
    have hnot : FEND ∉ bs := fun hm => hf (by simp [hm])
    rw [List.flatMap_cons, ih rest hnot hr]
    rfl
  | case4 bs _ ih =>
    obtain ⟨rest, hr, rfl⟩ := map_eq_ok h
    have hnot : FEND ∉ bs := fun hm => hf (by simp [hm])
    rw [List.flatMap_cons, ih rest hnot hr]
    rfl
  | case5 => cases h
  | case6 b bs hb ih =>
    obtain ⟨rest, hr, rfl⟩ := map_eq_ok h
    have hnot : FEND ∉ bs := fun hm => hf (List.mem_cons_of_mem _ hm)
    have hne : b ≠ FEND := fun he => hf (he ▸ List.mem_cons_self ..)
    rw [List.flatMap_cons, ih rest hnot hr]
    simp [stuffByte, hne, hb]

theorem stuffByte_eq_self_iff (b : UInt8) : stuffByte b = [b] ↔ b ≠ FEND ∧ b ≠ FESC := by
  unfold stuffByte
  split
  · rename_i h
    simp [h]
  · split
    · rename_i h
      simp [h]
    · rename_i hn hs
      exact ⟨fun _ => ⟨hn, hs⟩, fun _ => rfl⟩

/-- A frame survives the wire exactly when its command byte needs no
stuffing. -/
theorem decode_encode_iff (f : KissFrame) :
    decode (inner f.encode) = .ok f ↔ f.command ≠ FEND ∧ f.command ≠ FESC := by
  obtain ⟨command, data⟩ := f
  rw [inner_encode, stuffed]
  constructor
  · intro h
    constructor
    · rintro rfl
      obtain ⟨_, _, he⟩ := map_eq_ok h
      cases he
    · rintro rfl
      obtain ⟨decoded, hd, he⟩ := map_eq_ok h
      cases he
      have hlen : decode (stuffByte FESC ++ data.flatMap stuffByte) =
          (unstuff (TFESC :: data.flatMap stuffByte)).map (fun d => ⟨FESC, d⟩) := rfl
      have hun : unstuff (TFESC :: data.flatMap stuffByte) = .ok (TFESC :: data) := by
        rw [unstuff_plain (by decide), unstuff_stuff]
        rfl
      rw [hlen, hun] at h
      have hcons := congrArg (fun r => r.toOption.map (fun f : KissFrame => f.data.length)) h
      simp [Except.map, Except.toOption] at hcons
  · rintro ⟨hn, hs⟩
    rw [(stuffByte_eq_self_iff command).mpr ⟨hn, hs⟩, List.singleton_append, decode, unstuff_stuff]
    rfl

/-- What decodes is encoded as it was exactly when it does not begin with an
escape. -/
theorem encode_decode_iff {raw : List UInt8} (hf : FEND ∉ raw) (h : decode raw = .ok f) :
    f.encode = FEND :: raw ++ [FEND] ↔ raw.head? ≠ some FESC := by
  cases raw with
  | nil => cases h
  | cons command raw =>
    obtain ⟨data, hd, rfl⟩ := map_eq_ok h
    have hne : command ≠ FEND := fun he => hf (he ▸ List.mem_cons_self ..)
    have hraw : data.flatMap stuffByte = raw :=
      stuff_unstuff raw data (fun hm => hf (List.mem_cons_of_mem _ hm)) hd
    have hwire : (⟨command, data⟩ : KissFrame).encode = FEND :: (stuffByte command ++ raw) ++
        [FEND] := by
      simp only [encode, stuffed, hraw]
    have hsplit : FEND :: (stuffByte command ++ raw) ++ [FEND] = FEND ::
      (command :: raw) ++ [FEND] ↔ stuffByte command = [command] := by
      rw [List.append_cancel_right_eq, List.cons.injEq, ← List.singleton_append (x := command),
        List.append_cancel_right_eq]
      exact and_iff_right rfl
    rw [hwire, hsplit, stuffByte_eq_self_iff]
    simp [hne]

/-- Decoding undoes encoding, and encoding decoding, for the frames whose
command byte is no special character, and for those only. -/
theorem codec_round_trip (f : KissFrame) (raw : List UInt8) :
    (decode (inner f.encode) = .ok f ↔ f.command ≠ FEND ∧ f.command ≠ FESC) ∧
      ∀ g, FEND ∉ raw → decode raw = .ok g →
        (g.encode = FEND :: raw ++ [FEND] ↔ raw.head? ≠ some FESC) :=
  ⟨decode_encode_iff f, fun _ hf h => encode_decode_iff hf h⟩

/-- A data frame with special characters in its data. -/
theorem codec_round_trip_data :
    decode (inner (⟨0, [FEND, 1, FESC]⟩ : KissFrame).encode) = .ok ⟨0, [FEND, 1, FESC]⟩ ∧
      (⟨0, [FEND, 1]⟩ : KissFrame).encode = FEND :: [0, FESC, TFEND, 1] ++ [FEND] :=
  ⟨(codec_round_trip ⟨0, [FEND, 1, FESC]⟩ [0, FESC, TFEND, 1]).1.mpr (by decide),
    ((codec_round_trip ⟨0, [FEND, 1, FESC]⟩ [0, FESC, TFEND, 1]).2 ⟨0, [FEND, 1]⟩ (by decide)
      (by decide)).mpr
      (by decide)⟩

/-- A frame with a delimiter for its command comes back as another one, and an
escape taken for a command is escaped once more. -/
theorem codec_loses_command :
    decode (inner (⟨FEND, [1]⟩ : KissFrame).encode) = .ok ⟨FESC, [TFEND, 1]⟩ ∧
      decode [FESC, 1] = .ok ⟨FESC, [1]⟩ ∧ FEND ∉ [FESC, 1] ∧
      (⟨FESC, [1]⟩ : KissFrame).encode ≠ FEND :: [FESC, 1] ++ [FEND] := by
  decide

end KissTncBridge.Proofs.Codec
