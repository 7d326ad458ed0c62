import KissTncBridge.Proofs.RadioQueue

namespace KissTncBridge.Proofs.RadioTexts
open Kiss Wire TncInit Scanner

def Ascii (s : String) : Prop := ∀ c ∈ s.toList, 0x20 ≤ c.toNat ∧ c.toNat < 0x7F

theorem ascii_of_all {s : String}
    (h : s.toList.all (fun c => decide (0x20 ≤ c.toNat ∧ c.toNat < 0x7F)) = true) : Ascii s :=
  fun c hc => of_decide_eq_true (List.all_eq_true.mp h c hc)

theorem encode_ascii {c : Char} (h : c.toNat < 0x7F) :
    String.utf8EncodeChar c = [c.val.toUInt8] := by
  refine String.utf8EncodeChar_eq_singleton ?_
  rw [Char.utf8Size_eq_one_iff]
  have hc : c.val.toNat < 0x7F := h
  exact UInt32.le_iff_toNat_le.mpr (by simp; omega)

theorem toNat_encoded {c : Char} (h : c.toNat < 0x7F) : (c.val.toUInt8).toNat = c.toNat := by
  have hc : c.val.toNat < 0x7F := h
  rw [UInt32.toNat_toUInt8]
  exact Nat.mod_eq_of_lt (by omega)

theorem bytes_append (a b : String) : bytes (a ++ b) = bytes a ++ bytes b := by
  simp [bytes]

theorem bytes_ascii (h : Ascii s) : bytes s = s.toList.map (fun c => c.val.toUInt8) := by
  have hl : ∀ l : List Char, (∀ c ∈ l, c.toNat < 0x7F) →
      l.flatMap String.utf8EncodeChar = l.map (fun c => c.val.toUInt8) := by
    intro l hl
    induction l with
    | nil => rfl
    | cons c l ih =>
      rw [List.flatMap_cons, encode_ascii (hl c (List.mem_cons_self ..)),
        ih (fun x hx => hl x (List.mem_cons_of_mem _ hx))]
      rfl
  exact hl s.toList (fun c hc => (h c hc).2)

/-- A printable byte is no delimiter. -/
theorem free_ascii (h : Ascii s) : ∀ b ∈ bytes s, b ≠ FEND ∧ b ≠ CR ∧ b ≠ LF ∧ ¬ b < 0x20 := by
  intro b hb
  rw [bytes_ascii h] at hb
  obtain ⟨c, hc, rfl⟩ := List.mem_map.mp hb
  obtain ⟨hlow, hhigh⟩ := h c hc
  have hn := toNat_encoded hhigh
  refine ⟨?_, ?_, ?_, ?_⟩
  · intro he
    rw [he] at hn
    simp only [FEND, UInt8.reduceToNat] at hn
    omega
  · intro he
    rw [he] at hn
    simp only [CR, UInt8.reduceToNat] at hn
    omega
  · intro he
    rw [he] at hn
    simp only [LF, UInt8.reduceToNat] at hn
    omega
  · rw [UInt8.lt_iff_toNat_lt, hn]
    simp only [UInt8.reduceToNat]
    omega

theorem lossy_ascii (h : Ascii s) : fromUtf8Lossy (bytes s) = s := by
  have hl : ∀ l : List Char, (∀ c ∈ l, 0x20 ≤ c.toNat ∧ c.toNat < 0x7F) →
      lossyChars none (l.map (fun c => c.val.toUInt8)) = l := by
    intro l hl
    induction l with
    | nil => rfl
    | cons c l ih =>
      obtain ⟨-, hc⟩ := hl c (List.mem_cons_self ..)
      have hn := toNat_encoded hc
      have hlt : c.val.toUInt8 < 0x80 := by
        rw [UInt8.lt_iff_toNat_lt, hn]
        simp only [UInt8.reduceToNat]
        omega
      have hb : nextByte none c.val.toUInt8 = ([c], none) := by
        simp only [nextByte, beginChar, if_pos hlt, hn, Char.ofNat_toNat]
      rw [List.map_cons, lossyChars, hb, ih (fun x hx => hl x (List.mem_cons_of_mem _ hx))]
      rfl
  rw [fromUtf8Lossy, bytes_ascii h, hl s.toList h, String.ofList_toList]

/-- A text the radio sends as a line of its own, and the scanner gives back. -/
structure Spoken (text : String) : Prop where
  ascii : Ascii text
  nonempty : text.toList ≠ []
  short : text.toList.length ≤ MAX_LINE
  trimmed : Text.trim text = text

theorem Spoken.plain (h : Spoken text) : Plain (bytes text) where
  nonempty := by
    rw [bytes_ascii h.ascii]
    simpa using h.nonempty
  free b hb := by
    obtain ⟨hf, hc, hl, -⟩ := free_ascii h.ascii b hb
    exact ⟨hf, hc, hl⟩
  letter b hb := (free_ascii h.ascii b (List.mem_of_mem_head? hb)).2.2.2

theorem Spoken.length (h : Spoken text) : (bytes text).length ≤ MAX_LINE := by
  rw [bytes_ascii h.ascii, List.length_map]
  exact h.short

/-- A text that neither starts nor ends with white space. -/
theorem trimChars_self {l : List Char} (hfirst : ∀ c ∈ l.head?, Text.isWhite c = false)
    (hlast : ∀ c ∈ l.getLast?, Text.isWhite c = false) : Text.trimChars l = l := by
  have hdrop : ∀ k : List Char, (∀ c ∈ k.head?, Text.isWhite c = false) →
      k.dropWhile Text.isWhite = k := by
    intro k hk
    cases k with
    | nil => rfl
    | cons c k => exact List.dropWhile_cons_of_neg (by simp [hk c rfl])
  rw [Text.trimChars, hdrop l hfirst, hdrop l.reverse (by rwa [List.head?_reverse]),
    List.reverse_reverse]

theorem digit_not_white {c : Char} (h : 48 ≤ c.toNat ∧ c.toNat ≤ 57) : Text.isWhite c = false := by
  simp only [Text.isWhite, Bool.or_eq_false_iff, Bool.and_eq_false_iff, beq_eq_false_iff_ne, ne_eq,
    decide_eq_false_iff_not]
  omega

/-- How a byte is written out. -/
theorem digits_facts (n : UInt8) : (toString n).toList ≠ [] ∧ (toString n).toList.length ≤ 3 ∧
    (∀ c ∈ (toString n).toList, 48 ≤ c.toNat ∧ c.toNat ≤ 57) ∧ uint8 (toString n) = some n := by
  have h : ∀ i < 256, (toString (UInt8.ofNat i)).toList ≠ [] ∧
      (toString (UInt8.ofNat i)).toList.length ≤ 3 ∧
      (toString (UInt8.ofNat i)).toList.all (fun c => decide (48 ≤ c.toNat ∧ c.toNat ≤ 57)) = true ∧
      uint8 (toString (UInt8.ofNat i)) = some (UInt8.ofNat i) := by
    decide +kernel
  have hn := h n.toNat n.toNat_lt
  rw [UInt8.ofNat_toNat] at hn
  obtain ⟨hne, hlen, hdigits, hval⟩ := hn
  exact ⟨hne, hlen, fun c hc => of_decide_eq_true (List.all_eq_true.mp hdigits c hc), hval⟩

def tnText (mode band : UInt8) : String := "TN " ++ toString mode ++ "," ++ toString band

theorem tnText_toList (mode band : UInt8) :
    (tnText mode band).toList = 'T' :: 'N' :: ' ' ::
      ((toString mode).toList ++ ',' :: (toString band).toList) := by
  simp [tnText]

theorem spoken_tn (mode band : UInt8) : Spoken (tnText mode band) := by
  obtain ⟨-, hml, hm, -⟩ := digits_facts mode
  obtain ⟨hbn, hbl, hb, -⟩ := digits_facts band
  have hlist := tnText_toList mode band
  refine ⟨?_, ?_, ?_, ?_⟩
  · intro c hc
    rw [hlist] at hc
    simp only [List.mem_cons, List.mem_append] at hc
    rcases hc with rfl | rfl | rfl | hc | rfl | hc
    · decide
    · decide
    · decide
    · have h := hm c hc
      omega
    · decide
    · have h := hb c hc
      omega
  · rw [hlist]
    exact List.cons_ne_nil _ _
  · rw [hlist]
    simp only [List.length_cons, List.length_append, MAX_LINE]
    omega
  · have htrim : Text.trimChars (tnText mode band).toList = (tnText mode band).toList := by
      refine trimChars_self ?_ ?_
      · intro c hc
        rw [hlist] at hc
        cases hc
        decide
      · intro c hc
        rw [hlist] at hc
        have hlast : (toString band).toList.getLast? = some c := by
          rwa [← List.cons_append, ← List.cons_append, ← List.cons_append,
            List.getLast?_append_of_ne_nil _ (List.cons_ne_nil _ _),
              List.getLast?_cons_of_ne_nil hbn] at hc
        exact digit_not_white (hb c (List.mem_of_getLast? hlast))
    rw [Text.trim, htrim, String.ofList_toList]

theorem stripStart_tn (mode band : UInt8) :
    stripStart "TN " (tnText mode band) = some (toString mode ++ "," ++ toString band) := by
  have hp : ("TN ".toList.isPrefixOf (tnText mode band).toList) = true := by
    rw [tnText_toList]
    simp
  have hrest : (toString mode).toList ++ ',' :: (toString band).toList =
      (toString mode ++ "," ++ toString band).toList := by simp
  have hdrop : (tnText mode band).toList.drop "TN ".toList.length =
      (toString mode ++ "," ++ toString band).toList := by
    rw [tnText_toList, hrest]
    rfl
  rw [stripStart, if_pos hp, hdrop, String.ofList_toList]

theorem splitOnce_tn (mode band : UInt8) :
    splitOnce ',' (toString mode ++ "," ++ toString band) =
      some (toString mode, toString band) := by
  obtain ⟨-, -, hm, -⟩ := digits_facts mode
  have hl : (toString mode ++ "," ++ toString band).toList =
      (toString mode).toList ++ ',' :: (toString band).toList := by simp
  have hne : ∀ c ∈ (toString mode).toList, decide (c ≠ ',') = true := by
    intro c hc
    have h := hm c hc
    simp only [ne_eq, decide_not, Bool.not_eq_true', decide_eq_false_iff_not]
    rintro rfl
    simp at h
  rw [splitOnce, hl, if_pos (List.mem_append_right _ (List.mem_cons_self ..)),
    List.takeWhile_append_of_pos hne, List.dropWhile_append_of_pos hne,
    List.takeWhile_cons_of_neg (by simp), List.dropWhile_cons_of_neg (by simp), List.append_nil,
    List.drop_one, List.tail_cons, String.ofList_toList, String.ofList_toList]

theorem trim_number (n : UInt8) : Text.trim (toString n) = toString n := by
  obtain ⟨-, -, hd, -⟩ := digits_facts n
  have htrim : Text.trimChars (toString n).toList = (toString n).toList :=
    trimChars_self (fun c hc => digit_not_white (hd c (List.mem_of_mem_head? hc)))
      (fun c hc => digit_not_white (hd c (List.mem_of_getLast? hc)))
  rw [Text.trim, htrim, String.ofList_toList]

theorem parseTn_tn (mode band : UInt8) : parseTn (tnText mode band) = some (mode, band) := by
  have hm := (digits_facts mode).2.2.2
  have hb := (digits_facts band).2.2.2
  simp only [parseTn, stripStart_tn, Option.bind_eq_bind, Option.bind_some, splitOnce_tn,
    trim_number, hm, hb]

end KissTncBridge.Proofs.RadioTexts
