import KissTncBridge.Control.Times
import KissTncBridge.Lib.Gregorian
import KissTncBridge.Proofs.Durations
import KissTncBridge.Proofs.RadioTexts

namespace KissTncBridge.Proofs.Times
open Conf Control Durations Lib.Gregorian

/-- Padded digits end in the last digit, with the others padded in front of it. -/
theorem padded_succ (w : Nat) (hw : 0 < w) (n : Nat) :
    Text.padded (w + 1) n = Text.padded w (n / 10 : Nat) ++ [Nat.digitChar (n % 10)] := by
  have hnat : ∀ k : Nat, ¬ (k : Int) < 0 := fun k => by omega
  unfold Text.padded
  simp only [if_neg (hnat _), Int.natAbs_natCast, List.length_nil, Nat.sub_zero, List.nil_append]
  by_cases h : n < 10
  · have hdiv : n / 10 = 0 := by omega
    have hmod : n % 10 = n := by omega
    have hrep : List.replicate w '0' = List.replicate (w - 1) '0' ++ ['0'] := by
      obtain ⟨v, rfl⟩ : ∃ v, w = v + 1 := ⟨w - 1, by omega⟩
      rw [Nat.add_sub_cancel, ← List.replicate_succ']
    rw [Nat.toDigits_of_lt_base h, hdiv, hmod, Nat.toDigits_zero, List.length_singleton,
      List.length_singleton, Nat.add_sub_cancel, hrep]
  · rw [Nat.toDigits_of_base_le (by decide) (by omega), List.length_append, List.length_singleton,
      Nat.add_sub_add_right, List.append_assoc]

theorem padded_one {n : Nat} (h : n < 10) : Text.padded 1 n = [Nat.digitChar n] := by
  have hn : ¬ (n : Int) < 0 := by omega
  unfold Text.padded
  simp [if_neg hn, Nat.toDigits_of_lt_base h]

theorem padded_two {n : Nat} (h : n < 100) :
    Text.padded 2 n = [Nat.digitChar (n / 10), Nat.digitChar (n % 10)] := by
  rw [padded_succ 1 (by decide), padded_one (by omega)]
  rfl

theorem padded_four {n : Nat} (h : n < 10000) : Text.padded 4 n =
    [Nat.digitChar (n / 1000), Nat.digitChar (n / 100 % 10), Nat.digitChar (n / 10 % 10),
      Nat.digitChar (n % 10)] := by
  have hthousand : n / 10 / 10 / 10 = n / 1000 := by omega
  have hhundred : n / 10 / 10 = n / 100 := by omega
  rw [padded_succ 3 (by decide), padded_succ 2 (by decide), padded_two (by omega),
    hthousand, hhundred]
  rfl

theorem digit_isDigit {n : Nat} (h : n < 10) : (Nat.digitChar n).isDigit = true := by
  have hall : ∀ k < 10, (Nat.digitChar k).isDigit = true := by decide
  exact hall n h

theorem parse_digits {ds : List Char} (hne : ds ≠ []) (hd : ∀ c ∈ ds, c.isDigit = true)
    (hv : Nat.ofDigitChars 10 ds 0 = n) (hn : n < 2 ^ 63) : parseInt64 ds = some (n : Int) := by
  have hnumber : Parse.number 10 (2 ^ 63) ds = some n := by
    rw [number_digits hne hd, hv, if_pos hn]
  unfold parseInt64
  split
  · rename_i rest
    exact absurd (hd '-' (List.mem_cons_self ..)) (by decide)
  · rw [hnumber]
    rfl

theorem parse_two {n : Nat} (h : n < 100) : parseInt64 (Text.padded 2 n) = some (n : Int) := by
  rw [padded_two h]
  apply parse_digits
  · exact List.cons_ne_nil _ _
  · intro c hc
    simp only [List.mem_cons, List.not_mem_nil, or_false] at hc
    rcases hc with rfl | rfl
    all_goals exact digit_isDigit (by omega)
  · rw [Nat.ofDigitChars_cons_digitChar_of_lt_ten (by omega),
      Nat.ofDigitChars_cons_digitChar_of_lt_ten (by omega), Nat.ofDigitChars_nil]
    omega
  · omega

theorem parse_four {n : Nat} (h : n < 10000) : parseInt64 (Text.padded 4 n) = some (n : Int) := by
  rw [padded_four h]
  apply parse_digits
  · exact List.cons_ne_nil _ _
  · intro c hc
    simp only [List.mem_cons, List.not_mem_nil, or_false] at hc
    rcases hc with rfl | rfl | rfl | rfl
    all_goals exact digit_isDigit (by omega)
  · rw [Nat.ofDigitChars_cons_digitChar_of_lt_ten (by omega),
      Nat.ofDigitChars_cons_digitChar_of_lt_ten (by omega),
        Nat.ofDigitChars_cons_digitChar_of_lt_ten (by omega),
        Nat.ofDigitChars_cons_digitChar_of_lt_ten (by omega),
      Nat.ofDigitChars_nil]
    omega
  · omega

def clock (year month day hour minute second : Int) : String :=
  String.ofList
    (Text.padded 4 year ++ ['-'] ++ Text.padded 2 month ++ ['-'] ++ Text.padded 2 day ++ ['T'] ++
    Text.padded 2 hour ++ [':'] ++ Text.padded 2 minute ++ [':'] ++ Text.padded 2 second ++ ['Z'])

/-- The bytes of what is printed in ASCII are its characters. -/
theorem bytes_chars {s : String} (h : RadioTexts.Ascii s) :
    (s.toList.flatMap String.utf8EncodeChar).map (fun x => Char.ofNat x.toNat) = s.toList := by
  have hbytes : s.toList.flatMap String.utf8EncodeChar = s.toList.map (fun c => c.val.toUInt8) :=
    RadioTexts.bytes_ascii h
  rw [hbytes, List.map_map]
  refine (List.map_congr_left (fun c hc => ?_)).trans (List.map_id _)
  rw [Function.comp_apply, RadioTexts.toNat_encoded (h c hc).2]
  exact Char.ofNat_toNat c

theorem digit_ascii {n : Nat} (h : n < 10) :
    0x20 ≤ (Nat.digitChar n).toNat ∧ (Nat.digitChar n).toNat < 0x7F := by
  have hall : ∀ k < 10, 0x20 ≤ (Nat.digitChar k).toNat ∧ (Nat.digitChar k).toNat < 0x7F := by decide
  exact hall n h

def secondsOf (y m d hh mm ss : Int) : Int :=
  (dayOf y m d - 719468) * 86400 + hh * 3600 + mm * 60 + ss

theorem parse_clock {y m d hh mm ss : Nat} (hy : y < 10000) (hm : m < 100) (hd : d < 100)
    (hhh : hh < 100) (hmm : mm < 100) (hss : ss < 100) : parseRfc3339 (clock y m d hh mm ss) =
      if secondsOf y m d hh mm ss < 0 then none else some (secondsOf y m d hh mm ss * NANOS) := by
  have hascii : RadioTexts.Ascii (clock y m d hh mm ss) := by
    intro c hc
    rw [clock, String.toList_ofList, padded_four hy, padded_two hm, padded_two hd, padded_two hhh,
      padded_two hmm, padded_two hss] at hc
    simp only [List.cons_append, List.nil_append, List.mem_cons, List.not_mem_nil, or_false] at hc
    rcases hc with
      rfl | rfl | rfl | rfl | rfl | rfl | rfl | rfl | rfl | rfl | rfl | rfl | rfl | rfl | rfl | rfl
      | rfl |
      rfl | rfl | rfl
    all_goals first | decide | exact digit_ascii (by omega)
  have hparts := fun n (h : n < 100) => padded_two h ▸ parse_two h
  have hyear := padded_four hy ▸ parse_four hy
  unfold parseRfc3339
  rw [bytes_chars hascii, clock, String.toList_ofList, padded_four hy, padded_two hm, padded_two hd,
    padded_two hhh, padded_two hmm, padded_two hss]
  simp only [List.cons_append, List.nil_append, List.length_cons, List.length_nil,
    List.getElem?_cons_succ, List.getElem?_cons_zero, ne_eq, not_true_eq_false, or_self, if_false,
      List.take_succ_cons, List.take_zero,
    List.drop_succ_cons, List.drop_zero, hyear, hparts m hm, hparts d hd, hparts hh hhh,
      hparts mm hmm, hparts ss hss]
  rfl

/-- The year of a day in the times that are printed with four digits. -/
theorem year_range (h0 : 719468 ≤ z) (h1 : z < 3652365) : 1970 ≤ year z ∧ year z ≤ 9999 := by
  obtain ⟨hy0, hy1, hd0, hd1, hto, hm0, hm1, -⟩ := day_parts z
  have hyear : year z = eraYear z + z / 146097 * 400 + if 10 ≤ yearMonth z then 1 else 0 := by
    have hjanuary : month z ≤ 2 ↔ 10 ≤ yearMonth z := by
      unfold month civilMonth
      split <;> omega
    unfold year
    simp only [hjanuary]
  have hday : yearDay z = z % 146097 - yearStart (eraYear z) := rfl
  have hmonth : yearMonth z = (5 * yearDay z + 2) / 153 := rfl
  generalize yearDay z = doy at hd0 hd1 hday hmonth
  generalize yearMonth z = mp at hm0 hm1 hmonth hyear
  generalize eraYear z = yoe at hy0 hy1 hto hyear hday
  constructor
  · by_cases hearly : z / 146097 ≤ 4
    · have hyears : 369 ≤ yoe := by
        unfold yearStart at hto
        omega
      by_cases h369 : yoe = 369
      · subst h369
        unfold yearStart at hday
        have hmarch : 10 ≤ mp := by omega
        rw [if_pos hmarch] at hyear
        omega
      · split at hyear <;> omega
    · split at hyear <;> omega
  · by_cases hlate : yoe + z / 146097 * 400 ≤ 9998
    · split at hyear <;> omega
    · have hlast : yoe = 399 := by omega
      subst hlast
      unfold yearStart at hday
      have hdecember : ¬ 10 ≤ mp := by omega
      rw [if_neg hdecember] at hyear
      omega

/-- What is printed for a time. -/
theorem rfc3339_fields {t : Int} (h0 : 0 ≤ t) (h1 : t < 253402300800 * NANOS) :
    ∃ y m d hh mm ss : Nat, rfc3339 t = clock y m d hh mm ss ∧ 1970 ≤ y ∧ y ≤ 9999 ∧ 1 ≤ m ∧
    m ≤ 12 ∧ 1 ≤ d ∧
      (d : Int) ≤ daysIn y m ∧ hh < 24 ∧ mm < 60 ∧ ss < 60 ∧
      secondsOf y m d hh mm ss = t / NANOS := by
  have hsecs : 0 ≤ t / NANOS ∧ t / NANOS < 253402300800 := by
    unfold NANOS at h1 ⊢
    omega
  obtain ⟨secs, hs⟩ : ∃ secs : Int, secs = t / NANOS := ⟨_, rfl⟩
  rw [← hs] at hsecs ⊢
  obtain ⟨z, hz⟩ : ∃ z : Int, z = secs / 86400 + 719468 := ⟨_, rfl⟩
  obtain ⟨hm0, hm1, hd0, hd1⟩ := date_valid z
  obtain ⟨hfirst, hend⟩ := year_range (z := z) (by omega) (by omega)
  have hprinted : rfc3339 t = clock (year z) (month z) (day z) (secs % 86400 / 3600)
    (secs % 86400 % 3600 / 60)
      (secs % 86400 % 60) := by
    unfold rfc3339
    rw [if_pos h0, ← hs, hz]
    rfl
  have hcount : secondsOf (year z) (month z) (day z) (secs % 86400 / 3600)
    (secs % 86400 % 3600 / 60)
      (secs % 86400 % 60) = secs := by
    rw [secondsOf, dayOf_date]
    omega
  have hle : day z ≤ 31 := Int.le_trans hd1 (daysIn_le _ _)
  obtain ⟨y, hy⟩ := Int.eq_ofNat_of_zero_le (show 0 ≤ year z by omega)
  obtain ⟨m, hm⟩ := Int.eq_ofNat_of_zero_le (show 0 ≤ month z by omega)
  obtain ⟨d, hd⟩ := Int.eq_ofNat_of_zero_le (show 0 ≤ day z by omega)
  obtain ⟨hh, hhh⟩ := Int.eq_ofNat_of_zero_le (show 0 ≤ secs % 86400 / 3600 by omega)
  obtain ⟨mm, hmm⟩ := Int.eq_ofNat_of_zero_le (show 0 ≤ secs % 86400 % 3600 / 60 by omega)
  obtain ⟨ss, hss⟩ := Int.eq_ofNat_of_zero_le (show 0 ≤ secs % 86400 % 60 by omega)
  rw [hy, hm, hd, hhh, hmm, hss] at hprinted hcount
  rw [hy] at hfirst hend hd1
  rw [hm] at hm0 hm1 hd1
  rw [hd] at hd0 hd1
  exact ⟨y, m, d, hh, mm, ss, hprinted, by omega, by omega, by omega, by omega, by omega, hd1, by
    omega, by omega, by omega, hcount⟩

/-- Up to the end of the year 9999 a time survives the wire in whole seconds, and
its date is printed as one that is on the calendar. -/
theorem times_survive (t : SystemTime) (h0 : 0 ≤ t) (h1 : t < 253402300800 * NANOS) :
    parseRfc3339 (rfc3339 t) = some (t / NANOS * NANOS) ∧
      ∃ y m d hh mm ss : Nat, rfc3339 t = clock y m d hh mm ss ∧ 1970 ≤ y ∧ y ≤ 9999 ∧ 1 ≤ m ∧
      m ≤ 12 ∧ 1 ≤ d ∧ (d : Int) ≤ daysIn y m ∧ hh < 24 ∧ mm < 60 ∧ ss < 60 := by
  obtain ⟨y, m, d, hh, mm, ss, hprinted, hy0, hy1, hm0, hm1, hd0, hd1, hhh, hmm, hss, hback⟩ :=
    rfc3339_fields h0 h1
  have hle : (d : Int) ≤ 31 := Int.le_trans hd1 (daysIn_le _ _)
  have hpast : ¬ t / NANOS < 0 := Int.not_lt.mpr (Int.ediv_nonneg h0 (by decide))
  refine ⟨?_, y, m, d, hh, mm, ss, hprinted, hy0, hy1, hm0, hm1, hd0, hd1, hhh, hmm, hss⟩
  rw [hprinted, parse_clock (by omega) (by omega) (by omega) (by omega) (by omega) (by omega),
    hback, if_neg hpast]

/-- The last day of a February in a leap year. -/
theorem times_survive_leap_day :
    parseRfc3339 (rfc3339 (951868799 * NANOS + 5)) = some (951868799 * NANOS) :=
  (times_survive (951868799 * NANOS + 5) (by decide) (by decide)).1

end KissTncBridge.Proofs.Times
