import Mathlib
import KissTncBridge.Config.Resolve
import KissTncBridge.Config.Values

namespace KissTncBridge.Proofs.Durations
open Conf

theorem digit_ten (c : Char) :
    Parse.digit 10 c = if c.isDigit then some (c.toNat - 48) else none := by
  have hd : c.isDigit = true ↔ 48 ≤ c.toNat ∧ c.toNat ≤ 57 := by
    rw [Char.isDigit, Bool.and_eq_true, decide_eq_true_eq, decide_eq_true_eq]
    exact Iff.rfl
  unfold Parse.digit
  dsimp only
  by_cases h : 48 ≤ c.toNat ∧ c.toNat ≤ 57
  · have hlt : c.toNat - 48 < 10 := by omega
    rw [if_pos h, if_pos (hd.mpr h)]
    simp [hlt]
  · rw [if_neg h, if_neg (fun hc => h (hd.mp hc))]
    split
    · simp only [Option.filter_some, decide_eq_true_eq, ite_eq_right_iff, reduceCtorEq, imp_false]
      omega
    · split
      · simp only [Option.filter_some, decide_eq_true_eq, ite_eq_right_iff, reduceCtorEq, imp_false]
        omega
      · rfl

/-- Reading digits is their decimal value; anything else is no number. -/
theorem foldl_digits (cs : List Char) (init : Nat) :
    cs.foldlM (fun n c => (Parse.digit 10 c).map (fun d => n * 10 + d)) init =
      if ∀ c ∈ cs, c.isDigit = true then some (Nat.ofDigitChars 10 cs init) else none := by
  induction cs generalizing init with
  | nil => simp
  | cons c cs ih =>
    rw [List.foldlM_cons, digit_ten]
    by_cases hc : c.isDigit = true
    · rw [if_pos hc, Option.map_some, Option.bind_eq_bind, Option.bind_some, ih,
        Nat.ofDigitChars_cons]
      have hval : init * 10 + (c.toNat - 48) = 10 * init + (c.toNat - '0'.toNat) := by
        rw [Nat.mul_comm]
        rfl
      simp only [List.mem_cons, forall_eq_or_imp, hc, true_and, hval]
    · rw [if_neg hc]
      simp [hc]

theorem number_digits {ds : List Char} (hne : ds ≠ []) (hd : ∀ c ∈ ds, c.isDigit = true)
    (bound : Nat) :
    Parse.number 10 bound ds =
      if Nat.ofDigitChars 10 ds 0 < bound then some (Nat.ofDigitChars 10 ds 0) else none := by
  cases ds with
  | nil => exact absurd rfl hne
  | cons c cs =>
    have hplus : c ≠ '+' := by
      rintro rfl
      exact absurd (hd '+' (List.mem_cons_self ..)) (by decide)
    unfold Parse.number
    split
    · rename_i rest heq
      exact absurd (List.cons.inj heq).1 hplus
    · have hlist : (c :: cs).isEmpty = false := rfl
      simp only [hlist, Bool.false_eq_true, if_false, foldl_digits, if_pos hd]
      rfl

theorem number_bound (h : Parse.number radix bound s = some n) : n < bound := by
  have hread : ∀ ds : List Char, (if ds.isEmpty then none
      else (ds.foldlM (fun n c => (Parse.digit radix c).map (fun d => n * radix + d)) 0).bind
        (fun n => if n < bound then some n else none)) = some n → n < bound := by
    intro ds h
    split at h
    · cases h
    · obtain ⟨k, -, hk⟩ := Option.bind_eq_some_iff.mp h
      split at hk
      · rename_i hlt
        exact Option.some.inj hk ▸ hlt
      · cases hk
  exact hread _ h

theorem trimChars_head {c : Char} (hc : Text.isWhite c = false) (cs : List Char) :
    (Text.trimChars (c :: cs)).head? = some c := by
  have hlast : ∀ l : List Char, ((l ++ [c]).dropWhile Text.isWhite).getLast? = some c := by
    intro l
    induction l with
    | nil => simp [hc]
    | cons x l ih =>
      rw [List.cons_append, List.dropWhile_cons]
      split
      · exact ih
      · rw [← List.cons_append, List.getLast?_append_cons]
        rfl
  rw [Text.trimChars, List.dropWhile_cons_of_neg (by simp [hc]), List.head?_reverse,
    List.reverse_cons]
  exact hlast cs.reverse

def unitMillis (unit : String) : Option Nat :=
  if unit = "" ∨ unit = "s" then some 1000
  else if unit = "ms" then some 1
  else if unit = "m" then some 60000
  else if unit = "h" then some 3600000
  else none

/-- `s` is the decimal number `n` with a unit of `ms` milliseconds. -/
def Written (s : String) (n ms : Nat) : Prop :=
  ∃ ds rest, (Text.trim s).toList = ds ++ rest ∧ ds ≠ [] ∧ (∀ c ∈ ds, c.isDigit = true) ∧
    Nat.ofDigitChars 10 ds 0 = n ∧ unitMillis (String.ofList (Text.trimChars rest)) = some ms

theorem unitMillis_cases (h : unitMillis unit = some ms) :
    ((unit = "" ∨ unit = "s") ∧ ms = 1000) ∨ (unit = "ms" ∧ ms = 1) ∨ (unit = "m" ∧ ms = 60000) ∨
      (unit = "h" ∧ ms = 3600000) := by
  unfold unitMillis at h
  split at h
  · exact .inl ⟨‹_›, (Option.some.inj h).symm⟩
  · split at h
    · exact .inr (.inl ⟨‹_›, (Option.some.inj h).symm⟩)
    · split at h
      · exact .inr (.inr (.inl ⟨‹_›, (Option.some.inj h).symm⟩))
      · split at h
        · exact .inr (.inr (.inr ⟨‹_›, (Option.some.inj h).symm⟩))
        · cases h

/-- No unit begins with a digit. -/
theorem unit_head (h : unitMillis (String.ofList (Text.trimChars rest)) = some ms) :
    ∀ c ∈ rest.head?, c.isDigit = false := by
  intro c hc
  cases rest with
  | nil => cases hc
  | cons x rest =>
    obtain rfl := Option.some.inj hc
    by_contra hdigit
    have hwhite : Text.isWhite x = false := by
      have hd : x.isDigit = true := by simpa using hdigit
      rw [Char.isDigit, Bool.and_eq_true, decide_eq_true_eq, decide_eq_true_eq] at hd
      have h1 : 48 ≤ x.toNat := hd.1
      have h2 : x.toNat ≤ 57 := hd.2
      simp only [Text.isWhite, Bool.or_eq_false_iff, Bool.and_eq_false_iff,
        beq_eq_false_iff_ne, ne_eq, decide_eq_false_iff_not]
      omega
    have hhead := trimChars_head hwhite rest
    generalize hunit : String.ofList (Text.trimChars (x :: rest)) = unit at h
    have hlist : Text.trimChars (x :: rest) = unit.toList := by
      rw [← hunit, String.toList_ofList]
    rw [hlist] at hhead
    rcases unitMillis_cases h with ⟨rfl | rfl, -⟩ | ⟨rfl, -⟩ | ⟨rfl, -⟩ | ⟨rfl, -⟩
    · cases hhead
    all_goals
      obtain rfl := Option.some.inj hhead
      exact hdigit (by decide)

/-- The number that a text begins with, and what is behind it. -/
theorem split_digits {ds rest : List Char} (hd : ∀ c ∈ ds, c.isDigit = true)
    (hr : ∀ c ∈ rest.head?, c.isDigit = false) : (ds ++ rest).takeWhile Char.isDigit = ds := by
  rw [List.takeWhile_append_of_pos hd]
  cases rest with
  | nil => simp
  | cons c rest =>
    rw [List.takeWhile_cons_of_neg (by simp [hr c rfl]), List.append_nil]

theorem Written.unique (h : Written s n ms) (h' : Written s n' ms') : n = n' ∧ ms = ms' := by
  obtain ⟨ds, rest, hs, -, hd, rfl, hu⟩ := h
  obtain ⟨ds', rest', hs', -, hd', rfl, hu'⟩ := h'
  have hds : ds = ds' := by
    rw [← split_digits hd (unit_head hu), ← hs, hs', split_digits hd' (unit_head hu')]
  subst hds
  have hrest : rest = rest' := List.append_cancel_left (hs.symm.trans hs')
  subst hrest
  exact ⟨rfl, Option.some.inj (hu.symm.trans hu')⟩

def product (n ms : Nat) : Duration :=
  if ms = 1 then n else n * (ms / 1000) % UInt64.size * 1000

/-- What is read, by the number at the start of the text and what is behind it. -/
theorem parseDuration_eq {ds rest : List Char} (hs : (Text.trim s).toList = ds ++ rest)
    (hd : ∀ c ∈ ds, c.isDigit = true) (hr : ∀ c ∈ rest.head?, c.isDigit = false) :
    (parseDuration s).toOption =
      if ds ≠ [] ∧ Nat.ofDigitChars 10 ds 0 < UInt64.size then
        (unitMillis (String.ofList (Text.trimChars rest))).map (product (Nat.ofDigitChars 10 ds 0))
      else none := by
  have htake : (Text.trim s).toList.takeWhile Char.isDigit = ds := by rw [hs, split_digits hd hr]
  have hdrop : (Text.trim s).toList.drop ds.length = rest := by rw [hs, List.drop_left]
  unfold parseDuration
  dsimp only
  rw [htake, hdrop, Parse.uint64, String.toList_ofList]
  cases ds with
  | nil => rfl
  | cons c cs =>
    rw [number_digits (List.cons_ne_nil c cs) hd]
    by_cases hlt : Nat.ofDigitChars 10 (c :: cs) 0 < UInt64.size
    · rw [if_pos hlt, if_pos ⟨List.cons_ne_nil c cs, hlt⟩]
      generalize Nat.ofDigitChars 10 (c :: cs) 0 = n at hlt
      generalize String.ofList (Text.trimChars rest) = unit
      unfold unitMillis
      dsimp only
      split
      · simp [product, Nat.mod_eq_of_lt hlt, Except.toOption]
      · split
        · simp [product, Except.toOption]
        · split
          · simp [product, Except.toOption]
          · split
            · simp [product, Except.toOption]
            · rfl
    · rw [if_neg hlt, if_neg (fun h => hlt h.2)]
      rfl

theorem parseDuration_ok :
    parseDuration s = .ok d ↔ ∃ n ms, Written s n ms ∧ n < UInt64.size ∧ d = product n ms := by
  have hoption : parseDuration s = .ok d ↔ (parseDuration s).toOption = some d := by
    cases parseDuration s with
    | ok x => simp [Except.toOption]
    | error e => simp [Except.toOption]
  rw [hoption]
  constructor
  · intro h
    have hall : ∀ c ∈ (Text.trim s).toList.takeWhile Char.isDigit, c.isDigit = true :=
      List.all_eq_true.mp List.all_takeWhile
    have hrest : ∀ c ∈ ((Text.trim s).toList.dropWhile Char.isDigit).head?, c.isDigit = false := by
      intro c hc
      have hhead := List.head?_dropWhile_not Char.isDigit (Text.trim s).toList
      rw [Option.mem_def.mp hc] at hhead
      simpa using hhead
    have hsplit : (Text.trim s).toList =
        (Text.trim s).toList.takeWhile Char.isDigit ++
            (Text.trim s).toList.dropWhile Char.isDigit :=
      List.takeWhile_append_dropWhile.symm
    rw [parseDuration_eq hsplit hall hrest] at h
    split at h
    · rename_i hn
      obtain ⟨ms, hms, rfl⟩ := Option.map_eq_some_iff.mp h
      exact ⟨_, ms, ⟨_, _, hsplit, hn.1, hall, rfl, hms⟩, hn.2, rfl⟩
    · cases h
  · rintro ⟨n, ms, ⟨ds, rest, hs, hne, hd, rfl, hu⟩, hlt, rfl⟩
    rw [parseDuration_eq hs hd (unit_head hu), if_pos ⟨hne, hlt⟩, hu, Option.map_some]

theorem product_exact (h : unitMillis unit = some ms) :
    product n ms = n * ms ↔ n * (ms / 1000) < UInt64.size := by
  have hwrap : ∀ k, n * k % UInt64.size * 1000 = n * (1000 * k) ↔ n * k < UInt64.size := by
    intro k
    rw [Nat.mul_comm 1000 k, ← Nat.mul_assoc, Nat.mul_left_inj (by decide),
      Nat.mod_eq_iff_lt (by decide)]
  rcases unitMillis_cases h with ⟨-, rfl⟩ | ⟨-, rfl⟩ | ⟨-, rfl⟩ | ⟨-, rfl⟩
  · exact hwrap 1
  · simp [product]
  · exact hwrap 60
  · exact hwrap 3600

/-- A text is read as exactly the duration it says, or not at all. -/
def Exact (s : String) : Prop :=
  (∀ d, parseDuration s = .ok d → ∃ n ms, Written s n ms ∧ d = n * ms) ∧
    ∀ source object d, resolveIdleTimeout (some s) source object = (d, []) →
      ∃ n ms, Written s n ms ∧ d = n * ms

theorem idleTimeout_ok :
    resolveIdleTimeout (some s) source object = (d, []) ↔ parseDuration s = .ok d := by
  unfold resolveIdleTimeout
  rw [Option.map_some]
  cases parseDuration s with
  | ok x => simp
  | error e => simp

/-- A duration is read exactly iff its number of minutes or hours, in seconds, is
below 2^64. -/
theorem duration_exact_iff (s : String) :
    Exact s ↔ ∀ n ms, Written s n ms → n < UInt64.size → n * (ms / 1000) < UInt64.size := by
  have hexact : Exact s ↔ ∀ d, parseDuration s = .ok d → ∃ n ms, Written s n ms ∧ d = n * ms :=
    ⟨fun h => h.1, fun h => ⟨h, fun source object d hd => h d (idleTimeout_ok.mp hd)⟩⟩
  rw [hexact]
  constructor
  · intro h n ms hw hlt
    obtain ⟨n', ms', hw', heq⟩ := h _ (parseDuration_ok.mpr ⟨n, ms, hw, hlt, rfl⟩)
    obtain ⟨rfl, rfl⟩ := hw.unique hw'
    obtain ⟨_, _, -, -, -, -, hu⟩ := hw
    exact (product_exact hu).mp heq
  · intro h d hd
    obtain ⟨n, ms, hw, hlt, rfl⟩ := parseDuration_ok.mp hd
    have hfits := h n ms hw hlt
    refine ⟨n, ms, hw, ?_⟩
    obtain ⟨_, _, -, -, -, -, hu⟩ := hw
    exact (product_exact hu).mpr hfits

/-- 2^60 hours become a timeout of zero. -/
theorem long_timeout_is_none : ¬ Exact "1152921504606846976h" ∧
    resolveIdleTimeout (some "1152921504606846976h") .dynamic "bridge ktbr0 port radio" = (0, []) ∧
    Written "1152921504606846976h" 1152921504606846976 3600000 := by
  have hw : Written "1152921504606846976h" 1152921504606846976 3600000 :=
    ⟨"1152921504606846976".toList, ['h'], by decide, by decide, List.all_eq_true.mp (by decide), by
      decide, by decide⟩
  refine ⟨fun h => ?_, rfl, hw⟩
  obtain ⟨n, ms, hw', heq⟩ := h.1 0 rfl
  obtain ⟨rfl, rfl⟩ := hw.unique hw'
  exact absurd heq (by decide)

end KissTncBridge.Proofs.Durations
