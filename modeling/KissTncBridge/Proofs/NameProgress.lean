import KissTncBridge.Dnssd.Announcer
import KissTncBridge.Proofs.Durations
import Mathlib.Logic.Function.Iterate

namespace KissTncBridge.Proofs.NameProgress
open Conf Dnssd Durations

/-- A name's text in front of the number that it ends in, and the number. -/
def counted (name : String) : Option (List Char × Nat) :=
  if name.toList.getLast? = some ')' then
    (Text.rsplitParen name.toList.dropLast).bind (fun p =>
      (Parse.number 10 UInt32.size p.2).map (fun n => (p.1, n)))
  else none

theorem nextName_eq (name : String) : nextName name =
    match counted name with
    | some (base, n) => String.ofList base ++ " (" ++ toString ((n + 1) % UInt32.size) ++ ")"
    | none => name ++ " (2)" := rfl

/-- The number that a name ends in; a name without one is the first. -/
def number (name : String) : Nat := ((counted name).map Prod.snd).getD 1

def Overflows (name : String) : Prop :=
  ∃ base n, counted name = some (base, n) ∧ UInt32.size ≤ n + 1

theorem number_lt (name : String) : number name < UInt32.size := by
  unfold number
  cases hc : counted name with
  | none => decide
  | some p =>
    obtain ⟨base, n⟩ := p
    rw [Option.map_some, Option.getD_some]
    unfold counted at hc
    split at hc
    · obtain ⟨q, -, hq⟩ := Option.bind_eq_some_iff.mp hc
      obtain ⟨m, hm, he⟩ := Option.map_eq_some_iff.mp hq
      obtain ⟨-, rfl⟩ := Prod.mk.inj he
      exact number_bound hm
    · cases hc

theorem overflows_iff (name : String) : Overflows name ↔ number name + 1 = UInt32.size := by
  have hlt := number_lt name
  unfold number at hlt ⊢
  unfold Overflows
  constructor
  · rintro ⟨base, n, hc, hn⟩
    rw [hc, Option.map_some, Option.getD_some] at hlt ⊢
    omega
  · intro h
    cases hc : counted name with
    | none =>
      rw [hc] at h
      exact absurd h (by decide)
    | some p =>
      rw [hc, Option.map_some, Option.getD_some] at h
      exact ⟨p.1, p.2, rfl, Nat.le_of_eq h.symm⟩

/-- There is no bracket in digits, so the split is in front of them. -/
theorem rsplitParen_digits {ds : List Char} (hd : ∀ c ∈ ds, c.isDigit = true) :
    Text.rsplitParen ds = none := by
  induction ds with
  | nil => rfl
  | cons c ds ih =>
    have hc : c ≠ ' ' := by
      rintro rfl
      exact absurd (hd ' ' (List.mem_cons_self ..)) (by decide)
    unfold Text.rsplitParen
    rw [ih (fun x hx => hd x (List.mem_cons_of_mem c hx))]
    dsimp only
    split
    · exact absurd rfl hc
    · rfl

theorem rsplitParen_append (base : List Char) {ds : List Char} (hd : ∀ c ∈ ds, c.isDigit = true) :
    Text.rsplitParen (base ++ ' ' :: '(' :: ds) = some (base, ds) := by
  induction base with
  | nil =>
    have hparen : Text.rsplitParen ('(' :: ds) = none := by
      unfold Text.rsplitParen
      rw [rsplitParen_digits hd]
      rfl
    rw [List.nil_append]
    unfold Text.rsplitParen
    rw [hparen]
    rfl
  | cons c base ih =>
    rw [List.cons_append]
    unfold Text.rsplitParen
    rw [ih]

/-- A name that was made with a number is read back as that number. -/
theorem counted_made (base : String) {n : Nat} (hn : n < UInt32.size) :
    counted (base ++ " (" ++ toString n ++ ")") = some (base.toList, n) := by
  have hdigits : ∀ c ∈ Nat.toDigits 10 n, c.isDigit = true :=
    fun c hc => Nat.isDigit_of_mem_toDigits (by decide) (by decide) hc
  have hlist : (base ++ " (" ++ toString n ++ ")").toList =
      (base.toList ++ ' ' :: '(' :: Nat.toDigits 10 n) ++ [')'] := by
    rw [Nat.toString_eq_ofList_toDigits]
    simp
  have hread : Parse.number 10 UInt32.size (Nat.toDigits 10 n) = some n := by
    rw [number_digits Nat.toDigits_ne_nil hdigits, Nat.ofDigitChars_ten_toDigits, if_pos hn]
  unfold counted
  rw [hlist, List.getLast?_concat, if_pos rfl, List.dropLast_concat, rsplitParen_append _ hdigits,
    Option.bind_some, hread, Option.map_some]

theorem number_next (h : number name + 1 < UInt32.size) :
    number (nextName name) = number name + 1 := by
  have hmade : ∀ base, nextName name = base ++ " (" ++ toString (number name + 1) ++ ")" →
      number (nextName name) = number name + 1 := by
    intro base he
    rw [he, number, counted_made base h, Option.map_some, Option.getD_some]
  rw [nextName_eq] at hmade ⊢
  cases hc : counted name with
  | none =>
    rw [hc] at hmade
    refine hmade name ?_
    rw [number, hc, String.append_assoc, String.append_assoc]
    rfl
  | some p =>
    obtain ⟨base, n⟩ := p
    have hnum : number name = n := by rw [number, hc, Option.map_some, Option.getD_some]
    rw [hc] at hmade
    rw [hnum] at h hmade ⊢
    refine hmade (String.ofList base) ?_
    dsimp only
    rw [Nat.mod_eq_of_lt h]

theorem number_iterate {k : Nat} (h : number name + k < UInt32.size) :
    number (nextName^[k] name) = number name + k := by
  induction k with
  | zero => rfl
  | succ k ih =>
    have hk := ih (by omega)
    rw [Function.iterate_succ_apply', number_next (by omega), hk]
    omega

def collide (a : Announcer) (id : String) (written : List Bool) : Option Announcer :=
  written.foldlM (fun a w => a.adjustName id w) a

theorem adjustName_name {a a' : Announcer} {id : String} {b : BridgeAnn}
    (hb : a.bridges[id]? = some b) (h : a.adjustName id written = some a') :
    a'.bridges = a.bridges ∧ a'.names b.name = nextName (a.names b.name) := by
  obtain ⟨b', hb', h⟩ := Option.bind_eq_some_iff.mp h
  obtain rfl := Option.some.inj (hb.symm.trans hb')
  obtain rfl := Option.some.inj h
  exact ⟨rfl, Function.update_self ..⟩

theorem collide_name {a a' : Announcer} {id : String} {b : BridgeAnn} {written : List Bool}
    (hb : a.bridges[id]? = some b) (h : collide a id written = some a') :
    a'.names b.name = nextName^[written.length] (a.names b.name) := by
  induction written generalizing a with
  | nil =>
    obtain rfl := Option.some.inj h
    rfl
  | cons w written ih =>
    obtain ⟨a₁, ha, h⟩ := Option.bind_eq_some_iff.mp h
    obtain ⟨hbridges, hname⟩ := adjustName_name hb ha
    have hrest := ih (hbridges ▸ hb) h
    rw [hrest, hname, List.length_cons, Function.iterate_succ_apply]

/-- Moving on `n` times overflows nowhere, gives names that all differ, and makes a
bridge that collides as often try no name twice. -/
structure Progress (name : String) (n : Nat) : Prop where
  fits : ∀ k < n, ¬ Overflows (nextName^[k] name)
  differ : ∀ i ≤ n, ∀ j ≤ n, nextName^[i] name = nextName^[j] name → i = j
  tried : ∀ (a a₁ a₂ : Announcer) (id : String) (b : BridgeAnn) (ws₁ ws₂ : List Bool),
    a.bridges[id]? = some b →
    a.names b.name = name → collide a id ws₁ = some a₁ → collide a id ws₂ = some a₂ →
    ws₁.length ≤ n → ws₂.length ≤ n → a₁.names b.name = a₂.names b.name → ws₁.length = ws₂.length

/-- Name adjustment makes progress for as long as the number in the name, which
starts at one, stays below 2^32. -/
theorem progress_iff (name : String) (n : Nat) :
    Progress name n ↔ number name + n < UInt32.size := by
  constructor
  · intro h
    by_contra hn
    have hlt := number_lt name
    have hk : UInt32.size - 1 - number name < n := by omega
    apply h.fits _ hk
    rw [overflows_iff, number_iterate (by omega)]
    omega
  · intro h
    have hdiffer : ∀ i ≤ n, ∀ j ≤ n, nextName^[i] name = nextName^[j] name → i = j := by
      intro i hi j hj he
      have hnum := congrArg number he
      rw [number_iterate (by omega), number_iterate (by omega)] at hnum
      omega
    refine ⟨fun k hk ho => ?_, hdiffer, ?_⟩
    · rw [overflows_iff, number_iterate (by omega)] at ho
      omega
    · intro a a₁ a₂ id b ws₁ ws₂ hb hname h₁ h₂ hl₁ hl₂ he
      rw [collide_name hb h₁, collide_name hb h₂, hname] at he
      exact hdiffer _ hl₁ _ hl₂ he

/-- A name a user may choose is moved on from the last number to zero. -/
theorem last_number_wraps :
    nextName "Attic (4294967295)" = "Attic (0)" ∧ ¬ Progress "Attic (4294967295)" 1 := by
  refine ⟨by decide, fun h => h.fits 0 (by decide) ?_⟩
  exact ⟨"Attic".toList, 4294967295, by decide, by decide⟩

end KissTncBridge.Proofs.NameProgress
