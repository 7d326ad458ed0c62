import KissTncBridge.Lib.Indices
import Mathlib.Logic.Function.Basic

namespace KissTncBridge.Lib

/-- The table says at which place of the list the live element with a key is. -/
def Registry (live : α → Bool) (key : α → κ) (l : List α) (table : κ → Option Nat) : Prop :=
  ∀ k i, table k = some i ↔ ∃ a, l[i]? = some a ∧ live a = true ∧ key a = k

namespace Registry

variable {live : α → Bool} {key : α → κ} {l : List α} {table : κ → Option Nat} {a b : α} {i j : Nat}

theorem nil : Registry live key ([] : List α) (fun _ => none) := by
  intro k i
  constructor
  · intro h
    cases h
  · intro ⟨a, ha, _⟩
    cases ha

/-- There is at most one live element with a key. -/
theorem unique (h : Registry live key l table) (ha : l[i]? = some a) (hb : l[j]? = some b)
    (hla : live a = true) (hlb : live b = true) (hk : key a = key b) : i = j := by
  have hi := (h (key a) i).mpr ⟨a, ha, hla, rfl⟩
  have hj := (h (key a) j).mpr ⟨b, hb, hlb, hk.symm⟩
  exact Option.some.inj (hi.symm.trans hj)

theorem append (h : Registry live key l table) (hn : live a = false) :
    Registry live key (l ++ [a]) table := by
  intro k i
  rw [h k i]
  constructor
  · intro ⟨b, hb, hl, hk⟩
    have hlt := (List.getElem?_eq_some_iff.mp hb).1
    exact ⟨b, by rw [List.getElem?_append_left hlt, hb], hl, hk⟩
  · intro ⟨b, hb, hl, hk⟩
    rcases getElem?_snoc_cases hb with ⟨-, rfl⟩ | hb
    · rw [hn] at hl
      cases hl
    · exact ⟨b, hb, hl, hk⟩

/-- A change that concerns neither its being live nor its key. -/
theorem set (h : Registry live key l table) (ha : l[i]? = some a) (hl : live b = live a)
    (hk : key b = key a) : Registry live key (l.set i b) table := by
  intro k j
  rw [h k j]
  constructor
  · intro ⟨c, hc, hlc, hkc⟩
    by_cases he : i = j
    · subst he
      obtain rfl := Option.some.inj (ha.symm.trans hc)
      exact ⟨b, by
        rw [List.getElem?_set_self (List.getElem?_eq_some_iff.mp ha).1], hl.trans hlc, hk.trans hkc⟩
    · exact ⟨c, by rw [List.getElem?_set_ne he, hc], hlc, hkc⟩
  · intro ⟨c, hc, hlc, hkc⟩
    rcases getElem?_set_cases hc with ⟨rfl, rfl⟩ | ⟨-, hc⟩
    · exact ⟨a, ha, hl.symm.trans hlc, hk.symm.trans hkc⟩
    · exact ⟨c, hc, hlc, hkc⟩

variable [DecidableEq κ]

theorem enter (h : Registry live key l table) (ha : l[i]? = some a) (hn : live a = false)
    (hb : live b = true) (hfree : table (key b) = none) :
    Registry live key (l.set i b) (Function.update table (key b) (some i)) := by
  intro k j
  have hself : (l.set i b)[i]? = some b :=
    List.getElem?_set_self (List.getElem?_eq_some_iff.mp ha).1
  by_cases hk : k = key b
  · subst hk
    rw [Function.update_self, Option.some.injEq]
    constructor
    · intro he
      subst he
      exact ⟨b, hself, hb, rfl⟩
    · intro ⟨c, hc, hlc, hkc⟩
      rcases getElem?_set_cases hc with ⟨rfl, -⟩ | ⟨-, hc⟩
      · rfl
      · have hj := (h (key b) j).mpr ⟨c, hc, hlc, hkc⟩
        rw [hfree] at hj
        cases hj
  · rw [Function.update_of_ne hk, h k j]
    constructor
    · intro ⟨c, hc, hlc, hkc⟩
      by_cases he : i = j
      · subst he
        obtain rfl := Option.some.inj (ha.symm.trans hc)
        rw [hn] at hlc
        cases hlc
      · exact ⟨c, by rw [List.getElem?_set_ne he, hc], hlc, hkc⟩
    · intro ⟨c, hc, hlc, hkc⟩
      rcases getElem?_set_cases hc with ⟨-, rfl⟩ | ⟨-, hc⟩
      · exact absurd hkc.symm hk
      · exact ⟨c, hc, hlc, hkc⟩

theorem leave (h : Registry live key l table) (ha : l[i]? = some a) (hl : live a = true)
    (hb : live b = false) : Registry live key (l.set i b) (Function.update table (key a) none) := by
  intro k j
  by_cases hk : k = key a
  · subst hk
    rw [Function.update_self]
    constructor
    · intro he
      cases he
    · intro ⟨c, hc, hlc, hkc⟩
      rcases getElem?_set_cases hc with ⟨-, rfl⟩ | ⟨hne, hc⟩
      · rw [hb] at hlc
        cases hlc
      · exact absurd (h.unique hc ha hlc hl hkc) hne
  · rw [Function.update_of_ne hk, h k j]
    constructor
    · intro ⟨c, hc, hlc, hkc⟩
      by_cases he : i = j
      · subst he
        obtain rfl := Option.some.inj (ha.symm.trans hc)
        exact absurd hkc.symm hk
      · exact ⟨c, by rw [List.getElem?_set_ne he, hc], hlc, hkc⟩
    · intro ⟨c, hc, hlc, hkc⟩
      rcases getElem?_set_cases hc with ⟨-, rfl⟩ | ⟨-, hc⟩
      · rw [hb] at hlc
        cases hlc
      · exact ⟨c, hc, hlc, hkc⟩

end Registry

end KissTncBridge.Lib
