import Mathlib.Data.Finset.Card
import Mathlib.Data.Finset.Range
import Mathlib.Data.List.Induction

namespace KissTncBridge.Lib

theorem getElem?_set_cases {l : List α} {i j : Nat} (h : (l.set j a)[i]? = some b) :
    i = j ∧ b = a ∨ i ≠ j ∧ l[i]? = some b := by
  by_cases he : j = i
  · subst he
    rw [List.getElem?_set_self', Option.map_eq_map, Option.map_eq_some_iff] at h
    obtain ⟨_, -, rfl⟩ := h
    exact .inl ⟨rfl, rfl⟩
  · rw [List.getElem?_set_ne he] at h
    exact .inr ⟨Ne.symm he, h⟩

theorem getElem?_snoc_cases {l : List α} {i : Nat} (h : (l ++ [a])[i]? = some b) :
    i = l.length ∧ b = a ∨ l[i]? = some b := by
  rcases Nat.lt_trichotomy i l.length with hlt | rfl | hgt
  · rw [List.getElem?_append_left hlt] at h
    exact .inr h
  · rw [List.getElem?_concat_length] at h
    exact .inl ⟨rfl, (Option.some.inj h).symm⟩
  · rw [List.getElem?_append_right (Nat.le_of_lt hgt), List.getElem?_singleton,
      if_neg (by omega)] at h
    cases h

/-- Where the elements are that have a property. -/
def indices (p : α → Bool) (l : List α) : Finset Nat :=
  (Finset.range l.length).filter (fun i => l[i]?.any p)

theorem mem_indices {p : α → Bool} {l : List α} :
    i ∈ indices p l ↔ ∃ a, l[i]? = some a ∧ p a = true := by
  rw [indices, Finset.mem_filter, Finset.mem_range]
  constructor
  · rintro ⟨hlt, hp⟩
    rw [List.getElem?_eq_getElem hlt] at hp ⊢
    exact ⟨_, rfl, hp⟩
  · rintro ⟨a, ha, hp⟩
    refine ⟨(List.getElem?_eq_some_iff.mp ha).1, ?_⟩
    rw [ha]
    exact hp

/-- There are as many of them as of the elements. -/
theorem card_indices (p : α → Bool) (l : List α) : (indices p l).card = (l.filter p).length := by
  induction l using List.reverseRecOn with
  | nil => rfl
  | append_singleton l a ih =>
    have hold : ∀ i, i ≠ l.length → (i ∈ indices p (l ++ [a]) ↔ i ∈ indices p l) := by
      intro i hi
      rw [mem_indices, mem_indices]
      rcases Nat.lt_or_ge i l.length with hlt | hge
      · rw [List.getElem?_append_left hlt]
      · rw [List.getElem?_eq_none (by simp; omega), List.getElem?_eq_none hge]
    have hout : l.length ∉ indices p l := by
      rw [mem_indices]
      rintro ⟨b, hb, -⟩
      rw [List.getElem?_eq_none (Nat.le_refl _)] at hb
      cases hb
    have hlast : l.length ∈ indices p (l ++ [a]) ↔ p a = true := by
      rw [mem_indices, List.getElem?_concat_length]
      simp
    cases hp : p a with
    | true =>
      have he : indices p (l ++ [a]) = insert l.length (indices p l) := by
        ext i
        by_cases hi : i = l.length
        · subst hi
          simp [hlast, hp]
        · simp [hold i hi, hi]
      rw [he, Finset.card_insert_of_notMem hout, ih]
      simp [hp]
    | false =>
      have he : indices p (l ++ [a]) = indices p l := by
        ext i
        by_cases hi : i = l.length
        · subst hi
          simp [hlast, hp, hout]
        · exact hold i hi
      rw [he, ih]
      simp [hp]

end KissTncBridge.Lib
