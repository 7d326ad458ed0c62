import Std.Data.TreeMap
import Mathlib.Data.List.AList

namespace KissTncBridge.Lib

section
variable {α : Type u} {β : α → Type v} [DecidableEq α] {a a' : α} {b : β a}

theorem kreplace_cons_self (x : β a) (l : List (Sigma β)) :
    List.kreplace a b (⟨a, x⟩ :: l) = ⟨a, b⟩ :: l := by
  simp [List.kreplace]

theorem kreplace_cons_ne {s : Sigma β} (h : a ≠ s.1) (l : List (Sigma β)) :
    List.kreplace a b (s :: l) = s :: List.kreplace a b l := by
  simp [List.kreplace, h]

theorem dlookup_kreplace_ne (h : a' ≠ a) (l : List (Sigma β)) :
    (l.kreplace a b).dlookup a' = l.dlookup a' := by
  induction l with
  | nil => rfl
  | cons s l ih =>
    obtain ⟨c, x⟩ := s
    by_cases hc : a = c
    · subst hc
      rw [kreplace_cons_self, List.dlookup_cons_ne _ ⟨a, b⟩ h, List.dlookup_cons_ne _ ⟨a, x⟩ h]
    · rw [kreplace_cons_ne hc]
      by_cases hd : a' = c
      · subst hd
        rw [List.dlookup_cons_eq, List.dlookup_cons_eq]
      · rw [List.dlookup_cons_ne _ ⟨c, x⟩ hd, List.dlookup_cons_ne _ ⟨c, x⟩ hd, ih]

theorem dlookup_kreplace_self (l : List (Sigma β)) (h : a ∈ l.keys) :
    (l.kreplace a b).dlookup a = some b := by
  induction l with
  | nil => cases h
  | cons s l ih =>
    obtain ⟨c, x⟩ := s
    by_cases hc : a = c
    · subst hc
      rw [kreplace_cons_self, List.dlookup_cons_eq]
    · rw [kreplace_cons_ne hc, List.dlookup_cons_ne _ ⟨c, x⟩ hc]
      refine ih ?_
      rw [List.keys_cons, List.mem_cons] at h
      exact h.resolve_left hc

/-- Replacing one key's value leaves the others alone. -/
theorem lookup_replace_ne (h : a' ≠ a) (s : AList β) :
    (s.replace a b).lookup a' = s.lookup a' := dlookup_kreplace_ne h s.entries

theorem lookup_replace_self (s : AList β) (h : a ∈ s) : (s.replace a b).lookup a = some b :=
  dlookup_kreplace_self s.entries h

end

section
open Std
variable {α : Type u} {β : Type v} [Ord α] [TransOrd α] [LawfulEqOrd α] {k a : α}

theorem getElem?_insert_self (t : TreeMap α β) (k : α) (v : β) : (t.insert k v)[k]? = some v := by
  rw [TreeMap.getElem?_insert, if_pos ReflCmp.compare_self]

theorem getElem?_insert_ne (h : k ≠ a) (t : TreeMap α β) (v : β) : (t.insert k v)[a]? = t[a]? := by
  rw [TreeMap.getElem?_insert, if_neg (fun he => h (LawfulEqCmp.eq_of_compare he))]

theorem getElem?_erase_self (t : TreeMap α β) (k : α) : (t.erase k)[k]? = none := by
  rw [TreeMap.getElem?_erase, if_pos ReflCmp.compare_self]

theorem getElem?_erase_ne (h : k ≠ a) (t : TreeMap α β) : (t.erase k)[a]? = t[a]? := by
  rw [TreeMap.getElem?_erase, if_neg (fun he => h (LawfulEqCmp.eq_of_compare he))]

theorem toList_keys_nodup (t : TreeMap α β) : (t.toList.map Prod.fst).Nodup := by
  refine List.pairwise_map.mpr (TreeMap.distinct_keys_toList.imp ?_)
  intro x y hn he
  exact hn (he ▸ ReflCmp.compare_self)

/-- A map from pairs with distinct keys has exactly these pairs. -/
theorem getElem?_ofList_iff [BEq α] [LawfulBEq α] {l : List (α × β)} (hd : (l.map Prod.fst).Nodup) :
    (TreeMap.ofList l)[k]? = some v ↔ (k, v) ∈ l := by
  have hp : l.Pairwise (fun a b => ¬compare a.1 b.1 = .eq) := by
    refine (List.pairwise_map.mp hd).imp ?_
    intro x y hn he
    exact hn (LawfulEqCmp.eq_of_compare he)
  refine ⟨fun h => ?_, fun h => TreeMap.getElem?_ofList_of_mem ReflCmp.compare_self hp h⟩
  have hc : k ∈ TreeMap.ofList l := by
    rw [TreeMap.mem_iff_isSome_getElem?, h]
    rfl
  rw [TreeMap.mem_ofList, List.contains_iff_mem] at hc
  obtain ⟨⟨k', w⟩, hm, rfl⟩ := List.mem_map.mp hc
  have hw := TreeMap.getElem?_ofList_of_mem ReflCmp.compare_self hp hm
  rw [h] at hw
  cases hw
  exact hm

end

end KissTncBridge.Lib
