import Mathlib.Data.List.Nodup

namespace KissTncBridge.Lib

section
variable {key : α → κ} {l : List α}

/-- What a filter keeps with distinct keys has one place for each key. -/
theorem filter_one {c : α → Bool} {i j : Nat} (h : ((l.filter c).map key).Nodup)
    (hi : l[i]? = some a) (hj : l[j]? = some b) (ha : c a = true) (hb : c b = true)
    (hk : key a = key b) : i = j := by
  have hpair : l.Pairwise (fun x y => c x = true → c y = true → key x ≠ key y) :=
    List.pairwise_filter.mp (List.pairwise_map.mp h)
  obtain ⟨hil, rfl⟩ := List.getElem?_eq_some_iff.mp hi
  obtain ⟨hjl, rfl⟩ := List.getElem?_eq_some_iff.mp hj
  rcases Nat.lt_trichotomy i j with hlt | heq | hgt
  · exact absurd hk (List.pairwise_iff_getElem.mp hpair i j hil hjl hlt ha hb)
  · exact heq
  · exact absurd hk.symm (List.pairwise_iff_getElem.mp hpair j i hjl hil hgt hb ha)

/-- Of distinct keys, those in front are not among those behind. -/
theorem front_ne {l' : List α} (hn : ((l ++ l').map key).Nodup) (hb : b ∈ l') :
    ∀ a ∈ l, key a ≠ key b := by
  intro a ha he
  rw [List.map_append] at hn
  exact List.disjoint_of_nodup_append hn (List.mem_map_of_mem ha)
    (he ▸ List.mem_map_of_mem hb)

/-- Where everything makes something, what is made has the keys of what it is made
from. -/
theorem filterMap_keys {g : α → Option β} {key : α → Option κ} {key' : β → κ}
    (h : ∀ x ∈ l, ∃ y, g x = some y ∧ key x = some (key' y)) :
    l.map key = ((l.filterMap g).map key').map some := by
  induction l with
  | nil => rfl
  | cons x l ih =>
    obtain ⟨y, hy, hk⟩ := h x (List.mem_cons_self ..)
    rw [List.filterMap_cons_some hy, List.map_cons, List.map_cons, List.map_cons, hk,
      ih (fun z hz => h z (List.mem_cons_of_mem x hz))]

end

section
variable {key : α → κ} {ren : α → α} {l : List α} {old new : κ}
  (hself : ∀ a, key a = old → key (ren a) = new) (hother : ∀ a, key a ≠ old → ren a = a)
include hself hother

/-- What is found under a key after one is replaced by another that is free. -/
theorem find_renamed [DecidableEq κ] (hfree : ∀ a ∈ l, key a ≠ new) (x : κ) :
    (l.map ren).find? (fun a => key a == x) =
      if x = new then (l.find? (fun a => key a == old)).map ren
      else if x = old then none else l.find? (fun a => key a == x) := by
  induction l with
  | nil => simp
  | cons a l ih =>
    have hrest := ih (fun b hb => hfree b (List.mem_cons_of_mem a hb))
    have ha := hfree a (List.mem_cons_self ..)
    rw [List.map_cons, List.find?_cons, List.find?_cons, List.find?_cons, hrest]
    by_cases hk : key a = old
    · rw [hself a hk]
      by_cases hx : x = new
      · simp [hx, hk]
      · by_cases hxo : x = old
        · subst hxo
          have hne : (new == x) = false := by simp [Ne.symm hx]
          simp [hx, hne]
        · have hne : (new == x) = false := by simp [Ne.symm hx]
          have hne' : (key a == x) = false := by simp [hk, Ne.symm hxo]
          simp [hx, hxo, hne, hne']
    · rw [hother a hk]
      by_cases hx : x = new
      · subst hx
        have hne : (key a == x) = false := by simp [ha]
        have hne' : (key a == old) = false := by simp [hk]
        simp [hne, hne']
      · by_cases hxo : x = old
        · subst hxo
          have hne : (key a == x) = false := by simp [hk]
          simp [hx, hne]
        · simp [hx, hxo]

/-- Where keys are distinct after one is replaced, the new one was free. -/
theorem free_of_nodup (hne : old ≠ new) (hn : ((l.map ren).map key).Nodup) (ha : a ∈ l)
    (hk : key a = old) : ∀ b ∈ l, key b ≠ new := by
  intro b hb hkb
  have hren : ren b = b := hother b (fun he => hne (he.symm.trans hkb))
  rw [List.map_map] at hn
  have hab : a = b := List.inj_on_of_nodup_map hn ha hb
    (by rw [Function.comp_apply, Function.comp_apply, hself a hk, hren, hkb])
  exact hne (hk.symm.trans ((congrArg key hab).trans hkb))

end

end KissTncBridge.Lib
