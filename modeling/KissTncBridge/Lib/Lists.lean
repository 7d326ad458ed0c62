import Mathlib.Data.List.Basic
import Mathlib.Data.List.Destutter
import Mathlib.Data.List.Perm.Subperm

namespace KissTncBridge.Lib

/-- What every element that is made has, all of them have. -/
theorem mapM_ok {α β ε : Type} {f : α → Except ε β} {P : β → Prop} (hf : ∀ a b, f a = .ok b → P b)
    {l : List α} {bs : List β} (h : l.mapM f = .ok bs) : ∀ b ∈ bs, P b := by
  induction l generalizing bs with
  | nil =>
    cases h
    exact fun b hb => absurd hb List.not_mem_nil
  | cons a rest ih =>
    rw [List.mapM_cons] at h
    cases ha : f a with
    | error e => simp [ha, bind, Except.bind] at h
    | ok b =>
      cases hr : rest.mapM f with
      | error e => simp [ha, hr, bind, Except.bind] at h
      | ok bs' =>
        simp only [ha, hr, bind, Except.bind, pure, Except.pure, Except.ok.injEq] at h
        subst h
        intro x hx
        rcases List.mem_cons.mp hx with rfl | hx
        · exact hf a x ha
        · exact ih hr x hx

/-- Looking only at some elements finds the same one, if the one that is found
is among them. -/
theorem find?_filter_found {l : List α} {p q : α → Bool}
    (h : ∀ a, l.find? q = some a → p a = true) : (l.filter p).find? q = l.find? q := by
  rw [List.find?_filter]
  cases hf : l.find? q with
  | none =>
    rw [List.find?_eq_none] at hf ⊢
    intro a ha hpq
    exact hf a ha (of_decide_eq_true hpq).2
  | some a =>
    have hp := h a hf
    rw [List.find?_eq_some_iff_append] at hf ⊢
    obtain ⟨hq, as, bs, hl, hn⟩ := hf
    refine ⟨decide_eq_true ⟨hp, hq⟩, as, bs, hl, fun b hb => ?_⟩
    have hb := hn b hb
    simp only [Bool.not_eq_true'] at hb
    simp [hb]

theorem filter_eraseP_self (p : α → Bool) (l : List α) :
    (l.eraseP p).filter p = (l.filter p).tail := by
  induction l with
  | nil => rfl
  | cons a l ih =>
    cases hp : p a with
    | true => simp [hp]
    | false => simp [hp, ih]

theorem filter_eraseP_disjoint {p q : α → Bool} (h : ∀ a, q a = true → p a = false) (l : List α) :
    (l.eraseP q).filter p = l.filter p := by
  induction l with
  | nil => rfl
  | cons a l ih =>
    cases hq : q a with
    | true => simp [hq, h a hq]
    | false => simp [hq, List.filter_cons, ih]

theorem mem_destutter'_ne [DecidableEq α] {a : α} (b : α) (l : List α) :
    a ∈ l.destutter' (· ≠ ·) b ↔ a = b ∨ a ∈ l := by
  induction l generalizing b with
  | nil => simp
  | cons c l ih =>
    by_cases hbc : b ≠ c
    · rw [List.destutter'_cons_pos l hbc, List.mem_cons, ih, List.mem_cons]
    · rw [List.destutter'_cons_neg l hbc, ih, List.mem_cons]
      simp only [ne_eq, not_not] at hbc
      subst hbc
      exact ⟨fun h => h.elim .inl (fun h => .inr (.inr h)), fun h => h.elim .inl id⟩

/-- Leaving out repetitions loses no element. -/
theorem mem_destutter_ne [DecidableEq α] {a : α} (l : List α) :
    a ∈ l.destutter (· ≠ ·) ↔ a ∈ l := by
  cases l with
  | nil => simp
  | cons b l => rw [List.destutter_cons', mem_destutter'_ne, List.mem_cons]

/-- A filter keeps as many of the first `n` as there are first `n` of what it
keeps, exactly if it keeps all of the first `n` or none of the others. -/
theorem filter_take_iff (p : α → Bool) (l : List α) (n : Nat) :
    (l.take n).filter p = (l.filter p).take n ↔
      (∀ a ∈ l.take n, p a = true) ∨ ∀ a ∈ l.drop n, p a = false := by
  have hsplit : l.filter p = (l.take n).filter p ++ (l.drop n).filter p := by
    rw [← List.filter_append, List.take_append_drop]
  have hshort : ((l.take n).filter p).length ≤ n :=
    (List.length_filter_le p _).trans (List.length_take_le n l)
  have hnone : (l.drop n).filter p = [] ↔ ∀ a ∈ l.drop n, p a = false := by
    simp [List.filter_eq_nil_iff]
  rw [hsplit, List.take_append, List.take_of_length_le hshort, List.self_eq_append_right,
    List.take_eq_nil_iff, hnone]
  constructor
  · rintro (hn | hd)
    · left
      have hall : (l.take n).length ≤ ((l.take n).filter p).length := by
        have := List.length_take_le n l
        omega
      exact List.filter_eq_self.mp (List.filter_sublist.eq_of_length_le hall)
    · exact .inr hd
  · rintro (ht | hd)
    · rw [List.filter_eq_self.mpr ht]
      rcases Nat.le_total n l.length with hle | hle
      · left
        rw [List.length_take, Nat.min_eq_left hle, Nat.sub_self]
      · right
        rw [List.drop_of_length_le hle]
        exact fun a ha => absurd ha List.not_mem_nil
    · exact .inr hd

/-- Of infinitely many names the first that is not taken is among the first
`taken.length + 1`. -/
theorem find_fresh [DecidableEq α] {f : Nat → α} (hf : Function.Injective f) (taken : List α) :
    ∃ n, ((List.range (taken.length + 1)).map f).find? (fun a => !taken.contains a) = some (f n) ∧
      f n ∉ taken ∧ ∀ k < n, f k ∈ taken := by
  rw [List.find?_map]
  cases hfind : (List.range (taken.length + 1)).find? ((fun a => !taken.contains a) ∘ f) with
  | some n =>
    obtain ⟨hn, -, hk⟩ := List.find?_range_eq_some.mp hfind
    exact ⟨n, rfl, by simpa using hn, fun k hlt => by simpa using hk k hlt⟩
  | none =>
    rw [List.find?_eq_none] at hfind
    have hsub : (List.range (taken.length + 1)).map f ⊆ taken := by
      intro a ha
      obtain ⟨n, hn, rfl⟩ := List.mem_map.mp ha
      simpa using hfind n hn
    have hlen := (List.subperm_of_subset (List.nodup_range.map hf) hsub).length_le
    rw [List.length_map, List.length_range] at hlen
    omega

/-- A filter of a list that is changed place by place, where each change is to the
same class of elements, and `F` within the class that is kept. -/
theorem filter_eq_map {l l' : List α} {c : α → Bool} {F : α → α} (hlen : l'.length = l.length)
    (h : ∀ (j : Nat) (a a' : α), l[j]? = some a → l'[j]? = some a' →
      c a' = c a ∧ (c a = true → a' = F a)) : l'.filter c = (l.filter c).map F := by
  induction l generalizing l' with
  | nil =>
    rw [List.length_nil, List.length_eq_zero_iff] at hlen
    subst hlen
    rfl
  | cons a l ih =>
    cases l' with
    | nil => simp at hlen
    | cons a' l' =>
      obtain ⟨hc, hf⟩ := h 0 a a' rfl rfl
      have hrest := ih (Nat.succ.inj hlen) (fun j b b' hb hb' => h (j + 1) b b' hb hb')
      cases hca : c a with
      | true =>
        rw [List.filter_cons_of_pos (hc.trans hca), List.filter_cons_of_pos hca, List.map_cons,
          hf hca, hrest]
      | false =>
        have hn : ¬c a = true := by simp [hca]
        have hn' : ¬c a' = true := by simp [hc, hca]
        rw [List.filter_cons_of_neg hn', List.filter_cons_of_neg hn, hrest]

/-- Where everything makes something, two ways to make it agree if what they make does. -/
theorem filterMap_eq_iff {g g' : α → Option β} {l : List α} (hg : ∀ a ∈ l, (g a).isSome = true)
    (hg' : ∀ a ∈ l, (g' a).isSome = true) :
    l.filterMap g = l.filterMap g' ↔ ∀ a ∈ l, g a = g' a := by
  induction l with
  | nil => simp
  | cons a l ih =>
    obtain ⟨b, hb⟩ := Option.isSome_iff_exists.mp (hg a (List.mem_cons_self ..))
    obtain ⟨b', hb'⟩ := Option.isSome_iff_exists.mp (hg' a (List.mem_cons_self ..))
    rw [List.filterMap_cons_some hb, List.filterMap_cons_some hb', List.cons.injEq,
      ih (fun c hc => hg c (List.mem_cons_of_mem a hc))
        (fun c hc => hg' c (List.mem_cons_of_mem a hc)), List.forall_mem_cons, hb, hb',
      Option.some.injEq]

theorem mapIdx_self (l : List α) : l.mapIdx (fun _ a => a) = l := by
  simp [List.mapIdx_eq_zipIdx_map, List.zipIdx_map_fst]

/-- Replacing an element swaps what it gives for what the new one gives. -/
theorem flatMap_set_perm {l : List α} {f : α → List β} (ha : l[i]? = some a) (b : α) :
    (f a ++ (l.set i b).flatMap f).Perm (f b ++ l.flatMap f) := by
  induction l generalizing i with
  | nil => cases ha
  | cons x l ih =>
    cases i with
    | zero =>
      cases ha
      rw [List.set_cons_zero, List.flatMap_cons, List.flatMap_cons]
      exact List.perm_append_comm_assoc ..
    | succ i =>
      rw [List.set_cons_succ, List.flatMap_cons, List.flatMap_cons]
      have hrest := (ih ha).append_left (f x)
      exact (List.perm_append_comm_assoc ..).trans (hrest.trans (List.perm_append_comm_assoc ..))

/-- A change of the element that one property finds is none for what another finds. -/
theorem find?_modify_found {p q : α → Bool} {l : List α} {f : α → α} (hi : l.findIdx? p = some i)
    (hq : ∀ a, p a = true → q a = false)
    (hf : ∀ a, q (f a) = false) : (l.modify i f).find? q = l.find? q := by
  induction l generalizing i with
  | nil => cases hi
  | cons a l ih =>
    rw [List.findIdx?_cons] at hi
    split at hi
    · rename_i ha
      obtain rfl := Option.some.inj hi
      simp [hf, hq a ha]
    · obtain ⟨j, hj, rfl⟩ := Option.map_eq_some_iff.mp hi
      simp only [List.modify_succ_cons, List.find?_cons, ih hj]

theorem find?_eraseIdx_found {p q : α → Bool} {l : List α} (hi : l.findIdx? p = some i)
    (hq : ∀ a, p a = true → q a = false) : (l.eraseIdx i).find? q = l.find? q := by
  induction l generalizing i with
  | nil => cases hi
  | cons a l ih =>
    rw [List.findIdx?_cons] at hi
    split at hi
    · rename_i ha
      obtain rfl := Option.some.inj hi
      simp [hq a ha]
    · obtain ⟨j, hj, rfl⟩ := Option.map_eq_some_iff.mp hi
      simp only [List.eraseIdx_cons_succ, List.find?_cons, ih hj]

/-- What is changed is found, if it still has the property. -/
theorem find?_modify_self {p : α → Bool} {l : List α} {f : α → α} (hi : l.findIdx? p = some i)
    (hf : ∀ a, p (f a) = true) : (l.modify i f).find? p = (l.find? p).map f := by
  induction l generalizing i with
  | nil => cases hi
  | cons a l ih =>
    rw [List.findIdx?_cons] at hi
    split at hi
    · rename_i ha
      obtain rfl := Option.some.inj hi
      simp [hf, ha]
    · rename_i ha
      obtain ⟨j, hj, rfl⟩ := Option.map_eq_some_iff.mp hi
      simp only [List.modify_succ_cons, List.find?_cons, ih hj, Bool.not_eq_true] at ha ⊢
      rw [ha]
end KissTncBridge.Lib
