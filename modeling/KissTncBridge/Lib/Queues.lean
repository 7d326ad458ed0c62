import KissTncBridge.Lib.Labelled
import Mathlib.Data.List.Nodup
import Mathlib.Logic.Function.Basic

namespace KissTncBridge.Lib

/-- Queues, each with a number of its own. At most one is live under an id; those that were
let go of are kept with what they still hold. -/
@[ext]
structure Queues (ι α : Type) where
  live : ι → Option (Nat × List α)
  left : List (Nat × List α)
  opened : Nat

namespace Queues

/-- A queue and what it holds. -/
def Holds (q : Queues ι α) (k : Nat) (xs : List α) : Prop :=
  (∃ i, q.live i = some (k, xs)) ∨ (k, xs) ∈ q.left

/-- The queues after items were added, each listed with the number of its queue. -/
def put (q : Queues ι α) (added : List (Nat × α)) : Queues ι α :=
  { q with live := fun i => (q.live i).map (fun p => (p.1, p.2 ++ under p.1 added)) }

/-- One step: items are added to live queues, and items are taken from the front. -/
inductive Step [DecidableEq ι] (q : Queues ι α) :
    List (Nat × α) → List (Nat × α) → Queues ι α → Prop where
  | same : Step q [] [] q
  | opens (i : ι) : Step q [] []
      ⟨Function.update q.live i (some (q.opened + 1, [])), q.left ++ (q.live i).toList,
        q.opened + 1⟩
  | closes (i : ι) :
      Step q [] [] ⟨Function.update q.live i none, q.left ++ (q.live i).toList, q.opened⟩
  | puts : (∀ p ∈ added, ∃ i xs, q.live i = some (p.1, xs)) → Step q added [] (q.put added)
  | takes : q.live i = some (k, x :: xs) →
      Step q [] [(k, x)] { q with live := Function.update q.live i (some (k, xs)) }
  | drains : q.left[n]? = some (k, x :: xs) →
      Step q [] [(k, x)] { q with left := q.left.set n (k, xs) }

/-- Every queue gives what was added to it, in order: what was taken from it and what it
holds are what was added. -/
structure Fifo (added taken : List (Nat × α)) (q : Queues ι α) : Prop where
  holds : ∀ k xs, q.Holds k xs → under k added = under k taken ++ xs
  front : ∀ k, under k taken <+: under k added
  bound : ∀ k xs, q.Holds k xs → k ≤ q.opened
  fresh : ∀ k, q.opened < k → under k added = [] ∧ under k taken = []
  own : ∀ i j k xs ys, q.live i = some (k, xs) → q.live j = some (k, ys) → i = j
  apart : ∀ i k xs, q.live i = some (k, xs) → k ∉ q.left.map Prod.fst
  nodup : (q.left.map Prod.fst).Nodup

theorem none_fifo : Fifo [] [] (⟨fun _ => none, [], 0⟩ : Queues ι α) where
  holds := by simp [Holds]
  front := by simp
  bound := by simp [Holds]
  fresh := by simp
  own := by simp
  apart := by simp
  nodup := by simp

/-- Of two places in a list whose labels differ, those with one label are the same. -/
theorem label_index {l : List (Nat × List α)} {m n : Nat} (hn : (l.map Prod.fst).Nodup)
    (hm : l[m]? = some (k, xs)) (hl : l[n]? = some (k, ys)) : m = n := by
  have hlen : m < (l.map Prod.fst).length := by
    obtain ⟨h, -⟩ := List.getElem?_eq_some_iff.mp hm
    simpa using h
  refine (List.nodup_iff_injective_getElem.mp hn).eq_iff (a := ⟨m, hlen⟩) (b := ⟨n, ?_⟩) |>.mp ?_ |>
    congrArg Fin.val
  · obtain ⟨h, -⟩ := List.getElem?_eq_some_iff.mp hl
    simpa using h
  · obtain ⟨hm', hk⟩ := List.getElem?_eq_some_iff.mp hm
    obtain ⟨hn', hk'⟩ := List.getElem?_eq_some_iff.mp hl
    simp [hk, hk']

theorem labels_set {l : List (Nat × List α)} {n : Nat} (h : l[n]? = some (k, ys)) :
    (l.set n (k, xs)).map Prod.fst = l.map Prod.fst := by
  obtain ⟨hn, hk⟩ := List.getElem?_eq_some_iff.mp h
  refine List.ext_getElem? (fun m => ?_)
  rw [List.getElem?_map, List.getElem?_map, List.getElem?_set]
  by_cases he : n = m
  · subst he
    simp [hn, hk]
  · simp [he]

theorem held_left {q : Queues ι α} (h : (k, xs) ∈ q.left ++ (q.live i).toList) : q.Holds k xs := by
  rcases List.mem_append.mp h with h | h
  · exact .inr h
  · exact .inl ⟨i, by simpa using h⟩

/-- An item is taken from the front of a queue that holds it. -/
theorem Fifo.takes_front {q : Queues ι α} (h : Fifo added taken q) (hk : q.Holds k (x :: xs)) :
    under k added = under k (taken ++ [(k, x)]) ++ xs ∧
    (∀ k', under k' (taken ++ [(k, x)]) <+: under k' added) ∧
    ∀ k', q.opened < k' → under k' added = [] ∧ under k' (taken ++ [(k, x)]) = [] := by
  have hself : under k added = under k (taken ++ [(k, x)]) ++ xs := by
    rw [h.holds k _ hk]
    simp
  refine ⟨hself, fun k' => ?_, fun k' hlt => ?_⟩
  · by_cases he : k = k'
    · subst he
      exact ⟨xs, hself.symm⟩
    · rw [under_append, under_cons_ne he, under_nil, List.append_nil]
      exact h.front k'
  · obtain ⟨ha, ht⟩ := h.fresh k' hlt
    have hne : k ≠ k' := fun he => Nat.not_lt.mpr (h.bound k _ hk) (he ▸ hlt)
    rw [under_append, under_cons_ne hne, under_nil, ht, List.append_nil]
    exact ⟨ha, rfl⟩

variable {q q' : Queues ι α} {added taken more gone : List (Nat × α)}

/-- The queue under an id goes to those that were let go of. -/
theorem Fifo.let_go (h : Fifo added taken q) (i : ι) :
    ((q.left ++ (q.live i).toList).map Prod.fst).Nodup ∧
    ∀ j k xs, j ≠ i → q.live j = some (k, xs) → k ∉ (q.left ++ (q.live i).toList).map Prod.fst := by
  rw [List.map_append]
  cases hi : q.live i with
  | none => exact ⟨by simpa using h.nodup, fun j k xs _ hj => by simpa using h.apart j k xs hj⟩
  | some p =>
    obtain ⟨k', ys⟩ := p
    refine ⟨?_, fun j k xs hne hj hm => ?_⟩
    · refine List.Nodup.append h.nodup (List.nodup_singleton _) ?_
      intro k hk hk'
      obtain rfl := List.mem_singleton.mp hk'
      exact h.apart i k ys hi hk
    · rcases List.mem_append.mp hm with hm | hm
      · exact h.apart j k xs hj hm
      · obtain rfl : k = k' := by simpa using hm
        exact hne (h.own j i k xs ys hj hi)

theorem Fifo.opens [DecidableEq ι] (h : Fifo added taken q) (i : ι) : Fifo added taken
    ⟨Function.update q.live i (some (q.opened + 1, [])), q.left ++ (q.live i).toList,
      q.opened + 1⟩ := by
  obtain ⟨hnodup, hapart⟩ := h.let_go i
  have hcases : ∀ j k xs, Function.update q.live i (some (q.opened + 1, [])) j = some (k, xs) →
      j = i ∧ k = q.opened + 1 ∧ xs = [] ∨ j ≠ i ∧ q.live j = some (k, xs) := by
    intro j k xs hj
    by_cases he : j = i
    · subst he
      rw [Function.update_self] at hj
      cases hj
      exact .inl ⟨rfl, rfl, rfl⟩
    · rw [Function.update_of_ne he] at hj
      exact .inr ⟨he, hj⟩
  refine ⟨fun k xs hk => ?_, h.front, fun k xs hk => ?_,
    fun k hk => h.fresh k (Nat.lt_of_succ_lt hk), ?_, ?_, hnodup⟩
  · rcases hk with ⟨j, hj⟩ | hk
    · rcases hcases j k xs hj with ⟨-, rfl, rfl⟩ | ⟨-, hj⟩
      · obtain ⟨ha, ht⟩ := h.fresh _ (Nat.lt_succ_self q.opened)
        rw [ha, ht, List.append_nil]
      · exact h.holds k xs (.inl ⟨j, hj⟩)
    · exact h.holds k xs (held_left hk)
  · rcases hk with ⟨j, hj⟩ | hk
    · rcases hcases j k xs hj with ⟨-, rfl, -⟩ | ⟨-, hj⟩
      · exact Nat.le_refl _
      · exact Nat.le_succ_of_le (h.bound k xs (.inl ⟨j, hj⟩))
    · exact Nat.le_succ_of_le (h.bound k xs (held_left hk))
  · intro a b k xs ys ha hb
    rcases hcases a k xs ha with ⟨rfl, rfl, -⟩ | ⟨-, ha'⟩
    · rcases hcases b _ ys hb with ⟨rfl, -, -⟩ | ⟨-, hb'⟩
      · rfl
      · exact absurd (h.bound _ ys (.inl ⟨b, hb'⟩)) (Nat.not_succ_le_self _)
    · rcases hcases b k ys hb with ⟨rfl, rfl, -⟩ | ⟨-, hb'⟩
      · exact absurd (h.bound _ xs (.inl ⟨a, ha'⟩)) (Nat.not_succ_le_self _)
      · exact h.own a b k xs ys ha' hb'
  · intro j k xs hj
    rcases hcases j k xs hj with ⟨rfl, rfl, -⟩ | ⟨hne, hj⟩
    · intro hm
      obtain ⟨⟨k, ys⟩, hp, he⟩ := List.mem_map.mp hm
      have hle := h.bound k ys (held_left hp)
      simp only at he
      omega
    · exact hapart j k xs hne hj

theorem Fifo.closes [DecidableEq ι] (h : Fifo added taken q) (i : ι) :
    Fifo added taken ⟨Function.update q.live i none, q.left ++ (q.live i).toList, q.opened⟩ := by
  obtain ⟨hnodup, hapart⟩ := h.let_go i
  have hlive : ∀ j k xs, Function.update q.live i none j = some (k, xs) →
      j ≠ i ∧ q.live j = some (k, xs) := by
    intro j k xs hj
    by_cases he : j = i
    · subst he
      rw [Function.update_self] at hj
      cases hj
    · rw [Function.update_of_ne he] at hj
      exact ⟨he, hj⟩
  have hheld : ∀ k xs,
    Holds ⟨Function.update q.live i none, q.left ++ (q.live i).toList, q.opened⟩ k xs →
      q.Holds k xs := by
    intro k xs hk
    rcases hk with ⟨j, hj⟩ | hk
    · exact .inl ⟨j, (hlive j k xs hj).2⟩
    · exact held_left hk
  refine ⟨fun k xs hk => h.holds k xs (hheld k xs hk), h.front,
    fun k xs hk => h.bound k xs (hheld k xs hk), h.fresh, fun a b k xs ys ha hb => ?_,
      fun j k xs hj => ?_, hnodup⟩
  · exact h.own a b k xs ys (hlive a k xs ha).2 (hlive b k ys hb).2
  · obtain ⟨hne, hj⟩ := hlive j k xs hj
    exact hapart j k xs hne hj

theorem Fifo.puts (h : Fifo added taken q) (hm : ∀ p ∈ more, ∃ i xs, q.live i = some (p.1, xs)) :
    Fifo (added ++ more) taken (q.put more) := by
  have hlive : ∀ j k ys, (q.put more).live j = some (k, ys) →
      ∃ xs, q.live j = some (k, xs) ∧ ys = xs ++ under k more := by
    intro j k ys hj
    obtain ⟨⟨k, xs⟩, hp, he⟩ := Option.map_eq_some_iff.mp hj
    cases he
    exact ⟨xs, hp, rfl⟩
  refine ⟨fun k ys hk => ?_, fun k => ?_, fun k ys hk => ?_, fun k hk => ?_, ?_, ?_, h.nodup⟩
  · rw [under_append]
    rcases hk with ⟨j, hj⟩ | hk
    · obtain ⟨xs, hj', rfl⟩ := hlive j k ys hj
      rw [h.holds k xs (.inl ⟨j, hj'⟩), List.append_assoc]
    · have hnone : under k more = [] := by
        refine under_none ?_
        rintro ⟨k', x⟩ hp rfl
        obtain ⟨i, xs, hi⟩ := hm _ hp
        exact h.apart i k' xs hi (List.mem_map.mpr ⟨_, hk, rfl⟩)
      rw [h.holds k ys (.inr hk), hnone, List.append_nil]
  · rw [under_append]
    exact (h.front k).trans (List.prefix_append ..)
  · rcases hk with ⟨j, hj⟩ | hk
    · obtain ⟨xs, hj, -⟩ := hlive j k ys hj
      exact h.bound k xs (.inl ⟨j, hj⟩)
    · exact h.bound k ys (.inr hk)
  · obtain ⟨ha, ht⟩ := h.fresh k hk
    refine ⟨?_, ht⟩
    rw [under_append, ha, List.nil_append]
    refine under_none ?_
    rintro ⟨k', x⟩ hp rfl
    obtain ⟨i, xs, hi⟩ := hm _ hp
    exact Nat.not_lt.mpr (h.bound k' xs (.inl ⟨i, hi⟩)) hk
  · intro a b k xs ys ha hb
    obtain ⟨xs, ha, -⟩ := hlive a k xs ha
    obtain ⟨ys, hb, -⟩ := hlive b k ys hb
    exact h.own a b k xs ys ha hb
  · intro j k ys hj
    obtain ⟨xs, hj, -⟩ := hlive j k ys hj
    exact h.apart j k xs hj

theorem under_other {k k' : Nat} (h : k' ≠ k) (x : α) :
    under k' (taken ++ [(k, x)]) = under k' taken := by
  rw [under_append, under_cons_ne (Ne.symm h), under_nil, List.append_nil]

theorem Fifo.takes [DecidableEq ι] (h : Fifo added taken q)
    (hi : q.live i = some (k, x :: xs)) :
    Fifo added (taken ++ [(k, x)]) { q with live := Function.update q.live i (some (k, xs)) } := by
  obtain ⟨hself, htaken, hfresh⟩ := h.takes_front (.inl ⟨i, hi⟩)
  have hcases : ∀ j k' ys, Function.update q.live i (some (k, xs)) j = some (k', ys) →
      j = i ∧ k' = k ∧ ys = xs ∨ k' ≠ k ∧ q.live j = some (k', ys) := by
    intro j k' ys hj
    by_cases he : j = i
    · subst he
      rw [Function.update_self] at hj
      cases hj
      exact .inl ⟨rfl, rfl, rfl⟩
    · rw [Function.update_of_ne he] at hj
      refine .inr ⟨?_, hj⟩
      rintro rfl
      exact he (h.own j i k' ys _ hj hi)
  refine ⟨fun k' ys hk => ?_, htaken, fun k' ys hk => ?_, hfresh, fun a b k' ys zs ha hb => ?_,
    fun j k' ys hj => ?_, h.nodup⟩
  · rcases hk with ⟨j, hj⟩ | hk
    · rcases hcases j k' ys hj with ⟨-, rfl, rfl⟩ | ⟨hne, hj⟩
      · exact hself
      · rw [under_other hne]
        exact h.holds k' ys (.inl ⟨j, hj⟩)
    · have hne : k' ≠ k := by
        rintro rfl
        exact h.apart i k' _ hi (List.mem_map.mpr ⟨_, hk, rfl⟩)
      rw [under_other hne]
      exact h.holds k' ys (.inr hk)
  · rcases hk with ⟨j, hj⟩ | hk
    · rcases hcases j k' ys hj with ⟨-, rfl, -⟩ | ⟨-, hj⟩
      · exact h.bound _ _ (.inl ⟨i, hi⟩)
      · exact h.bound k' ys (.inl ⟨j, hj⟩)
    · exact h.bound k' ys (.inr hk)
  · rcases hcases a k' ys ha with ⟨rfl, rfl, -⟩ | ⟨hne, ha⟩
    · rcases hcases b _ zs hb with ⟨rfl, -, -⟩ | ⟨hne, -⟩
      · rfl
      · exact absurd rfl hne
    · rcases hcases b k' zs hb with ⟨-, rfl, -⟩ | ⟨-, hb⟩
      · exact absurd rfl hne
      · exact h.own a b k' ys zs ha hb
  · rcases hcases j k' ys hj with ⟨-, rfl, -⟩ | ⟨-, hj⟩
    · exact h.apart i _ _ hi
    · exact h.apart j k' ys hj

theorem Fifo.drains (h : Fifo added taken q) (hn : q.left[n]? = some (k, x :: xs)) :
    Fifo added (taken ++ [(k, x)]) { q with left := q.left.set n (k, xs) } := by
  have hmem : (k, x :: xs) ∈ q.left := List.mem_of_getElem? hn
  obtain ⟨hself, htaken, hfresh⟩ := h.takes_front (.inr hmem)
  have hlive : ∀ j k' ys, q.live j = some (k', ys) → k' ≠ k := by
    rintro j k' ys hj rfl
    exact h.apart j k' ys hj (List.mem_map.mpr ⟨_, hmem, rfl⟩)
  have hcases : ∀ k' ys, (k', ys) ∈ q.left.set n (k, xs) → k' = k ∧ ys = xs ∨
      k' ≠ k ∧ (k', ys) ∈ q.left := by
    intro k' ys hm
    obtain ⟨m, hk'⟩ := List.mem_iff_getElem?.mp hm
    obtain ⟨hlt, -⟩ := List.getElem?_eq_some_iff.mp hn
    by_cases he : n = m
    · subst he
      rw [List.getElem?_set_self hlt] at hk'
      cases hk'
      exact .inl ⟨rfl, rfl⟩
    · rw [List.getElem?_set_ne he] at hk'
      refine .inr ⟨?_, List.mem_of_getElem? hk'⟩
      rintro rfl
      exact he (label_index h.nodup hn hk')
  refine ⟨fun k' ys hk => ?_, htaken, fun k' ys hk => ?_, hfresh, h.own, fun j k' ys hj => ?_, ?_⟩
  · rcases hk with ⟨j, hj⟩ | hk
    · rw [under_other (hlive j k' ys hj)]
      exact h.holds k' ys (.inl ⟨j, hj⟩)
    · rcases hcases k' ys hk with ⟨rfl, rfl⟩ | ⟨hne, hk⟩
      · exact hself
      · rw [under_other hne]
        exact h.holds k' ys (.inr hk)
  · rcases hk with ⟨j, hj⟩ | hk
    · exact h.bound k' ys (.inl ⟨j, hj⟩)
    · rcases hcases k' ys hk with ⟨rfl, -⟩ | ⟨-, hk⟩
      · exact h.bound _ _ (.inr hmem)
      · exact h.bound k' ys (.inr hk)
  · show k' ∉ (q.left.set n (k, xs)).map Prod.fst
    rw [labels_set hn]
    exact h.apart j k' ys hj
  · show ((q.left.set n (k, xs)).map Prod.fst).Nodup
    rw [labels_set hn]
    exact h.nodup

/-- What one step keeps. -/
theorem Fifo.step [DecidableEq ι] (h : Fifo added taken q) (hs : q.Step more gone q') :
    Fifo (added ++ more) (taken ++ gone) q' := by
  cases hs with
  | same => simpa using h
  | opens i => simpa using h.opens i
  | closes i => simpa using h.closes i
  | puts hm => simpa using h.puts hm
  | takes hi => simpa using h.takes hi
  | drains hn => simpa using h.drains hn

end Queues

end KissTncBridge.Lib
