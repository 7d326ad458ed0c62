import Mathlib.Logic.Function.Basic
import Mathlib.Logic.ExistsUnique

namespace KissTncBridge.Lib

/-- Things with owners, and a hand that may have one of them on its way from one
owner to another: what is alive has exactly one owner or is in the hand. -/
structure Owned {κ : Type u} {ρ : Type v} (alive : ρ → Prop) (holds : κ → Option ρ)
    (hand : Option ρ) : Prop where
  kept : ∀ r, alive r → hand = some r ∨ ∃ k, holds k = some r
  one : ∀ r k k', holds k = some r → holds k' = some r → k = k'
  apart : ∀ r k, hand = some r → holds k ≠ some r

namespace Owned

variable {κ : Type u} {ρ : Type v} {alive alive' : ρ → Prop} {holds : κ → Option ρ}
    {hand : Option ρ} {r : ρ} {k : κ}

/-- Nothing that was not alive becomes so. -/
theorem fewer (h : Owned alive holds hand) (ha : ∀ r, alive' r → alive r) :
    Owned alive' holds hand :=
  ⟨fun r hr => h.kept r (ha r hr), h.one, h.apart⟩

/-- With an empty hand, what is alive has one owner. -/
theorem owner (h : Owned alive holds none) (hr : alive r) : ∃! k, holds k = some r := by
  rcases h.kept r hr with hn | ⟨k, hk⟩
  · cases hn
  · exact ⟨k, hk, fun k' hk' => h.one r k' k hk' hk⟩

/-- The hand lets go of something dead. -/
theorem letGo (h : Owned alive holds hand) (hd : ∀ r, hand = some r → ¬ alive r) :
    Owned alive holds none := by
  refine ⟨fun r hr => ?_, h.one, fun r k hn => by cases hn⟩
  rcases h.kept r hr with hn | hk
  · exact absurd hr (hd r hn)
  · exact .inr hk

/-- The hand takes something new. -/
theorem gain (h : Owned alive holds none) (hn : ∀ k, holds k ≠ some r)
    (ha : ∀ x, alive' x → alive x ∨ x = r) : Owned alive' holds (some r) := by
  refine ⟨fun x hx => ?_, h.one, fun x k hx hk => ?_⟩
  · rcases ha x hx with hx | rfl
    · exact .inr ((h.kept x hx).resolve_left (by simp))
    · exact .inl rfl
  · cases hx
    exact hn k hk

variable [DecidableEq κ]

/-- The hand takes what an owner has. -/
theorem take (h : Owned alive holds none) (k : κ) :
    Owned alive (Function.update holds k none) (holds k) := by
  have hother : ∀ x j, Function.update holds k none j = some x → holds j = some x ∧ j ≠ k := by
    intro x j hj
    by_cases he : j = k
    · rw [he, Function.update_self] at hj
      cases hj
    · rw [Function.update_of_ne he] at hj
      exact ⟨hj, he⟩
  refine ⟨fun x hx => ?_, fun x j j' hj hj' => h.one x j j' (hother x j hj).1 (hother x j' hj').1,
    fun x j hx hj => ?_⟩
  · rcases h.kept x hx with hn | ⟨j, hj⟩
    · cases hn
    · by_cases he : j = k
      · exact .inl (he ▸ hj)
      · exact .inr ⟨j, by rw [Function.update_of_ne he]; exact hj⟩
  · obtain ⟨hj, he⟩ := hother x j hj
    exact he (h.one x j k hj hx)

/-- An owner without anything gets what is in the hand. -/
theorem put (h : Owned alive holds hand) (hk : holds k = none) :
    Owned alive (Function.update holds k hand) none := by
  refine ⟨fun x hx => .inr ?_, fun x j j' hj hj' => ?_, fun x j hn => by cases hn⟩
  · rcases h.kept x hx with hn | ⟨j, hj⟩
    · exact ⟨k, by rw [Function.update_self]; exact hn⟩
    · refine ⟨j, ?_⟩
      rw [Function.update_of_ne]
      · exact hj
      · intro he
        rw [he, hk] at hj
        cases hj
  · by_cases he : j = k <;> by_cases he' : j' = k
    · exact he.trans he'.symm
    · rw [he, Function.update_self] at hj
      rw [Function.update_of_ne he'] at hj'
      exact absurd hj' (h.apart x j' hj)
    · rw [he', Function.update_self] at hj'
      rw [Function.update_of_ne he] at hj
      exact absurd hj (h.apart x j hj')
    · rw [Function.update_of_ne he] at hj
      rw [Function.update_of_ne he'] at hj'
      exact h.one x j j' hj hj'

end Owned
end KissTncBridge.Lib
