import Mathlib.Data.List.Basic

namespace KissTncBridge.Lib

/-- What a list holds under one label, in order. -/
def under [DecidableEq κ] (k : κ) (l : List (κ × α)) : List α :=
  (l.filter (fun p => p.1 = k)).map Prod.snd

/-- Part of what a list holds, with the labels it had. -/
theorem exists_labelled {xs : List α} {l : List (κ × α)} (h : xs.Sublist (l.map Prod.snd)) :
    ∃ m : List (κ × α), m.Sublist l ∧ m.map Prod.snd = xs := by
  obtain ⟨m, hm, rfl⟩ := List.sublist_map_iff.mp h
  exact ⟨m, hm, rfl⟩

section
variable [DecidableEq κ] {k : κ} {l m : List (κ × α)}

@[simp] theorem under_nil : under k ([] : List (κ × α)) = [] := rfl

@[simp] theorem under_append : under k (l ++ m) = under k l ++ under k m := by
  simp [under]

@[simp] theorem under_cons_self (a : α) : under k ((k, a) :: l) = a :: under k l := by
  simp [under]

theorem under_cons_ne {j : κ} (h : j ≠ k) (a : α) : under k ((j, a) :: l) = under k l := by
  simp [under, h]

theorem under_cons (p : κ × α) :
    under k (p :: l) = (if p.1 = k then [p.2] else []) ++ under k l := by
  obtain ⟨j, a⟩ := p
  by_cases h : j = k
  · subst h
    simp
  · simp [under_cons_ne h, h]

theorem under_sublist (h : l.Sublist m) : (under k l).Sublist (under k m) := (h.filter _).map _

theorem under_none (h : ∀ p ∈ l, p.1 ≠ k) : under k l = [] := by
  simpa [under] using h

/-- Of items that each have a label of their own, one gives what is under its label. -/
theorem under_filterMap {β : Type} {b : β} {bs : List β} (label : β → κ) (g : β → Option α)
    (hn : bs.Nodup) (hb : b ∈ bs) (hl : ∀ c ∈ bs, label c = label b → c = b) :
    under (label b) (bs.filterMap (fun c => (g c).map (fun a => (label c, a)))) = (g b).toList := by
  induction bs with
  | nil => cases hb
  | cons c bs ih =>
    obtain ⟨hc, hn⟩ := List.nodup_cons.mp hn
    have hhead : under (label b) ([c].filterMap (fun c => (g c).map (fun a => (label c, a)))) =
        if label c = label b then (g c).toList else [] := by
      cases hg : g c with
      | none => simp [hg]
      | some a => simp [hg, under_cons]
    rw [← List.singleton_append, List.filterMap_append, under_append, hhead]
    by_cases he : c = b
    · subst he
      have hrest :
          under (label c) (bs.filterMap (fun c => (g c).map (fun a => (label c, a)))) = [] := by
        refine under_none (fun p hp => ?_)
        obtain ⟨d, hd, hg⟩ := List.mem_filterMap.mp hp
        obtain ⟨a, -, rfl⟩ := Option.map_eq_some_iff.mp hg
        intro hs
        have hdc := hl d (List.mem_cons_of_mem _ hd) hs
        exact hc (hdc ▸ hd)
      simp [hrest]
    · have hlabel : label c ≠ label b := fun hs => he (hl c (List.mem_cons_self ..) hs)
      have hb : b ∈ bs := (List.mem_cons.mp hb).resolve_left (fun hs => he hs.symm)
      rw [if_neg hlabel, List.nil_append]
      exact ih hn hb (fun d hd => hl d (List.mem_cons_of_mem _ hd))

end

end KissTncBridge.Lib
