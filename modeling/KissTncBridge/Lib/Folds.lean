import Mathlib.Data.List.Nodup

namespace KissTncBridge.Lib

/-- What every step of a fold leaves alone is the same after it. -/
theorem foldl_keep (π : σ → ρ) (f : σ → α → σ) (l : List α) (s : σ)
    (h : ∀ s, ∀ x ∈ l, π (f s x) = π s) : π (l.foldl f s) = π s := by
  induction l generalizing s with
  | nil => rfl
  | cons a l ih =>
    rw [List.foldl_cons, ih _ (fun s x hx => h s x (List.mem_cons_of_mem _ hx))]
    exact h s a (List.mem_cons_self ..)

/-- What only the element with the key of `x` can change is, after the fold,
as that element leaves it. -/
theorem foldl_single (π : σ → ρ) (f : σ → α → σ) (key : α → κ) (l : List α) (s : σ)
    (hd : (l.map key).Nodup) (hx : x ∈ l)
    (h : ∀ s, ∀ y ∈ l, key y ≠ key x → π (f s y) = π s) :
    ∃ s₁, π s₁ = π s ∧ π (l.foldl f s) = π (f s₁ x) := by
  obtain ⟨before, after, rfl⟩ := List.append_of_mem hx
  rw [List.map_append, List.map_cons, List.nodup_append] at hd
  obtain ⟨_, hafter, hdisj⟩ := hd
  refine ⟨before.foldl f s, ?_, ?_⟩
  · refine foldl_keep π f before s (fun s y hy => ?_)
    refine h s y (List.mem_append_left _ hy) ?_
    exact hdisj _ (List.mem_map_of_mem hy) _ (List.mem_cons_self ..)
  · rw [List.foldl_append, List.foldl_cons]
    refine foldl_keep π f after _ (fun s y hy => ?_)
    refine h s y (List.mem_append_right _ (List.mem_cons_of_mem _ hy)) ?_
    intro he
    exact (List.nodup_cons.mp hafter).1 (he ▸ List.mem_map_of_mem hy)

/-- A property every step keeps holds after the fold. -/
theorem foldl_inv {P : σ → Prop} (f : σ → α → σ) (l : List α) (s : σ) (hs : P s)
    (h : ∀ s, ∀ x ∈ l, P s → P (f s x)) : P (l.foldl f s) := by
  induction l generalizing s with
  | nil => exact hs
  | cons a l ih =>
    exact ih _ (h s a (List.mem_cons_self ..) hs) (fun s x hx => h s x (List.mem_cons_of_mem _ hx))

/-- What one of the elements brings about and every element keeps holds after
the fold. -/
theorem foldl_gains {I P : σ → Prop} {f : σ → α → σ} {l : List α} (hx : x ∈ l) (hs : I s)
    (stay : ∀ s, ∀ y ∈ l, I s → I (f s y)) (gain : ∀ s, I s → P (f s x))
    (keep : ∀ s, ∀ y ∈ l, P s → P (f s y)) : P (l.foldl f s) := by
  obtain ⟨before, after, rfl⟩ := List.append_of_mem hx
  rw [List.foldl_append, List.foldl_cons]
  refine foldl_inv f after _ (gain _ ?_) (fun s y hy => keep s y ?_)
  · exact foldl_inv f before s hs (fun s y hy => stay s y (List.mem_append_left _ hy))
  · exact List.mem_append_right _ (List.mem_cons_of_mem _ hy)

section
variable {R : σ → σ → Prop} {π : κ → σ → ρ} {f : σ → α → σ} {key : α → κ}

/-- A fold over elements with distinct keys, each of which leaves the others'
parts of the state alone, is a chain of steps that each find their own part as
it was at the start. -/
theorem foldl_each (refl : ∀ s, R s s) (trans : ∀ {a b c}, R a b → R b c → R a c) {l : List α}
    (hd : (l.map key).Nodup) (frame : ∀ s, ∀ x ∈ l, ∀ k, key x ≠ k → π k (f s x) = π k s)
    (step : ∀ s, ∀ x ∈ l, π (key x) s = π (key x) o → R s (f s x)) : R o (l.foldl f o) := by
  suffices h : ∀ (l : List α) s, (l.map key).Nodup →
      (∀ s, ∀ x ∈ l, ∀ k, key x ≠ k → π k (f s x) = π k s) →
      (∀ s, ∀ x ∈ l, π (key x) s = π (key x) o → R s (f s x)) →
      (∀ x ∈ l, π (key x) s = π (key x) o) → R s (l.foldl f s) from
    h l o hd frame step (fun _ _ => rfl)
  intro l
  induction l with
  | nil => exact fun s _ _ _ _ => refl s
  | cons a l ih =>
    intro s hd frame step hs
    rw [List.map_cons, List.nodup_cons] at hd
    refine trans (step s a (List.mem_cons_self ..) (hs a (List.mem_cons_self ..))) ?_
    refine ih _ hd.2 (fun s x hx => frame s x (List.mem_cons_of_mem _ hx))
      (fun s x hx => step s x (List.mem_cons_of_mem _ hx)) (fun x hx => ?_)
    have hne : key a ≠ key x := fun he => hd.1 (he ▸ List.mem_map_of_mem hx)
    rw [frame s a (List.mem_cons_self ..) _ hne]
    exact hs x (List.mem_cons_of_mem _ hx)

/-- Such a fold visits each of its elements with their part as it was at the
start, and goes on from there. -/
theorem foldl_visits (refl : ∀ s, R s s) (trans : ∀ {a b c}, R a b → R b c → R a c) {l : List α}
    (hd : (l.map key).Nodup) (frame : ∀ s, ∀ x ∈ l, ∀ k, key x ≠ k → π k (f s x) = π k s)
    (hx : x ∈ l)
    (step : ∀ s, ∀ y ∈ l, key y ≠ key x → π (key y) s = π (key y) o → R s (f s y)) :
    ∃ s₁, R o s₁ ∧ π (key x) s₁ = π (key x) o ∧ R (f s₁ x) (l.foldl f o) := by
  obtain ⟨before, after, rfl⟩ := List.append_of_mem hx
  rw [List.map_append, List.map_cons, List.nodup_append, List.nodup_cons] at hd
  obtain ⟨hbefore, ⟨hxa, hafter⟩, hdisj⟩ := hd
  have hb : ∀ y ∈ before, y ∈ before ++ x :: after := fun y hy => List.mem_append_left _ hy
  have ha : ∀ y ∈ after, y ∈ before ++ x :: after :=
    fun y hy => List.mem_append_right _ (List.mem_cons_of_mem _ hy)
  have hbx : ∀ y ∈ before, key y ≠ key x :=
    fun y hy => hdisj _ (List.mem_map_of_mem hy) _ (List.mem_cons_self ..)
  have hax : ∀ y ∈ after, key x ≠ key y := fun y hy he => hxa (he ▸ List.mem_map_of_mem hy)
  refine ⟨before.foldl f o, ?_, ?_, ?_⟩
  · exact foldl_each refl trans hbefore (fun s y hy => frame s y (hb y hy))
      (fun s y hy => step s y (hb y hy) (hbx y hy))
  · exact foldl_keep (π (key x)) f before o (fun s y hy => frame s y (hb y hy) _ (hbx y hy))
  · rw [List.foldl_append, List.foldl_cons]
    refine foldl_each refl trans hafter (fun s y hy => frame s y (ha y hy)) (fun s y hy hs => ?_)
    refine step s y (ha y hy) (hax y hy).symm ?_
    rw [hs, frame _ x (List.mem_append_right _ (List.mem_cons_self ..)) _ (hax y hy)]
    refine foldl_keep (π (key y)) f before o (fun s z hz => frame s z (hb z hz) _ ?_)
    exact hdisj _ (List.mem_map_of_mem hz) _ (List.mem_cons_of_mem _ (List.mem_map_of_mem hy))

end

end KissTncBridge.Lib
