import Mathlib.Data.List.Induction

namespace KissTncBridge.Lib

/-- The states a labelled machine reaches from `s`, with the labels taken in
order. Every step is taken in a state that meets `ok` for its label. -/
inductive Reach (step : σ → ε → Option σ) (ok : σ → ε → Prop) (s : σ) : List ε → σ → Prop where
  | start : Reach step ok s [] s
  | next : Reach step ok s es t → ok t e → step t e = some u → Reach step ok s (es ++ [e]) u

/-- Runs whose steps meet no condition beyond being possible. -/
abbrev Runs (step : σ → ε → Option σ) (s : σ) (es : List ε) (t : σ) : Prop :=
  Reach step (fun _ _ => True) s es t

/-- What holds at the start and is kept by every step holds wherever a run
leads. -/
theorem Reach.invariant {Inv : σ → Prop} (h : Reach step ok s es t) (hs : Inv s)
    (keep : ∀ t e u, Inv t → ok t e → step t e = some u → Inv u) : Inv t := by
  induction h with
  | start => exact hs
  | next _ hok hstep ih => exact keep _ _ _ ih hok hstep

/-- A run under a condition is a run. -/
theorem Reach.forget (h : Reach step ok s es t) : Runs step s es t := by
  induction h with
  | start => exact .start
  | next _ _ hstep ih => exact .next ih trivial hstep

/-- A run's labels say where it leads. -/
theorem Reach.unique (h : Reach step ok s es t) (h' : Reach step ok' s es t') : t = t' := by
  induction h generalizing t' with
  | start =>
    generalize hes : [] = es' at h'
    cases h' with
    | start => rfl
    | next => simp at hes
  | @next es t e u _ _ hstep ih =>
    generalize hes : es ++ [e] = es' at h'
    cases h' with
    | start => simp at hes
    | next hr _ hstep' =>
      obtain ⟨rfl, he⟩ := List.append_inj' hes rfl
      cases he
      cases ih hr
      exact Option.some.inj (hstep.symm.trans hstep')

/-- Taking the labels one after the other is a run. -/
theorem runs_of_foldlM (h : es.foldlM step s = some t) : Runs step s es t := by
  induction es using List.reverseRecOn generalizing t with
  | nil =>
    cases h
    exact .start
  | append_singleton es e ih =>
    rw [List.foldlM_append] at h
    obtain ⟨u, hu, ht⟩ := Option.bind_eq_some_iff.mp h
    have ht : step u e = some t := by simpa using ht
    exact .next (ih hu) trivial ht

theorem Reach.foldlM (h : Reach step ok s es t) : es.foldlM step s = some t := by
  induction h with
  | start => rfl
  | next _ _ hstep ih =>
    rw [List.foldlM_append, ih]
    simpa using hstep

/-- Taking the labels one after the other is a run under a condition that a check
finds met at each of them. -/
theorem reach_of_checked {check : σ → ε → Bool} (hc : ∀ s e, check s e = true → ok s e)
    (h : es.foldlM (fun s e => if check s e then step s e else none) s = some t) :
    Reach step ok s es t := by
  induction es using List.reverseRecOn generalizing t with
  | nil =>
    cases h
    exact .start
  | append_singleton es e ih =>
    rw [List.foldlM_append] at h
    obtain ⟨u, hu, ht⟩ := Option.bind_eq_some_iff.mp h
    rw [List.foldlM_cons] at ht
    obtain ⟨v, hv, ht⟩ := Option.bind_eq_some_iff.mp ht
    cases ht
    split at hv
    · rename_i hok
      exact .next (ih hu) (hc u e hok) hv
    · cases hv

/-- A run goes on with steps that meet the condition in every state. -/
theorem Reach.free (h : Reach step ok s es t) (hr : fs.foldlM step t = some u)
    (hf : ∀ e ∈ fs, ∀ t, ok t e) : Reach step ok s (es ++ fs) u := by
  induction fs generalizing es t with
  | nil =>
    cases hr
    rw [List.append_nil]
    exact h
  | cons e fs ih =>
    rw [List.foldlM_cons] at hr
    obtain ⟨v, hv, hr⟩ := Option.bind_eq_some_iff.mp hr
    have hn := h.next (hf e (List.mem_cons_self ..) t) hv
    rw [← List.singleton_append, ← List.append_assoc]
    exact ih hn hr (fun e he => hf e (List.mem_cons_of_mem _ he))

/-- The last step of a run. -/
theorem Reach.last (h : Reach step ok s (es ++ [e]) u) :
    ∃ t, Reach step ok s es t ∧ ok t e ∧ step t e = some u := by
  generalize hes : es ++ [e] = es' at h
  cases h with
  | start => simp at hes
  | next hr hok hstep =>
    obtain ⟨rfl, he⟩ := List.append_inj' hes rfl
    cases he
    exact ⟨_, hr, hok, hstep⟩

/-- Some step of a run is taken in a state and with a label that meet `P`. -/
def Meets (step : σ → ε → Option σ) (P : σ → ε → Prop) (s : σ) (es : List ε) : Prop :=
  ∃ before e after t, es = before ++ e :: after ∧ Runs step s before t ∧ P t e

theorem not_meets_nil : ¬ Meets step P s [] := by
  intro ⟨before, e, after, t, he, _⟩
  exact List.append_ne_nil_of_right_ne_nil before (List.cons_ne_nil e after) he.symm

theorem meets_next (h : Runs step s es t) :
    Meets step P s (es ++ [e]) ↔ Meets step P s es ∨ P t e := by
  constructor
  · intro ⟨before, e', after, t', he, hr, hp⟩
    cases after using List.reverseRecOn with
    | nil =>
      obtain ⟨rfl, hl⟩ := List.append_inj' he rfl
      cases hl
      cases hr.unique h
      exact .inr hp
    | append_singleton after e'' =>
      rw [← List.cons_append, ← List.append_assoc] at he
      exact .inl ⟨before, e', after, t', (List.append_inj' he rfl).1, hr, hp⟩
  · intro hm
    rcases hm with ⟨before, e', after, t', rfl, hr, hp⟩ | hp
    · exact ⟨before, e', after ++ [e], t', by simp, hr, hp⟩
    · exact ⟨es, e, [], t, rfl, h, hp⟩

/-- What `g` gives for each step of a run, one after the other. -/
def along (step : σ → ε → Option σ) (g : σ → ε → List α) : σ → List ε → List α
  | _, [] => []
  | s, e :: es => g s e ++ match step s e with
    | some t => along step g t es
    | none => []

theorem along_append {g : σ → ε → List α} (h : Runs step s es t) (fs : List ε) :
    along step g s (es ++ fs) = along step g s es ++ along step g t fs := by
  induction h generalizing fs with
  | start => rfl
  | @next es t e u _ _ hstep ih =>
    have he : along step g t (e :: fs) = along step g t [e] ++ along step g u fs := by
      simp [along, hstep]
    rw [List.append_assoc, List.singleton_append, ih (e :: fs), ih [e], he, List.append_assoc]

theorem along_next {g : σ → ε → List α} (h : Runs step s es t) (hstep : step t e = some u) :
    along step g s (es ++ [e]) = along step g s es ++ g t e := by
  rw [along_append h [e]]
  simp [along, hstep]

end KissTncBridge.Lib
