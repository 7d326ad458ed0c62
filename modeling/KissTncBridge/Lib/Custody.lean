import Mathlib.Data.List.Basic

namespace KissTncBridge.Lib

/-- Notes about one thing that several parties hold in turn: `k` takes it, or
`k` gives it back. -/
inductive Note (κ : Type) where
  | takes (k : κ)
  | gives (k : κ)
deriving DecidableEq, Repr

/-- The notes fit: from the first holder on, each takes it when nobody has it
and gives it back before the next one takes it. -/
inductive Passes {κ : Type} : Option κ → List (Note κ) → Option κ → Prop where
  | done : Passes h [] h
  | takes : Passes (some k) ns h → Passes none (.takes k :: ns) h
  | gives : Passes none ns h → Passes (some k) (.gives k :: ns) h

namespace Passes

theorem snoc_takes {ns : List (Note κ)} (h : Passes a ns none) (k : κ) :
    Passes a (ns ++ [.takes k]) (some k) := by
  generalize hb : none = b at h
  induction h with
  | done =>
    cases hb
    exact .takes .done
  | takes _ ih => exact .takes (ih hb)
  | gives _ ih => exact .gives (ih hb)

theorem snoc_gives {ns : List (Note κ)} (h : Passes a ns (some k)) :
    Passes a (ns ++ [.gives k]) none := by
  generalize hb : some k = b at h
  induction h with
  | done =>
    cases hb
    exact .gives .done
  | takes _ ih => exact .takes (ih hb)
  | gives _ ih => exact .gives (ih hb)

/-- Whoever has it in the end and took it in none of the notes has had it all
along. -/
theorem first_of_last {ns : List (Note κ)} (h : Passes a ns (some k)) (hk : .takes k ∉ ns) :
    a = some k := by
  obtain ⟨b, hb⟩ : ∃ b, b = some k := ⟨_, rfl⟩
  rw [← hb] at h
  induction h with
  | done => exact hb
  | takes _ ih =>
    obtain ⟨hne, hrest⟩ := not_or.mp (mt List.mem_cons.mpr hk)
    cases ih hrest hb
    exact absurd rfl hne
  | gives _ ih => cases ih (fun hm => hk (List.mem_cons_of_mem _ hm)) hb

/-- Whoever gives it back and took it in none of the notes had it at first. -/
theorem first_of_gives {ns : List (Note κ)} (h : Passes a ns b) (hg : .gives k ∈ ns)
    (hk : .takes k ∉ ns) : a = some k := by
  induction h with
  | done => cases hg
  | takes _ ih =>
    obtain ⟨hne, hrest⟩ := not_or.mp (mt List.mem_cons.mpr hk)
    rcases List.mem_cons.mp hg with hg | hg
    · cases hg
    · cases ih hg hrest
      exact absurd rfl hne
  | gives _ ih =>
    rcases List.mem_cons.mp hg with hg | hg
    · cases hg
      rfl
    · cases ih hg (fun hm => hk (List.mem_cons_of_mem _ hm))

theorem of_gives {ns : List (Note κ)} (h : Passes a (.gives k :: ns) b) :
    a = some k ∧ Passes none ns b := by
  cases h with
  | gives h => exact ⟨rfl, h⟩

theorem of_takes {ns : List (Note κ)} (h : Passes a (.takes k :: ns) b) :
    a = none ∧ Passes (some k) ns b := by
  cases h with
  | takes h => exact ⟨rfl, h⟩

end Passes
end KissTncBridge.Lib
