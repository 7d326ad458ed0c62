import KissTncBridge.Lib.Runs
import KissTncBridge.Port.BleAdvert

namespace KissTncBridge.Proofs.BleAdverts
open KissTncBridge.Port Lib Bridge

variable {l l' : BleLoop}

/-- A port that is full, or waits to advertise afresh, holds no advertisement. -/
structure Withdrawn (l : BleLoop) : Prop where
  full : l.port.maxClients ≤ l.len → l.adv = none
  refreshing : l.refreshAt.isSome = true → l.adv = none

/-- A phone the port does not know writes, its request is accepted, and it takes
the last place while the port advertises. -/
def Fills (l : BleLoop) : BleLoopEvent → Prop
  | .write addr accepted _ => l.knows addr = false ∧ accepted = true ∧ l.len < l.port.maxClients ∧
      l.port.maxClients ≤ l.len + 1 ∧ l.adv.isSome = true
  | _ => False

theorem ensureClient_max (addr : Mac) (l : BleLoop) :
    (l.ensureClient addr).port.maxClients = l.port.maxClients := by
  simp only [BleLoop.ensureClient, BleServerPort.ensureClient]
  split <;> rfl

theorem ensureClient_known (h : l.knows addr = true) : (l.ensureClient addr).len = l.len := by
  obtain ⟨g, hg⟩ := Option.isSome_iff_exists.mp h
  simp only [BleLoop.ensureClient, BleServerPort.ensureClient, hg, BleLoop.len]

theorem ensureClient_new (h : l.knows addr = false) : (l.ensureClient addr).len = l.len + 1 := by
  have hn : l.port.clients.lookup addr = none := by simpa [BleLoop.knows] using h
  have hm : addr ∉ l.port.clients := AList.lookup_eq_none.mp hn
  simp only [BleLoop.ensureClient, BleServerPort.ensureClient, hn, BleLoop.len]
  rw [AList.entries_insert_of_notMem hm, List.length_cons]

theorem withdraw_adv (l : BleLoop) : l.withdraw.adv = none := by
  unfold BleLoop.withdraw
  split
  · rfl
  · rename_i h
    simpa using h

/-- Advertising again is safe below the limit, while no refresh is pending. -/
theorem Withdrawn.resume (hm : l.len < l.port.maxClients) (hr : l.refreshAt = none) (ok : Bool) :
    Withdrawn (l.resume ok) := by
  unfold BleLoop.resume
  split
  · refine ⟨fun h => ?_, fun h => ?_⟩
    · exact absurd hm (Nat.not_lt.mpr h)
    · rw [hr] at h
      cases h
  · refine ⟨fun h => absurd hm (Nat.not_lt.mpr h), fun h => ?_⟩
    rw [hr] at h
    cases h

theorem Withdrawn.withdraw (l : BleLoop) : Withdrawn l.withdraw :=
  ⟨fun _ => withdraw_adv l, fun _ => withdraw_adv l⟩

theorem Withdrawn.of_none (h : l.adv = none) : Withdrawn l := ⟨fun _ => h, fun _ => h⟩

/-- A new advertisement takes the place of one that was held. -/
theorem Withdrawn.readvertise (h : Withdrawn l) (ok : Bool) : Withdrawn (l.readvertise ok) := by
  unfold BleLoop.readvertise
  split
  · exact h
  · rename_i hadv
    split
    · refine ⟨fun hm => ?_, fun hr => ?_⟩
      · exact absurd (h.full hm) (by simpa using hadv)
      · exact absurd (h.refreshing hr) (by simpa using hadv)
    · exact h

/-- A client more is no harm while there is still room, or nothing is
advertised. -/
theorem Withdrawn.ensureClient (h : Withdrawn l)
    (hroom : l.knows addr = false → l.port.maxClients ≤ l.len + 1 → l.adv = none) :
    Withdrawn (l.ensureClient addr) := by
  refine ⟨fun hm => ?_, h.refreshing⟩
  rw [ensureClient_max] at hm
  cases hk : l.knows addr with
  | true =>
    rw [ensureClient_known hk] at hm
    exact h.full hm
  | false =>
    rw [ensureClient_new hk] at hm
    exact hroom hk hm

theorem Withdrawn.leave (h : Withdrawn l) (ok : Bool) : Withdrawn (l.leave addr generation ok) := by
  unfold BleLoop.leave
  split
  · exact h
  · dsimp only
    split
    · rename_i hc
      exact Withdrawn.resume hc.1 (Option.isNone_iff_eq_none.mp hc.2.2) ok
    · rename_i hc
      refine ⟨fun hm => ?_, h.refreshing⟩
      refine h.full (Nat.le_trans hm ?_)
      exact (List.kerase_sublist addr l.port.clients.entries).length_le

/-- A step is only taken in the loop. -/
theorem in_loop (hs : l.step e = some l') : l.port.doing ≠ .leaving := by
  intro hl
  simp only [BleLoop.step, if_pos hl] at hs
  cases hs

theorem maxChanged_withdrawn (h : Withdrawn l) (hs : l.step (.maxChanged limit ok) = some l') :
    Withdrawn l' := by
  simp only [BleLoop.step, if_neg (in_loop hs)] at hs
  split at hs
  · cases hs
  · cases limit with
    | none =>
      cases hs
      exact ⟨h.full, h.refreshing⟩
    | some max =>
      dsimp only at hs
      split at hs
      · cases hs
        exact .withdraw _
      · rename_i hm
        split at hs
        · rename_i hc
          cases hs
          have hnone : l.refreshAt = none := Option.isNone_iff_eq_none.mp hc.2
          refine Withdrawn.resume ?_ ?_ ok
          · exact Nat.not_le.mp hm
          · exact hnone
        · cases hs
          exact ⟨fun hle => absurd hle hm, h.refreshing⟩

theorem refresh_withdrawn (h : Withdrawn l) (hs : l.step (.refresh now ok) = some l') :
    Withdrawn l' := by
  simp only [BleLoop.step, if_neg (in_loop hs)] at hs
  split at hs
  · rename_i due hr
    have hnone : l.adv = none := h.refreshing (by rw [hr]; rfl)
    split at hs
    · cases hs
    · split at hs
      · rename_i hm
        cases hs
        exact .resume hm rfl ok
      · cases hs
        exact .of_none hnone
  · cases hs

theorem nameChanged_withdrawn (h : Withdrawn l) (hs : l.step (.nameChanged name ok) = some l') :
    Withdrawn l' := by
  simp only [BleLoop.step, if_neg (in_loop hs)] at hs
  split at hs
  · cases hs
  · cases name with
    | none =>
      cases hs
      exact ⟨h.full, h.refreshing⟩
    | some name =>
      dsimp only at hs
      split at hs
      · rename_i hadv
        have hne : l.adv ≠ none := Option.isSome_iff_ne_none.mp hadv
        cases hs
        exact ⟨fun hm => absurd (h.full hm) hne, fun hr => absurd (h.refreshing hr) hne⟩
      · cases hs
        exact ⟨h.full, h.refreshing⟩

/-- A phone that writes is let in with the advertisement as it is. -/
theorem write_withdrawn (h : Withdrawn l) (hf : ¬ Fills l (.write addr accepted ok))
    (hs : l.step (.write addr accepted ok) = some l') : Withdrawn l' := by
  simp only [BleLoop.step, if_neg (in_loop hs)] at hs
  split at hs
  · cases hs
    exact h
  · rename_i hadm
    have hacc : l.port.admits addr = true ∧ accepted = true := by simpa using hadm
    have hroom : l.knows addr = false → l.port.maxClients ≤ l.len + 1 → l.adv = none := by
      intro hk hm
      by_contra hadv
      have hnew : ¬(l.port.clients.lookup addr).isSome = true := by
        rw [show (l.port.clients.lookup addr).isSome = false from hk]
        exact Bool.false_ne_true
      have hlt : l.len < l.port.maxClients := by
        have ha := hacc.1
        simp only [BleServerPort.admits, Bool.or_eq_true, decide_eq_true_eq] at ha
        exact ha.resolve_left hnew
      exact hf ⟨hk, hacc.2, hlt, hm, Option.isSome_iff_ne_none.mpr hadv⟩
    have hens := h.ensureClient hroom
    split at hs
    · cases hs
      exact hens.readvertise ok
    · cases hs
      exact hens

theorem notify_withdrawn (h : Withdrawn l) (hs : l.step (.notify addr ok) = some l') :
    Withdrawn l' := by
  simp only [BleLoop.step, if_neg (in_loop hs)] at hs
  split at hs
  · cases hs
    exact h
  · split at hs
    · cases hs
      exact .withdraw _
    · rename_i hm
      have hens : Withdrawn (l.ensureClient addr) := ⟨fun hle => absurd hle hm, h.refreshing⟩
      split at hs
      · cases hs
        exact hens.readvertise ok
      · cases hs
        exact hens

/-- A step that does not fill the port unnoticed keeps the advertisement in
order. -/
theorem step_withdrawn (h : Withdrawn l) (hf : ¬ Fills l e) (hs : l.step e = some l') :
    Withdrawn l' := by
  have hrun := in_loop hs
  cases e with
  | maxChanged max ok => exact maxChanged_withdrawn h hs
  | refresh now ok => exact refresh_withdrawn h hs
  | nameChanged name ok => exact nameChanged_withdrawn h hs
  | write addr accepted ok => exact write_withdrawn h hf hs
  | notify addr ok => exact notify_withdrawn h hs
  | gone addr generation ok | kicked addr generation ok =>
    simp only [BleLoop.step, if_neg hrun] at hs
    obtain rfl := Option.some.inj hs
    exact h.leave ok
  | unwatched addr =>
    simp only [BleLoop.step, if_neg hrun] at hs
    obtain rfl := Option.some.inj hs
    exact ⟨h.full, h.refreshing⟩
  | check addr =>
    simp only [BleLoop.step, if_neg hrun] at hs
    obtain rfl := Option.some.inj hs
    exact h
  | linkDown addr now | shutdown | streamEnded why =>
    simp only [BleLoop.step, if_neg hrun] at hs
    obtain rfl := Option.some.inj hs
    exact .of_none rfl

/-- A phone that takes the last place by writing finds the advertisement held
afterwards. -/
theorem fills_held (hf : Fills l e) (hs : l.step e = some l') : ¬ Withdrawn l' := by
  cases e with
  | write addr accepted ok =>
    obtain ⟨hk, hacc, hlt, hm, hadv⟩ := hf
    have hadm : l.port.admits addr = true := by
      simp only [BleServerPort.admits, Bool.or_eq_true, decide_eq_true_eq]
      exact .inr hlt
    have hlen := ensureClient_new hk
    have hmax := ensureClient_max addr l
    have hlast : ¬ (l.ensureClient addr).len < (l.ensureClient addr).port.maxClients := by omega
    simp only [BleLoop.step] at hs
    split at hs
    · cases hs
    · simp only [hadm, hacc, hk, hlast, Bool.not_true, Bool.or_self, Bool.false_eq_true, if_false,
        and_false] at hs
      cases hs
      intro hw
      have hnone : l.adv = none := hw.full (by omega)
      rw [hnone] at hadv
      cases hadv
  | _ => exact False.elim hf

theorem start_withdrawn (portId publicName : String) (hmax : 1 ≤ maxClients.toNat) :
    Withdrawn (BleLoop.start portId publicName maxClients) := by
  refine ⟨fun h => ?_, fun h => by cases h⟩
  have hz : maxClients.toNat ≤ 0 := h
  omega

/-- No advertisement is held while the port is full or a refresh is pending, after
every event of a run, exactly if no phone takes the last place with a write while
one is held. -/
theorem advertisement_withdrawn_iff (hmax : 1 ≤ maxClients.toNat)
    (hr : Runs BleLoop.step (BleLoop.start portId publicName maxClients) es l) :
    (∀ before after t, es = before ++ after →
      Runs BleLoop.step (BleLoop.start portId publicName maxClients) before t → Withdrawn t) ↔
    ¬ Meets BleLoop.step Fills (BleLoop.start portId publicName maxClients) es := by
  induction hr with
  | start =>
    refine ⟨fun _ => not_meets_nil, fun _ before after t he ht => ?_⟩
    obtain ⟨rfl, -⟩ := List.append_eq_nil_iff.mp he.symm
    have hstart : Runs BleLoop.step (BleLoop.start portId publicName maxClients) [] _ := .start
    exact ht.unique hstart ▸ start_withdrawn portId publicName hmax
  | @next es t e u hr _ hs ih =>
    rw [meets_next hr, not_or, ← ih]
    have hrun := hr.next trivial hs
    constructor
    · intro h
      refine ⟨fun before after v he hv =>
        h before (after ++ [e]) v (by rw [he, List.append_assoc]) hv, fun hf => ?_⟩
      exact fills_held hf hs (h (es ++ [e]) [] u (List.append_nil _).symm hrun)
    · intro ⟨h, hf⟩ before after v he hv
      cases after using List.reverseRecOn with
      | nil =>
        rw [List.append_nil] at he
        subst he
        exact hv.unique hrun ▸ step_withdrawn (h es [] t (List.append_nil _).symm hr) hf hs
      | append_singleton after e' =>
        rw [← List.append_assoc] at he
        exact h before after v (List.append_inj' he rfl).1 hv

/-- A phone subscribes and leaves. -/
theorem advertisement_withdrawn_visit :
    ∃ l, Runs BleLoop.step (BleLoop.start "ble-server0" "Attic" 1)
      [.notify ⟨1⟩ true, .gone ⟨1⟩ 1 true] l ∧ l.adv = some "Attic" ∧
      ∀ before after t, [.notify ⟨1⟩ true, .gone ⟨1⟩ 1 true] = before ++ after →
        Runs BleLoop.step (BleLoop.start "ble-server0" "Attic" 1) before t → Withdrawn t := by
  have h : Runs BleLoop.step (BleLoop.start "ble-server0" "Attic" 1)
      [.notify ⟨1⟩ true, .gone ⟨1⟩ 1 true] _ :=
    runs_of_foldlM rfl
  refine ⟨_, h, rfl, (advertisement_withdrawn_iff (by decide) h).mpr ?_⟩
  have hone : Runs BleLoop.step (BleLoop.start "ble-server0" "Attic" 1) [.notify ⟨1⟩ true] _ :=
    runs_of_foldlM rfl
  intro hm
  rcases (meets_next hone).mp hm with hm | hm
  · rcases (meets_next .start).mp hm with hm | hm
    · exact not_meets_nil hm
    · exact hm
  · exact hm

/-- The only phone the port may serve writes: the port is full, and advertises. -/
theorem full_port_advertises :
    ∃ l, Runs BleLoop.step (BleLoop.start "ble-server0" "Attic" 1) [.write ⟨1⟩ true true] l ∧
      l.port.maxClients = 1 ∧ l.len = 1 ∧ l.adv = some "Attic" ∧ ¬ Withdrawn l := by
  refine ⟨_, runs_of_foldlM rfl, rfl, rfl, rfl, fun hw => ?_⟩
  have hnone := hw.full (Nat.le_refl 1)
  cases hnone

end KissTncBridge.Proofs.BleAdverts
