import KissTncBridge.Proofs.AdapterFollow

namespace KissTncBridge.Proofs.ManagerSurvives
open Conf Supervisor.Ble AdapterFollow

variable {a : Adapters} {sel : AdapterSel} {slots : List BleSlot} {slot : BleSlot} {task : Nat}

/-- The adapter a selector names can be read: the first of the adapters by
name, or the `hciN` it says, if that is there. One that is selected by its
address is found by reading it. -/
def Readable (a : Adapters) : AdapterSel → Prop
  | .default => ∀ n ∈ a.names, (∀ m ∈ a.names, n ≤ m) → (a.read n).isSome = true
  | .hci n => n ∈ a.names → (a.read n).isSome = true
  | .mac _ => True

theorem present_of_mem (h : n ∈ a.names) : a.present n = a.read n := if_pos h

theorem want_default (hm : n ∈ a.names) (hn : ∀ m ∈ a.names, n ≤ m) : a.want .default = some n := by
  have hs := (mem_sorted a).mpr hm
  change a.sorted.head? = some n
  cases hl : a.sorted with
  | nil =>
    rw [hl] at hs
    cases hs
  | cons m rest =>
    have hm' : m ∈ a.names := (mem_sorted a).mp (by rw [hl]; exact List.mem_cons_self ..)
    rw [List.head?_cons, String.le_antisymm (sorted_head hl n hm) (hn m hm')]

theorem want_hci (hm : n ∈ a.names) : a.want (.hci n) = some n := by
  have hs := (mem_sorted a).mpr hm
  obtain ⟨m, hfind⟩ := Option.isSome_iff_exists.mp
    (List.find?_isSome (p := fun m => m == n).mpr ⟨n, hs, by simp⟩)
  have he : m = n := by simpa using List.find?_some hfind
  rw [← he] at hfind ⊢
  exact hfind

/-- A selector names an adapter that can be read exactly if the adapter it
leads to is in the map. -/
theorem readable_iff (a : Adapters) (sel : AdapterSel) :
    Readable a sel ↔ ∀ n, a.want sel = some n → (a.present n).isSome = true := by
  cases sel with
  | default =>
    constructor
    · intro h n hw
      obtain ⟨hm, hn⟩ := want_denotes a hw
      rw [present_of_mem hm]
      exact h n hm hn
    · intro h n hm hn
      rw [← present_of_mem hm]
      exact h n (want_default hm hn)
  | hci name =>
    constructor
    · intro h n hw
      obtain ⟨rfl, hm⟩ := want_denotes a hw
      rw [present_of_mem hm]
      exact h hm
    · intro h hm
      rw [← present_of_mem hm]
      exact h name (want_hci hm)
  | mac m =>
    refine iff_of_true trivial (fun n hw => ?_)
    obtain ⟨p, hp, -⟩ := want_denotes a hw
    rw [hp]
    rfl

/-- A port that is left running runs on the adapter it is to be on, which is
there. -/
theorem stopSlot_running (h : (stopSlot a slot).running = some r) :
    a.want slot.adapter = some r.adapter ∧ (a.present r.adapter).isSome = true := by
  unfold stopSlot at h
  split at h
  · rename_i hn
    rw [hn] at h
    cases h
  · rename_i r' hr
    split at h
    · cases h
    · rename_i hc
      rw [not_or, not_or, not_not] at hc
      rw [hr] at h
      cases h
      exact ⟨hc.1, by simpa [Option.isNone_iff_eq_none, Option.isSome_iff_ne_none] using hc.2.1⟩

theorem startSlot_isSome (a : Adapters) (slot : BleSlot) (task : Nat) :
    (startSlot a (stopSlot a slot) task).isSome = true ↔ Readable a slot.adapter := by
  have hsel : (stopSlot a slot).adapter = slot.adapter :=
    congrArg (fun x => x.2.2) (stopSlot_sig a slot)
  rw [readable_iff]
  unfold startSlot
  cases hr : (stopSlot a slot).running with
  | some r =>
    obtain ⟨hw, hp⟩ := stopSlot_running hr
    refine iff_of_true rfl (fun n hn => ?_)
    obtain rfl := Option.some.inj (hw.symm.trans hn)
    exact hp
  | none =>
    simp only [Option.isSome_none, Bool.false_eq_true, if_false, hsel]
    cases hw : a.want slot.adapter with
    | none => simp
    | some n =>
      cases hp : a.present n with
      | none => simp [hp]
      | some p =>
        simp only [Option.some.injEq, forall_eq', hp, Option.isSome_some, iff_true]
        split <;> rfl

theorem reconcileSlots_isSome (a : Adapters) (slots : List BleSlot) (task : Nat) :
    (reconcileSlots a slots task).isSome = true ↔ ∀ slot ∈ slots, Readable a slot.adapter := by
  induction slots generalizing task with
  | nil => simp [reconcileSlots]
  | cons slot rest ih =>
    rw [List.forall_mem_cons, ← startSlot_isSome a slot task]
    cases hs : startSlot a (stopSlot a slot) task with
    | none => simp [reconcileSlots, hs]
    | some s =>
      rw [← ih s.2]
      cases hrest : reconcileSlots a rest s.2 <;> simp [reconcileSlots, hs, hrest]

/-- Reconciling completes, whatever BlueZ answers and whatever the slots are
doing, exactly if every selector names an adapter that can be read. -/
theorem reconcile_completes_iff (a : Adapters) (m : Manager) :
    (m.reconcile a).isSome = true ↔ ∀ slot ∈ m.slots, Readable a slot.adapter := by
  rw [← reconcileSlots_isSome a m.slots m.spawned, Manager.reconcile, Option.isSome_map]

/-- An adapter is gone between the list of names and the question for its
address, and a port is to be on it. -/
theorem reconcile_panics :
    Manager.reconcile ⟨["hci0"], fun _ => none, ["hci0"], .refl _⟩
      ⟨[.new "ktbr0" "ble-server0" .default], 0⟩ = none := by
  rfl

end KissTncBridge.Proofs.ManagerSurvives
