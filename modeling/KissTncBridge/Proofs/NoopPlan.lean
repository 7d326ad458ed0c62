import KissTncBridge.Proofs.PlanFacts

namespace KissTncBridge.Proofs.NoopPlan
open Conf Bridge Reconcile ValidConfig PlanFacts

variable {old new : Config} {rt : Runtime} {net : IpNetLib}

def adapterOf : PortKind → Option AdapterSel
  | .bleServer a _ => some a
  | .sppClient _ _ spp _ _ _ => some spp.adapter
  | .bleClient _ _ ble _ _ _ => some ble.adapter
  | .tcpClient .. | .tcpServer .. | .serial .. => none

def besidesAdapter : PortKind → PortKind
  | .bleServer _ m => .bleServer .default m
  | .sppClient t m spp c i e => .sppClient t m { spp with adapter := .default } c i e
  | .bleClient t m ble c i e => .bleClient t m { ble with adapter := .default } c i e
  | k => k

/-- Two kinds of port are equal, with adapters compared by what they mean right
now. -/
def SameKind (rt : Runtime) (ok nk : PortKind) : Prop :=
  besidesAdapter ok = besidesAdapter nk ∧
    ∀ a b, adapterOf ok = some a → adapterOf nk = some b → rt.sameAdapter a b = true

structure Agree (rt : Runtime) (op np : Port) : Prop where
  id : op.id = np.id
  role : op.role = np.role
  kind : SameKind rt op.kind np.kind

/-- Two bridges have the same ports, in whatever order. -/
def SamePorts (rt : Runtime) (ob nb : Conf.Bridge) : Prop :=
  (∀ op ∈ ob.ports, ∃ np ∈ nb.ports, Agree rt op np) ∧ ∀ np ∈ nb.ports, ∃ op ∈ ob.ports,
    Agree rt op np

structure SameBridge (rt : Runtime) (ob nb : Conf.Bridge) : Prop where
  name : ob.name = nb.name
  publicName : ob.publicName = nb.publicName
  appParams : ob.appParams = nb.appParams
  ports : SamePorts rt ob nb

theorem sameKind_iff (rt : Runtime) (ok nk : PortKind) :
    (sameLink rt ok nk && sameRest ok nk) = true ↔ SameKind rt ok nk := by
  cases ok with
  | tcpClient =>
    cases nk <;> simp [sameLink, sameRest, SameKind, besidesAdapter, adapterOf, and_assoc]
  | tcpServer =>
    cases nk <;> simp [sameLink, sameRest, SameKind, besidesAdapter, adapterOf]
    grind
  | bleServer =>
    cases nk <;> simp [sameLink, sameRest, SameKind, besidesAdapter, adapterOf]
    grind
  | sppClient =>
    cases nk <;> simp [sameLink, sameRest, SameKind, besidesAdapter, adapterOf]
    grind
  | bleClient =>
    cases nk <;> simp [sameLink, sameRest, SameKind, besidesAdapter, adapterOf]
    grind
  | serial =>
    cases nk <;> simp [sameLink, sameRest, SameKind, besidesAdapter, adapterOf]
    grind

theorem comparePort_unchanged (net : IpNetLib) (rt : Runtime) (bid : String) (op np : Port) :
    (comparePort net rt bid op np).action = .unchanged ↔
      op.role = np.role ∧ SameKind rt op.kind np.kind := by
  rw [← sameKind_iff, Bool.and_eq_true]
  by_cases hr : op.role = np.role
  · cases hl : sameLink rt op.kind np.kind with
    | true =>
      rw [comparePort_kept net bid hr hl]
      cases sameRest op.kind np.kind with
      | true => simp [hr]
      | false => simp
    | false =>
      rw [(comparePort_restarted net rt bid op np).mpr (.inr hl)]
      simp
  · rw [(comparePort_restarted net rt bid op np).mpr (.inl hr)]
    simp [hr]

/-- A port of the new version is as it was when the old version has one that
agrees with it. -/
theorem planPort_unchanged {ob : Conf.Bridge} (ho : (ob.ports.map Port.id).Nodup) (np : Port) :
    (planPort net rt ob np).action = .unchanged ↔ ∃ op ∈ ob.ports, Agree rt op np := by
  unfold planPort
  split
  · rename_i op hf
    have hid : op.id = np.id := by simpa using List.find?_some hf
    rw [comparePort_unchanged]
    constructor
    · rintro ⟨hr, hk⟩
      exact ⟨op, List.mem_of_find?_eq_some hf, hid, hr, hk⟩
    · rintro ⟨op', hm, ha⟩
      have hfind := find_of_mem ho hm
      rw [ha.id, hf] at hfind
      cases hfind
      exact ⟨ha.role, ha.kind⟩
  · rename_i hf
    simp only [startedPort, reduceCtorEq, false_iff]
    rintro ⟨op, hm, ha⟩
    have hno := List.find?_eq_none.mp hf op hm
    simp [ha.id] at hno

/-- What a comparison finds changed about a bridge beside its ports. -/
def bridgeChanges (ob nb : Conf.Bridge) : List String :=
  (if ob.name ≠ nb.name then ["name"] else []) ++
    (if ob.publicName ≠ nb.publicName then ["public_name"] else []) ++
    (if ob.appParams ≠ nb.appParams then ["app_params"] else [])

theorem compareBridge_action (ob nb : Conf.Bridge) : (compareBridge net rt ob nb).action =
    if (bridgeChanges ob nb).isEmpty &&
        (comparePorts net rt ob nb).all (fun p => p.action == .unchanged) then .unchanged
    else .updated := rfl

theorem bridgeChanges_empty (ob nb : Conf.Bridge) : (bridgeChanges ob nb).isEmpty = true ↔
    ob.name = nb.name ∧ ob.publicName = nb.publicName ∧ ob.appParams = nb.appParams := by
  simp [bridgeChanges]

theorem compareBridge_unchanged {ob nb : Conf.Bridge} (ho : (ob.ports.map Port.id).Nodup) :
    (compareBridge net rt ob nb).action = .unchanged ↔ SameBridge rt ob nb := by
  have hports : (comparePorts net rt ob nb).all (fun p => p.action == .unchanged) = true ↔
      SamePorts rt ob nb := by
    rw [List.all_eq_true]
    constructor
    · intro h
      have hnew : ∀ np ∈ nb.ports, ∃ op ∈ ob.ports, Agree rt op np := by
        intro np hnp
        have hun := h _ (mem_comparePorts.mpr (.inr ⟨np, hnp, rfl⟩))
        exact (planPort_unchanged ho np).mp (by simpa using hun)
      refine ⟨fun op hop => ?_, hnew⟩
      by_cases hgone : ∀ p ∈ nb.ports, p.id ≠ op.id
      · have hun := h _ (mem_comparePorts.mpr (.inl ⟨op, hop, hgone, rfl⟩))
        simp [stoppedPort] at hun
      · obtain ⟨np, hnp, hid⟩ : ∃ np ∈ nb.ports, np.id = op.id := by
          simpa using hgone
        obtain ⟨op', hop', ha⟩ := hnew np hnp
        obtain rfl : op' = op := List.inj_on_of_nodup_map ho hop' hop (ha.id.trans hid)
        exact ⟨np, hnp, ha⟩
    · rintro ⟨hold, hnew⟩ pp hpp
      rcases mem_comparePorts.mp hpp with ⟨op, hop, hgone, rfl⟩ | ⟨np, hnp, rfl⟩
      · obtain ⟨np, hnp, ha⟩ := hold op hop
        exact absurd ha.id.symm (hgone np hnp)
      · simpa using (planPort_unchanged ho np).mpr (hnew np hnp)
  rw [compareBridge_action]
  split
  · rename_i h
    obtain ⟨hc, hp⟩ := Bool.and_eq_true_iff.mp h
    obtain ⟨hn, hpn, ha⟩ := (bridgeChanges_empty ob nb).mp hc
    exact ⟨fun _ => ⟨hn, hpn, ha, hports.mp hp⟩, fun _ => rfl⟩
  · rename_i h
    simp only [reduceCtorEq, false_iff]
    intro hs
    refine h (Bool.and_eq_true_iff.mpr ⟨?_, hports.mpr hs.ports⟩)
    exact (bridgeChanges_empty ob nb).mpr ⟨hs.name, hs.publicName, hs.appParams⟩

/-- The plan does nothing exactly when the two configs agree in what runs. -/
theorem noop_iff_same (ho : Valid old) (hn : Valid new) :
    (plan net old new rt).isNoop = true ↔
      old.global.logLevel = new.global.logLevel ∧ old.control.group = new.control.group ∧
        (∀ bid, (∃ ob, Enabled old ob ∧ ob.id = bid) ↔ ∃ nb, Enabled new nb ∧ nb.id = bid) ∧
        ∀ ob nb, Enabled old ob → Enabled new nb → ob.id = nb.id → SameBridge rt ob nb := by
  have hglobal : (plan net old new rt).global.isEmpty = true ↔
      old.global.logLevel = new.global.logLevel ∧ old.control.group = new.control.group := by
    simp [plan]
  have hports : ∀ {ob}, Enabled old ob → (ob.ports.map Port.id).Nodup := fun h => ho.port_ids h.1
  rw [Plan.isNoop, Bool.and_eq_true, hglobal, List.all_eq_true, and_assoc]
  refine and_congr_right (fun _ => and_congr_right (fun _ => ?_))
  constructor
  · intro h
    refine ⟨fun bid => ⟨?_, ?_⟩, fun ob nb hob hnb hid => ?_⟩
    · rintro ⟨ob, hob, rfl⟩
      by_contra hno
      have hun := h _ ((mem_plan ho hn).mpr (.stopped hob (fun nb hnb he => hno ⟨nb, hnb, he⟩)))
      simp [stopBridge] at hun
    · rintro ⟨nb, hnb, rfl⟩
      by_contra hno
      have hun := h _ ((mem_plan ho hn).mpr (.started hnb (fun ob hob he => hno ⟨ob, hob, he⟩)))
      simp at hun
    · have hun := h _ ((mem_plan ho hn).mpr (.compared hob hnb hid))
      exact (compareBridge_unchanged (hports hob)).mp (by simpa using hun)
  · rintro ⟨hids, hsame⟩ bp hbp
    cases (mem_plan ho hn).mp hbp with
    | @stopped ob hob hno =>
      obtain ⟨nb, hnb, he⟩ := (hids ob.id).mp ⟨ob, hob, rfl⟩
      exact absurd he (hno nb hnb)
    | @started nb hnb hno =>
      obtain ⟨ob, hob, he⟩ := (hids nb.id).mpr ⟨nb, hnb, rfl⟩
      exact absurd he (hno ob hob)
    | @compared ob nb hob hnb hid =>
      simpa using (compareBridge_unchanged (hports hob)).mpr (hsame ob nb hob hnb hid)

def portable (ports : List Port) (source : Source) : Conf.Bridge :=
  ⟨"ktbr0", "Portable", "Portable", true, none, .pass, ports, source⟩

def spare : Conf.Bridge := ⟨"ktbr1", "Spare", "Spare", false, none, .pass, [], .dynamic⟩

def radioPort : Port := ⟨"radio", .tnc, .tcpClient "tnc.local" 8001 .onDemand 0⟩

def phonePort (sel : AdapterSel) : Port := ⟨"phones", .app, .bleServer sel 1⟩

def portableConfig (bridges : List Conf.Bridge) : Config :=
  ⟨⟨"info", .default⟩, ⟨"kiss"⟩, [], [], bridges⟩

def portableBefore : Config :=
  portableConfig [portable [radioPort, phonePort .default] (.static "a.toml")]

/-- The bridge has moved to another file, its ports have changed places, the
adapter is named and a disabled bridge has been added. -/
def portableAfter : Config :=
  portableConfig [spare, portable [phonePort (.hci "hci0"), radioPort] .dynamic]

def oneAdapter : Runtime := ⟨∅, some (fun _ => some ⟨0x001a7dda7113#48⟩)⟩

theorem noop_iff_same_moved :
    (plan ⟨fun _ => none, fun _ _ => false⟩ portableBefore portableAfter oneAdapter).isNoop = true ∧
      ∀ ob nb, Enabled portableBefore ob → Enabled portableAfter nb → ob.id = nb.id →
        SameBridge oneAdapter ob nb := by
  have hnoop :
    (plan ⟨fun _ => none, fun _ _ => false⟩ portableBefore portableAfter oneAdapter).isNoop =
      true := by
    decide +kernel
  exact ⟨hnoop, ((noop_iff_same (by decide +kernel) (by decide +kernel)).mp hnoop).2.2.2⟩

end KissTncBridge.Proofs.NoopPlan
