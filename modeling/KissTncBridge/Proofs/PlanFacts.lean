import Mathlib
import KissTncBridge.Lib.Maps
import KissTncBridge.Proofs.ValidConfig
import KissTncBridge.Reconcile

namespace KissTncBridge.Proofs.PlanFacts
open Conf Bridge Reconcile Lib ValidConfig

variable {old new : Config} {rt : Runtime} {net : IpNetLib}

def Enabled (c : Config) (b : Conf.Bridge) : Prop := b ∈ c.bridges ∧ b.enabled = true

theorem running_keys (h : Valid c) :
    (((c.bridges.filter (·.enabled)).map (fun b => (b.id, b))).map Prod.fst).Nodup := by
  rw [List.map_map]
  exact h.bridge_ids.sublist (List.filter_sublist.map _)

theorem running_iff (h : Valid c) : (running c)[bid]? = some b ↔ Enabled c b ∧ b.id = bid := by
  rw [running, getElem?_ofList_iff (running_keys h)]
  simp only [List.mem_map, List.mem_filter, Prod.mk.injEq]
  constructor
  · rintro ⟨b', hb, rfl, rfl⟩
    exact ⟨hb, rfl⟩
  · rintro ⟨hb, rfl⟩
    exact ⟨b, hb, rfl, rfl⟩

theorem running_toList (h : Valid c) :
    (bid, b) ∈ (running c).toList ↔ Enabled c b ∧ b.id = bid := by
  rw [Std.TreeMap.mem_toList_iff_getElem?_eq_some, running_iff h]

theorem running_contains (h : Valid c) :
    (running c).contains bid = true ↔ ∃ b, Enabled c b ∧ b.id = bid := by
  rw [Std.TreeMap.contains_eq_isSome_getElem?, Option.isSome_iff_exists]
  exact exists_congr (fun b => running_iff h)

inductive Planned (net : IpNetLib) (old new : Config) (rt : Runtime) : BridgePlan → Prop where
  | stopped : Enabled old ob → (∀ nb, Enabled new nb → nb.id ≠ ob.id) →
      Planned net old new rt (stopBridge ob rt)
  | compared : Enabled old ob → Enabled new nb → ob.id = nb.id →
      Planned net old new rt (compareBridge net rt ob nb)
  | started : Enabled new nb → (∀ ob, Enabled old ob → ob.id ≠ nb.id) →
      Planned net old new rt ⟨nb.id, .started, [], nb.ports.map startedPort, false⟩

theorem mem_plan (ho : Valid old) (hn : Valid new) :
    bp ∈ (plan net old new rt).bridges ↔ Planned net old new rt bp := by
  simp only [plan, List.mem_append, List.mem_map, List.mem_filter, Prod.exists]
  constructor
  · rintro (⟨k, ob, ⟨hm, hc⟩, rfl⟩ | ⟨k, nb, hm, rfl⟩)
    · obtain ⟨hr, rfl⟩ := (running_toList ho).mp hm
      refine .stopped hr (fun nb hnb he => ?_)
      rw [(running_contains hn).mpr ⟨nb, hnb, he⟩] at hc
      cases hc
    · obtain ⟨hr, rfl⟩ := (running_toList hn).mp hm
      cases hb : (running old)[nb.id]? with
      | some ob =>
        obtain ⟨hro, he⟩ := (running_iff ho).mp hb
        exact .compared hro hr he
      | none =>
        refine .started hr (fun ob hro he => ?_)
        rw [(running_iff ho).mpr ⟨hro, he⟩] at hb
        cases hb
  · intro hp
    cases hp with
    | @stopped ob hr hno =>
      refine .inl ⟨ob.id, ob, ⟨(running_toList ho).mpr ⟨hr, rfl⟩, ?_⟩, rfl⟩
      rw [Bool.not_eq_true', ← Bool.not_eq_true, running_contains hn]
      rintro ⟨nb, hnb, he⟩
      exact hno nb hnb he
    | @compared ob nb hro hrn he =>
      refine .inr ⟨nb.id, nb, (running_toList hn).mpr ⟨hrn, rfl⟩, ?_⟩
      rw [(running_iff ho).mpr ⟨hro, he⟩]
    | @started nb hrn hno =>
      refine .inr ⟨nb.id, nb, (running_toList hn).mpr ⟨hrn, rfl⟩, ?_⟩
      have hb : (running old)[nb.id]? = none := by
        cases hb : (running old)[nb.id]? with
        | none => rfl
        | some ob =>
          obtain ⟨hro, he⟩ := (running_iff ho).mp hb
          exact absurd he (hno ob hro)
      rw [hb]

theorem plan_ids (ho : Valid old) (hn : Valid new) :
    ((plan net old new rt).bridges.map BridgePlan.id).Nodup := by
  have hb : ∀ x ∈ (running old).toList, x.2.id = x.1 :=
    fun x hx => ((running_toList ho).mp hx).2
  have ha : ∀ x ∈ (running new).toList, x.2.id = x.1 :=
    fun x hx => ((running_toList hn).mp hx).2
  simp only [plan, List.map_append, List.map_map]
  rw [List.map_congr_left (g := Prod.fst),
    List.map_congr_left (l := (running new).toList) (g := Prod.fst)]
  · rw [List.nodup_append]
    refine ⟨?_, toList_keys_nodup _, ?_⟩
    · exact (toList_keys_nodup (running old)).sublist (List.filter_sublist.map _)
    · intro k hk k' hk' he
      obtain ⟨x, hx, rfl⟩ := List.mem_map.mp hk
      obtain ⟨y, hy, rfl⟩ := List.mem_map.mp hk'
      have hc := (List.mem_filter.mp hx).2
      obtain ⟨hr, hid⟩ := (running_toList hn).mp hy
      rw [he, (running_contains hn).mpr ⟨y.2, hr, hid⟩] at hc
      cases hc
  · intro x hx
    simp only [Function.comp]
    split
    · exact ha x hx
    · rfl
  · intro x hx
    exact hb x (List.mem_filter.mp hx).1

/-- The ports of a comparison: what is gone, and what the new version has. -/
theorem mem_comparePorts : pp ∈ comparePorts net rt ob nb ↔
    (∃ op ∈ ob.ports, (∀ p ∈ nb.ports, p.id ≠ op.id) ∧ pp = stoppedPort rt ob.id op) ∨
      ∃ np ∈ nb.ports, pp = planPort net rt ob np := by
  simp only [comparePorts, List.mem_append, List.mem_map, List.mem_filter, Bool.not_eq_true',
    List.any_eq_false, beq_iff_eq]
  constructor
  · rintro (⟨op, ⟨hm, hn⟩, rfl⟩ | ⟨np, hm, rfl⟩)
    · exact .inl ⟨op, hm, hn, rfl⟩
    · exact .inr ⟨np, hm, rfl⟩
  · rintro (⟨op, hm, hn, rfl⟩ | ⟨np, hm, rfl⟩)
    · exact .inl ⟨op, ⟨hm, hn⟩, rfl⟩
    · exact .inr ⟨np, hm, rfl⟩

/-- A port that both versions of a bridge have is compared. -/
theorem compared_mem {ob nb : Conf.Bridge} (ho : Valid old) (hob : Enabled old ob)
    (hop : op ∈ ob.ports) (hnp : np ∈ nb.ports) (hpid : op.id = np.id) :
    comparePort net rt ob.id op np ∈ comparePorts net rt ob nb := by
  refine mem_comparePorts.mpr (.inr ⟨np, hnp, ?_⟩)
  unfold planPort
  rw [ho.find_port hob.1 hop hpid.symm]

theorem planPort_id (ob : Conf.Bridge) (np : Port) : (planPort net rt ob np).id = np.id := by
  unfold planPort
  split <;> rfl

theorem comparePorts_ids (ho : (ob.ports.map Port.id).Nodup) (hn : (nb.ports.map Port.id).Nodup) :
    ((comparePorts net rt ob nb).map PortPlan.id).Nodup := by
  have hp : PortPlan.id ∘ planPort net rt ob = Port.id := funext (planPort_id ob)
  simp only [comparePorts, List.map_append, List.map_map, hp]
  rw [List.nodup_append]
  refine ⟨?_, hn, ?_⟩
  · exact ho.sublist (List.filter_sublist.map _)
  · intro k hk k' hk' he
    obtain ⟨op, hop, rfl⟩ := List.mem_map.mp hk
    obtain ⟨np, hnp, rfl⟩ := List.mem_map.mp hk'
    have hf := (List.mem_filter.mp hop).2
    rw [Bool.not_eq_true', List.any_eq_false] at hf
    exact hf np hnp (by rw [beq_iff_eq]; exact he.symm)

theorem sameAdapter_refl (rt : Runtime) (a : AdapterSel) : rt.sameAdapter a a = true := by
  simp [Runtime.sameAdapter]

theorem sameAdapter_iff : rt.sameAdapter a b = true ↔
    a = b ∨ ∃ f m, rt.adapterMac = some f ∧ f a = some m ∧ f b = some m := by
  unfold Runtime.sameAdapter
  by_cases he : a = b
  · simp [he]
  · simp only [he, if_false, false_or]
    cases rt.adapterMac with
    | none => simp
    | some f =>
      cases ha : f a <;> cases hb : f b <;> simp [ha, hb]
      exact eq_comm

theorem sameAdapter_symm (h : rt.sameAdapter a b = true) : rt.sameAdapter b a = true := by
  rw [sameAdapter_iff] at *
  rcases h with rfl | ⟨f, m, hf, ha, hb⟩
  · exact .inl rfl
  · exact .inr ⟨f, m, hf, hb, ha⟩

theorem sameAdapter_trans (h : rt.sameAdapter a b = true) (h' : rt.sameAdapter b c = true) :
    rt.sameAdapter a c = true := by
  rw [sameAdapter_iff] at *
  rcases h with rfl | ⟨f, m, hf, ha, hb⟩
  · exact h'
  · rcases h' with rfl | ⟨f', m', hf', hb', hc⟩
    · exact .inr ⟨f, m, hf, ha, hb⟩
    · rw [hf] at hf'
      cases hf'
      rw [hb] at hb'
      cases hb'
      exact .inr ⟨f, m, hf, ha, hc⟩

/-- Two versions of a port use the same link, adapters compared by what they
mean right now. -/
def sameLink (rt : Runtime) : PortKind → PortKind → Bool
  | .tcpClient oh op _ _, .tcpClient nh np _ _ => oh == nh && op == np
  | .sppClient _ om os _ _ _, .sppClient _ nm ns _ _ _ =>
    os.address == ns.address && os.channel == ns.channel && rt.sameAdapter os.adapter ns.adapter &&
      om == nm
  | .bleClient _ om ob _ _ _, .bleClient _ nm nb _ _ _ =>
    ob.address == nb.address && rt.sameAdapter ob.adapter nb.adapter && om == nm
  | .serial _ om os _ _ _, .serial _ nm ns _ _ _ => os == ns && om == nm
  | .tcpServer ol _ _ _, .tcpServer nl _ _ _ => ol == nl
  | .bleServer oa _, .bleServer na _ => rt.sameAdapter oa na
  | _, _ => false

def sameRest : PortKind → PortKind → Bool
  | .tcpClient _ _ oc oi, .tcpClient _ _ nc ni => oc == nc && oi == ni
  | .sppClient ot _ _ oc oi oe, .sppClient nt _ _ nc ni ne
  | .bleClient ot _ _ oc oi oe, .bleClient nt _ _ nc ni ne
  | .serial ot _ _ oc oi oe, .serial nt _ _ nc ni ne =>
    ot == nt && oc == nc && oi == ni && oe == ne
  | .tcpServer _ om oa on, .tcpServer _ nm na nn => oa == na && om == nm && on == nn
  | .bleServer _ om, .bleServer _ nm => om == nm
  | _, _ => false

@[simp] theorem note_restart (d : Diff) : (d.note c what).restart = d.restart := by
  unfold Diff.note
  split <;> rfl

@[simp] theorem relink_restart (d : Diff) : (d.relink c what).restart = (d.restart || c) := by
  unfold Diff.relink
  split <;> simp [*]

@[simp] theorem note_changes (d : Diff) :
    (d.note c what).changes.isEmpty = (d.changes.isEmpty && !c) := by
  unfold Diff.note
  split <;> simp [*]

@[simp] theorem relink_changes (d : Diff) :
    (d.relink c what).changes.isEmpty = (d.changes.isEmpty && !c) := by
  unfold Diff.relink
  split <;> simp [*]

theorem compareTncPort_restart (d : Diff) :
    (compareTncPort d om nm ot nt oc nc oi ni oe ne).restart = (d.restart || om != nm) := by
  simp [compareTncPort]

theorem compareTncPort_changes (d : Diff) :
    (compareTncPort d om nm ot nt oc nc oi ni oe ne).changes.isEmpty =
      (d.changes.isEmpty && om == nm && ot == nt && oc == nc && oi == ni && oe == ne) := by
  simp [compareTncPort, bne]

/-- A port restarts when its link changes. -/
theorem compareKind_restart (net : IpNetLib) (rt : Runtime) (bid : String) (op np : Port) :
    (compareKind net rt bid op np).restart = !sameLink rt op.kind np.kind := by
  unfold compareKind
  split
  · rename_i ho hn
    rw [ho, hn]
    rw [Bool.eq_iff_iff]
    simp [sameLink, Bool.or_eq_true, imp_iff_not_or]
  · rename_i ho hn
    rw [ho, hn, compareTncPort_restart]
    dsimp only [sameLink]
    split <;> grind [relink_restart]
  · rename_i ho hn
    rw [ho, hn, compareTncPort_restart]
    dsimp only [sameLink]
    split <;> grind [relink_restart]
  · rename_i ho hn
    rw [ho, hn, compareTncPort_restart]
    simp [sameLink, bne]
  · rename_i ho hn
    rw [ho, hn]
    dsimp only [sameLink]
    split <;> simp_all
  · rename_i ho hn
    rw [ho, hn]
    dsimp only [sameLink]
    split <;> simp_all
  · simp only [sameLink, relink_restart, Bool.or_true, Bool.not_false]

/-- It stays as it is when nothing about it changes. -/
theorem compareKind_changes (net : IpNetLib) (rt : Runtime) (bid : String) (op np : Port) :
    (compareKind net rt bid op np).changes.isEmpty =
      (sameLink rt op.kind np.kind && sameRest op.kind np.kind) := by
  unfold compareKind
  split
  · rename_i ho hn
    rw [ho, hn]
    rw [Bool.eq_iff_iff]
    simp [sameLink, sameRest, and_assoc]
  · rename_i ho hn
    rw [ho, hn, compareTncPort_changes]
    dsimp only [sameLink, sameRest]
    split <;> grind [relink_changes]
  · rename_i ho hn
    rw [ho, hn, compareTncPort_changes]
    dsimp only [sameLink, sameRest]
    split <;> grind [relink_changes]
  · rename_i ho hn
    rw [ho, hn, compareTncPort_changes]
    simp [sameLink, sameRest, bne, Bool.and_assoc]
  · rename_i ho hn
    rw [ho, hn]
    dsimp only [sameLink, sameRest]
    split <;> simp_all [bne]
  · rename_i ho hn
    rw [ho, hn]
    dsimp only [sameLink, sameRest]
    split <;> simp_all [bne]
  · simp only [sameLink, relink_changes, Bool.not_true, Bool.and_false, Bool.false_and]

theorem comparePort_restarted (net : IpNetLib) (rt : Runtime) (bid : String) (op np : Port) :
    (comparePort net rt bid op np).action = .restarted ↔
      op.role ≠ np.role ∨ sameLink rt op.kind np.kind = false := by
  have hr := compareKind_restart net rt bid op np
  by_cases h : op.role = np.role
  · simp only [comparePort, h, ne_eq, not_true, if_false, false_or, hr]
    cases sameLink rt op.kind np.kind with
    | true =>
      simp only [Bool.not_true, Bool.false_eq_true, if_false, reduceCtorEq, iff_false]
      split <;> simp
    | false => simp
  · simp [comparePort, h]

/-- With its role and its link kept, a port is as it was or updated. -/
theorem comparePort_kept (net : IpNetLib) (bid : String) (hr : op.role = np.role)
    (hl : sameLink rt op.kind np.kind = true) :
    (comparePort net rt bid op np).action =
      if sameRest op.kind np.kind then .unchanged else .updated := by
  have hs := compareKind_restart net rt bid op np
  have hc := compareKind_changes net rt bid op np
  rw [hl] at hs hc
  simp only [comparePort, hr, ne_eq, not_true, if_false, hs, hc, Bool.not_true, Bool.false_eq_true,
    Bool.true_and]

end KissTncBridge.Proofs.PlanFacts
