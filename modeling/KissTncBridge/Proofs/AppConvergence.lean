import KissTncBridge.Proofs.ApplyPorts

namespace KissTncBridge.Proofs.AppConvergence
open Conf Bridge Reconcile Supervisor Lib ApplyFrame PlanFacts ValidConfig ApplyPorts

variable {Doc : Type} {env : Env Doc} {d : Daemon Doc} {bid pid : String}
variable {old new : Config} {ob nb : Conf.Bridge} {rt : Runtime} {net : IpNetLib}

/-- Two running ports are the same, adapters compared by what they mean right
now. -/
def SamePort (rt : Runtime) : RunningPort → RunningPort → Prop
  | .ble a m, .ble a' m' => rt.sameAdapter a a' = true ∧ m = m'
  | rp, rp' => rp = rp'

def serverAt (d : Daemon Doc) (bid pid : String) : Option RunningPort :=
  (d.port bid pid).filter (fun rp => rp != .tnc)

/-- The server port a config has under an id, among the app ports of its
enabled bridges. -/
def wanted (c : Config) (bid pid : String) : Option RunningPort := do
  let b ← c.bridges.find? (fun b => b.enabled && b.id == bid)
  let p ← b.appPorts.find? (fun p => p.id == pid)
  serves p

def ServesApps (rt : Runtime) (d : Daemon Doc) (c : Config) : Prop :=
  ∀ bid pid, Option.Rel (SamePort rt) (serverAt d bid pid) (wanted c bid pid)

def RunsBridges (d : Daemon Doc) (c : Config) : Prop :=
  ∀ bid, d.bridges.contains bid = true ↔ ∃ b, Enabled c b ∧ b.id = bid

def RolesKept (old new : Config) : Prop :=
  ∀ ob nb, Enabled old ob → Enabled new nb → ob.id = nb.id →
    ∀ op ∈ ob.ports, ∀ np ∈ nb.ports, op.id = np.id → op.role = np.role

/-- A server port of the new version of a bridge that the reload gets right,
given the old version of the port and what runs under its id. -/
def Hosted (rt : Runtime) (op : Option Port) (np : Port) (e : Option RunningPort) : Prop :=
  match op with
  | none => np.role = .app
  | some op =>
    if np.role = .app then e ≠ some .tnc
    else sameLink rt op.kind np.kind = true ∨ e = some .tnc

instance (rt : Runtime) (op : Option Port) (np : Port) (e : Option RunningPort) :
    Decidable (Hosted rt op np e) :=
  match op with
  | none => inferInstanceAs (Decidable (np.role = .app))
  | some op => inferInstanceAs (Decidable (if np.role = .app then e ≠ some .tnc
      else sameLink rt op.kind np.kind = true ∨ e = some .tnc))

theorem samePort_refl (rt : Runtime) (rp : RunningPort) : SamePort rt rp rp := by
  cases rp with
  | ble a m => exact ⟨sameAdapter_refl rt a, rfl⟩
  | _ => rfl

theorem rel_refl (rt : Runtime) (e : Option RunningPort) : Option.Rel (SamePort rt) e e := by
  cases e with
  | none => exact .none
  | some rp => exact .some (samePort_refl rt rp)

theorem rel_none : Option.Rel (SamePort rt) e none ↔ e = none := by
  constructor
  · rintro ⟨⟩
    rfl
  · rintro rfl
    exact .none

theorem serves_ne_tnc (p : Port) : serves p ≠ some .tnc := by
  unfold serves
  split <;> simp

theorem filter_serves (p : Port) : (serves p).filter (fun rp => rp != .tnc) = serves p := by
  have h := serves_ne_tnc p
  cases hs : serves p with
  | none => rfl
  | some rp =>
    rw [hs] at h
    simpa [Option.filter] using h

theorem find_enabled (h : Valid c) (hb : Enabled c b) :
    c.bridges.find? (fun x => x.enabled && x.id == b.id) = some b := by
  have hf : (c.bridges.filter (·.enabled)).find? (fun x => x.id == b.id) = some b :=
    find_of_mem (h.bridge_ids.sublist (List.filter_sublist.map _)) (List.mem_filter.mpr hb)
  rw [List.find?_filter] at hf
  simpa [beq_eq_decide] using hf

theorem wanted_enabled (h : Valid c) (hb : Enabled c b) :
    wanted c b.id pid = (startedEntry b pid).filter (fun rp => rp != .tnc) := by
  simp only [wanted, find_enabled h hb, Option.bind_eq_bind, Option.bind_some, startedEntry]
  cases hf : b.ports.find? (fun p => p.id == pid) with
  | none =>
    have ha : b.appPorts.find? (fun p => p.id == pid) = none := by
      simp only [List.find?_eq_none] at hf ⊢
      exact fun p hp => hf p ((mem_appPorts b).mp hp).1
    rw [ha]
    rfl
  | some p =>
    have hm : p ∈ b.ports := List.mem_of_find?_eq_some hf
    have hid : p.id = pid := by simpa using List.find?_some hf
    dsimp only
    split
    · rename_i hr
      have ha : b.appPorts.find? (fun p => p.id == pid) = none := by
        simp only [List.find?_eq_none, beq_iff_eq]
        intro q hq he
        obtain ⟨hqm, hqr⟩ := (mem_appPorts b).mp hq
        rw [List.inj_on_of_nodup_map (h.port_ids hb.1) hqm hm (he.trans hid.symm), hr] at hqr
        cases hqr
      rw [ha]
      rfl
    · rename_i hr
      have hpa : p ∈ b.appPorts := (mem_appPorts b).mpr ⟨hm, by cases hp : p.role <;> simp_all⟩
      have ha : b.appPorts.find? (fun q => q.id == p.id) = some p :=
        find_of_mem ((h.port_ids hb.1).sublist (List.filter_sublist.map _)) hpa
      rw [← hid, ha, filter_serves]
      rfl

theorem wanted_none (h : ∀ b, Enabled c b → b.id ≠ bid) : wanted c bid pid = none := by
  have hf : c.bridges.find? (fun b => b.enabled && b.id == bid) = none := by
    simp only [List.find?_eq_none, Bool.and_eq_true, beq_iff_eq, not_and]
    exact fun b hb he => h b ⟨hb, he⟩
  simp only [wanted, hf, Option.bind_eq_bind, Option.bind_none]

theorem serverAt_of_entry (h : entry bid pid d = some e) :
    serverAt d bid pid = e.filter (fun rp => rp != .tnc) := by
  rw [serverAt, port_of_entry h]

theorem serverAt_of_none (h : entry bid pid d = none) : serverAt d bid pid = none := by
  rw [serverAt, port_eq, h]
  rfl

/-- A port that keeps its link keeps running as what it is. -/
theorem serves_kept (hl : sameLink rt op.kind np.kind = true) :
    (serves op).isSome = (serves np).isSome := by
  unfold serves
  cases ho : op.kind <;> cases hn : np.kind <;> simp_all [sameLink]

/-- The live settings of the new version, on the link of the old. -/
theorem live_kept (hl : sameLink rt op.kind np.kind = true) (hs : serves op = some rp₀)
    (h : SamePort rt rp rp₀) : Option.Rel (SamePort rt) (some (live np rp)) (serves np) := by
  unfold serves at hs ⊢
  cases ho : op.kind with
  | tcpServer ol om oa on =>
    rw [ho] at hs hl
    cases hs
    cases hn : np.kind with
    | tcpServer nl nm na nn =>
      rw [hn] at hl
      simp only [sameLink, beq_iff_eq] at hl
      simp only [SamePort] at h
      subst hl h
      simp only [live, hn]
      exact .some rfl
    | _ =>
      rw [hn] at hl
      cases hl
  | bleServer oa om =>
    rw [ho] at hs hl
    cases hs
    cases hn : np.kind with
    | bleServer na nm =>
      rw [hn] at hl
      cases rp with
      | ble a m =>
        simp only [live, hn]
        exact .some ⟨sameAdapter_trans h.1 hl, rfl⟩
      | _ => cases h
    | _ =>
      rw [hn] at hl
      cases hl
  | _ =>
    rw [ho] at hs
    cases hs

theorem live_same (hr : sameRest op.kind np.kind = true) (hs : serves op = some rp₀)
    (h : SamePort rt rp rp₀) : live np rp = rp := by
  unfold serves at hs
  unfold live
  cases ho : op.kind with
  | tcpServer ol om oa on =>
    rw [ho] at hs hr
    cases hs
    simp only [SamePort] at h
    cases hn : np.kind with
    | tcpServer nl nm na nn =>
      rw [hn] at hr
      simp only [sameRest, Bool.and_eq_true, beq_iff_eq] at hr
      simp only [h, hr]
    | _ => simp [hn, sameRest] at hr
  | bleServer oa om =>
    rw [ho] at hs hr
    cases hs
    cases hn : np.kind with
    | bleServer na nm =>
      rw [hn] at hr
      simp only [sameRest, beq_iff_eq] at hr
      cases rp with
      | ble a m => simp only [h.2, hr]
      | _ => rfl
    | _ => simp [hn, sameRest] at hr
  | _ =>
    rw [ho] at hs
    cases hs

def appServer (p : Port) : Option RunningPort := if p.role = .tnc then none else serves p

theorem started_port (h : Option.filter (fun rp : RunningPort => rp != .tnc) e = none) :
    Option.Rel (SamePort rt) ((afterApply .started (some np) e).filter (fun rp => rp != .tnc))
      (appServer np) ↔ ((serves np).isSome = true → np.role = .app) := by
  have he : afterApply .started (some np) e = (serves np).or e := by
    simp [afterApply, afterStart, afterLive, afterStop]
  have hf := filter_serves np
  rw [he]
  cases hs : serves np with
  | none =>
    simp only [Option.none_or, h, appServer, hs, ite_self, Option.isSome_none, Bool.false_eq_true,
      false_imp_iff, iff_true]
    exact .none
  | some rp =>
    rw [hs] at hf
    simp only [Option.some_or, hf, appServer, hs, Option.isSome_some, true_imp_iff]
    cases np.role with
    | tnc => simp
    | app => simp [samePort_refl]

/-- A port that isn't restarted gets the settings of its new version. -/
theorem afterApply_kept (hr : op.role = np.role) (hl : sameLink rt op.kind np.kind = true) :
    afterApply (comparePort net rt bid op np).action (some np) e =
      if sameRest op.kind np.kind then e else e.map (live np) := by
  rw [comparePort_kept net bid hr hl]
  split <;> simp [afterApply, afterStart, afterLive, afterStop]

theorem afterApply_restarted :
    afterApply .restarted (some np) e = if e = some .tnc then some .tnc else serves np := by
  by_cases he : e = some .tnc
  · simp [afterApply, afterStart, afterLive, afterStop, he]
  · simp [afterApply, afterStart, afterLive, afterStop, he]

theorem live_tnc (p : Port) (rp : RunningPort) : live p rp = .tnc ↔ rp = .tnc := by
  unfold live
  split <;> simp

theorem filter_live (np : Port) (e : Option RunningPort) :
    (e.map (live np)).filter (fun rp => rp != .tnc) =
      (e.filter (fun rp => rp != .tnc)).map (live np) := by
  cases e with
  | none => rfl
  | some rp =>
    by_cases h : rp = .tnc
    · simp [Option.filter, h, (live_tnc np .tnc).mpr rfl]
    · simp [Option.filter, h, live_tnc]

theorem kept_port (net : IpNetLib) (bid : String) (hr : op.role = np.role)
    (hl : sameLink rt op.kind np.kind = true)
    (h : Option.Rel (SamePort rt) (Option.filter (fun rp => rp != .tnc) e) (appServer op)) :
    Option.Rel (SamePort rt)
      ((afterApply (comparePort net rt bid op np).action (some np) e).filter (fun rp => rp != .tnc))
      (appServer np) := by
  rw [afterApply_kept hr hl]
  unfold appServer at h ⊢
  rw [← hr]
  have hk := serves_kept hl
  generalize hf : Option.filter (fun rp => rp != RunningPort.tnc) e = f at h
  have hlive :
    Option.Rel (SamePort rt) (f.map (live np)) (if op.role = .tnc then none else serves np) ∧
      (sameRest op.kind np.kind = true → f.map (live np) = f) := by
    split at h
    · rw [if_pos (by assumption), rel_none.mp h]
      exact ⟨.none, fun _ => rfl⟩
    · rw [if_neg (by assumption)]
      cases hs : serves op with
      | none =>
        rw [hs] at h hk
        rw [rel_none.mp h]
        rw [Option.isSome_none, eq_comm, Option.isSome_eq_false_iff,
          Option.isNone_iff_eq_none] at hk
        rw [hk]
        exact ⟨.none, fun _ => rfl⟩
      | some rp₀ =>
        rw [hs] at h
        cases h with
        | some hp => exact ⟨live_kept hl hs hp, fun hq => congrArg some (live_same hq hs hp)⟩
  split
  · rename_i hq
    rw [hf, ← hlive.2 hq]
    exact hlive.1
  · rw [filter_live, hf]
    exact hlive.1

/-- A port that is restarted comes back as its new version, unless it runs as
the TNC port. -/
theorem restarted_port (hl : sameLink rt op.kind np.kind = false) (e : Option RunningPort) :
    Option.Rel (SamePort rt)
      ((afterApply .restarted (some np) e).filter (fun rp => rp != .tnc)) (appServer np) ↔
      ((serves np).isSome = true → Hosted rt (some op) np e) := by
  rw [afterApply_restarted]
  unfold appServer Hosted
  by_cases he : e = some .tnc
  · subst he
    cases hp : np.role <;> cases hs : serves np <;> simp [Option.filter]
  · rw [if_neg he, filter_serves]
    cases hp : np.role <;> cases hs : serves np <;> simp [he, hl, samePort_refl]

theorem shared_port (net : IpNetLib) (bid : String) (hr : op.role = np.role)
    (h : Option.Rel (SamePort rt) (Option.filter (fun rp => rp != .tnc) e) (appServer op)) :
    Option.Rel (SamePort rt)
      ((afterApply (comparePort net rt bid op np).action (some np) e).filter (fun rp => rp != .tnc))
      (appServer np) ↔ ((serves np).isSome = true → Hosted rt (some op) np e) := by
  cases hl : sameLink rt op.kind np.kind with
  | false =>
    rw [(comparePort_restarted net rt bid op np).mpr (.inr hl)]
    exact restarted_port hl e
  | true =>
    refine iff_of_true (kept_port net bid hr hl h) (fun hs => ?_)
    cases hp : np.role with
    | tnc =>
      simp only [Hosted, hp, reduceCtorEq, if_false]
      exact .inl hl
    | app =>
      simp only [Hosted, hp, if_true]
      rintro rfl
      -- A port that serves on both sides doesn't run as the TNC port.
      simp only [appServer, hr, hp, reduceCtorEq, if_false] at h
      rw [← serves_kept hl] at hs
      cases ho : serves op with
      | none =>
        rw [ho] at hs
        cases hs
      | some rp₀ =>
        rw [ho] at h
        cases h

theorem wanted_port (h : Valid c) (hb : Enabled c b) :
    wanted c b.id pid = (b.ports.find? (fun p => p.id == pid)).bind appServer := by
  rw [wanted_enabled h hb, startedEntry]
  cases b.ports.find? (fun p => p.id == pid) with
  | none => rfl
  | some p =>
    simp only [Option.bind_some, appServer]
    split
    · rfl
    · exact filter_serves p

/-- A port of a bridge that runs before and after a reload. -/
theorem compared_port (hs : Starts env) (ho : Valid old) (hn : Valid new) (hob : Enabled old ob)
    (hnb : Enabled new nb) (hid : ob.id = nb.id)
    (hr : ∀ op ∈ ob.ports, ∀ np ∈ nb.ports, op.id = np.id → op.role = np.role)
    (h : entry nb.id pid d = some e)
    (hw : Option.Rel (SamePort rt) (e.filter (fun rp => rp != .tnc)) (wanted old nb.id pid)) :
    Option.Rel (SamePort rt) (serverAt (d.apply env (plan net old new rt) new) nb.id pid)
      (wanted new nb.id pid) ↔
      ∀ np ∈ nb.ports, np.id = pid → (serves np).isSome = true →
        Hosted rt (ob.ports.find? (fun p => p.id == pid)) np e := by
  rw [← hid, wanted_port ho hob] at hw
  rw [wanted_port hn hnb]
  cases hnp : nb.ports.find? (fun p => p.id == pid) with
  | none =>
    have hno : ∀ p ∈ nb.ports, p.id ≠ pid := by simpa using hnp
    refine iff_of_true (rel_none.mpr ?_) (fun np hm he => absurd he (hno np hm))
    cases hop : ob.ports.find? (fun p => p.id == pid) with
    | none =>
      have hno' : ∀ p ∈ ob.ports, p.id ≠ pid := by simpa using hop
      have hp : ∀ pp ∈ comparePorts net rt ob nb, pp.id ≠ pid := by
        intro pp hpp
        rcases mem_comparePorts.mp hpp with ⟨op, hm, _, rfl⟩ | ⟨np, hm, rfl⟩
        · exact hno' op hm
        · rw [planPort_id]
          exact hno np hm
      rw [serverAt_of_entry ((compared_entry_ne ho hn hob hnb hid hp).trans h)]
      rw [hop] at hw
      exact rel_none.mp hw
    | some op =>
      have hm : op ∈ ob.ports := List.mem_of_find?_eq_some hop
      have hpid : op.id = pid := by simpa using List.find?_some hop
      have hp : stoppedPort rt ob.id op ∈ comparePorts net rt ob nb :=
        mem_comparePorts.mpr (.inl ⟨op, hm, fun p hp => hpid ▸ hno p hp, rfl⟩)
      subst hpid
      have he := compared_entry hs ho hn hob hnb hid hp h
      simp only [stoppedPort, hnp, afterApply, afterStop, true_or, if_true] at he
      exact serverAt_of_entry he
  | some np =>
    have hm : np ∈ nb.ports := List.mem_of_find?_eq_some hnp
    have hpid : np.id = pid := by simpa using List.find?_some hnp
    have hp : planPort net rt ob np ∈ comparePorts net rt ob nb :=
      mem_comparePorts.mpr (.inr ⟨np, hm, rfl⟩)
    have hu : (∀ np ∈ nb.ports, np.id = pid → (serves np).isSome = true →
        Hosted rt (ob.ports.find? (fun p => p.id == pid)) np e) ↔
        ((serves np).isSome = true → Hosted rt (ob.ports.find? (fun p => p.id == pid)) np e) := by
      refine ⟨fun hall => hall np hm hpid, fun hone np' hm' he => ?_⟩
      rw [List.inj_on_of_nodup_map (hn.port_ids hnb.1) hm' hm (he.trans hpid.symm)]
      exact hone
    rw [hu]
    subst hpid
    have hpp : (planPort net rt ob np).id = np.id := planPort_id ob np
    rw [← hpp] at h
    have he := compared_entry hs ho hn hob hnb hid hp h
    rw [planPort_id, hnp] at he
    rw [serverAt_of_entry he]
    simp only [Option.bind_some]
    cases hop : ob.ports.find? (fun p => p.id == np.id) with
    | none =>
      simp only [planPort, hop, startedPort]
      rw [hop] at hw
      exact started_port (rel_none.mp hw)
    | some op =>
      have hom : op ∈ ob.ports := List.mem_of_find?_eq_some hop
      have hoid : op.id = np.id := by simpa using List.find?_some hop
      simp only [planPort, hop]
      rw [hop] at hw
      exact shared_port net ob.id (hr op hom np hm hoid) hw

theorem entry_running (h : RunsBridges d old) (hob : Enabled old ob) (pid : String) :
    entry ob.id pid d = some (d.port ob.id pid) := by
  have hc := (h ob.id).mpr ⟨ob, hob, rfl⟩
  rw [Std.TreeMap.contains_eq_isSome_getElem?, Option.isSome_iff_exists] at hc
  obtain ⟨rb, hb⟩ := hc
  simp only [entry, Daemon.port, hb, Option.map_some, Option.bind_some]

/-- After a reload the daemon runs the bridges of the new config. -/
theorem apply_runs (hs : Starts env) (ho : Valid old) (hn : Valid new) (hrun : RunsBridges d old)
    (hst : ∀ nb, Enabled new nb → (∀ ob, Enabled old ob → ob.id ≠ nb.id) → Startable env nb) :
    RunsBridges (d.apply env (plan net old new rt) new) new := by
  intro bid
  rw [contains_iff_entry _ bid ""]
  by_cases hb : ∃ nb, Enabled new nb ∧ nb.id = bid
  · refine iff_of_true ?_ hb
    obtain ⟨nb, hnb, rfl⟩ := hb
    by_cases hb' : ∃ ob, Enabled old ob ∧ ob.id = nb.id
    · obtain ⟨ob, hob, hid⟩ := hb'
      have he := entry_running hrun hob ""
      rw [hid] at he
      by_cases hp : ∃ pp ∈ comparePorts net rt ob nb, pp.id = ""
      · obtain ⟨pp, hp, hpid⟩ := hp
        rw [← hpid, compared_entry hs ho hn hob hnb hid hp (hpid ▸ he)]
        rfl
      · rw [compared_entry_ne ho hn hob hnb hid (fun pp hm hpid => hp ⟨pp, hm, hpid⟩), he]
        rfl
    · have hno : ∀ ob, Enabled old ob → ob.id ≠ nb.id := fun ob hob he => hb' ⟨ob, hob, he⟩
      rw [started_entry hs ho hn hnb hno (hst nb hnb hno)]
      rfl
  · refine iff_of_false ?_ hb
    have hno : ∀ nb, Enabled new nb → nb.id ≠ bid := fun nb hnb he => hb ⟨nb, hnb, he⟩
    by_cases hb' : ∃ ob, Enabled old ob ∧ ob.id = bid
    · obtain ⟨ob, hob, rfl⟩ := hb'
      rw [stopped_entry ho hn hob hno]
      simp
    · have hno' : ∀ ob, Enabled old ob → ob.id ≠ bid := fun ob hob he => hb' ⟨ob, hob, he⟩
      rw [aside_entry ho hn hno' hno, ← contains_iff_entry]
      exact fun hc => hb' ((hrun bid).mp hc)

def AllHosted (rt : Runtime) (d : Daemon Doc) (old new : Config) : Prop :=
  ∀ ob nb, Enabled old ob → Enabled new nb → ob.id = nb.id → ∀ np ∈ nb.ports,
    (serves np).isSome = true →
      Hosted rt (ob.ports.find? (fun p => p.id == np.id)) np (d.port nb.id np.id)

theorem compared_bridge (hs : Starts env) (ho : Valid old) (hn : Valid new)
    (hr : RolesKept old new) (hrun : RunsBridges d old) (h : ServesApps rt d old)
    (hob : Enabled old ob) (hnb : Enabled new nb) (hid : ob.id = nb.id) (pid : String) :
    Option.Rel (SamePort rt) (serverAt (d.apply env (plan net old new rt) new) nb.id pid)
      (wanted new nb.id pid) ↔ ∀ np ∈ nb.ports, np.id = pid → (serves np).isSome = true →
        Hosted rt (ob.ports.find? (fun p => p.id == pid)) np (d.port nb.id pid) := by
  refine compared_port hs ho hn hob hnb hid (hr ob nb hob hnb hid) ?_ (h nb.id pid)
  rw [← hid]
  exact entry_running hrun hob pid

theorem serves_of_hosted (hs : Starts env) (ho : Valid old) (hn : Valid new)
    (hr : RolesKept old new) (hrun : RunsBridges d old)
    (hst : ∀ nb, Enabled new nb → (∀ ob, Enabled old ob → ob.id ≠ nb.id) → Startable env nb)
    (h : ServesApps rt d old) (hall : AllHosted rt d old new) :
    ServesApps rt (d.apply env (plan net old new rt) new) new := by
  intro bid pid
  by_cases hb : ∃ nb, Enabled new nb ∧ nb.id = bid
  · obtain ⟨nb, hnb, rfl⟩ := hb
    by_cases hb' : ∃ ob, Enabled old ob ∧ ob.id = nb.id
    · obtain ⟨ob, hob, hid⟩ := hb'
      refine (compared_bridge hs ho hn hr hrun h hob hnb hid pid).mpr (fun np hm he hsv => ?_)
      subst he
      exact hall ob nb hob hnb hid np hm hsv
    · have hno : ∀ ob, Enabled old ob → ob.id ≠ nb.id := fun ob hob he => hb' ⟨ob, hob, he⟩
      rw [serverAt_of_entry (started_entry hs ho hn hnb hno (hst nb hnb hno)),
        wanted_enabled hn hnb]
      exact rel_refl rt _
  · have hno : ∀ nb, Enabled new nb → nb.id ≠ bid := fun nb hnb he => hb ⟨nb, hnb, he⟩
    rw [wanted_none hno, rel_none]
    by_cases hb' : ∃ ob, Enabled old ob ∧ ob.id = bid
    · obtain ⟨ob, hob, rfl⟩ := hb'
      exact serverAt_of_none (stopped_entry ho hn hob hno)
    · have hno' : ∀ ob, Enabled old ob → ob.id ≠ bid := fun ob hob he => hb' ⟨ob, hob, he⟩
      refine serverAt_of_none ((aside_entry ho hn hno' hno).trans ?_)
      have hc : d.bridges.contains bid ≠ true := fun hc => hb' ((hrun bid).mp hc)
      rw [Std.TreeMap.contains_eq_isSome_getElem?, ne_eq, Bool.not_eq_true,
        Option.isSome_eq_false_iff, Option.isNone_iff_eq_none] at hc
      rw [entry, hc]
      rfl

/-- After a reload the running server ports are those of the new config if and
only if every server port of a bridge that runs before and after is one the
reload gets right. -/
theorem app_ports_converge (hs : Starts env) (ho : Valid old) (hn : Valid new)
    (hr : RolesKept old new) (hrun : RunsBridges d old)
    (hst : ∀ nb, Enabled new nb → (∀ ob, Enabled old ob → ob.id ≠ nb.id) → Startable env nb)
    (h : ServesApps rt d old) :
    ServesApps rt (d.apply env (plan net old new rt) new) new ↔ AllHosted rt d old new := by
  refine ⟨fun hall ob nb hob hnb hid np hm hsv => ?_, serves_of_hosted hs ho hn hr hrun hst h⟩
  exact (compared_bridge hs ho hn hr hrun h hob hnb hid np.id).mp (hall nb.id np.id) np hm rfl hsv

def lanBefore : Conf.Bridge := sampleBridge [sampleRadio, sampleApps]

theorem lanBefore_startable : Startable sampleEnv lanBefore := ⟨sampleRadio, _, rfl, rfl⟩

theorem idle_runs : RunsBridges idleDaemon (sampleConfig []) := by
  intro bid
  refine iff_of_false ?_ (fun ⟨_, hb, _⟩ => by cases hb.1)
  simp [idleDaemon]

theorem sample_runs (hv : Valid (sampleConfig [b])) (hst : Startable sampleEnv b) :
    RunsBridges (sampleDaemon (sampleConfig [b])) (sampleConfig [b]) :=
  apply_runs sampleEnv_starts (by decide) hv idle_runs (fun _ hnb _ => enabled_sample hnb ▸ hst)

theorem sample_serves (hv : Valid (sampleConfig [b])) (hst : Startable sampleEnv b) :
    ServesApps ⟨∅, none⟩ (sampleDaemon (sampleConfig [b])) (sampleConfig [b]) := by
  refine serves_of_hosted sampleEnv_starts (by decide) hv ?_ idle_runs
    (fun _ hnb _ => enabled_sample hnb ▸ hst) ?_ ?_
  · exact fun ob _ hob => by cases hob.1
  · intro bid pid
    rw [wanted_none (fun b hb => by cases hb.1), rel_none]
    simp [serverAt, Daemon.port, idleDaemon]
  · exact fun ob _ hob => by cases hob.1

theorem sample_roles (h : ∀ op ∈ b.ports, ∀ np ∈ b'.ports, op.id = np.id → op.role = np.role) :
    RolesKept (sampleConfig [b]) (sampleConfig [b']) := by
  intro ob nb hob hnb _
  rw [enabled_sample hob, enabled_sample hnb]
  exact h

/-- The app port gets a limit and moves to the LAN, and a second one is
added. -/
def lanAfter : Conf.Bridge :=
  sampleBridge [sampleRadio, ⟨"apps", .app, .tcpServer (.interface "eth0" 8001) (some 2) [] true⟩,
    ⟨"phone", .app, .bleServer .default 1⟩]

theorem app_ports_converge_lan :
    ServesApps ⟨∅, none⟩ (sampleDaemon (sampleConfig [lanBefore])) (sampleConfig [lanBefore]) ∧
    ServesApps ⟨∅, none⟩
      ((sampleDaemon (sampleConfig [lanBefore])).apply sampleEnv
        (plan sampleEnv.net (sampleConfig [lanBefore]) (sampleConfig [lanAfter]) ⟨∅, none⟩)
        (sampleConfig [lanAfter]))
      (sampleConfig [lanAfter]) := by
  have hv : Valid (sampleConfig [lanBefore]) := by decide
  have h := sample_serves hv lanBefore_startable
  refine ⟨h, ?_⟩
  refine (app_ports_converge sampleEnv_starts hv (by decide) (sample_roles (by decide))
    (sample_runs hv lanBefore_startable) ?_ h).mpr ?_
  · intro nb hnb hno
    rw [enabled_sample hnb] at hno
    exact absurd rfl (hno lanBefore ⟨by decide, rfl⟩)
  · intro ob nb hob hnb _
    rw [enabled_sample hob, enabled_sample hnb]
    decide

/-- The TNC port is replaced by a server port with the role of one. -/
def uplinkAfter : Conf.Bridge :=
  sampleBridge [sampleApps, ⟨"uplink", .tnc, .tcpServer (.interface "eth0" 8001) none [] false⟩]

/-- The new TNC port is started as if it were an app port: clients can
connect to it and transmit. -/
theorem uplink_started_as_app_port :
    Valid (sampleConfig [lanBefore]) ∧ Valid (sampleConfig [uplinkAfter]) ∧
    RolesKept (sampleConfig [lanBefore]) (sampleConfig [uplinkAfter]) ∧
    RunsBridges (sampleDaemon (sampleConfig [lanBefore])) (sampleConfig [lanBefore]) ∧
    ServesApps ⟨∅, none⟩ (sampleDaemon (sampleConfig [lanBefore])) (sampleConfig [lanBefore]) ∧
    (∀ nb, Enabled (sampleConfig [uplinkAfter]) nb → ∃ ob, Enabled (sampleConfig [lanBefore]) ob ∧
      ob.id = nb.id) ∧
    ¬ServesApps ⟨∅, none⟩
      ((sampleDaemon (sampleConfig [lanBefore])).apply sampleEnv
        (plan sampleEnv.net (sampleConfig [lanBefore]) (sampleConfig [uplinkAfter]) ⟨∅, none⟩)
        (sampleConfig [uplinkAfter]))
      (sampleConfig [uplinkAfter]) := by
  have hv : Valid (sampleConfig [lanBefore]) := by decide
  refine ⟨hv, by decide, sample_roles (by decide), sample_runs hv lanBefore_startable,
    sample_serves hv lanBefore_startable, ?_, ?_⟩
  · intro nb hnb
    rw [enabled_sample hnb]
    exact ⟨lanBefore, ⟨by decide, rfl⟩, rfl⟩
  · intro h
    have hw : wanted (sampleConfig [uplinkAfter]) "ktbr0" "uplink" = none := by decide
    have hp := h "ktbr0" "uplink"
    rw [hw, rel_none] at hp
    revert hp
    decide

end KissTncBridge.Proofs.AppConvergence
