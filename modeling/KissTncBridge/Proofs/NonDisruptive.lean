import KissTncBridge.Proofs.ApplyEffects
import KissTncBridge.Proofs.BridgeSteps

namespace KissTncBridge.Proofs.NonDisruptive
open Conf Bridge Reconcile Supervisor Lib ApplyFrame PlanFacts ValidConfig ApplyPorts ApplyEffects
open BridgeSteps (sampleSession)

variable {Doc : Type} {env : Env Doc} {d : Daemon Doc} {bid pid : String}
variable {old new : Config} {ob nb : Conf.Bridge} {rt : Runtime} {net : IpNetLib}

/-- An effect that disturbs nobody the snapshot shows: no session is kicked or
loses its port, no bridge in use is stopped and no link that is up gets a new
connector. -/
def Safe (rt : Runtime) : Effect → Prop
  | .stopPort bridge port rp => rp ≠ .tnc → rt.sessions bridge port = []
  | .stopBridge bridge => rt.tncActive bridge = false ∧ ∀ port, rt.sessions bridge port = []
  | .cmd _ (.kick _) => False
  | .cmd bridge (.connector _) => rt.tncActive bridge = false
  | _ => True

/-- What the plan does not look at: sessions of ports a stopped bridge does not
have, and what runs under the id of a port whose role changes. -/
structure Undisturbed (env : Env Doc) (d : Daemon Doc) (rt : Runtime) (old new : Config) :
    Prop where
  strays : ∀ ob, Enabled old ob → (∀ nb, Enabled new nb → nb.id ≠ ob.id) →
    d.bridges.contains ob.id = true → ∀ port, port ∉ ob.ports.map Port.id →
      rt.sessions ob.id port = []
  toTnc : ∀ ob nb, Enabled old ob → Enabled new nb → ob.id = nb.id →
    ∀ op ∈ ob.ports, ∀ np ∈ nb.ports, op.id = np.id →
      op.role ≠ np.role ∨ sameLink rt op.kind np.kind = false → np.role = .tnc →
      ∀ rp, d.port nb.id np.id = some rp → rp ≠ .tnc → rt.sessions nb.id np.id = []
  toApp : ∀ ob nb, Enabled old ob → Enabled new nb → ob.id = nb.id →
    ∀ op ∈ ob.ports, ∀ np ∈ nb.ports, op.id = np.id →
      op.role ≠ np.role ∨ sameLink rt op.kind np.kind = false → np.role = .app →
      d.port nb.id np.id = some .tnc → ∀ c, Daemon.connectorFor env nb np = .ok c →
        rt.tncActive nb.id = false

theorem safe_lenient (bid : String) (rt : Runtime) : Lenient bid (Safe rt) :=
  ⟨fun _ _ => trivial, fun _ => trivial, fun _ _ => trivial, fun _ _ => trivial⟩

theorem disruptions_nil {plan : Plan} (h : plan.disruptions = []) (hm : bp ∈ plan.bridges) :
    bp.stopsInUse = false ∧ ∀ pp ∈ bp.ports, pp.disconnects = [] ∧ pp.dropsTncLink = false := by
  simp only [Plan.disruptions, List.flatMap_eq_nil_iff, List.append_eq_nil_iff] at h
  obtain ⟨hs, hp⟩ := h bp hm
  refine ⟨?_, fun pp hpp => ?_⟩
  · by_contra hne
    rw [Bool.not_eq_false] at hne
    rw [hne] at hs
    cases hs
  · obtain ⟨hd, hl⟩ := hp pp hpp
    refine ⟨List.map_eq_nil_iff.mp hd, ?_⟩
    by_contra hne
    rw [Bool.not_eq_false] at hne
    rw [hne] at hl
    cases hl

/-- A port that restarts as an app port lets go of its sessions, one that
restarts as the TNC port of its link. -/
theorem restarted_cost (h : (comparePort net rt bid op np).action = .restarted) :
    (np.role = .app →
      (comparePort net rt bid op np).disconnects = (rt.sessions bid op.id).map SessionView.id) ∧
    (np.role = .tnc → (comparePort net rt bid op np).dropsTncLink = rt.tncActive bid) := by
  unfold comparePort at h ⊢
  generalize (if op.role ≠ np.role then ({} : Diff).relink true "role"
    else compareKind net rt bid op np) = diff at h ⊢
  dsimp only at h ⊢
  have hr : diff.restart = true := by
    by_contra hne
    rw [if_neg hne] at h
    split at h <;> cases h
  refine ⟨fun ha => ?_, fun ht => ?_⟩
  · simp [hr, ha]
  · simp [hr, ht]

/-- A bridge that stops without a disruption has no sessions of its own ports,
and no link. -/
theorem stopped_idle (h : (stopBridge ob rt).stopsInUse = false) :
    rt.tncActive ob.id = false ∧ ∀ p ∈ ob.ports, rt.sessions ob.id p.id = [] := by
  simp only [stopBridge, Bool.or_eq_false_iff, List.any_eq_false, List.mem_map,
    Bool.not_eq_true', forall_exists_index, and_imp] at h
  refine ⟨h.1, fun p hp => ?_⟩
  have hd := h.2 _ p hp rfl
  simpa [stoppedPort] using hd

theorem stopPort_mem (h : d.port bid pid = some rp) :
    .stopPort bid pid rp ∈ (d.stopPort bid pid).log := by
  unfold Daemon.stopPort
  rw [h]
  exact List.mem_append_right _ (List.mem_singleton_self _)

theorem stopBridge_mem (h : d.bridges.contains bid = true) :
    .stopBridge bid ∈ (d.stopBridge bid).log := by
  rw [Std.TreeMap.contains_eq_isSome_getElem?, Option.isSome_iff_exists] at h
  obtain ⟨rb, hb⟩ := h
  unfold Daemon.stopBridge
  rw [hb]
  have hm : ∀ d : Daemon Doc, .stopBridge bid ∈ (d.emit (.stopBridge bid)).log :=
    fun d => List.mem_append_right _ (List.mem_singleton_self _)
  dsimp only
  split
  · exact List.mem_append_left _ (hm _)
  · exact hm _

theorem applyPort_mem (ha : pp.action = .restarted) (hq : d.port bid pp.id = some .tnc)
    (hf : nb.ports.find? (fun p => p.id == pp.id) = some np)
    (hc : Daemon.connectorFor env nb np = .ok c) :
    .cmd bid (.connector c) ∈ (d.applyPort env bid nb pp).log := by
  have hb : d.bridges.contains bid = true := by
    cases he : entry bid pp.id d with
    | none =>
      rw [port_eq, he] at hq
      cases hq
    | some e => exact contains_of_entry he
  unfold Daemon.applyPort
  simp only [hf, Daemon.touchPort, ha, hq, hc, Daemon.bridgeCmd, hb, if_true,
    reduceCtorEq, if_false]
  exact List.mem_append_right _ (List.mem_singleton_self _)

theorem applyStop_mem (ha : bp.action = .updated) (hd : (bp.ports.map PortPlan.id).Nodup)
    (hpp : pp ∈ bp.ports) (hr : pp.action = .restarted) (hq : d.port bp.id pp.id = some rp)
    (hne : rp ≠ .tnc) : .stopPort bp.id pp.id rp ∈ (d.applyStop bp).log := by
  have hstep : ∀ (s : Daemon Doc) x, Emits (fun _ => True) s (s.stopOne bp.id x) :=
    fun s x => emits_stopOne (all_lenient _) (fun _ _ _ => trivial)
  obtain ⟨d₁, _, h₁, hg⟩ := foldl_visits (o := d) (π := fun k d => entry bp.id k d) Emits.refl
    Emits.trans hd (fun s x _ k hx => entry_stopOne_ne hx s) hpp (fun s x _ _ _ => hstep s x)
  have hq₁ : d₁.port bp.id pp.id = some rp := (port_of_same h₁).trans hq
  unfold Daemon.applyStop
  rw [ha]
  refine hg.grows ?_
  unfold Daemon.stopOne
  simp only [hq₁, hr, bne_iff_ne.mpr (fun he => hne (Option.some.inj he)), Bool.or_true,
    beq_self_eq_true, Bool.and_self, if_true]
  exact stopPort_mem hq₁

theorem applyLive_mem (hb : new.bridges.find? (fun b => b.id == bp.id) = some nb)
    (hd : (bp.ports.map PortPlan.id).Nodup) (hpp : pp ∈ bp.ports) (hr : pp.action = .restarted)
    (hq : d.port bp.id pp.id = some .tnc) (hf : nb.ports.find? (fun p => p.id == pp.id) = some np)
    (hc : Daemon.connectorFor env nb np = .ok c) :
    .cmd bp.id (.connector c) ∈ (d.applyLive env new bp).log := by
  have hid : nb.id = bp.id := by simpa using List.find?_some hb
  unfold Daemon.applyLive
  rw [hb]
  dsimp only
  rw [log_modifyBridge]
  have hstep : ∀ (s : Daemon Doc) x, Emits (fun _ => True) s (s.applyPort env bp.id nb x) :=
    fun s x => emits_applyPort (all_lenient _) hid (fun _ _ _ _ _ _ => trivial)
      (fun _ _ _ => trivial)
  obtain ⟨d₁, _, h₁, hg⟩ := foldl_visits (o := (if bp.changes.contains "public_name" then
      d.publicNameChanged env nb else d).sendSettings bp nb) (π := fun k d => entry bp.id k d)
    Emits.refl Emits.trans hd (fun s x _ k hx => entry_applyPort_ne hid hx s) hpp
    (fun s x _ _ _ => hstep s x)
  refine hg.grows (applyPort_mem hr ?_ hf hc)
  have he : entry bp.id pp.id d₁ = entry bp.id pp.id d := by
    refine h₁.trans ?_
    rw [entry_sendSettings]
    split
    · exact entry_publicNameChanged d nb
    · rfl
  exact (port_of_same he).trans hq

/-- The two versions of a port whose plan is to restart. -/
theorem restarted_versions (hv : Valid new) (hnb : Enabled new nb)
    (hpp : pp ∈ comparePorts net rt ob nb) (hr : pp.action = .restarted) :
    ∃ op ∈ ob.ports, ∃ np ∈ nb.ports, op.id = np.id ∧ pp = comparePort net rt ob.id op np ∧
      nb.ports.find? (fun p => p.id == pp.id) = some np ∧
      (op.role ≠ np.role ∨ sameLink rt op.kind np.kind = false) := by
  rcases mem_comparePorts.mp hpp with ⟨op, _, _, rfl⟩ | ⟨np, hnp, rfl⟩
  · cases hr
  · have hf : nb.ports.find? (fun p => p.id == (planPort net rt ob np).id) = some np :=
      hv.find_port hnb.1 hnp (planPort_id ob np)
    unfold planPort at hr hf ⊢
    split at hr
    · rename_i op ho
      have hid : op.id = np.id := by simpa using List.find?_some ho
      rw [ho] at hf
      exact ⟨op, List.mem_of_find?_eq_some ho, np, hnp, hid, rfl, hf,
        (comparePort_restarted net rt ob.id op np).mp hr⟩
    · cases hr

theorem effects_target (he : target e = none) (rt : Runtime) : Safe rt e := by
  cases e with
  | announce c => trivial
  | announceLater b n => trivial
  | logLevel l => trivial
  | _ => cases he

theorem planned_ports (ho : Valid old) (hn : Valid new) (h : Planned net old new rt bp) :
    (bp.ports.map PortPlan.id).Nodup := by
  have hsame : ∀ f : Port → PortPlan, (∀ p, (f p).id = p.id) → ∀ l : List Port,
      (l.map f).map PortPlan.id = l.map Port.id := by
    intro f hf l
    rw [List.map_map]
    exact List.map_congr_left (fun p _ => hf p)
  cases h with
  | @stopped ob hob _ =>
    simp only [stopBridge, hsame (stoppedPort rt ob.id) (fun _ => rfl)]
    exact ho.port_ids hob.1
  | compared hob hnb _ => exact comparePorts_ids (ho.port_ids hob.1) (hn.port_ids hnb.1)
  | started hnb _ =>
    simp only [hsame startedPort (fun _ => rfl)]
    exact hn.port_ids hnb.1

theorem comparePort_not_stopped (net : IpNetLib) (rt : Runtime) (bid : String) (op np : Port) :
    (comparePort net rt bid op np).action ≠ .stopped := by
  unfold comparePort
  generalize (if op.role ≠ np.role then ({} : Diff).relink true "role"
    else compareKind net rt bid op np) = diff
  dsimp only
  split
  · simp
  · split <;> simp

/-- A port that a comparison stops lets go of its sessions. -/
theorem stopped_version (hpp : pp ∈ comparePorts net rt ob nb) (hs : pp.action = .stopped) :
    pp.disconnects = (rt.sessions ob.id pp.id).map SessionView.id := by
  rcases mem_comparePorts.mp hpp with ⟨op, _, _, rfl⟩ | ⟨np, _, rfl⟩
  · rfl
  · unfold planPort at hs
    split at hs
    · exact absurd hs (comparePort_not_stopped net rt ob.id _ np)
    · cases hs

section compared
variable (hn : Valid new) (hob : Enabled old ob) (hnb : Enabled new nb) (hid : ob.id = nb.id)
  (hports : ∀ pp ∈ comparePorts net rt ob nb, pp.disconnects = [] ∧ pp.dropsTncLink = false)
  (h : Undisturbed env d rt old new)
include hn hob hnb hid hports h

/-- An app port that stops has no sessions. -/
theorem compared_stops (hpp : pp ∈ comparePorts net rt ob nb)
    (hor : pp.action = .stopped ∨ pp.action = .restarted) (hrp : d.port nb.id pp.id = some rp)
    (hne : rp ≠ .tnc) : rt.sessions nb.id pp.id = [] := by
  have hdis := (hports pp hpp).1
  rcases hor with hs | hr
  · rw [stopped_version hpp hs, hid] at hdis
    exact List.map_eq_nil_iff.mp hdis
  · obtain ⟨op, hop, np, hnp, hpid, rfl, _, hrs⟩ := restarted_versions hn hnb hpp hr
    cases hrole : np.role with
    | app =>
      rw [(restarted_cost hr).1 hrole, hid, hpid] at hdis
      exact List.map_eq_nil_iff.mp hdis
    | tnc => exact h.toTnc ob nb hob hnb hid op hop np hnp hpid hrs hrole rp hrp hne

/-- A link that gets a new connector is not up. -/
theorem compared_relinks (hpp : pp ∈ comparePorts net rt ob nb) (hr : pp.action = .restarted)
    (hq : d.port nb.id pp.id = some .tnc) (hf : nb.ports.find? (fun p => p.id == pp.id) = some np')
    (hc : Daemon.connectorFor env nb np' = .ok c) : rt.tncActive nb.id = false := by
  obtain ⟨op, hop, np, hnp, hpid, rfl, hf', hrs⟩ := restarted_versions hn hnb hpp hr
  obtain rfl : np = np' := Option.some.inj (hf'.symm.trans hf)
  cases hrole : np.role with
  | app => exact h.toApp ob nb hob hnb hid op hop np hnp hpid hrs hrole hq c hc
  | tnc =>
    have hdrop := (hports _ hpp).2
    rw [(restarted_cost hr).2 hrole, hid] at hdrop
    exact hdrop

end compared

/-- A bridge that stops is not in use. -/
theorem stopped_unused (hstop : (stopBridge ob rt).stopsInUse = false) (hob : Enabled old ob)
    (hno : ∀ nb, Enabled new nb → nb.id ≠ ob.id) (h : Undisturbed env d rt old new)
    (hc : d.bridges.contains ob.id = true) :
    rt.tncActive ob.id = false ∧ ∀ port, rt.sessions ob.id port = [] := by
  obtain ⟨hact, hown⟩ := stopped_idle hstop
  refine ⟨hact, fun port => ?_⟩
  by_cases hin : port ∈ ob.ports.map Port.id
  · obtain ⟨p, hp, rfl⟩ := List.mem_map.mp hin
    exact hown p hp
  · exact h.strays ob hob hno hc port hin

/-- A plan without disruptions disturbs nobody, if what it does not look at is
in order. -/
theorem safe_of_undisturbed (ho : Valid old) (hn : Valid new)
    (hq : (plan net old new rt).disruptions = []) (h : Undisturbed env d rt old new)
    (he : e ∈ effects env d (plan net old new rt) new) : Safe rt e := by
  cases ht : target e with
  | none => exact effects_target ht rt
  | some bid =>
    by_cases hb : ∃ bp ∈ (plan net old new rt).bridges, bp.id = bid
    · obtain ⟨bp, hm, rfl⟩ := hb
      obtain ⟨hstop, hports⟩ := disruptions_nil hq hm
      have hpl := (mem_plan ho hn).mp hm
      refine (apply_emits (safe_lenient bp.id rt) (plan_ids ho hn) hm (planned_ports ho hn hpl)
        ?_ ?_ ?_ ?_ (fun _ => trivial) he ht).resolve_left (fun hin => by cases hin)
      · intro ha hc
        cases hpl with
        | stopped hob hno =>
          have hun := stopped_unused hstop hob hno h hc
          exact ⟨hun, fun p rp _ => hun.2 p⟩
        | @compared ob nb _ _ _ =>
          rcases compareBridge_action net rt ob nb with hc | hc <;> simp [hc] at ha
        | started _ _ => cases ha
      · intro ha pp hpp hor rp hrp hne
        cases hpl with
        | stopped _ _ => cases ha
        | compared hob hnb hid =>
          exact compared_stops hn hob hnb hid hports h hpp (hor.imp_right And.left) hrp hne
        | started _ _ => cases ha
      · intro ha nb' hnb' pp hpp hr hq np c hf hc
        cases hpl with
        | stopped _ _ => cases ha
        | compared hob hnb hid =>
          obtain rfl := Option.some.inj ((hn.find_bridge hnb.1 rfl).symm.trans hnb')
          exact compared_relinks hn hob hnb hid hports h hpp hr hq hf hc
        | started _ _ => cases ha
      · intro ha pp hpp _ s hs
        rw [(hports pp hpp).1] at hs
        cases hs
    · have hfin : facet bid (({ d with log := [] }.stops (plan net old new rt)).lives env new
          (plan net old new rt) |>.starts env new (plan net old new rt)) =
              facet bid { d with log := [] } :=
        apply_aside env _ new (fun bp hm hid => hb ⟨bp, hm, hid⟩)
      cases (mem_of_facet hfin ht).mp he

section disturbing
variable (ho : Valid old) (hn : Valid new)
  (hall : ∀ e ∈ effects env d (plan net old new rt) new, Safe rt e)
include ho hn hall

theorem stopped_safe (hob : Enabled old ob) (hno : ∀ nb, Enabled new nb → nb.id ≠ ob.id)
    (hc : d.bridges.contains ob.id = true) (port : String) : rt.sessions ob.id port = [] := by
  have hpl : Planned net old new rt (stopBridge ob rt) := .stopped hob hno
  obtain ⟨d₁, d₂, h₁, _, hg⟩ := apply_grows env { d with log := [] } new (plan_ids ho hn)
    ((mem_plan ho hn).mpr hpl) (planned_ports ho hn hpl)
  have hc₁ : d₁.bridges.contains ob.id = true := (contains_of_facet h₁).trans hc
  have hs : Safe rt (.stopBridge ob.id) := hall _ (hg _ rfl (.inl (stopBridge_mem hc₁)))
  exact hs.2 port

variable (hob : Enabled old ob) (hnb : Enabled new nb) (hid : ob.id = nb.id)
  (hop : op ∈ ob.ports) (hnp : np ∈ nb.ports) (hpid : op.id = np.id)
  (hrs : op.role ≠ np.role ∨ sameLink rt op.kind np.kind = false)
include hob hnb hid hop hnp hpid hrs

theorem restarted_focus : ∃ d₁ d₂ : Daemon Doc, facet nb.id d₁ = facet nb.id { d with log := [] } ∧
    facet nb.id d₂ = facet nb.id (d₁.applyStop (compareBridge net rt ob nb)) ∧
    (compareBridge net rt ob nb).action = .updated ∧
    ((compareBridge net rt ob nb).ports.map PortPlan.id).Nodup ∧
    ∀ e, target e = some nb.id → (e ∈ (d₁.applyStop (compareBridge net rt ob nb)).log ∨
      e ∈ (d₂.applyLive env new (compareBridge net rt ob nb)).log) → Safe rt e := by
  have hpl : Planned net old new rt (compareBridge net rt ob nb) := .compared hob hnb hid
  have hd := planned_ports ho hn hpl
  obtain ⟨d₁, d₂, h₁, h₂, hg⟩ := apply_grows env { d with log := [] } new (plan_ids ho hn)
    ((mem_plan ho hn).mpr hpl) hd
  have ha : (compareBridge net rt ob nb).action = .updated := by
    by_contra hne
    have hu := unchanged_ports hne (compared_mem ho hob hop hnp hpid)
    rw [(comparePort_restarted net rt ob.id op np).mpr hrs] at hu
    cases hu
  exact ⟨d₁, d₂, h₁, h₂, ha, hd, fun e ht he => hall e (hg e ht (he.imp_right (fun h => ⟨ha, h⟩)))⟩

theorem restarted_stops_safe (hq : d.port nb.id np.id = some rp) (hne : rp ≠ .tnc) :
    rt.sessions nb.id np.id = [] := by
  obtain ⟨d₁, d₂, h₁, _, ha, hd, hg⟩ :=
    restarted_focus ho hn hall hob hnb hid hop hnp hpid hrs
  have hpp : comparePort net rt ob.id op np ∈ (compareBridge net rt ob nb).ports :=
    compared_mem ho hob hop hnp hpid
  have hr := (comparePort_restarted net rt ob.id op np).mpr hrs
  have hq₁ : d₁.port nb.id np.id = some rp := (port_of_facet h₁ np.id).trans hq
  have hs : Safe rt (.stopPort nb.id np.id rp) :=
    hg _ rfl (.inl (applyStop_mem ha hd hpp hr hq₁ hne))
  exact hs hne

theorem restarted_relinks_safe (hq : d.port nb.id np.id = some .tnc)
    (hc : Daemon.connectorFor env nb np = .ok c) : rt.tncActive nb.id = false := by
  obtain ⟨d₁, d₂, h₁, h₂, ha, hd, hg⟩ :=
    restarted_focus ho hn hall hob hnb hid hop hnp hpid hrs
  have hpp : comparePort net rt ob.id op np ∈ (compareBridge net rt ob nb).ports :=
    compared_mem ho hob hop hnp hpid
  have hr := (comparePort_restarted net rt ob.id op np).mpr hrs
  have hq₂ : d₂.port nb.id np.id = some .tnc := by
    rw [port_of_facet h₂, port_eq]
    have he := entry_applyStop ha hd hpp d₁
    have hq₁ : d₁.port nb.id np.id = some .tnc := (port_of_facet h₁ np.id).trans hq
    rw [port_eq] at hq₁
    refine (congrArg Option.join he).trans ?_
    change ((entry nb.id np.id d₁).map _).join = _
    cases hent : entry nb.id np.id d₁ with
    | none =>
      rw [hent] at hq₁
      cases hq₁
    | some e =>
      rw [hent, Option.join_some] at hq₁
      simp [hq₁, hr, afterStop]
  have hs : Safe rt (.cmd nb.id (.connector c)) :=
    hg _ rfl (.inr (applyLive_mem (hn.find_bridge hnb.1 rfl) hd hpp hr hq₂
      (hn.find_port hnb.1 hnp rfl) hc))
  exact hs

end disturbing

/-- Applying a plan without disruptions disturbs nobody if and only if what the
plan does not look at is in order. -/
theorem quiet_plan_disturbs_nobody (ho : Valid old) (hn : Valid new)
    (hq : (plan net old new rt).disruptions = []) :
    (∀ e ∈ effects env d (plan net old new rt) new, Safe rt e) ↔ Undisturbed env d rt old new := by
  refine ⟨fun hall => ⟨?_, ?_, ?_⟩, fun h e he => safe_of_undisturbed ho hn hq h he⟩
  · intro ob hob hno hc port _
    exact stopped_safe ho hn hall hob hno hc port
  · intro ob nb hob hnb hid op hop np hnp hpid hrs _ rp hrp hne
    exact restarted_stops_safe ho hn hall hob hnb hid hop hnp hpid hrs hrp hne
  · intro ob nb hob hnb hid op hop np hnp hpid hrs _ htnc c hc
    exact restarted_relinks_safe ho hn hall hob hnb hid hop hnp hpid hrs htnc hc

def busy (tncActive : Bool) : Runtime :=
  ⟨.ofList [("ktbr0", BridgeView.mk tncActive [⟨sampleSession 4001, 1⟩])], none⟩

def quietBefore : Conf.Bridge := sampleBridge [sampleRadio, sampleApps]

/-- The app port gets a limit its one client is within, and a second app port
is added. -/
def quietAfter : Conf.Bridge :=
  sampleBridge [sampleRadio, ⟨"apps", .app, .tcpServer sampleListen (some 2) [] true⟩,
    ⟨"phone", .app, .bleServer .default 1⟩]

theorem quiet_plan_disturbs_nobody_limit :
    (plan sampleEnv.net (sampleConfig [quietBefore]) (sampleConfig [quietAfter])
      (busy true)).disruptions = [] ∧
    ∀ e ∈ effects sampleEnv (sampleDaemon (sampleConfig [quietBefore]))
      (plan sampleEnv.net (sampleConfig [quietBefore]) (sampleConfig [quietAfter]) (busy true))
      (sampleConfig [quietAfter]), Safe (busy true) e := by
  have hq : (plan sampleEnv.net (sampleConfig [quietBefore]) (sampleConfig [quietAfter])
    (busy true)).disruptions = [] := by decide +kernel
  have hk : ∀ op ∈ quietBefore.ports, ∀ np ∈ quietAfter.ports, op.id = np.id →
      ¬(op.role ≠ np.role ∨ sameLink (busy true) op.kind np.kind = false) := by decide
  refine ⟨hq, (quiet_plan_disturbs_nobody (by decide) (by decide) hq).mpr ⟨?_, ?_, ?_⟩⟩
  · intro ob hob hno
    rw [enabled_sample hob] at hno
    exact absurd rfl (hno quietAfter ⟨by decide, rfl⟩)
  · intro ob nb hob hnb _ op hop np hnp hpid hrs
    exact absurd hrs (hk op (enabled_sample hob ▸ hop) np (enabled_sample hnb ▸ hnp) hpid)
  · intro ob nb hob hnb _ op hop np hnp hpid hrs
    exact absurd hrs (hk op (enabled_sample hob ▸ hop) np (enabled_sample hnb ▸ hnp) hpid)

def relinked : Conf.Bridge :=
  sampleBridge [{ sampleRadio with role := .app }, { sampleRadio with id := "radio2" }, sampleApps]

def swapped : Conf.Bridge :=
  sampleBridge [{ sampleRadio with role := .app }, { sampleApps with role := .tnc }]

/-- A plan that changes roles finds no disruption in replacing a link that is
up, nor in stopping a port with a client. -/
theorem role_changes_disturb :
    (Valid (sampleConfig [quietBefore]) ∧ Valid (sampleConfig [relinked]) ∧
      Valid (sampleConfig [swapped])) ∧
    ((plan sampleEnv.net (sampleConfig [quietBefore]) (sampleConfig [relinked])
        (busy true)).disruptions = [] ∧
      .cmd "ktbr0" (.connector (.tcp "tnc.local" 8001)) ∈
        effects sampleEnv (sampleDaemon (sampleConfig [quietBefore]))
          (plan sampleEnv.net (sampleConfig [quietBefore]) (sampleConfig [relinked]) (busy true))
          (sampleConfig [relinked]) ∧
      ¬Safe (busy true) (.cmd "ktbr0" (.connector (.tcp "tnc.local" 8001)))) ∧
    ((plan sampleEnv.net (sampleConfig [quietBefore]) (sampleConfig [swapped])
        (busy false)).disruptions = [] ∧
      .stopPort "ktbr0" "apps" (.tcp sampleListen ⟨none, []⟩ false) ∈
        effects sampleEnv (sampleDaemon (sampleConfig [quietBefore]))
          (plan sampleEnv.net (sampleConfig [quietBefore]) (sampleConfig [swapped]) (busy false))
          (sampleConfig [swapped]) ∧
      ¬Safe (busy false) (.stopPort "ktbr0" "apps" (.tcp sampleListen ⟨none, []⟩ false))) := by
  refine ⟨by decide, ⟨by decide +kernel, by decide +kernel, ?_⟩,
    ⟨by decide +kernel, by decide +kernel, ?_⟩⟩
  · intro h
    have hf : (busy true).tncActive "ktbr0" = false := h
    exact absurd hf (by decide)
  · intro h
    exact absurd (h (by decide)) (by decide)

end KissTncBridge.Proofs.NonDisruptive
