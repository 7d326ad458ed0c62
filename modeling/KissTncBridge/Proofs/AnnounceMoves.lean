import KissTncBridge.Proofs.AnnounceFlags

namespace KissTncBridge.Proofs.AnnounceMoves
open Conf Bridge Reconcile Supervisor Lib Announcing AnnounceSide BleSlots
open ApplyFrame ApplyPorts ApplyEffects ApplyRules PlanFacts ValidConfig
open Following AnnounceApply AnnounceFlags

variable {Doc : Type} {env : Env Doc} {d d' : Daemon Doc} {w : Side}
variable {ob nb : Conf.Bridge} {np : Port} {k : String × String} {new : Config}
variable {net : IpNetLib} {rt : Runtime} {plan : Plan} {bp : BridgePlan} {pp : PortPlan}

/-- A move to `new` starts an announcing `tcp-server` port on a bridge that runs
before and after it. -/
structure Joins (d : Daemon Doc) (new : Config) (ob nb : Conf.Bridge) (np : Port) : Prop where
  old : Enabled d.cfg ob
  new : Enabled new nb
  same : ob.id = nb.id
  running : d.bridges.contains nb.id = true
  port : np ∈ nb.ports
  starts : ∃ l m a, np.kind = .tcpServer l m a true ∧ ∀ op ∈ ob.ports, op.id = np.id →
    d.port nb.id np.id ≠ some .tnc ∧ (op.role = np.role → ∀ m' a' n, op.kind ≠ .tcpServer l m' a' n)

/-- The move switches announcing on for a `tcp-server` port that it leaves
running. -/
structure Switches (d : Daemon Doc) (ob nb : Conf.Bridge) (op np : Port) : Prop where
  old : op ∈ ob.ports
  new : np ∈ nb.ports
  same : op.id = np.id ∧ op.role = np.role
  kinds : ∃ l m a m' a', op.kind = .tcpServer l m a false ∧ np.kind = .tcpServer l m' a' true
  running : ∃ l live f, d.port nb.id np.id = some (.tcp l live f)

/-- What runs under a port id after the first pass. -/
theorem port_stops (hi : (plan.bridges.map BridgePlan.id).Nodup) (hm : bp ∈ plan.bridges)
    (ha : bp.action = .updated) (hd : (bp.ports.map PortPlan.id).Nodup) (hp : pp ∈ bp.ports)
    (d : Daemon Doc) :
    (d.stops plan).port bp.id pp.id = afterStop pp.action (d.port bp.id pp.id) := by
  obtain ⟨d₁, h₁, hs⟩ :=
    foldl_single (facet bp.id) Daemon.applyStop BridgePlan.id plan.bridges d hi hm
    (fun _ _ _ hy => facet_applyStop hy)
  have hs : facet bp.id (d.stops plan) = facet bp.id (d₁.applyStop bp) := hs
  rw [port_of_facet hs, port_eq, entry_applyStop ha hd hp, entry_of_facet h₁, port_eq]
  cases entry bp.id pp.id d with
  | none => simp [afterStop]
  | some e => rfl

/-- The second pass starts and stops nothing. -/
theorem view_lives (d : Daemon Doc) (plan : Plan) (new : Config) (bid pid : String) :
    view bid pid (d.lives env new plan) = view bid pid d := by
  unfold Daemon.lives
  dsimp only
  rw [foldl_keep (view bid pid) _ _ _ (fun d bp _ => view_applyLive d new bp)]
  exact view_of_facet (facet_logLevel ..)

theorem tnc_stays (env : Env Doc) (new : Config) (hi : (plan.bridges.map BridgePlan.id).Nodup)
    (hm : bp ∈ plan.bridges) (ha : bp.action = .updated) (hd : (bp.ports.map PortPlan.id).Nodup)
    (hp : pp ∈ bp.ports) (hr : pp.action = .restarted) (ht : d.port bp.id pp.id = some .tnc) :
    ((d.stops plan).lives env new plan).port bp.id pp.id = some .tnc := by
  rw [port_tnc_iff, view_lives, ← port_tnc_iff, port_stops hi hm ha hd hp, ht]
  simp [afterStop, hr]

section absent

theorem absent_stops : StopRules (fun d : Daemon Doc => flag d k = none) where
  port d b p h := by
    rw [flag_stopPort]
    by_cases he : k = (b, p)
    · rw [he, Function.update_self]
    · rw [Function.update_of_ne he, h]
  bridge d b h := by
    rw [flag_stopBridge, h]
    split <;> rfl

theorem flag_none_iff (d : Daemon Doc) : flag d k = none ↔ (view k.1 k.2 d).1.join ≠ some .tcp := by
  rw [view_port]
  unfold flag
  cases d.port k.1 k.2 with
  | none => simp
  | some rp => cases rp <;> simp [flagOf, shape]

theorem absent_lives (h : flag d k = none) : flag (d.lives env new plan) k = none := by
  rw [flag_none_iff, view_lives, ← flag_none_iff]
  exact h

theorem contains_stopBridge (h : (d.stopBridge b').bridges.contains b = true) :
    d.bridges.contains b = true := by
  unfold Daemon.stopBridge at h
  split at h
  · exact h
  · rename_i rb _
    have hk : (rb.ports.keys.foldl (fun d p => d.stopPort b' p) d).bridges.contains b =
        d.bridges.contains b :=
      foldl_keep (fun d : Daemon Doc => d.bridges.contains b) _ _ _
        (fun d p _ => contains_stopPort d b' p b)
    have he : ((rb.ports.keys.foldl (fun d p => d.stopPort b' p) d).bridges.erase b').contains b =
        true := by
      dsimp only at h
      split at h <;> exact h
    rw [Std.TreeMap.contains_erase] at he
    exact hk.symm.trans (Bool.and_eq_true_iff.mp he).2

/-- The first two passes bring no bridge up. -/
theorem contains_before (h : ((d.stops plan).lives env new plan).bridges.contains b = true) :
    d.bridges.contains b = true := by
  have hs : (d.stops plan).bridges.contains b = true := by
    have hv : view b "" ((d.stops plan).lives env new plan) = view b "" (d.stops plan) :=
      view_lives ..
    rw [contains_iff_entry _ b ""] at h ⊢
    have he := congrArg (fun v => v.1.isSome) hv
    simp only [view, Option.isSome_map] at he
    exact he.symm.trans h
  refine stops_keeps (P := fun s : Daemon Doc => s.bridges.contains b = true →
    d.bridges.contains b = true) ⟨fun s b' p hs hc => ?_, fun s b' hs hc => ?_⟩ plan id hs
  · rw [contains_stopPort] at hc
    exact hs hc
  · exact hs (contains_stopBridge hc)

end absent

/-- A port whose announcing is yet to be switched on, or has been. -/
def Switching (env : Env Doc) (w : Side) (nb : Conf.Bridge) (np : Port) (d : Daemon Doc) : Prop :=
  asked env d = true ∧ (flag d (nb.id, np.id) = some false ∨ Met w nb.id d)

/-- The update that switches it on registers the bridge. -/
theorem switching_updated (hk : np.kind = .tcpServer l m a true) (h : Switching env w nb np d) :
    Met w nb.id (d.updatePort env nb np) := by
  obtain ⟨ha, hf | hm⟩ := h
  · cases updatePort_updated env w d nb np with
    | same _ _ hsame => exact absurd (hsame false hf l m a true hk) (by simp)
    | off hon _ _ _ _ =>
      rw [hf] at hon
      cases hon
    | on _ _ _ _ hw =>
      rw [if_pos ha] at hw
      intro _
      rw [hw]
      exact knows_bridge ..
  · exact met_updatePort hm nb np

theorem switching_lives (hn : Valid new) (hnb : Enabled new nb) (hnp : np ∈ nb.ports)
    (hk : np.kind = .tcpServer l m a true) :
    LiveRules env (Enabled new) (Switching env w nb np) := by
  have hask : LiveRules env (Enabled new) (fun d => asked env d = true) := asked_lives
  have hmet : LiveRules env (Enabled new) (fun d => Met w nb.id d) := met_lives
  have hsame : ∀ {d d' : Daemon Doc}, stance d' = stance d → flag d (nb.id, np.id) = some false →
      flag d' (nb.id, np.id) = some false := fun hs hf => (congrFun (flag_of_stance hs) _).trans hf
  constructor
  · exact fun d l h => ⟨h.1, h.2.imp_right (hmet.level d l)⟩
  · exact fun d b hb h => ⟨hask.name d b hb h.1,
      h.2.imp (hsame (publicNameChanged_same (w := w) env d b).1) (hmet.name d b hb)⟩
  · exact fun d b c h => ⟨hask.cmd d b c h.1,
      h.2.imp (hsame (bridgeCmd_same (w := w) d b c).1) (hmet.cmd d b c)⟩
  · exact fun d b p e he h => ⟨h.1, h.2.imp_right (hmet.connector d b p e he)⟩
  · refine fun d b hb p hp h => ⟨asked_updatePort b p h.1, ?_⟩
    by_cases he : (nb.id, np.id) = (b.id, p.id)
    · obtain rfl : nb = b :=
        List.inj_on_of_nodup_map hn.bridge_ids hnb.1 hb.1 (congrArg Prod.fst he)
      obtain rfl : np = p :=
        List.inj_on_of_nodup_map (hn.port_ids hnb.1) hnp hp (congrArg Prod.snd he)
      exact .inr (switching_updated hk h)
    · refine h.2.imp (fun hf => ?_) (fun hm => met_updatePort hm b p)
      cases updatePort_updated env w d b p with
      | same hs _ _ => exact hsame hs hf
      | off _ _ hfl _ _ => rw [hfl, Function.update_of_ne he, hf]
      | on _ _ hfl _ _ => rw [hfl, Function.update_of_ne he, hf]
  · exact fun d b c h => ⟨hask.cfg d b c h.1,
      h.2.imp (hsame (stance_modifyBridge d b (f := fun rb => { rb with cfg := c }) (fun _ => rfl)))
        (hmet.cfg d b c)⟩

section passes
variable (ho : Valid d.cfg) (hn : Valid new)
include ho hn

/-- The first pass leaves a port alone whose announcing is switched on. -/
theorem switches_off (net : IpNetLib) (rt : Runtime) (hob : Enabled d.cfg ob)
    (hnb : Enabled new nb) (hid : ob.id = nb.id) (hfl : Flagged d.cfg (nb.id, np.id) d)
    (h : Switches d ob nb op np) :
    flag (d.stops (Reconcile.plan net d.cfg new rt)) (nb.id, np.id) = some false ∧
      (comparePort net rt ob.id op np).action = .updated := by
  obtain ⟨l, m, a, m', a', hok, hnk⟩ := h.kinds
  have hact : (comparePort net rt ob.id op np).action = .updated := by
    rw [comparePort_kept net ob.id h.same.2 (by simp [hok, hnk, sameLink]), hok, hnk, if_neg]
    simp [sameRest]
  refine ⟨?_, hact⟩
  obtain ⟨l', live, f, hport⟩ := h.running
  have hf : flag d (ob.id, op.id) = some f := by
    unfold flag
    rw [hid, h.same.1, hport]
    rfl
  rw [← hid, ← h.same.1] at hfl
  obtain ⟨_, _, _, hk⟩ := hfl.port_of ho hob h.old hf
  rw [hok] at hk
  cases hk
  have hpp : comparePort net rt ob.id op np ∈ comparePorts net rt ob nb :=
    compared_mem ho hob h.old h.new h.same.1
  obtain ⟨hm, hup⟩ := compared_updated ho hn hob hnb hid hpp (by simp [hact])
  have hst : (d.stops (Reconcile.plan net d.cfg new rt)).port nb.id np.id = d.port nb.id np.id := by
    refine (port_stops (plan_ids ho hn) hm hup
      (comparePorts_ids (ho.port_ids hob.1) (hn.port_ids hnb.1)) hpp d).trans ?_
    rw [hact]
    rfl
  unfold flag
  rw [hst, hport]
  rfl

/-- A switch on a bridge that runs registers it before anything starts. -/
theorem met_switched (hob : Enabled d.cfg ob) (hnb : Enabled new nb) (hid : ob.id = nb.id)
    (hfl : Flagged d.cfg (nb.id, np.id) d) (ha : asked env d = true) (h : Switches d ob nb op np) :
    Met w nb.id ((d.stops (Reconcile.plan net d.cfg new rt)).lives env new
      (Reconcile.plan net d.cfg new rt)) := by
  obtain ⟨hoff, hact⟩ := switches_off ho hn net rt hob hnb hid hfl h
  obtain ⟨l, m, a, m', a', hok, hnk⟩ := h.kinds
  have hpp : comparePort net rt ob.id op np ∈ comparePorts net rt ob nb :=
    compared_mem ho hob h.old h.new h.same.1
  obtain ⟨hm, hup⟩ := compared_updated ho hn hob hnb hid hpp (by simp [hact])
  have hfp : nb.ports.find? (fun p => p.id == (comparePort net rt ob.id op np).id) = some np :=
    hn.find_port hnb.1 h.new rfl
  refine lives_gains (updated_enabled ho hn) (switching_lives (w := w) hn hnb h.new hnk)
    met_lives hm hup
    (hn.find_bridge hnb.1 rfl) hpp hfp ⟨stops_keeps asked_stops _ ha, .inl hoff⟩ (fun s hs => ?_)
  unfold Daemon.touchPort
  rw [hact]
  split
  · contradiction
  · exact switching_updated hnk hs
  · rename_i hport
    refine hs.2.resolve_left (fun hf => ?_)
    obtain ⟨rp, hrp, _⟩ := Option.bind_eq_some_iff.mp hf
    exact hport rp rfl hrp

/-- Where a port joins a bridge, the bridge is known before anything starts. -/
theorem met_joined (hflag : ∀ k, Flagged d.cfg k d) (ha : asked env d = true)
    (h : Knows (side w d) nb.id ∨ ∃ op np, Switches d ob nb op np) (hob : Enabled d.cfg ob)
    (hnb : Enabled new nb) (hid : ob.id = nb.id) :
    Met w nb.id ((d.stops (Reconcile.plan net d.cfg new rt)).lives env new
      (Reconcile.plan net d.cfg new rt)) := by
  rcases h with h | ⟨op, np, h⟩
  · exact lives_keeps (updated_enabled ho hn) met_lives (stops_keeps met_stops _ (fun _ => h))
  · exact met_switched ho hn hob hnb hid (hflag _) ha h

end passes

/-- What holds while the third pass starts things: the announcing is where the
ports have it, and the bridges that ports join are known. -/
structure Ready (env : Env Doc) (w : Side) (K : String → Prop) (d : Daemon Doc) : Prop where
  good : Good w d
  asked : asked env d = true
  met : ∀ b, K b → Met w b d

theorem ready_startPort {K : String → Prop} (h : Ready env w K d)
    (hf : flag d (nb.id, np.id) ≠ some true)
    (hk : ∀ l m a, np.kind = .tcpServer l m a true → d.bridges.contains nb.id = true → K nb.id) :
    Ready env w K (d.startPort env nb np) :=
  ⟨good_startPort h.good h.asked hf (fun l m a hkind hc => h.met nb.id (hk l m a hkind hc) hc),
    asked_startPort nb np h.asked, fun b hb => met_startPort (h.met b hb) nb np⟩

theorem ready_startBridge {K : String → Prop} (h : Ready env w K d)
    (hi : (nb.ports.map Port.id).Nodup) (hf : ∀ p, flag d (nb.id, p) ≠ some true) (hk : ¬ K nb.id) :
    Ready env w K (d.startBridge env nb) :=
  ⟨good_startBridge h.good h.asked hi hf, asked_startBridge nb h.asked,
    fun b hb => met_startBridge (h.met b hb) (fun he => hk (he ▸ hb))⟩

theorem flag_absent (hflag : ∀ k, Flagged d.cfg k d) (env : Env Doc) (net : IpNetLib)
    (rt : Runtime) (new : Config)
    (h : ∀ b p, Enabled d.cfg b → b.id = k.1 → p ∈ b.ports → p.id ≠ k.2) :
    flag ((d.stops (Reconcile.plan net d.cfg new rt)).lives env new
      (Reconcile.plan net d.cfg new rt)) k = none := by
  refine absent_lives (stops_keeps absent_stops _ ?_)
  by_contra hne
  obtain ⟨f, hf⟩ := Option.ne_none_iff_exists'.mp hne
  obtain ⟨b, p, l, m, a, hb, hid, hp, hpid, _⟩ := hflag k f hf
  exact h b p hb hid hp hpid

section third
variable (ho : Valid d.cfg) (hn : Valid new) (hflag : ∀ k, Flagged d.cfg k d)

def Joined (d : Daemon Doc) (new : Config) (b : String) : Prop :=
  ∃ ob nb np, Joins d new ob nb np ∧ nb.id = b

include ho hn hflag

/-- A port that the third pass starts on a bridge that is compared was not
running as a `tcp-server` port, and joins the bridge if it announces. -/
theorem restart_joins {s : Daemon Doc} (hob : Enabled d.cfg ob) (hnb : Enabled new nb)
    (hid : ob.id = nb.id) (hnp : np ∈ nb.ports) (he : entry nb.id np.id s =
      entry nb.id np.id ((d.stops (Reconcile.plan net d.cfg new rt)).lives env
      new (Reconcile.plan net d.cfg new rt)))
    (ha : (planPort net rt ob np).action = .started ∨
      ((planPort net rt ob np).action = .restarted ∧ s.port nb.id np.id = none)) :
    flag s (nb.id, np.id) = none ∧ ∀ l m a, np.kind = .tcpServer l m a true →
      s.bridges.contains nb.id = true → Joins d new ob nb np := by
  have hcon : s.bridges.contains nb.id = true → d.bridges.contains nb.id = true := by
    intro hc
    rw [contains_iff_entry _ nb.id np.id, he, ← contains_iff_entry] at hc
    exact contains_before hc
  have hport := port_of_same he
  have hpl : planPort net rt ob np ∈ comparePorts net rt ob nb :=
    mem_comparePorts.mpr (.inr ⟨np, hnp, rfl⟩)
  cases hfo : ob.ports.find? (fun p => p.id == np.id) with
  | none =>
    have hnone : ∀ op ∈ ob.ports, op.id ≠ np.id :=
      fun op hop hne => List.find?_eq_none.mp hfo op hop (by simpa using hne)
    refine ⟨?_, fun l m a hk hc => ⟨hob, hnb, hid, hcon hc, hnp, l, m, a, hk,
      fun op hop hpid => absurd hpid (hnone op hop)⟩⟩
    have hfl := flag_absent (k := (nb.id, np.id)) hflag env net rt new
      (fun b p hb hbid hpm hpid => by
        obtain rfl : b = ob :=
          List.inj_on_of_nodup_map ho.bridge_ids hb.1 hob.1 (hbid.trans hid.symm)
        exact hnone p hpm hpid)
    unfold flag at hfl ⊢
    rw [hport]
    exact hfl
  | some op =>
    have hop : op ∈ ob.ports := List.mem_of_find?_eq_some hfo
    have hopid : op.id = np.id := by simpa using List.find?_some hfo
    have hcmp : planPort net rt ob np = comparePort net rt ob.id op np := by
      unfold planPort
      rw [hfo]
    obtain ⟨hact, hnone⟩ : (planPort net rt ob np).action = .restarted ∧
        s.port nb.id np.id = none := by
      refine ha.resolve_left (fun hst => ?_)
      rw [hcmp] at hst
      by_cases hr : op.role ≠ np.role ∨ sameLink rt op.kind np.kind = false
      · rw [(comparePort_restarted net rt ob.id op np).mpr hr] at hst
        cases hst
      · rw [not_or, not_not, Bool.not_eq_false] at hr
        rw [comparePort_kept net ob.id hr.1 hr.2] at hst
        split at hst <;> cases hst
    refine ⟨by
      simp [flag, hnone], fun l m a hk hc => ⟨hob, hnb, hid, hcon hc, hnp, l, m, a, hk, ?_⟩⟩
    intro op' hop' hpid'
    obtain rfl : op' = op :=
      List.inj_on_of_nodup_map (ho.port_ids hob.1) hop' hop (hpid'.trans hopid.symm)
    refine ⟨fun ht => ?_, fun hr m' a' n hok => ?_⟩
    · obtain ⟨hm, hup⟩ := compared_updated ho hn hob hnb hid hpl (by simp [hact])
      have hstay := tnc_stays env new (plan_ids ho hn) hm hup
        (comparePorts_ids (ho.port_ids hob.1) (hn.port_ids hnb.1)) hpl hact (d := d)
        (by rw [planPort_id]; exact ht)
      rw [planPort_id] at hstay
      have hstay : s.port nb.id np.id = some .tnc := hport.trans hstay
      rw [hnone] at hstay
      cases hstay
    · rw [hcmp] at hact
      rcases (comparePort_restarted net rt ob.id op' np).mp hact with hne | hl
      · exact hne hr
      · simp [hok, hk, sameLink] at hl

theorem ready_restartPort {s : Daemon Doc} (hob : Enabled d.cfg ob) (hnb : Enabled new nb)
    (hid : ob.id = nb.id) (hp : pp ∈ comparePorts net rt ob nb) (he : entry nb.id pp.id s =
      entry nb.id pp.id ((d.stops (Reconcile.plan net d.cfg new rt)).lives env
      new (Reconcile.plan net d.cfg new rt)))
    (h : Ready env w (Joined d new) s) :
    Ready env w (Joined d new) (s.restartPort env nb.id nb pp) := by
  unfold Daemon.restartPort
  split
  · rename_i hact
    split
    · rename_i np hf
      have hnp : np ∈ nb.ports := List.mem_of_find?_eq_some hf
      have hnpid : np.id = pp.id := by simpa using List.find?_some hf
      rcases mem_comparePorts.mp hp with ⟨op, hop, hno, rfl⟩ | ⟨np', hnp', rfl⟩
      · simp [stoppedPort] at hact
      · obtain rfl : np' = np := List.inj_on_of_nodup_map (hn.port_ids hnb.1) hnp' hnp
          ((planPort_id ob np').symm.trans hnpid.symm)
        rw [← hnpid] at he
        have ha : (planPort net rt ob np').action = .started ∨
            ((planPort net rt ob np').action = .restarted ∧ s.port nb.id np'.id = none) := by
          simpa [Daemon.hasPort, planPort_id] using hact
        obtain ⟨hf, hj⟩ := restart_joins ho hn hflag hob hnb hid hnp he ha
        refine ready_startPort h ?_ (fun l m a hk hc => ⟨ob, nb, np', hj l m a hk hc, rfl⟩)
        rw [hf]
        simp
    · exact h
  · exact h

/-- What the third pass does with one bridge of the plan, as the first two left
it. -/
theorem ready_applyStart {s : Daemon Doc} (hm : bp ∈ (Reconcile.plan net d.cfg new rt).bridges)
    (hs : facet bp.id s = facet bp.id ((d.stops (Reconcile.plan net d.cfg new rt)).lives env
      new (Reconcile.plan net d.cfg new rt)))
    (h : Ready env w (Joined d new) s) : Ready env w (Joined d new) (s.applyStart env new bp) := by
  unfold Daemon.applyStart
  cases (mem_plan ho hn).mp hm with
  | stopped _ _ =>
    split
    · exact h
    · exact h
  | @started nb hnb hno =>
    have hfind : new.bridges.find? (fun b => b.id == nb.id) = some nb := hn.find_bridge hnb.1 rfl
    dsimp only at hs ⊢
    rw [hfind]
    refine ready_startBridge h (hn.port_ids hnb.1) (fun p => ?_) ?_
    · have hfl := flag_absent (k := (nb.id, p)) hflag env net rt new
        (fun b _ hb hbid _ _ => absurd hbid (hno b hb))
      unfold flag at hfl ⊢
      rw [port_of_facet hs, hfl]
      simp
    · rintro ⟨ob, nb', _, hj, hid⟩
      exact hno ob hj.old (hj.same.trans hid)
  | @compared ob nb hob hnb hid =>
    have hfind : new.bridges.find? (fun b => b.id == (compareBridge net rt ob nb).id) = some nb :=
      hn.find_bridge hnb.1 rfl
    rw [hfind]
    rcases compareBridge_action net rt ob nb with hact | hact
    · rw [hact]
      exact h
    · rw [hact]
      refine foldl_each (π := fun p d => entry nb.id p d) (R := fun s s' =>
        Ready env w (Joined d new) s → Ready env w (Joined d new) s') (fun _ h => h)
        (fun h h' x => h' (h x)) (comparePorts_ids (ho.port_ids hob.1) (hn.port_ids hnb.1))
        (fun s pp _ q hq => entry_restartPort_ne rfl hq s) (fun s pp hp he h => ?_) h
      exact ready_restartPort ho hn hflag hob hnb hid hp (he.trans (entry_of_facet hs)) h

end third

/-- A move to another config keeps the announcing where the ports have it, if
every bridge that an announcing port joins is known or has announcing switched on
in the same move. -/
theorem good_apply (ho : Valid d.cfg) (hn : Valid new) (hflag : ∀ k, Flagged d.cfg k d)
    (h : Good w d) (ha : asked env d = true)
    (hj : ∀ ob nb np, Joins d new ob nb np → Knows (side w d) nb.id ∨
      ∃ op np, Switches d ob nb op np) :
    Good w (d.apply env (Reconcile.plan net d.cfg new rt) new) := by
  have hready : Ready env w (Joined d new) ((d.stops (Reconcile.plan net d.cfg new rt)).lives env
      new (Reconcile.plan net d.cfg new rt)) := by
    refine ⟨?_, ?_, ?_⟩
    · exact lives_keeps (updated_enabled ho hn) good_lives (stops_keeps good_stops _ h)
    · exact lives_keeps (updated_enabled ho hn) asked_lives (stops_keeps asked_stops _ ha)
    · rintro b ⟨ob, nb, np, hjoin, rfl⟩
      exact met_joined ho hn hflag ha (hj ob nb np hjoin) hjoin.old hjoin.new hjoin.same
  have hstart := foldl_each (π := fun b d => facet b d) (f := Daemon.applyStart env new)
    (R := fun s s' => Ready env w (Joined d new) s → Ready env w (Joined d new) s') (fun _ h => h)
    (fun h h' x => h' (h x)) (plan_ids ho hn) (fun s bp _ b hb => facet_applyStart hb)
    (fun s bp hm hs h => ready_applyStart ho hn hflag hm hs h) hready
  refine hstart.good.same rfl id (fun k => ?_)
  unfold flag
  rw [Daemon.apply, port_of_same (entry_adopt _ new)]
  rfl

end KissTncBridge.Proofs.AnnounceMoves
