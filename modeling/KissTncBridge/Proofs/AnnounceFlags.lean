import KissTncBridge.Proofs.AnnounceApply

namespace KissTncBridge.Proofs.AnnounceFlags
open Conf Bridge Reconcile Supervisor Lib Announcing AnnounceSide
open ApplyFrame ApplyPorts ApplyEffects ApplyRules PlanFacts ValidConfig Following AnnounceApply

variable {Doc : Type} {env : Env Doc} {d d' : Daemon Doc} {w : Side}
variable {ob nb : Conf.Bridge} {np : Port} {k : String × String} {old new : Config}
variable {net : IpNetLib} {rt : Runtime}

/-- A `tcp-server` port that runs is one of the config, and is followed if it is
to be announced. -/
def Flagged (cfg : Config) (k : String × String) (d : Daemon Doc) : Prop :=
  ∀ f, flag d k = some f → ∃ b p l m a, Enabled cfg b ∧ b.id = k.1 ∧ p ∈ b.ports ∧ p.id = k.2 ∧
    p.kind = .tcpServer l m a f

theorem Flagged.of_flag (h : Flagged new k d) (hf : flag d' k = flag d k) : Flagged new k d' := by
  intro f hf'
  rw [hf] at hf'
  exact h f hf'

theorem flagged_none (h : flag d k = none) : Flagged new k d := by
  intro f hf
  rw [h] at hf
  cases hf

/-- A port that has been set to what the config has for it. -/
theorem flagged_set (hb : Enabled new nb) (hp : np ∈ nb.ports)
    (hk : f = none ∨ ∃ l m a n, f = some n ∧ np.kind = .tcpServer l m a n)
    (hf : flag d' = Function.update (flag d) (nb.id, np.id) f) (h : Flagged new k d) :
    Flagged new k d' := by
  by_cases he : k = (nb.id, np.id)
  · subst he
    intro f' hf'
    rw [hf, Function.update_self] at hf'
    rcases hk with rfl | ⟨l, m, a, n, rfl, hkind⟩
    · cases hf'
    · cases hf'
      exact ⟨nb, np, l, m, a, hb, rfl, hp, rfl, hkind⟩
  · exact h.of_flag (by rw [hf, Function.update_of_ne he])

theorem flagged_stops : StopRules (fun d : Daemon Doc => Flagged new k d) where
  port d b p h := by
    by_cases he : k = (b, p)
    · exact flagged_none (by rw [flag_stopPort, he, Function.update_self])
    · exact h.of_flag (by rw [flag_stopPort, Function.update_of_ne he])
  bridge d b h := by
    by_cases he : k.1 = b
    · exact flagged_none (by rw [flag_stopBridge, if_pos he])
    · exact h.of_flag (by rw [flag_stopBridge, if_neg he])

/-- The flag of a port that is brought up to date is right, whatever it was. -/
theorem flagged_updatePort (hb : Enabled new nb) (hp : np ∈ nb.ports) (ha : asked env d = true)
    (h : k ≠ (nb.id, np.id) → Flagged new k d)
    (ht : ∀ f, k = (nb.id, np.id) → flag d k = some f → ∃ l m a n, np.kind = .tcpServer l m a n) :
    Flagged new k (d.updatePort env nb np) := by
  have hset : ∀ f, (∃ l m a n, f = some n ∧ np.kind = .tcpServer l m a n) →
      flag (d.updatePort env nb np) = Function.update (flag d) (nb.id, np.id) f →
      Flagged new k (d.updatePort env nb np) := by
    rintro f ⟨l, m, a, n, rfl, hk⟩ hf
    by_cases he : k = (nb.id, np.id)
    · subst he
      intro f' hf'
      rw [hf, Function.update_self] at hf'
      cases hf'
      exact ⟨nb, np, l, m, a, hb, rfl, hp, rfl, hk⟩
    · exact (h he).of_flag (by rw [hf, Function.update_of_ne he])
  cases updatePort_updated env .new d nb np with
  | same hs _ hn =>
    by_cases he : k = (nb.id, np.id)
    · intro f hf
      rw [flag_of_stance hs] at hf
      obtain ⟨l, m, a, n, hk⟩ := ht f he hf
      obtain rfl := hn f (he ▸ hf) l m a n hk
      exact ⟨nb, np, l, m, a, hb, congrArg Prod.fst he.symm, hp, congrArg Prod.snd he.symm, hk⟩
    · exact (h he).of_flag (by rw [flag_of_stance hs])
  | off _ hk hf _ _ => exact hset _ ⟨_, _, _, _, rfl, hk⟩ hf
  | on _ hk hf _ _ => exact hset _ ⟨_, _, _, _, by rw [ha], hk⟩ hf

theorem Flagged.port_of (hv : Valid new) (hb : Enabled new nb) (hp : np ∈ nb.ports)
    (h : Flagged new (nb.id, np.id) d) (hf : flag d (nb.id, np.id) = some f) :
    ∃ l m a, np.kind = .tcpServer l m a f := by
  obtain ⟨b, p, l, m, a, hb', hid, hp', hpid, hk⟩ := h f hf
  obtain rfl : b = nb := List.inj_on_of_nodup_map hv.bridge_ids hb'.1 hb.1 hid
  obtain rfl : p = np := List.inj_on_of_nodup_map (hv.port_ids hb.1) hp' hp hpid
  exact ⟨l, m, a, hk⟩

theorem flagged_lives (hv : Valid new) :
    LiveRules env (Enabled new) (fun d => asked env d = true ∧ Flagged new k d) where
  level d l h := ⟨asked_lives.level (B := Enabled new) d l h.1, h.2⟩
  name d nb hb h := ⟨asked_lives.name d nb hb h.1,
    h.2.of_flag (congrFun (flag_of_stance (publicNameChanged_same (w := .new) env d nb).1) k)⟩
  cmd d b c h := ⟨asked_lives.cmd (B := Enabled new) d b c h.1,
    h.2.of_flag (congrFun (flag_of_stance (bridgeCmd_same (w := .new) d b c).1) k)⟩
  connector _ _ _ _ _ h := h
  port d nb hb np hp h := by
    refine ⟨asked_updatePort nb np h.1, flagged_updatePort hb hp h.1 (fun _ => h.2) ?_⟩
    rintro f rfl hf
    obtain ⟨l, m, a, hk⟩ := h.2.port_of hv hb hp hf
    exact ⟨l, m, a, f, hk⟩
  cfg d b nb h := ⟨asked_lives.cfg (B := Enabled new) d b nb h.1, h.2.of_flag
    (congrFun (flag_modifyBridge d b (f := fun rb => { rb with cfg := nb }) (fun _ => rfl)) k)⟩

theorem flagged_startPort (hb : Enabled new nb) (hp : np ∈ nb.ports) (ha : asked env d = true)
    (h : Flagged new k d) : Flagged new k (d.startPort env nb np) := by
  cases startPort_begun env .new d nb np with
  | left he =>
    rw [he]
    exact h
  | tcp _ hk hf _ _ =>
    exact flagged_set hb hp (.inr ⟨_, _, _, _, by rw [ha, Bool.and_true], hk⟩) hf h
  | ble hf _ _ => exact flagged_set hb hp (.inl rfl) hf h

theorem flagged_starts :
    StartRules env (Enabled new) (fun d => asked env d = true ∧ Flagged new k d) where
  port d nb hb np hp h := ⟨asked_startPort nb np h.1, flagged_startPort hb hp h.1 h.2⟩
  bridge d nb hb h := by
    rcases startBridge_cases env .new d nb with ⟨es, he⟩ | ⟨d', hd, he⟩
    · rw [he]
      exact h
    · rw [he]
      have ha : asked env d' = true := asked_mono (fun ha => hd.announcer.trans ha) h.1
      have hf : Flagged new k d' := by
        by_cases hk : k.1 = nb.id
        · exact flagged_none (by rw [hd.flag, if_pos hk])
        · exact h.2.of_flag (by rw [hd.flag, if_neg hk])
      refine foldl_inv (P := fun d => asked env d = true ∧ Flagged new k d) _ _ _ ?_
        (fun d p hp h => ?_)
      · refine ⟨asked_named nb _ ha, ?_⟩
        split
        · exact hf.of_flag (by rw [flag_announceBridge])
        · exact hf
      · exact ⟨asked_startPort nb p h.1, flagged_startPort hb (List.mem_filter.mp hp).1 h.1 h.2⟩

/-- A bridge that a plan updates or starts is enabled in the new config. -/
theorem plan_enabled (ho : Valid old) (hn : Valid new) (hm : bp ∈ (plan net old new rt).bridges)
    (ha : bp.action = .updated ∨ bp.action = .started)
    (hf : new.bridges.find? (fun b => b.id == bp.id) = some nb) : Enabled new nb := by
  cases (mem_plan ho hn).mp hm with
  | stopped _ _ => rcases ha with ha | ha <;> cases ha
  | compared _ hnb _ =>
    obtain rfl := Option.some.inj ((hn.find_bridge hnb.1 rfl).symm.trans hf)
    exact hnb
  | started hnb _ =>
    obtain rfl := Option.some.inj ((hn.find_bridge hnb.1 rfl).symm.trans hf)
    exact hnb

theorem not_tnc_stops : StopRules (fun d : Daemon Doc => d.port k.1 k.2 ≠ some .tnc) where
  port d b p h := by
    by_cases hb : b = k.1
    · subst hb
      by_cases hp : p = k.2
      · subst hp
        rw [port_eq, entry_stopPort_self]
        cases entry k.1 k.2 d <;> simp
      · rw [port_of_same (entry_stopPort_ne hp d)]
        exact h
    · rw [port_of_facet (facet_stopPort hb)]
      exact h
  bridge d b h := by
    by_cases hb : b = k.1
    · subst hb
      rw [port_eq, entry_stopBridge]
      simp
    · rw [port_of_facet (facet_stopBridge hb)]
      exact h

theorem true_stops : StopRules (fun _ : Daemon Doc => True) :=
  ⟨fun _ _ _ _ => trivial, fun _ _ _ => trivial⟩

/-- The first pass stops what the plan stops or restarts. -/
theorem flagged_stopped (hi : bp ∈ (plan net old new rt).bridges) (ha : bp.action = .updated)
    (hp : pp ∈ bp.ports) (hk : k = (bp.id, pp.id))
    (hpa : pp.action = .stopped ∨ (pp.action = .restarted ∧ d.port k.1 k.2 ≠ some .tnc)) :
    Flagged new k (d.stops (plan net old new rt)) := by
  have hgone : ∀ d : Daemon Doc, Flagged new k (d.stopPort bp.id pp.id) :=
    fun d => flagged_none (by rw [flag_stopPort, hk, Function.update_self])
  rcases hpa with hpa | ⟨hpa, hne⟩
  · refine stops_gains_port true_stops flagged_stops hi ha hp trivial (fun d _ => ?_)
    unfold Daemon.stopOne
    simp only [hpa, beq_self_eq_true, Bool.true_or, if_true]
    exact hgone d
  · refine stops_gains_port not_tnc_stops flagged_stops hi ha hp hne (fun d hne => ?_)
    unfold Daemon.stopOne
    have hne : d.port bp.id pp.id ≠ some .tnc := by
      rw [hk] at hne
      exact hne
    simp only [hpa, bne_iff_ne.mpr hne, beq_self_eq_true, Bool.and_true, Bool.or_true, if_true]
    exact hgone d

section moves
variable (ho : Valid old) (hn : Valid new)
include ho hn

theorem updated_enabled : ∀ bp ∈ (plan net old new rt).bridges, bp.action = .updated →
    ∀ nb, new.bridges.find? (fun b => b.id == bp.id) = some nb → Enabled new nb :=
  fun _ hm ha _ hf => plan_enabled ho hn hm (.inl ha) hf

theorem compared_updated (hob : Enabled old ob) (hnb : Enabled new nb) (hid : ob.id = nb.id)
    (hp : pp ∈ comparePorts net rt ob nb) (hne : pp.action ≠ .unchanged) :
    compareBridge net rt ob nb ∈ (plan net old new rt).bridges ∧
      (compareBridge net rt ob nb).action = .updated := by
  refine ⟨(mem_plan ho hn).mpr (.compared hob hnb hid), ?_⟩
  by_contra hc
  exact hne (unchanged_ports hc hp)

/-- What becomes of a port that was running: where the plan does not stop it and
its announcing changes, the second pass sees to it. -/
theorem flagged_kept (hob : Enabled old ob) (hnb : Enabled new nb) (hid : ob.id = nb.id)
    (hop : op ∈ ob.ports) (hnp : np ∈ nb.ports) (he : op.id = np.id) (hr : op.role = np.role)
    (hok : op.kind = .tcpServer l m a f) (hnk : np.kind = .tcpServer l m' a' n) (hne : f ≠ n)
    (ha : asked env d = true) : asked env (d.lives env new (plan net old new rt)) = true ∧
      Flagged new (nb.id, np.id) (d.lives env new (plan net old new rt)) := by
  have hact : (comparePort net rt ob.id op np).action = .updated := by
    rw [comparePort_kept net ob.id hr (by simp [hok, hnk, sameLink]), hok, hnk, if_neg]
    simp [sameRest, hne]
  have hpp : comparePort net rt ob.id op np ∈ comparePorts net rt ob nb :=
    compared_mem ho hob hop hnp he
  obtain ⟨hm, hup⟩ := compared_updated ho hn hob hnb hid hpp (by simp [hact])
  have hfp : nb.ports.find? (fun p => p.id == (comparePort net rt ob.id op np).id) = some np :=
    hn.find_port hnb.1 hnp rfl
  refine lives_gains (updated_enabled ho hn) (I := fun d => asked env d = true) asked_lives
    (flagged_lives hn) hm hup (hn.find_bridge hnb.1 rfl) hpp hfp ha (fun d ha => ?_)
  refine ⟨touchPort_keeps asked_lives hnb hnp _ _ ha, ?_⟩
  unfold Daemon.touchPort
  rw [hact]
  split
  · contradiction
  · exact flagged_updatePort hnb hnp ha (fun he => absurd rfl he) (fun _ _ _ => ⟨l, m', a', n, hnk⟩)
  · rename_i hport
    refine flagged_none ?_
    unfold flag
    cases hq : d.port nb.id np.id with
    | none => rfl
    | some rp => exact absurd hq (hport rp rfl)

/-- What becomes of one that the new config has no longer, or has with another
listener. -/
theorem flagged_ended (hob : Enabled old ob) (hop : op ∈ ob.ports) (hid : ob.id = k.1)
    (hpid : op.id = k.2) (hport : d.port k.1 k.2 ≠ some .tnc)
    (hend : ∀ nb, Enabled new nb → ob.id = nb.id → ∀ np ∈ nb.ports, op.id = np.id →
      op.role ≠ np.role ∨ sameLink rt op.kind np.kind = false) :
    Flagged new k (d.stops (plan net old new rt)) := by
  by_cases hnb : ∃ nb, Enabled new nb ∧ ob.id = nb.id
  · obtain ⟨nb, hnb, hbid⟩ := hnb
    by_cases hnp : ∃ np ∈ nb.ports, op.id = np.id
    · obtain ⟨np, hnp, he⟩ := hnp
      have hact := (comparePort_restarted net rt ob.id op np).mpr (hend nb hnb hbid np hnp he)
      have hpp : comparePort net rt ob.id op np ∈ comparePorts net rt ob nb :=
        compared_mem ho hob hop hnp he
      obtain ⟨hm, hup⟩ := compared_updated ho hn hob hnb hbid hpp (by simp [hact])
      exact flagged_stopped hm hup hpp (Prod.ext (hid.symm.trans hbid) (hpid.symm.trans he))
        (.inr ⟨hact, hport⟩)
    · have hpp : stoppedPort rt ob.id op ∈ comparePorts net rt ob nb :=
        mem_comparePorts.mpr (.inl ⟨op, hop, fun p hp he => hnp ⟨p, hp, he.symm⟩, rfl⟩)
      obtain ⟨hm, hup⟩ := compared_updated ho hn hob hnb hbid hpp (by simp [stoppedPort])
      exact flagged_stopped hm hup hpp (Prod.ext (hid.symm.trans hbid) hpid.symm) (.inl rfl)
  · refine stops_gains_bridge true_stops flagged_stops
      ((mem_plan ho hn).mpr (.stopped hob (fun nb h he => hnb ⟨nb, h, he.symm⟩))) rfl trivial
      (fun d _ => flagged_none ?_)
    rw [flag_stopBridge]
    exact if_pos hid.symm

/-- A move to another config leaves every `tcp-server` port that runs followed
just if the new config has it announce. -/
theorem flagged_apply (h : Flagged old k d) (ha : asked env d = true) :
    Flagged new k (d.apply env (plan net old new rt) new) := by
  have ha' : asked env (d.stops (plan net old new rt)) = true := stops_keeps asked_stops _ ha
  have hlive :
    asked env ((d.stops (plan net old new rt)).lives env new (plan net old new rt)) = true ∧
      Flagged new k ((d.stops (plan net old new rt)).lives env new (plan net old new rt)) := by
    by_cases hstop : Flagged new k (d.stops (plan net old new rt))
    · exact lives_keeps (updated_enabled ho hn) (flagged_lives hn) ⟨ha', hstop⟩
    · obtain ⟨f, hf⟩ : ∃ f, flag d k = some f := by
        rw [← Option.ne_none_iff_exists']
        exact fun hf => hstop (stops_keeps flagged_stops _ (flagged_none hf))
      obtain ⟨ob, op, l, m, a, hob, hid, hop, hpid, hok⟩ := h f hf
      have hport : d.port k.1 k.2 ≠ some .tnc := by
        intro ht
        unfold flag at hf
        rw [ht] at hf
        cases hf
      by_cases hend : ∀ nb, Enabled new nb → ob.id = nb.id → ∀ np ∈ nb.ports, op.id = np.id →
          op.role ≠ np.role ∨ sameLink rt op.kind np.kind = false
      · exact absurd (flagged_ended ho hn hob hop hid hpid hport hend) hstop
      · push Not at hend
        obtain ⟨nb, hnb, hbid, np, hnp, he, hr, hl⟩ := hend
        obtain rfl : k = (nb.id, np.id) := Prod.ext (hid.symm.trans hbid) (hpid.symm.trans he)
        rw [hok] at hl
        cases hnk : np.kind with
        | tcpServer l' m' a' n =>
          rw [hnk] at hl
          obtain rfl : l = l' := by simpa [sameLink] using hl
          refine flagged_kept ho hn hob hnb hbid hop hnp he hr hok hnk (fun hfn => hstop ?_) ha'
          refine stops_keeps flagged_stops _ (fun f' hf' => ?_)
          rw [hf] at hf'
          cases hf'
          exact ⟨nb, np, l, m', a', hnb, rfl, hnp, rfl, hfn ▸ hnk⟩
        | _ =>
          rw [hnk] at hl
          exact absurd rfl hl
  have hb : ∀ bp ∈ (plan net old new rt).bridges, bp.action = .updated ∨ bp.action = .started →
      ∀ nb, new.bridges.find? (fun b => b.id == bp.id) = some nb → Enabled new nb :=
    fun bp hm ha nb hf => plan_enabled ho hn hm ha hf
  have hstart := starts_keeps hb (flagged_starts (k := k)) hlive
  refine hstart.2.of_flag ?_
  unfold flag
  rw [Daemon.apply, port_of_same (entry_adopt _ new)]

end moves

end KissTncBridge.Proofs.AnnounceFlags
