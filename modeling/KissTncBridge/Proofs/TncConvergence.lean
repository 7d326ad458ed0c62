import KissTncBridge.Proofs.ApplyEffects
import KissTncBridge.Proofs.BridgeSteps

namespace KissTncBridge.Proofs.TncConvergence
open Conf Bridge Reconcile Supervisor Lib ApplyFrame PlanFacts ValidConfig ApplyPorts ApplyEffects
open BridgeSteps

variable {Doc : Type} {env : Env Doc} {d d' : Daemon Doc} {bid pid : String}
variable {old new : Config} {ob nb : Conf.Bridge} {rt : Runtime} {net : IpNetLib}
variable {r r' : Run} {now : Now}

def setup (r : Run) : TncSettings × Connector := (r.settings, r.connector)

def configure (s : TncSettings × Connector) : BridgeCmd → TncSettings × Connector
  | .settings new => (new, s.2)
  | .connector c => (s.1, c)
  | _ => s

def isConfig : BridgeCmd → Bool
  | .settings _ | .connector _ => true
  | _ => false

def taken (es : List Event) : List BridgeCmd :=
  es.filterMap (fun
    | .cmd _ c => if isConfig c then some c else none
    | _ => none)

def sent (bid : String) (log : List Effect) : List BridgeCmd :=
  log.filterMap (fun
    | .cmd b c => if b = bid ∧ isConfig c then some c else none
    | _ => none)

theorem setup_startConnect (r : Run) : setup (r.startConnect now) = setup r := by
  simp only [Run.startConnect]
  split <;> rfl

theorem setup_close (r : Run) : setup (r.close now) = setup r := by
  have h : setup r.release = setup r := by
    unfold Run.release
    split <;> rfl
  exact h

theorem setup_queuePending (r : Run) : setup (r.queuePending now f src) = setup r := by
  simp only [Run.queuePending]
  split <;> rfl

theorem setup_uplink (r : Run) : setup (r.uplink now f src) = setup r := by
  unfold Run.uplink
  split
  · split <;> rfl
  · split
    · rfl
    · rw [setup_startConnect, setup_queuePending]
  · exact setup_queuePending r
  · exact setup_queuePending r

theorem setup_uplinkPending (r : Run) : setup (Run.uplinkPending now r p) = setup r := by
  unfold Run.uplinkPending
  split
  · rfl
  · exact setup_uplink r

theorem setup_letGo (r : Run) : setup (r.letGo now) = setup r := by
  unfold Run.letGo
  split
  · exact setup_close r
  · rfl

theorem setup_onApp (r : Run) (ev : AppEvent) : setup (r.onApp now ev) = setup r := by
  cases ev with
  | sessionOpened sid tx kick =>
    simp only [Run.onApp]
    split
    · exact setup_startConnect _
    · rfl
  | sessionClosed sid =>
    simp only [Run.onApp]
    split
    · exact setup_letGo _
    · rfl
  | frame sid f =>
    simp only [Run.onApp]
    split
    · rfl
    · split
      · rfl
      · exact setup_uplink r

theorem setup_offer (r : Run) : setup (Run.offer f r sid) = setup r := by
  unfold Run.offer
  split
  · rfl
  · dsimp only
    split <;> rfl

theorem setup_onTnc (r : Run) (ev : TncEvent) : setup (r.onTnc now ev) = setup r := by
  cases ev with
  | frame generation f =>
    simp only [Run.onTnc]
    split
    · rfl
    · exact foldl_keep setup _ _ _ (fun r _ _ => setup_offer r)
  | closed generation error =>
    simp only [Run.onTnc]
    split
    · split
      · rfl
      · split <;> rfl
    · rfl

theorem setup_onLink (r : Run) (ev : LinkEvent) : setup (r.onLink now ev) = setup r := by
  cases ev with
  | connected res =>
    cases res with
    | ok exitKiss =>
      have h : setup (r.pending.foldl (Run.uplinkPending now)
          { r.linkUp now exitKiss with pending := [] }) = setup r :=
        foldl_keep setup _ _ _ (fun r _ _ => setup_uplinkPending r)
      simp only [Run.onLink]
      split
      · rw [setup_close, h]
      · exact h
    | error e =>
      simp only [Run.onLink]
      split
      · rfl
      · split <;> rfl
  | backoffOver =>
    simp only [Run.onLink]
    split
    · exact setup_startConnect _
    · rfl

theorem setup_onCmd (r : Run) (c : BridgeCmd) : setup (r.onCmd now c) = configure (setup r) c := by
  cases c with
  | settings new =>
    simp only [Run.onCmd, Run.applySettings]
    split
    · rfl
    · split
      · split
        · exact setup_startConnect _
        · rfl
      · split
        · exact setup_letGo _
        · rfl
      · rfl
  | connector c =>
    have h : setup { r.close now with connector := c, attempt := 0 } =
        configure (setup r) (.connector c) :=
      congrArg (fun s : TncSettings × Connector => (s.1, c)) (setup_close r)
    simp only [Run.onCmd]
    split
    · rw [setup_startConnect, h]
    · exact h
  | kick sid =>
    simp only [Run.onCmd]
    split <;> rfl
  | hold h =>
    simp only [Run.onCmd]
    split
    · split
      · exact setup_startConnect _
      · rfl
    · split
      · exact setup_close _
      · rfl
  | snapshot => rfl

theorem setup_onIdle (r : Run) : setup (r.onIdle now) = setup r := by
  simp only [Run.onIdle]
  split
  · exact setup_close _
  · rfl

/-- A step changes a bridge's setup by the command it takes, if it takes one. -/
theorem setup_step (h : r.step e = some r') : setup r' = (taken [e]).foldl configure (setup r) := by
  by_cases hc : ∃ now c, e = .cmd now c
  · obtain ⟨now, c, rfl⟩ := hc
    cases h
    rw [setup_onCmd]
    cases c <;> rfl
  · have ht : taken [e] = [] := by
      cases e with
      | cmd now c => exact absurd ⟨now, c, rfl⟩ hc
      | _ => rfl
    rw [ht, List.foldl_nil]
    cases step_turn h with
    | app _ => exact setup_onApp r _
    | tnc => exact setup_onTnc r _
    | @cmd now c => exact absurd ⟨now, c, rfl⟩ hc
    | connected hl =>
      rw [setup_onLink]
      simp only [Run.connectDone, hl]
      rfl
    | backoffOver _ => exact setup_onLink r _
    | idle _ => exact setup_onIdle r
    | takes _ _ => rfl
    | gone _ => rfl
    | writer _ => rfl
    | slot => rfl

/-- A run leaves a bridge with what the commands it took made of its setup. -/
theorem setup_run (h : Runs Run.step r es r') :
    setup r' = (taken es).foldl configure (setup r) := by
  induction h with
  | start => rfl
  | @next es t e u _ _ hs ih =>
    rw [setup_step hs, ih, taken, taken, taken, List.filterMap_append, List.foldl_append]

theorem sent_append (bid : String) (l m : List Effect) :
    sent bid (l ++ m) = sent bid l ++ sent bid m := List.filterMap_append

theorem sent_effectsOn (bid : String) (log : List Effect) :
    sent bid (effectsOn bid log) = sent bid log := by
  induction log with
  | nil => rfl
  | cons e log ih =>
    have h : ∀ m, sent bid (e :: m) = sent bid [e] ++ sent bid m := fun m => sent_append bid [e] m
    unfold effectsOn at ih ⊢
    rw [List.filter_cons]
    split
    · rw [h, ih, ← h]
    · rename_i ht
      have he : sent bid [e] = [] := by
        cases e with
        | cmd b c =>
          have hb : b ≠ bid := by simpa [target] using ht
          simp [sent, hb]
        | _ => rfl
      rw [ih, h log, he, List.nil_append]

theorem sent_of_facet (h : facet bid d' = facet bid d) : sent bid d'.log = sent bid d.log := by
  have hl : effectsOn bid d'.log = effectsOn bid d.log := congrArg Prod.snd h
  rw [← sent_effectsOn, hl, sent_effectsOn]

def Plain : Effect → Prop
  | .cmd _ c => isConfig c = false
  | _ => True

theorem plain_lenient (bid : String) : Lenient bid Plain :=
  ⟨fun _ _ => trivial, fun _ => trivial, fun _ _ => trivial, fun _ _ => trivial⟩

theorem sent_of_emits (h : Emits Plain d d') : sent bid d'.log = sent bid d.log := by
  obtain ⟨es, he, hp⟩ := h
  have hn : sent bid es = [] := by
    refine List.filterMap_eq_nil_iff.mpr (fun e hm => ?_)
    have hpe := hp e hm
    cases e with
    | cmd b c =>
      have hc : isConfig c = false := hpe
      simp [hc]
    | _ => rfl
  rw [he, sent_append, hn, List.append_nil]

theorem sent_bridgeCmd (hb : d.bridges.contains bid = true) (hc : isConfig c = true) :
    sent bid (d.bridgeCmd bid c).log = sent bid d.log ++ [c] := by
  unfold Daemon.bridgeCmd
  rw [if_pos hb]
  refine (sent_append bid d.log [.cmd bid c]).trans ?_
  simp [sent, hc]

theorem contains_of_port (h : d.port bid pid = some rp) : d.bridges.contains bid = true := by
  cases he : entry bid pid d with
  | none =>
    rw [port_eq, he] at h
    cases h
  | some e => exact contains_of_entry he

def relink (env : Env Doc) (nb : Conf.Bridge) (a : Action) (e : Option RunningPort)
    (np : Option Port) : List BridgeCmd :=
  match a, e, np with
  | .restarted, some .tnc, some np =>
    match Daemon.connectorFor env nb np with
    | .ok c => [.connector c]
    | .error _ => []
  | _, _, _ => []

theorem sent_applyPort (env : Env Doc) (d : Daemon Doc) (bid : String) (nb : Conf.Bridge)
    (pp : PortPlan) :
    sent bid (d.applyPort env bid nb pp).log = sent bid d.log ++
      relink env nb pp.action (d.port bid pp.id) (nb.ports.find? (fun p => p.id == pp.id)) := by
  unfold Daemon.applyPort
  cases hf : nb.ports.find? (fun p => p.id == pp.id) with
  | none => simp [relink]
  | some np =>
    have hk : ∀ (d : Daemon Doc) ids, sent bid (d.kickAll bid ids).log = sent bid d.log :=
      fun d ids => sent_of_emits (foldl_inv (P := Emits Plain d) _ _ _ (.refl d)
        (fun d' s _ h => h.trans (emits_bridgeCmd rfl)))
    have ht : sent bid (d.touchPort env bid nb np pp).log =
        sent bid d.log ++ relink env nb pp.action (d.port bid pp.id) (some np) := by
      unfold Daemon.touchPort relink
      split
      · rename_i ha he
        have hc := contains_of_port he
        simp only [ha, he]
        cases Daemon.connectorFor env nb np with
        | ok c => exact sent_bridgeCmd hc rfl
        | error e =>
          rw [List.append_nil]
          rfl
      · rename_i ha he
        simp only [ha, he, List.append_nil]
        exact sent_of_emits (emits_updatePort (plain_lenient _) d np)
      · rename_i hno _
        split
        · rename_i ha he _
          exact absurd he (hno ha)
        · simp
    dsimp only
    split
    · rw [hk, ht]
    · exact ht

theorem tncUpdated_congr (h : ∀ pid, d'.port bp.id pid = d.port bp.id pid) :
    d'.tncUpdated bp = d.tncUpdated bp := by
  simp only [Daemon.tncUpdated, h]

theorem sent_sendSettings (hb : d.bridges.contains bp.id = true) (hs : settingsFor nb = some s) :
    sent bp.id (d.sendSettings bp nb).log =
      sent bp.id d.log ++ if d.tncUpdated bp then [.settings s] else [] := by
  unfold Daemon.sendSettings
  rw [hs]
  dsimp only
  split
  · exact sent_bridgeCmd hb rfl
  · simp

/-- What the second pass sends to a bridge whose TNC port runs under one id
only. -/
theorem sent_applyLive (hf : new.bridges.find? (fun b => b.id == bp.id) = some nb)
    (hb : d.bridges.contains bp.id = true) (hs : settingsFor nb = some s)
    (hd : (bp.ports.map PortPlan.id).Nodup) (hpp : pp ∈ bp.ports)
    (htnc : ∀ p, d.port bp.id p = some .tnc → p = pp.id) :
    sent bp.id (d.applyLive env new bp).log =
      sent bp.id d.log ++ (if d.tncUpdated bp then [.settings s] else []) ++
        relink env nb pp.action (d.port bp.id pp.id) (nb.ports.find? (fun p => p.id == pp.id)) := by
  have hid : nb.id = bp.id := by simpa using List.find?_some hf
  unfold Daemon.applyLive
  rw [hf]
  dsimp only
  rw [log_modifyBridge]
  generalize hd₀ :
    (if bp.changes.contains "public_name" then d.publicNameChanged env nb else d) = d₀
  have he : ∀ pid, entry bp.id pid d₀ = entry bp.id pid d := by
    intro pid
    rw [← hd₀]
    split
    · exact entry_publicNameChanged d nb
    · rfl
  have hsent : sent bp.id d₀.log = sent bp.id d.log := by
    rw [← hd₀]
    split
    · exact sent_of_emits (emits_publicNameChanged (plain_lenient _) d)
    · rfl
  have hp : ∀ pid, d₀.port bp.id pid = d.port bp.id pid := fun pid => port_of_same (he pid)
  have hb₀ : d₀.bridges.contains bp.id = true := by
    rw [contains_iff_entry d₀ bp.id pp.id, he, ← contains_iff_entry]
    exact hb
  have hstep : ∀ s, ∀ y ∈ bp.ports, y.id ≠ pp.id →
      entry bp.id y.id s = entry bp.id y.id (d₀.sendSettings bp nb) →
      sent bp.id (s.applyPort env bp.id nb y).log = sent bp.id s.log := by
    intro s y _ hne hs
    have hq : s.port bp.id y.id = d.port bp.id y.id :=
      port_of_same (hs.trans ((entry_sendSettings d₀ nb).trans (he y.id)))
    rw [sent_applyPort, hq]
    unfold relink
    split
    · rename_i ht _
      exact absurd (htnc _ ht) hne
    · exact List.append_nil _
  obtain ⟨d₁, h₀₁, h₁, hr⟩ := foldl_visits (o := d₀.sendSettings bp nb)
    (R := fun d d' : Daemon Doc => sent bp.id d'.log = sent bp.id d.log)
    (π := fun k d => entry bp.id k d) (f := Daemon.applyPort env bp.id nb) (fun _ => rfl)
    (fun h h' => h'.trans h) hd (fun s x _ k hx => entry_applyPort_ne hid hx s) hpp hstep
  rw [hr, sent_applyPort, h₀₁, sent_sendSettings hb₀ hs, hsent, tncUpdated_congr hp,
    port_of_same (h₁.trans ((entry_sendSettings d₀ nb).trans (he pp.id)))]

theorem changes_app_params (net : IpNetLib) (rt : Runtime) (ob nb : Conf.Bridge) :
    (compareBridge net rt ob nb).changes.contains "app_params" = true ↔
      ob.appParams ≠ nb.appParams := by
  simp only [compareBridge]
  split <;> split <;> split <;> simp_all

/-- The TNC port keeps running through the first pass, unless it is gone. -/
theorem port_applyStop_kept (ha : bp.action = .updated) (hd : (bp.ports.map PortPlan.id).Nodup)
    (hpp : pp ∈ bp.ports) (hs : pp.action ≠ .stopped) (h : d.port bp.id pp.id = some .tnc) :
    (d.applyStop bp).port bp.id pp.id = some .tnc := by
  rw [port_eq] at h ⊢
  rw [entry_applyStop ha hd hpp]
  cases he : entry bp.id pp.id d with
  | none =>
    rw [he] at h
    cases h
  | some e =>
    rw [he, Option.join_some] at h
    simp [h, hs, afterStop]

theorem tncUpdated_compared (hd : ((compareBridge net rt ob nb).ports.map PortPlan.id).Nodup)
    (hpp : pp ∈ comparePorts net rt ob nb) (htnc : ∀ p, d.port nb.id p = some .tnc → p = pp.id)
    (hq : pp.action = .updated → d.port nb.id pp.id = some .tnc) :
    d.tncUpdated (compareBridge net rt ob nb) = true ↔
      ob.appParams ≠ nb.appParams ∨ pp.action = .updated := by
  simp only [Daemon.tncUpdated, Bool.or_eq_true, changes_app_params, List.any_eq_true,
    Bool.and_eq_true, beq_iff_eq]
  refine or_congr_right ⟨?_, fun h => ⟨pp, hpp, h, hq h⟩⟩
  rintro ⟨p, hp, hu, ht⟩
  rwa [← List.inj_on_of_nodup_map hd hp hpp (htnc _ ht)]

/-- What a reload sends to a bridge that runs before and after it, by the plan
for the id its TNC port runs under. -/
theorem sent_compared (ho : Valid old) (hn : Valid new) (hob : Enabled old ob)
    (hnb : Enabled new nb)
    (hid : ob.id = nb.id) (hs : settingsFor nb = some s) (hpp : pp ∈ comparePorts net rt ob nb)
    (hrun : ∀ p, d.port nb.id p = some .tnc ↔ p = pp.id) :
    sent nb.id (effects env d (plan net old new rt) new) =
      (if ob.appParams ≠ nb.appParams ∨ pp.action = .updated then [.settings s] else []) ++
        relink env nb pp.action (some .tnc) (nb.ports.find? (fun p => p.id == pp.id)) := by
  have hm : compareBridge net rt ob nb ∈ (plan net old new rt).bridges :=
    (mem_plan ho hn).mpr (.compared hob hnb hid)
  have hd : ((compareBridge net rt ob nb).ports.map PortPlan.id).Nodup :=
    comparePorts_ids (ho.port_ids hob.1) (hn.port_ids hnb.1)
  obtain ⟨d₁, d₂, d₃, h₁, h₂, h₃, hf⟩ :=
    apply_focus env { d with log := [] } new (plan_ids ho hn) hm
  have hfin : sent nb.id (effects env d (plan net old new rt) new) = sent nb.id d₃.log :=
    (sent_of_facet hf).trans (sent_of_emits (emits_applyStart (plain_lenient _) d₃))
  have hstop : sent nb.id d₂.log = [] := by
    refine (sent_of_facet h₂).trans ((sent_of_emits ?_).trans (sent_of_facet h₁))
    refine emits_applyStop (plain_lenient _) hd ?_ ?_
    · exact fun _ _ => ⟨trivial, fun _ _ => trivial⟩
    · exact fun _ _ _ _ _ _ => trivial
  rw [hfin]
  rcases compareBridge_action net rt ob nb with ha | ha
  · have hne : (compareBridge net rt ob nb).action ≠ .updated := by simp [ha]
    have hu := unchanged_ports hne hpp
    have hp : ob.appParams = nb.appParams := by
      by_contra hp
      have hc := (changes_app_params net rt ob nb).mpr hp
      refine hne (if_neg (fun hu => ?_))
      have hnil : (compareBridge net rt ob nb).changes = [] :=
        List.isEmpty_iff.mp (Bool.and_eq_true _ _ ▸ hu).1
      rw [hnil] at hc
      cases hc
    rw [if_neg hne] at h₃
    rw [(sent_of_facet h₃ : sent nb.id d₃.log = _), hstop, hu]
    simp [hp, relink]
  · rw [if_pos ha] at h₃
    have hb₁ : d₁.port nb.id pp.id = some .tnc := (port_of_facet h₁ _).trans ((hrun _).mpr rfl)
    have htnc : ∀ p, d₂.port nb.id p = some .tnc → p = pp.id := by
      intro p hp
      have hq := port_applyStop_tnc ha hd ((port_of_facet h₂ p).symm.trans hp)
      exact (hrun p).mp ((port_of_facet h₁ p).symm.trans hq)
    have hq : pp.action ≠ .stopped → d₂.port nb.id pp.id = some .tnc := fun hs =>
      (port_of_facet h₂ _).trans (port_applyStop_kept ha hd hpp hs hb₁)
    have hup := tncUpdated_compared hd hpp htnc (fun h => hq (by simp [h]))
    have hb₂ : d₂.bridges.contains (compareBridge net rt ob nb).id = true := by
      rw [contains_of_facet h₂, contains_iff_entry _ _ pp.id, entry_applyStop ha hd hpp,
        Option.isSome_map, ← contains_iff_entry]
      exact contains_of_port hb₁
    refine (sent_of_facet h₃).trans
      ((sent_applyLive (hn.find_bridge hnb.1 rfl) hb₂ hs hd hpp htnc).trans ?_)
    rw [show (compareBridge net rt ob nb).id = nb.id from rfl, hstop, List.nil_append]
    congr 1
    · simp only [hup]
    · cases hact : pp.action with
      | restarted => rw [hq (by simp [hact])]
      | _ => simp [relink]

/-- Two connectors are the same, adapters compared by what they mean right
now. -/
def sameConnector (rt : Runtime) : Connector → Connector → Bool
  | .tcp h p, .tcp h' p' => h == h' && p == p'
  | .serial t d m, .serial t' d' m' => t == t' && d == d' && m == m'
  | .spp t s m, .spp t' s' m' =>
    t == t' && s.address == s'.address && s.channel == s'.channel &&
      rt.sameAdapter s.adapter s'.adapter && m == m'
  | .ble t b m, .ble t' b' m' =>
    t == t' && b.address == b'.address && rt.sameAdapter b.adapter b'.adapter && m == m'
  | _, _ => false

theorem sameConnector_refl (rt : Runtime) (c : Connector) : sameConnector rt c c = true := by
  cases c <;> simp [sameConnector, sameAdapter_refl]

theorem sameConnector_symm (h : sameConnector rt c c' = true) : sameConnector rt c' c = true := by
  cases c <;> cases c' <;> simp_all [sameConnector]
  · exact sameAdapter_symm h.1.2
  · exact sameAdapter_symm h.1.2

theorem sameConnector_trans (h : sameConnector rt c c' = true)
    (h' : sameConnector rt c' c'' = true) : sameConnector rt c c'' = true := by
  cases c <;> cases c' <;> simp_all [sameConnector] <;> cases c'' <;> simp_all
  · exact sameAdapter_trans h.1.2 h'.1.2
  · exact sameAdapter_trans h.1.2 h'.1.2

/-- What a port's connector is built from, for the port types that have one. -/
def connectorOf : PortKind → Option Connector
  | .tcpClient host port _ _ => some (.tcp host port)
  | .serial tnc model device _ _ _ => some (.serial tnc device model)
  | .sppClient tnc model spp _ _ _ => some (.spp tnc spp model)
  | .bleClient tnc model ble _ _ _ => some (.ble tnc ble model)
  | .tcpServer .. | .bleServer .. => none

theorem connectorFor_ok (hbt : ∀ b p, env.btSession b p = .ok ()) (b : Conf.Bridge) (p : Port) :
    Daemon.connectorFor env b p = .ok c ↔ connectorOf p.kind = some c := by
  unfold Daemon.connectorFor connectorOf
  cases p.kind <;> simp [hbt, Except.map]

/-- Connectors of two ports are the same when the ports use the same TNC over
the same link. -/
theorem sameConnector_iff {p p' : Port} (h : connectorOf p.kind = some c)
    (h' : connectorOf p'.kind = some c') :
    sameConnector rt c c' = true ↔ sameLink rt p.kind p'.kind = true ∧ p.tncId = p'.tncId := by
  unfold Port.tncId
  cases hk : p.kind <;> rw [hk] at h <;> cases h <;> cases hk' : p'.kind <;> rw [hk'] at h' <;>
    cases h' <;> simp [sameConnector, sameLink] <;> grind

theorem settings_portId (h : settingsFor b = some s) (ht : b.tncPorts = [p]) : s.portId = p.id := by
  simp only [settingsFor, ht, List.head?_cons, Option.bind_eq_bind, Option.bind_some,
    Option.bind_eq_some_iff] at h
  obtain ⟨_, _, h⟩ := h
  cases h
  rfl

/-- Versions of a port that agree in what applies live have the same
settings. -/
theorem settings_kept (hop : ob.tncPorts = [op]) (hnp : nb.tncPorts = [np]) (hpid : op.id = np.id)
    (hp : ob.appParams = nb.appParams) (hr : sameRest op.kind np.kind = true) :
    settingsFor ob = settingsFor nb := by
  simp only [settingsFor, hop, hnp, List.head?_cons, Option.bind_eq_bind, Option.bind_some,
    Port.connectPolicy, hpid, hp]
  cases ho : op.kind <;> cases hn : np.kind <;> rw [ho, hn] at hr <;> simp_all [sameRest]

/-- The port whose link a bridge is left with when its TNC port gets another
id: the new version of the port under the old id, if that is a client port. -/
def inForce (nb : Conf.Bridge) (op : Port) : Port :=
  match nb.ports.find? (fun p => p.id == op.id) with
  | some p => if p.connectPolicy.isSome then p else op
  | none => op

/-- The changes of a bridge's TNC side that a reload carries out: a new link
under the same id without other changes of its settings, unless `app_params`
changes with them; no new link, and the same TNC; and a new id only if
`app_params` changes and the link in force is the one of the new port. -/
def CarriedOut (rt : Runtime) (ob nb : Conf.Bridge) (op np : Port) : Prop :=
  if op.id = np.id then
    if sameLink rt op.kind np.kind = true then op.tncId = np.tncId
    else ob.appParams ≠ nb.appParams ∨ settingsFor ob = settingsFor nb
  else
    ob.appParams ≠ nb.appParams ∧
      sameLink rt (inForce nb op).kind np.kind = true ∧ (inForce nb op).tncId = np.tncId

theorem connectPolicy_iff (p : Port) :
    p.connectPolicy.isSome = true ↔ ∃ c, connectorOf p.kind = some c := by
  unfold Port.connectPolicy connectorOf
  cases p.kind <;> simp

theorem configure_relinked (b : Prop) [Decidable b] (s : TncSettings) (c : Connector)
    (u : TncSettings × Connector) :
    ((if b then [BridgeCmd.settings s] else []) ++ [BridgeCmd.connector c]).foldl configure u =
      (if b then s else u.1, c) := by
  split <;> rfl

theorem configure_kept (b : Prop) [Decidable b] (s : TncSettings) (u : TncSettings × Connector) :
    ((if b then [BridgeCmd.settings s] else []) ++ []).foldl configure u =
      (if b then s else u.1, u.2) := by
  split <;> rfl

/-- The settings in force after a reload that sends them if `b`. -/
theorem settings_right (b : Prop) [Decidable b] (hob : settingsFor ob = some s₀)
    (hnb : settingsFor nb = some s) :
    settingsFor nb = some (if b then s else s₀) ↔ b ∨ settingsFor ob = settingsFor nb := by
  rw [hob, hnb]
  by_cases hb : b
  · simp [hb]
  · simp [hb, eq_comm]

section
variable {op np : Port} (hbt : ∀ b p, env.btSession b p = .ok ()) (ho : Valid old) (hn : Valid new)
  (hob : Enabled old ob) (hnb : Enabled new nb) (hid : ob.id = nb.id)
  (hop : ob.tncPorts = [op]) (hnp : nb.tncPorts = [np])
  (hrun : ∀ p, d.port nb.id p = some .tnc ↔ p = op.id) (hs : settingsFor nb = some s)
include hbt ho hn hob hnb hid hop hnp hrun hs

/-- What is sent when the TNC port keeps its id. -/
theorem sent_same_id (hpid : op.id = np.id) (hc : connectorOf np.kind = some c) :
    sent nb.id (effects env d (plan net old new rt) new) =
      if sameLink rt op.kind np.kind = true then
        (if ob.appParams ≠ nb.appParams ∨ sameRest op.kind np.kind = false then [.settings s]
          else []) ++ []
      else (if ob.appParams ≠ nb.appParams then [.settings s] else []) ++ [.connector c] := by
  obtain ⟨hom, hor⟩ := (mem_tncPorts ob).mp (hop ▸ List.mem_singleton_self op)
  obtain ⟨hnm, hnr⟩ := (mem_tncPorts nb).mp (hnp ▸ List.mem_singleton_self np)
  have hpp : comparePort net rt ob.id op np ∈ comparePorts net rt ob nb :=
    compared_mem ho hob hom hnm hpid
  have hsent : sent nb.id (effects env d (plan net old new rt) new) = _ :=
    sent_compared ho hn hob hnb hid hs hpp (fun p => (hrun p).trans (by rw [hpid]; rfl))
  rw [show (comparePort net rt ob.id op np).id = np.id from rfl,
    hn.find_port hnb.1 hnm rfl] at hsent
  rw [hsent]
  cases hl : sameLink rt op.kind np.kind with
  | true =>
    rw [comparePort_kept net ob.id (hor.trans hnr.symm) hl]
    cases sameRest op.kind np.kind <;> simp [relink]
  | false =>
    rw [(comparePort_restarted net rt ob.id op np).mpr (.inr hl)]
    simp [relink, (connectorFor_ok hbt nb np).mpr hc]

/-- What is sent when the TNC port gets another id. -/
theorem sent_other_id (hpid : op.id ≠ np.id) :
    sent nb.id (effects env d (plan net old new rt) new) =
      (if ob.appParams ≠ nb.appParams then [.settings s] else []) ++
        match (nb.ports.find? (fun p => p.id == op.id)).bind (fun p => connectorOf p.kind) with
        | some c => [.connector c]
        | none => [] := by
  obtain ⟨hom, hor⟩ := (mem_tncPorts ob).mp (hop ▸ List.mem_singleton_self op)
  cases hf : nb.ports.find? (fun p => p.id == op.id) with
  | none =>
    have hno : ∀ p ∈ nb.ports, p.id ≠ op.id := by simpa using hf
    have hpp : stoppedPort rt ob.id op ∈ comparePorts net rt ob nb :=
      mem_comparePorts.mpr (.inl ⟨op, hom, hno, rfl⟩)
    refine (sent_compared ho hn hob hnb hid hs hpp hrun).trans ?_
    simp [stoppedPort, relink]
  | some p =>
    have hpm : p ∈ nb.ports := List.mem_of_find?_eq_some hf
    have hpop : p.id = op.id := by simpa using List.find?_some hf
    have hpr : p.role = .app := by
      cases hr : p.role with
      | app => rfl
      | tnc =>
        have hin : p ∈ nb.tncPorts := (mem_tncPorts nb).mpr ⟨hpm, hr⟩
        rw [hnp, List.mem_singleton] at hin
        exact absurd (hin ▸ hpop.symm) hpid
    have hpp : comparePort net rt ob.id op p ∈ comparePorts net rt ob nb :=
      compared_mem ho hob hom hpm hpop.symm
    refine (sent_compared ho hn hob hnb hid hs hpp
      (fun q => (hrun q).trans (by rw [← hpop]; rfl))).trans ?_
    rw [show (comparePort net rt ob.id op p).id = p.id from rfl, hpop, hf,
      (comparePort_restarted net rt ob.id op p).mpr (.inl (by simp [hor, hpr]))]
    simp only [reduceCtorEq, or_false, Option.bind_some, relink]
    cases hc : connectorOf p.kind with
    | some c => rw [(connectorFor_ok hbt nb p).mpr hc]
    | none =>
      cases hok : Daemon.connectorFor env nb p with
      | ok c =>
        rw [(connectorFor_ok hbt nb p).mp hok] at hc
        cases hc
      | error e => rfl

end

/-- After a reload, and once the bridge has taken the commands it was sent, its
settings and its connector are those of the new config if and only if the
change is one that reloads carry out. -/
theorem tnc_side_converges {op np : Port} (hbt : ∀ b p, env.btSession b p = .ok ())
    (ho : Valid old) (hn : Valid new) (hob : Enabled old ob) (hnb : Enabled new nb)
    (hid : ob.id = nb.id) (hop : ob.tncPorts = [op]) (hnp : nb.tncPorts = [np])
    (hrun : ∀ p, d.port nb.id p = some .tnc ↔ p = op.id)
    (hset : settingsFor ob = some r.settings) (hco : Daemon.connectorFor env ob op = .ok c₀)
    (hsame : sameConnector rt r.connector c₀ = true) (hcn : Daemon.connectorFor env nb np = .ok c)
    (hes : taken es = sent nb.id (effects env d (plan net old new rt) new))
    (hr : Runs Run.step r es r') :
    (settingsFor nb = some r'.settings ∧ sameConnector rt r'.connector c = true) ↔
      CarriedOut rt ob nb op np := by
  obtain ⟨s, hs⟩ := settingsFor_of_connector (by rw [hnp]; rfl) hcn
  rw [connectorFor_ok hbt] at hco hcn
  have hkept : sameConnector rt r.connector c = true ↔
      sameLink rt op.kind np.kind = true ∧ op.tncId = np.tncId := by
    rw [← sameConnector_iff hco hcn]
    exact ⟨sameConnector_trans (sameConnector_symm hsame), sameConnector_trans hsame⟩
  have hfin : (r'.settings, r'.connector) = (taken es).foldl configure (r.settings, r.connector) :=
    setup_run hr
  rw [hes] at hfin
  unfold CarriedOut
  by_cases hpid : op.id = np.id
  · rw [sent_same_id hbt ho hn hob hnb hid hop hnp hrun hs hpid hcn] at hfin
    rw [if_pos hpid]
    by_cases hl : sameLink rt op.kind np.kind = true
    · rw [if_pos hl, configure_kept] at hfin
      obtain ⟨h₁, h₂⟩ := Prod.mk.inj hfin
      have hright : settingsFor nb = some r'.settings := by
        rw [h₁, settings_right _ hset hs]
        by_cases hp : ob.appParams = nb.appParams
        · cases hrest : sameRest op.kind np.kind with
          | false => simp
          | true => exact .inr (settings_kept hop hnp hpid hp hrest)
        · exact .inl (.inl hp)
      rw [if_pos hl, h₂, hkept, and_iff_right hright, and_iff_right hl]
    · rw [if_neg hl, configure_relinked] at hfin
      obtain ⟨h₁, h₂⟩ := Prod.mk.inj hfin
      rw [if_neg hl, h₁, h₂, settings_right _ hset hs]
      exact and_iff_left (sameConnector_refl rt c)
  · rw [sent_other_id hbt ho hn hob hnb hid hop hnp hrun hs hpid] at hfin
    have hne : settingsFor ob ≠ settingsFor nb := by
      intro he
      rw [hset] at he
      exact hpid ((settings_portId hset hop).symm.trans (settings_portId he.symm hnp))
    have hstale : ∀ b : Prop, [Decidable b] →
        (settingsFor nb = some (if b then s else r.settings) ↔ b) :=
      fun b _ => (settings_right b hset hs).trans (or_iff_left hne)
    rw [if_neg hpid]
    unfold inForce
    cases hf : nb.ports.find? (fun p => p.id == op.id) with
    | none =>
      simp only [hf, Option.bind_none, configure_kept] at hfin
      obtain ⟨h₁, h₂⟩ := Prod.mk.inj hfin
      rw [h₁, h₂, hstale, hkept]
    | some p =>
      have hp := connectPolicy_iff p
      cases hc : connectorOf p.kind with
      | none =>
        simp only [hf, Option.bind_some, hc, configure_kept] at hfin
        obtain ⟨h₁, h₂⟩ := Prod.mk.inj hfin
        rw [h₁, h₂, hstale, hkept]
        simp [hp, hc]
      | some c' =>
        simp only [hf, Option.bind_some, hc, configure_relinked] at hfin
        obtain ⟨h₁, h₂⟩ := Prod.mk.inj hfin
        rw [h₁, h₂, hstale, sameConnector_iff hc hcn]
        simp [hp, hc]

def radioAt (host : String) (connect : ConnectPolicy) : Conf.Bridge :=
  sampleBridge [⟨"radio", .tnc, .tcpClient host 8001 connect 0⟩, sampleApps]

def radioSettings (connect : ConnectPolicy) : TncSettings := ⟨"radio", connect, 0, .drop, false⟩

def radioRun (connect : ConnectPolicy) : Run :=
  Run.start "ktbr0" (.tcp "tnc.local" 8001) (radioSettings connect) ⟨0, 0⟩

theorem radio_port (hv : Valid (sampleConfig [radioAt host connect])) (p : String) :
    (sampleDaemon (sampleConfig [radioAt host connect])).port "ktbr0" p = some .tnc ↔
    p = "radio" := by
  have hp := sample_port hv rfl ⟨⟨"radio", .tnc, .tcpClient host 8001 connect 0⟩, _, rfl, rfl⟩ p
  have ht : (radioAt host connect).tncPorts = [⟨"radio", .tnc, .tcpClient host 8001 connect 0⟩] :=
    rfl
  rw [show "ktbr0" = (radioAt host connect).id from rfl, hp]
  exact startedEntry_tnc hv (List.mem_singleton_self _) ht p

theorem tnc_side_converges_moved :
    ∃ r', Runs Run.step (radioRun .onDemand)
        [.app ⟨1, 1⟩ (.sessionOpened (sampleSession 4001) (.empty 4) 1),
          .cmd ⟨2, 2⟩ (.connector (.tcp "tnc2.local" 8001))] r' ∧
      settingsFor (radioAt "tnc2.local" .onDemand) = some r'.settings ∧
      sameConnector ⟨∅, none⟩ r'.connector (.tcp "tnc2.local" 8001) = true := by
  have hv : Valid (sampleConfig [radioAt "tnc.local" .onDemand]) := by decide
  have hr : Runs Run.step (radioRun .onDemand)
      [.app ⟨1, 1⟩ (.sessionOpened (sampleSession 4001) (.empty 4) 1),
        .cmd ⟨2, 2⟩ (.connector (.tcp "tnc2.local" 8001))] _ :=
    .next (.next .start trivial rfl) trivial rfl
  refine ⟨_, hr, ?_⟩
  have hes : taken [.app ⟨1, 1⟩ (.sessionOpened (sampleSession 4001) (.empty 4) 1),
      .cmd ⟨2, 2⟩ (.connector (.tcp "tnc2.local" 8001))] =
      sent "ktbr0" (effects sampleEnv (sampleDaemon (sampleConfig [radioAt "tnc.local" .onDemand]))
        (plan sampleEnv.net (sampleConfig [radioAt "tnc.local" .onDemand])
          (sampleConfig [radioAt "tnc2.local" .onDemand]) ⟨∅, none⟩)
        (sampleConfig [radioAt "tnc2.local" .onDemand])) := by decide +kernel
  have hob : Enabled (sampleConfig [radioAt "tnc.local" .onDemand])
      (radioAt "tnc.local" .onDemand) :=
    ⟨List.mem_singleton_self _, rfl⟩
  have hnb : Enabled (sampleConfig [radioAt "tnc2.local" .onDemand])
      (radioAt "tnc2.local" .onDemand) :=
    ⟨List.mem_singleton_self _, rfl⟩
  refine (tnc_side_converges (fun _ _ => rfl) hv (by decide) hob hnb rfl rfl rfl (radio_port hv) rfl
    rfl rfl rfl hes hr).mpr ?_
  simp only [CarriedOut, if_true]
  decide

/-- With a new address a new `connect` is left behind: the bridge moves to the
new TNC and goes on connecting on demand. -/
theorem relink_leaves_settings :
    Valid (sampleConfig [radioAt "tnc.local" .onDemand]) ∧
    Valid (sampleConfig [radioAt "tnc2.local" .always]) ∧
    settingsFor (radioAt "tnc.local" .onDemand) = some (radioRun .onDemand).settings ∧
    settingsFor (radioAt "tnc2.local" .always) = some (radioSettings .always) ∧
    ∃ r', taken [.cmd ⟨1, 1⟩ (.connector (.tcp "tnc2.local" 8001))] =
        sent "ktbr0"
          (effects sampleEnv (sampleDaemon (sampleConfig [radioAt "tnc.local" .onDemand]))
          (plan sampleEnv.net (sampleConfig [radioAt "tnc.local" .onDemand])
            (sampleConfig [radioAt "tnc2.local" .always]) ⟨∅, none⟩)
          (sampleConfig [radioAt "tnc2.local" .always])) ∧
      Runs Run.step (radioRun .onDemand) [.cmd ⟨1, 1⟩ (.connector (.tcp "tnc2.local" 8001))] r' ∧
      r'.connector = .tcp "tnc2.local" 8001 ∧ r'.settings ≠ radioSettings .always := by
  refine ⟨by decide, by decide, rfl, rfl, _, by decide +kernel, .next .start trivial rfl, rfl, ?_⟩
  decide

end KissTncBridge.Proofs.TncConvergence
