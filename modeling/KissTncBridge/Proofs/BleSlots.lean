import KissTncBridge.Proofs.ApplyEffects
import KissTncBridge.Supervisor.Ble

namespace KissTncBridge.Proofs.BleSlots
open Conf Bridge Reconcile Supervisor Lib ApplyFrame PlanFacts ValidConfig ApplyPorts ApplyEffects

variable {Doc : Type} {env : Env Doc} {d d' : Daemon Doc} {bid pid : String}

/-- What is not changed about a port while it runs. -/
inductive Shape where
  | tnc
  | tcp
  | ble (adapter : AdapterSel)
deriving DecidableEq, Repr

def shape : RunningPort → Shape
  | .tnc => .tnc
  | .tcp .. => .tcp
  | .ble adapter _ => .ble adapter

def slotStep (bid pid : String) (l : List AdapterSel) : Effect → List AdapterSel
  | .startPort b p (.ble adapter _) => if b = bid ∧ p = pid then l ++ [adapter] else l
  | .stopPort b p (.ble _ _) => if b = bid ∧ p = pid then l.tail else l
  | _ => l

def slotsAt (bid pid : String) (log : List Effect) : List AdapterSel :=
  log.foldl (slotStep bid pid) []

/-- What runs as a port, and its slots. -/
def view (bid pid : String) (d : Daemon Doc) : Option (Option Shape) × List AdapterSel :=
  ((entry bid pid d).map (Option.map shape), slotsAt bid pid d.log)

theorem slotStep_aside (h : target e ≠ some bid) (l : List AdapterSel) :
    slotStep bid pid l e = l := by
  cases e with
  | startPort b p rp =>
    have hb : b ≠ bid := fun hb => h (congrArg some hb)
    cases rp <;> simp [slotStep, hb]
  | stopPort b p rp =>
    have hb : b ≠ bid := fun hb => h (congrArg some hb)
    cases rp <;> simp [slotStep, hb]
  | _ => rfl

theorem slotsAt_effectsOn (log : List Effect) :
    slotsAt bid pid (effectsOn bid log) = slotsAt bid pid log := by
  unfold slotsAt effectsOn
  rw [List.foldl_filter]
  congr 1
  funext l e
  split
  · rfl
  · rename_i ht
    exact (slotStep_aside (by simpa using ht) l).symm

theorem slotsAt_append (log : List Effect) (e : Effect) :
    slotsAt bid pid (log ++ [e]) = slotStep bid pid (slotsAt bid pid log) e := by
  simp [slotsAt]

theorem view_of_facet (h : facet bid d' = facet bid d) : view bid pid d' = view bid pid d := by
  have hl : effectsOn bid d'.log = effectsOn bid d.log := congrArg Prod.snd h
  unfold view
  rw [entry_of_facet h, ← slotsAt_effectsOn d'.log, hl, slotsAt_effectsOn]

theorem view_of_log (h : d'.log = d.log) (he : entry bid pid d' = entry bid pid d) :
    view bid pid d' = view bid pid d := by
  unfold view
  rw [h, he]

theorem view_emit (h : ∀ l, slotStep bid pid l e = l) :
    view bid pid (d.emit e) = view bid pid d := by
  unfold view
  rw [entry_emit, Daemon.emit, slotsAt_append, h]

theorem view_port (d : Daemon Doc) (bid pid : String) :
    (view bid pid d).1.join = (d.port bid pid).map shape := by
  rw [port_eq]
  unfold view
  cases entry bid pid d <;> rfl

theorem view_modifyName (b name : String) :
    view bid pid (d.modifyBridge b (fun rb => { rb with name := name })) = view bid pid d := by
  by_cases hb : b = bid
  · subst hb
    exact view_of_log (log_modifyBridge ..) (entry_modifyBridge ..)
  · exact view_of_facet (facet_modifyBridge hb _)

theorem view_modifyCfg (b : String) (nb : Conf.Bridge) :
    view bid pid (d.modifyBridge b (fun rb => { rb with cfg := nb })) = view bid pid d := by
  by_cases hb : b = bid
  · subst hb
    exact view_of_log (log_modifyBridge ..) (entry_modifyBridge ..)
  · exact view_of_facet (facet_modifyBridge hb _)

theorem view_setPort_self (h : entry bid pid d = some e) :
    view bid pid (d.setPort bid pid rp) = (some (some (shape rp)), (view bid pid d).2) := by
  unfold view
  rw [entry_setPort_self h, log_setPort]
  rfl

theorem view_setPort_ne (h : q ≠ pid) : view bid pid (d.setPort bid q rp) = view bid pid d :=
  view_of_log (log_setPort d) (entry_setPort_ne h d)

theorem entry_of_port (h : d.port bid pid = some rp) : entry bid pid d = some (some rp) := by
  rw [port_eq] at h
  cases he : entry bid pid d with
  | none =>
    rw [he] at h
    cases h
  | some e =>
    rw [he] at h
    exact congrArg some h

/-- A port in the place of one of its shape does not show. -/
theorem view_setPort_same {b q : String} (h : d.port b q = some rp) (hs : shape rp' = shape rp) :
    view bid pid (d.setPort b q rp') = view bid pid d := by
  by_cases hb : b = bid
  · subst hb
    by_cases hq : q = pid
    · subst hq
      have he := entry_of_port h
      rw [view_setPort_self he]
      unfold view
      rw [he, hs]
      rfl
    · exact view_setPort_ne hq
  · exact view_of_facet (facet_setPort hb)

theorem view_bridgeCmd : view bid pid (d.bridgeCmd b c) = view bid pid d := by
  unfold Daemon.bridgeCmd
  split
  · exact view_emit (fun _ => rfl)
  · rfl

theorem view_kickAll : view bid pid (d.kickAll b ids) = view bid pid d :=
  foldl_keep (view bid pid) _ _ _ (fun _ _ _ => view_bridgeCmd)

theorem view_announceDown : view bid pid (d.announceDown b p) = view bid pid d :=
  view_of_facet (facet_announceDown d)

theorem view_announceBridge : view bid pid (d.announceBridge env nb) = view bid pid d :=
  view_of_facet (facet_announceBridge d nb)

theorem view_publicNameChanged : view bid pid (d.publicNameChanged env nb) = view bid pid d := by
  unfold Daemon.publicNameChanged
  dsimp only
  have hm : view bid pid
    ((d.updateState env (fun s => s.clearAdjustedPublicName nb.id)).2.modifyBridge
      nb.id (fun rb => { rb with name := nb.publicName })) = view bid pid d := by
    rw [view_modifyName]
    exact view_of_facet (facet_updateState d _)
  split
  · exact (view_emit (fun _ => rfl)).trans hm
  · exact hm

/-- Live settings do not show: a port keeps the selector its slot was given. -/
theorem view_updatePort (d : Daemon Doc) (nb : Conf.Bridge) (p : Port) :
    view bid pid (d.updatePort env nb p) = view bid pid d := by
  unfold Daemon.updatePort
  split
  · rename_i listen maxClients allow announce listen' live follow _ hport
    dsimp only
    split
    · exact view_announceDown.trans (view_setPort_same hport rfl)
    · split
      · have hset :
          entry nb.id p.id (d.setPort nb.id p.id (.tcp listen' ⟨maxClients, allow⟩ false)) =
            some (some (.tcp listen' ⟨maxClients, allow⟩ false)) :=
          entry_setPort_self (entry_of_port hport)
        have hann : (((d.setPort nb.id p.id (.tcp listen' ⟨maxClients, allow⟩ false)).announceBridge
            env nb).withAnnouncer env).port nb.id p.id =
              some (.tcp listen' ⟨maxClients, allow⟩ false) :=
          (port_of_same (entry_of_facet (facet_announceBridge _ _))).trans (port_of_entry hset)
        refine (view_setPort_same hann ?_).trans ?_
        · rfl
        · exact view_announceBridge.trans (view_setPort_same hport rfl)
      · exact view_setPort_same hport rfl
  · rename_i hport
    exact view_setPort_same hport rfl
  · rfl

theorem slotsAt_announceDown (d : Daemon Doc) :
    slotsAt bid pid (d.announceDown b p).log = slotsAt bid pid d.log :=
  congrArg Prod.snd (view_announceDown (d := d))

theorem slotsAt_stopPort (h : d.port b q = some rp) : slotsAt bid pid (d.stopPort b q).log =
    slotStep bid pid (slotsAt bid pid d.log) (.stopPort b q rp) := by
  unfold Daemon.stopPort
  rw [h]
  dsimp only
  rw [Daemon.emit, slotsAt_append]
  congr 1
  split
  · rw [slotsAt_announceDown, log_modifyBridge]
  · rw [log_modifyBridge]
  · rw [log_modifyBridge]

theorem stopPort_none (h : d.port b q = none) : d.stopPort b q = d := by
  unfold Daemon.stopPort
  rw [h]

theorem view_stopPort_ne (h : q ≠ pid) (d : Daemon Doc) :
    view bid pid (d.stopPort bid q) = view bid pid d := by
  cases hp : d.port bid q with
  | none => rw [stopPort_none hp]
  | some rp =>
    refine Prod.ext (congrArg (Option.map (Option.map shape)) (entry_stopPort_ne h d)) ?_
    refine (slotsAt_stopPort hp).trans ?_
    cases rp <;> simp [slotStep, h, view]

def stopped (v : Option (Option Shape) × List AdapterSel) :
    Option (Option Shape) × List AdapterSel :=
  (v.1.map (fun _ => none), match v.1 with
    | some (some (.ble _)) => v.2.tail
    | _ => v.2)

theorem view_stopPort_self (d : Daemon Doc) :
    view bid pid (d.stopPort bid pid) = stopped (view bid pid d) := by
  have he : (view bid pid (d.stopPort bid pid)).1 = (stopped (view bid pid d)).1 := by
    simp only [view, stopped, entry_stopPort_self, Option.map_map]
    rfl
  refine Prod.ext he ?_
  cases hp : d.port bid pid with
  | none =>
    rw [stopPort_none hp]
    have hv := (view_port d bid pid).trans (congrArg (Option.map shape) hp)
    unfold stopped
    split
    · rename_i ha
      rw [ha] at hv
      cases hv
    · rfl
  | some rp =>
    refine (slotsAt_stopPort hp).trans ?_
    simp only [stopped, view, entry_of_port hp]
    cases rp <;> simp [slotStep, shape]

/-- What starting a port can make of its view: a port is not started where the
bridge is not running, BlueZ refuses, or its type does not serve apps. -/
inductive Begun (p : Port) (v : Option (Option Shape) × List AdapterSel) :
    Option (Option Shape) × List AdapterSel → Prop where
  | left : Begun p v v
  | tcp {listen : Listen} : v.1 ≠ none → p.kind = .tcpServer listen maxClients allow announce →
      Begun p v (some (some .tcp), v.2)
  | ble : v.1 ≠ none → p.kind = .bleServer adapter maxClients →
      Begun p v (some (some (.ble adapter)), v.2 ++ [adapter])

theorem view_startPort_self (hb : nb.id = bid) (hp : p.id = pid) (d : Daemon Doc) :
    Begun p (view bid pid d) (view bid pid (d.startPort env nb p)) := by
  subst hb hp
  unfold Daemon.startPort
  split
  · exact .left
  · rename_i hc
    have hr : ∃ e, entry nb.id p.id d = some e := by
      rw [← Option.isSome_iff_exists, ← contains_iff_entry]
      simpa using hc
    obtain ⟨e, he⟩ := hr
    have hv : (view nb.id p.id d).1 ≠ none := by simp [view, he]
    split
    · rename_i listen maxClients allow announce hk
      have hset : ∀ (d' : Daemon Doc) rp, facet nb.id d' = facet nb.id d → shape rp = .tcp →
          (∀ l, slotStep nb.id p.id l (.startPort nb.id p.id rp) = l) →
          view nb.id p.id ((d'.setPort nb.id p.id rp).emit (.startPort nb.id p.id rp)) =
            (some (some .tcp), (view nb.id p.id d).2) := by
        intro d' rp hf hs hl
        rw [view_emit hl, view_setPort_self ((entry_of_facet hf).trans he), view_of_facet hf, hs]
      dsimp only
      split
      · rw [hset _ _ (facet_startFollowing d _) rfl (fun _ => rfl)]
        exact .tcp hv hk
      · rw [hset d _ rfl rfl (fun _ => rfl)]
        exact .tcp hv hk
    · rename_i adapter maxClients hk
      split
      · have hset : view nb.id p.id ((d.setPort nb.id p.id (.ble adapter maxClients)).emit
            (.startPort nb.id p.id (.ble adapter maxClients))) =
            (some (some (.ble adapter)), (view nb.id p.id d).2 ++ [adapter]) := by
          refine Prod.ext ?_ ?_
          · exact congrArg (Option.map (Option.map shape)) (entry_setPort_self he)
          · refine (slotsAt_append _ _).trans ?_
            simp [slotStep, view, log_setPort]
        rw [hset]
        exact .ble hv hk
      · exact .left
    all_goals exact .left

theorem view_startPort_ne (h : p.id ≠ pid) (d : Daemon Doc) (nb : Conf.Bridge) :
    view bid pid (d.startPort env nb p) = view bid pid d := by
  by_cases hb : nb.id = bid
  · refine Prod.ext (congrArg (Option.map (Option.map shape)) (entry_startPort_ne hb h d)) ?_
    have hl : ∀ rp l, slotStep bid pid l (.startPort nb.id p.id rp) = l := by
      intro rp l
      cases rp <;> simp [slotStep, h]
    unfold Daemon.startPort
    split
    · rfl
    · split
      · dsimp only [view]
        rw [Daemon.emit, slotsAt_append, hl, log_setPort]
        split <;> rfl
      · split
        · dsimp only [view]
          rw [Daemon.emit, slotsAt_append, hl, log_setPort]
        · rfl
      all_goals rfl
  · exact view_of_facet (facet_startPort hb)

theorem view_touchPort (d : Daemon Doc) (nb : Conf.Bridge) (np : Port) :
    view bid pid (d.touchPort env b nb np pp) = view bid pid d := by
  unfold Daemon.touchPort
  split
  · split
    · exact view_bridgeCmd
    · rfl
  · exact view_updatePort d nb np
  · rfl

theorem view_applyPort (d : Daemon Doc) (nb : Conf.Bridge) :
    view bid pid (d.applyPort env b nb pp) = view bid pid d := by
  unfold Daemon.applyPort
  split
  · rfl
  · dsimp only
    split
    · exact view_kickAll.trans (view_touchPort d nb _)
    · exact view_touchPort d nb _

theorem view_sendSettings (d : Daemon Doc) (bp : BridgePlan) (nb : Conf.Bridge) :
    view bid pid (d.sendSettings bp nb) = view bid pid d := by
  unfold Daemon.sendSettings
  split
  · split
    · exact view_bridgeCmd
    · rfl
  · rfl

/-- Nothing of the second pass shows. -/
theorem view_applyLive (d : Daemon Doc) (new : Config) (bp : BridgePlan) :
    view bid pid (d.applyLive env new bp) = view bid pid d := by
  unfold Daemon.applyLive
  split
  · rfl
  · rename_i nb _
    dsimp only
    rw [view_modifyCfg]
    refine (foldl_keep (view bid pid) _ _ _ (fun d _ _ => view_applyPort d nb)).trans ?_
    rw [view_sendSettings]
    split
    · exact view_publicNameChanged
    · rfl

theorem view_adopt (d : Daemon Doc) (new : Config) : view bid pid (d.adopt new) = view bid pid d :=
  view_of_log rfl (entry_adopt d new)

theorem view_stopOne_self (d : Daemon Doc) : view bid pp.id (d.stopOne bid pp) =
    if pp.action = .stopped ∨ (pp.action = .restarted ∧ d.port bid pp.id ≠ some .tnc) then
      stopped (view bid pp.id d) else view bid pp.id d := by
  unfold Daemon.stopOne
  simp only [Bool.or_eq_true, Bool.and_eq_true, beq_iff_eq, bne_iff_ne]
  split
  · exact view_stopPort_self d
  · rfl

theorem view_stopOne_ne (h : pp.id ≠ pid) (d : Daemon Doc) :
    view bid pid (d.stopOne bid pp) = view bid pid d := by
  unfold Daemon.stopOne
  dsimp only
  split
  · exact view_stopPort_ne h d
  · rfl

theorem view_restartPort_self (env : Env Doc) (hb : nb.id = bid)
    (hf : nb.ports.find? (fun p => p.id == pp.id) = some np) (d : Daemon Doc) :
    if pp.action = .started ∨ (pp.action = .restarted ∧ d.port bid pp.id = none) then
      Begun np (view bid pp.id d) (view bid pp.id (d.restartPort env bid nb pp))
    else view bid pp.id (d.restartPort env bid nb pp) = view bid pp.id d := by
  have hid : np.id = pp.id := by simpa using List.find?_some hf
  unfold Daemon.restartPort
  simp only [Daemon.hasPort, Bool.or_eq_true, Bool.and_eq_true, beq_iff_eq, Bool.not_eq_true',
    Option.isSome_eq_false_iff, Option.isNone_iff_eq_none, hf]
  split
  · exact view_startPort_self hb hid d
  · rfl

theorem view_restartPort_ne (h : pp.id ≠ pid) (d : Daemon Doc) (nb : Conf.Bridge) :
    view bid pid (d.restartPort env b nb pp) = view bid pid d := by
  unfold Daemon.restartPort
  split
  · split
    · rename_i np hf
      have hid : np.id = pp.id := by simpa using List.find?_some hf
      exact view_startPort_ne (hid ▸ h) d nb
    · rfl
  · rfl

theorem port_tnc_iff (d : Daemon Doc) :
    d.port bid pid = some .tnc ↔ (view bid pid d).1.join = some .tnc := by
  rw [view_port]
  cases d.port bid pid with
  | none => simp
  | some rp => cases rp <;> simp [shape]

theorem port_none_iff (d : Daemon Doc) :
    d.port bid pid = none ↔ (view bid pid d).1.join = none := by
  rw [view_port, Option.map_eq_none_iff]

def halted (a : Action) (v : Option (Option Shape) × List AdapterSel) :
    Option (Option Shape) × List AdapterSel :=
  if a = .stopped ∨ (a = .restarted ∧ v.1.join ≠ some .tnc) then stopped v else v

/-- What the third pass can make of a port's view, given the new version of the
port if there is one. -/
def Resumed (a : Action) (np : Option Port) (v v' : Option (Option Shape) × List AdapterSel) :
    Prop :=
  match np with
  | some np =>
    if a = .started ∨ (a = .restarted ∧ v.1.join = none) then Begun np v v' else v' = v
  | none => v' = v

section passes
variable {bp : BridgePlan} {pp : PortPlan} {new : Config}

theorem view_applyStop (ha : bp.action = .updated) (hd : (bp.ports.map PortPlan.id).Nodup)
    (hp : pp ∈ bp.ports) (d : Daemon Doc) :
    view bp.id pp.id (d.applyStop bp) = halted pp.action (view bp.id pp.id d) := by
  unfold Daemon.applyStop
  rw [ha]
  obtain ⟨d₁, h₁, hf⟩ := foldl_single (view bp.id pp.id) (Daemon.stopOne bp.id) PortPlan.id
    bp.ports d hd hp (fun d _ _ hy => view_stopOne_ne hy d)
  rw [hf, view_stopOne_self, ← h₁]
  unfold halted
  simp only [ne_eq, port_tnc_iff]

theorem view_applyStop_ne (ha : bp.action = .updated) (hn : ∀ pp ∈ bp.ports, pp.id ≠ pid)
    (d : Daemon Doc) : view bp.id pid (d.applyStop bp) = view bp.id pid d := by
  unfold Daemon.applyStop
  rw [ha]
  exact foldl_keep (view bp.id pid) _ _ _ (fun d pp hp => view_stopOne_ne (hn pp hp) d)

theorem view_applyStart (ha : bp.action = .updated)
    (hb : new.bridges.find? (fun b => b.id == bp.id) = some nb)
    (hd : (bp.ports.map PortPlan.id).Nodup) (hp : pp ∈ bp.ports) (d : Daemon Doc) :
    Resumed pp.action (nb.ports.find? (fun p => p.id == pp.id)) (view bp.id pp.id d)
      (view bp.id pp.id (d.applyStart env new bp)) := by
  have hid : nb.id = bp.id := by simpa using List.find?_some hb
  unfold Daemon.applyStart
  rw [hb, ha]
  obtain ⟨d₁, h₁, hf⟩ := foldl_single (view bp.id pp.id) (Daemon.restartPort env bp.id nb)
    PortPlan.id bp.ports d hd hp (fun d _ _ hy => view_restartPort_ne hy d nb)
  unfold Resumed
  split
  · rename_i np hnp
    have hr := view_restartPort_self env hid hnp d₁
    rw [h₁, ← hf] at hr
    simp only [port_none_iff, h₁] at hr
    exact hr
  · rename_i hnp
    have hr : d₁.restartPort env bp.id nb pp = d₁ := by
      unfold Daemon.restartPort
      simp only [hnp, ite_self]
    exact hf.trans (by rw [hr, h₁])

theorem view_applyStart_ne (ha : bp.action = .updated) (hn : ∀ pp ∈ bp.ports, pp.id ≠ pid)
    (d : Daemon Doc) : view bp.id pid (d.applyStart env new bp) = view bp.id pid d := by
  unfold Daemon.applyStart
  split
  · rfl
  · rename_i nb _
    rw [ha]
    exact foldl_keep (view bp.id pid) _ _ _ (fun d pp hp => view_restartPort_ne (hn pp hp) d nb)

end passes

section compared
variable {old new : Config} {rt : Runtime} {net : IpNetLib}

theorem compareBridge_id (ob nb : Conf.Bridge) : (compareBridge net rt ob nb).id = nb.id := rfl

/-- What a reload makes of the view of one port of a bridge that runs before and
after. -/
theorem compared_view (ho : Valid old) (hn : Valid new) (hob : Enabled old ob)
    (hnb : Enabled new nb) (hid : ob.id = nb.id) (hp : pp ∈ comparePorts net rt ob nb)
    (d : Daemon Doc) :
    Resumed pp.action (nb.ports.find? (fun p => p.id == pp.id))
      (halted pp.action (view nb.id pp.id d))
      (view nb.id pp.id (d.apply env (plan net old new rt) new)) := by
  have hm : compareBridge net rt ob nb ∈ (plan net old new rt).bridges :=
    (mem_plan ho hn).mpr (.compared hob hnb hid)
  obtain ⟨d₁, d₂, d₃, h₁, h₂, h₃, hf⟩ := apply_focus env d new (plan_ids ho hn) hm
  rw [compareBridge_id] at h₁ h₂ h₃ hf
  have hd : ((comparePorts net rt ob nb).map PortPlan.id).Nodup :=
    comparePorts_ids (ho.port_ids hob.1) (hn.port_ids hnb.1)
  have hb : new.bridges.find? (fun b => b.id == nb.id) = some nb := hn.find_bridge hnb.1 rfl
  rw [Daemon.apply, view_adopt, view_of_facet hf]
  rcases compareBridge_action net rt ob nb with ha | ha
  · have hne : (compareBridge net rt ob nb).action ≠ .updated := by simp [ha]
    rw [if_neg hne] at h₃
    rw [applyStop_unchanged ha] at h₂
    rw [applyStart_unchanged ha, unchanged_ports hne hp, view_of_facet (h₃.trans (h₂.trans h₁))]
    unfold Resumed halted
    split <;> simp
  · rw [if_pos ha] at h₃
    have v₃ : view nb.id pp.id d₃ = halted pp.action (view nb.id pp.id d) := by
      refine (view_of_facet h₃).trans ((view_applyLive d₂ new _).trans ?_)
      refine (view_of_facet h₂).trans ((view_applyStop ha hd hp d₁).trans ?_)
      exact congrArg _ (view_of_facet h₁)
    rw [← v₃]
    exact view_applyStart ha hb hd hp d₃

/-- Nothing shows under an id that neither version of the bridge has. -/
theorem compared_view_ne (ho : Valid old) (hn : Valid new) (hob : Enabled old ob)
    (hnb : Enabled new nb) (hid : ob.id = nb.id)
    (hp : ∀ pp ∈ comparePorts net rt ob nb, pp.id ≠ pid) (d : Daemon Doc) :
    view nb.id pid (d.apply env (plan net old new rt) new) = view nb.id pid d := by
  have hm : compareBridge net rt ob nb ∈ (plan net old new rt).bridges :=
    (mem_plan ho hn).mpr (.compared hob hnb hid)
  obtain ⟨d₁, d₂, d₃, h₁, h₂, h₃, hf⟩ := apply_focus env d new (plan_ids ho hn) hm
  rw [compareBridge_id] at h₁ h₂ h₃ hf
  rw [Daemon.apply, view_adopt, view_of_facet hf]
  rcases compareBridge_action net rt ob nb with ha | ha
  · rw [if_neg (by simp [ha])] at h₃
    rw [applyStop_unchanged ha] at h₂
    rw [applyStart_unchanged ha]
    exact view_of_facet (h₃.trans (h₂.trans h₁))
  · rw [if_pos ha] at h₃
    refine (view_applyStart_ne ha hp d₃).trans ?_
    refine (view_of_facet h₃).trans ((view_applyLive d₂ new _).trans ?_)
    exact (view_of_facet h₂).trans ((view_applyStop_ne ha hp d₁).trans (view_of_facet h₁))

end compared

def sels : Option (Option Shape) → List AdapterSel
  | some (some (.ble adapter)) => [adapter]
  | _ => []

theorem stopped_sels (h : v.2 = sels v.1) : (stopped v).2 = [] := by
  obtain ⟨e, l⟩ := v
  have hl : l = sels e := h
  subst hl
  cases e with
  | none => rfl
  | some e =>
    cases e with
    | none => rfl
    | some sh => cases sh <;> rfl

theorem stopped_stopped (v : Option (Option Shape) × List AdapterSel) :
    stopped (stopped v) = stopped v := by
  obtain ⟨e, l⟩ := v
  cases e <;> rfl

theorem view_stopPorts (keys : List String) (d : Daemon Doc) :
    view bid pid (keys.foldl (fun d p => d.stopPort bid p) d) =
      if pid ∈ keys then stopped (view bid pid d) else view bid pid d := by
  induction keys generalizing d with
  | nil => simp
  | cons k keys ih =>
    rw [List.foldl_cons, ih]
    by_cases hk : k = pid
    · subst hk
      rw [view_stopPort_self, stopped_stopped]
      simp
    · rw [view_stopPort_ne hk]
      have hk' : pid ≠ k := fun h => hk h.symm
      simp [hk']

/-- Nothing is left of a bridge that is stopped, and no slot of it. -/
theorem view_stopBridge (d : Daemon Doc) (h : (view bid pid d).2 = sels (view bid pid d).1) :
    view bid pid (d.stopBridge bid) = (none, []) := by
  unfold Daemon.stopBridge
  split
  · rename_i hb
    have he : entry bid pid d = none := by rw [entry, hb]; rfl
    have hv : (view bid pid d).1 = none := by rw [view, he]; rfl
    exact Prod.ext hv (by rw [h, hv]; rfl)
  · rename_i rb hb
    have he : entry bid pid d = some rb.ports[pid]? := by rw [entry, hb]; rfl
    have hs : (view bid pid (rb.ports.keys.foldl (fun d p => d.stopPort bid p) d)).2 = [] := by
      rw [view_stopPorts]
      split
      · exact stopped_sels h
      · rename_i hk
        have hp : rb.ports[pid]? = none := by
          rw [Std.TreeMap.mem_keys] at hk
          exact Std.TreeMap.getElem?_eq_none hk
        rw [h, view, he, hp]
        rfl
    have hgone : ∀ d' : Daemon Doc, (view bid pid d').2 = [] →
        view bid pid ({ d' with bridges := d'.bridges.erase bid }.emit (.stopBridge bid)) =
          (none, []) := by
      intro d' hd'
      rw [view_emit (fun _ => rfl)]
      refine Prod.ext ?_ hd'
      simp only [view, entry, getElem?_erase_self, Option.map_none]
    dsimp only
    split
    · exact (view_emit (fun _ => rfl)).trans (hgone _ hs)
    · exact hgone _ hs

/-- A bridge just entered shows its TNC port only. -/
theorem view_entered (d : Daemon Doc) (b : Conf.Bridge) (name : String) (tnc : Port)
    (h : slotsAt b.id pid d.log = []) :
    view b.id pid { d with
      bridges := d.bridges.insert b.id ⟨b, name, .ofList [(tnc.id, RunningPort.tnc)]⟩ } =
    (some (if tnc.id = pid then some .tnc else none), []) := by
  refine Prod.ext ?_ h
  simp only [view, entry, getElem?_insert_self, Option.map_some, Std.TreeMap.ofList_singleton]
  split
  · rename_i he
    rw [← he, getElem?_insert_self]
    rfl
  · rename_i he
    rw [getElem?_insert_ne he, Std.TreeMap.getElem?_emptyc]
    rfl

/-- What shows under an id of a bridge that has been started, or could not be:
nothing, its TNC port, or an app port that has none of its slots from before. -/
inductive Fresh (b : Conf.Bridge) (pid : String) :
    Option (Option Shape) × List AdapterSel → Prop where
  | off : Fresh b pid (none, [])
  | none : Fresh b pid (some none, [])
  | tnc : p ∈ b.ports → p.id = pid → Fresh b pid (some (some .tnc), [])
  | app : p ∈ b.ports → p.id = pid → Begun p (some none, []) v → Fresh b pid v

theorem view_startPorts (hd : (b.ports.map Port.id).Nodup) (ht : tnc ∈ b.tncPorts)
    (h : view b.id pid d = (some (if tnc.id = pid then some .tnc else none), [])) :
    Fresh b pid (view b.id pid (b.appPorts.foldl (fun d p => d.startPort env b p) d)) := by
  obtain ⟨htm, htr⟩ := (mem_tncPorts b).mp ht
  by_cases hp : ∃ p ∈ b.appPorts, p.id = pid
  · obtain ⟨p, hpa, rfl⟩ := hp
    obtain ⟨hpm, hpr⟩ := (mem_appPorts b).mp hpa
    have hne : tnc.id ≠ p.id := by
      intro he
      rw [List.inj_on_of_nodup_map hd htm hpm he, hpr] at htr
      cases htr
    rw [if_neg hne] at h
    obtain ⟨d₁, h₁, hf⟩ := foldl_single (view b.id p.id) (fun d p => d.startPort env b p) Port.id
      b.appPorts d (hd.sublist (List.filter_sublist.map _)) hpa
      (fun d _ _ hy => view_startPort_ne hy d b)
    rw [hf]
    have hb : Begun p (view b.id p.id d₁) (view b.id p.id (d₁.startPort env b p)) :=
      view_startPort_self rfl rfl d₁
    rw [h₁, h] at hb
    exact .app hpm rfl hb
  · have hkeep : view b.id pid (b.appPorts.foldl (fun d p => d.startPort env b p) d) =
        view b.id pid d :=
      foldl_keep (view b.id pid) _ _ _
        (fun d p hpa => view_startPort_ne (fun he => hp ⟨p, hpa, he⟩) d b)
    rw [hkeep, h]
    split
    · rename_i he
      exact .tnc htm he
    · exact .none

theorem view_startBridge (hd : (b.ports.map Port.id).Nodup) (d : Daemon Doc)
    (h : view b.id pid d = (none, [])) : Fresh b pid (view b.id pid (d.startBridge env b)) := by
  have hoff : Fresh b pid (view b.id pid d) := h ▸ .off
  unfold Daemon.startBridge
  split
  · exact hoff
  · rename_i tnc ht
    split
    · dsimp only
      refine view_startPorts hd (List.mem_of_mem_head? ht) ?_
      have hname : slotsAt b.id pid (d.effectivePublicName env b.id b.publicName).2.log = [] := by
        have hv : view b.id pid (d.effectivePublicName env b.id b.publicName).2 = view b.id pid d :=
          view_of_facet (facet_effectivePublicName d)
        exact congrArg Prod.snd (hv.trans h)
      split
      · rw [view_announceBridge, view_emit (fun _ => rfl), view_entered _ _ _ _ hname]
      · rw [view_emit (fun _ => rfl), view_entered _ _ _ _ hname]
    · exact hoff
    · exact hoff

section whole
variable {old new : Config} {rt : Runtime} {net : IpNetLib}

theorem stopped_view (ho : Valid old) (hn : Valid new) (hob : Enabled old ob)
    (hno : ∀ nb, Enabled new nb → nb.id ≠ ob.id) (d : Daemon Doc)
    (h : (view ob.id pid d).2 = sels (view ob.id pid d).1) :
    view ob.id pid (d.apply env (plan net old new rt) new) = (none, []) := by
  have hm : Reconcile.stopBridge ob rt ∈ (plan net old new rt).bridges :=
    (mem_plan ho hn).mpr (.stopped hob hno)
  obtain ⟨d₁, d₂, d₃, h₁, h₂, h₃, hf⟩ := apply_focus env d new (plan_ids ho hn) hm
  have hid : (Reconcile.stopBridge ob rt).id = ob.id := rfl
  rw [hid] at h₁ h₂ h₃ hf
  rw [if_neg (by simp [Reconcile.stopBridge])] at h₃
  have hstart : d₃.applyStart env new (Reconcile.stopBridge ob rt) = d₃ := by
    unfold Daemon.applyStart
    split <;> rfl
  rw [Daemon.apply, view_adopt, view_of_facet hf, hstart, view_of_facet (h₃.trans h₂)]
  refine view_stopBridge d₁ ?_
  rw [view_of_facet h₁]
  exact h

theorem started_view (ho : Valid old) (hn : Valid new) (hnb : Enabled new nb)
    (hno : ∀ ob, Enabled old ob → ob.id ≠ nb.id) (d : Daemon Doc)
    (h : view nb.id pid d = (none, [])) :
    Fresh nb pid (view nb.id pid (d.apply env (plan net old new rt) new)) := by
  have hm : ⟨nb.id, .started, [], nb.ports.map startedPort, false⟩ ∈
      (plan net old new rt).bridges :=
    (mem_plan ho hn).mpr (.started hnb hno)
  obtain ⟨d₁, d₂, d₃, h₁, h₂, h₃, hf⟩ := apply_focus env d new (plan_ids ho hn) hm
  dsimp only at h₁ h₂ h₃ hf
  rw [if_neg (by simp)] at h₃
  rw [Daemon.apply, view_adopt, view_of_facet hf]
  unfold Daemon.applyStart
  rw [hn.find_bridge hnb.1 rfl]
  refine view_startBridge (hn.port_ids hnb.1) d₃ ?_
  rw [view_of_facet (h₃.trans (h₂.trans h₁))]
  exact h

theorem aside_view (ho : Valid old) (hn : Valid new) (hob : ∀ ob, Enabled old ob → ob.id ≠ bid)
    (hnb : ∀ nb, Enabled new nb → nb.id ≠ bid) :
    view bid pid (d.apply env (plan net old new rt) new) = view bid pid d := by
  rw [Daemon.apply, view_adopt]
  refine view_of_facet (apply_aside env d new (fun bp hm => ?_))
  cases (mem_plan ho hn).mp hm with
  | stopped h _ => exact hob _ h
  | compared _ h _ => exact hnb _ h
  | started h _ => exact hnb _ h

end whole

/-- A port runs only where the config has it, a `ble-server` port with the
selector the config has for it, and the slots are those of what runs. -/
structure Tracked (cfg : Config) (bid pid : String) (v : Option (Option Shape) × List AdapterSel) :
    Prop where
  slots : v.2 = sels v.1
  bridge : v.1 ≠ none → ∃ b, Enabled cfg b ∧ b.id = bid
  port : ∀ sh, v.1.join = some sh → ∃ b p, Enabled cfg b ∧ b.id = bid ∧ p ∈ b.ports ∧ p.id = pid ∧
    ∀ a, sh = .ble a → ∃ m, p.kind = .bleServer a m

theorem tracked_off (cfg : Config) : Tracked cfg bid pid (none, []) :=
  ⟨rfl, fun h => absurd rfl h, fun _ h => by cases h⟩

section
variable {cfg : Config} {b : Conf.Bridge} (hb : Enabled cfg b)
include hb

theorem tracked_idle : Tracked cfg b.id pid (some none, []) :=
  ⟨rfl, fun _ => ⟨b, hb, rfl⟩, fun _ h => by cases h⟩

theorem tracked_other (hp : p ∈ b.ports) (hs : ∀ a, sh ≠ .ble a) :
    Tracked cfg b.id p.id (some (some sh), []) := by
  refine ⟨?_, fun _ => ⟨b, hb, rfl⟩, fun sh' h => ?_⟩
  · cases sh with
    | ble a => exact absurd rfl (hs a)
    | _ => rfl
  · cases h
    exact ⟨b, p, hb, rfl, hp, rfl, fun a ha => absurd ha (hs a)⟩

theorem tracked_begun (hp : p ∈ b.ports) (h : Begun p (some none, []) v) :
    Tracked cfg b.id p.id v := by
  cases h with
  | left => exact tracked_idle hb
  | tcp _ _ => exact tracked_other hb hp (fun a h => by cases h)
  | @ble adapter maxClients _ hk =>
    refine ⟨rfl, fun _ => ⟨b, hb, rfl⟩, fun sh' h => ?_⟩
    cases h
    refine ⟨b, p, hb, rfl, hp, rfl, fun a ha => ⟨maxClients, ?_⟩⟩
    cases ha
    exact hk

theorem tracked_fresh (h : Fresh b pid v) : Tracked cfg b.id pid v := by
  cases h with
  | off => exact tracked_off cfg
  | none => exact tracked_idle hb
  | tnc hp he =>
    subst he
    exact tracked_other hb hp (fun a h => by cases h)
  | app hp he hbegun =>
    subst he
    exact tracked_begun hb hp hbegun

end

/-- A reload gives a running `ble-server` port that it leaves alone another
selector. -/
structure Respelled (adapters : List (String × Mac)) (d : Daemon Doc) (new : Config)
    (ob nb : Conf.Bridge) (op np : Port) (oa na : AdapterSel) : Prop where
  old : Enabled d.cfg ob ∧ op ∈ ob.ports ∧ ∃ m, op.kind = .bleServer oa m
  new : Enabled new nb ∧ np ∈ nb.ports ∧ ∃ m, np.kind = .bleServer na m
  same : ob.id = nb.id ∧ op.id = np.id ∧ op.role = np.role
  running : ∃ a m, d.port nb.id np.id = some (.ble a m)
  meant : ∃ mac, Daemon.adapterMac adapters oa = some mac ∧ Daemon.adapterMac adapters na = some mac
  spelled : oa ≠ na

theorem stopped_tracked (h : v.2 = sels v.1) :
    stopped v = (none, []) ∨ stopped v = (some none, []) := by
  have hl := stopped_sels h
  obtain ⟨e, l⟩ := v
  cases e with
  | none => exact .inl (Prod.ext rfl hl)
  | some e => exact .inr (Prod.ext rfl hl)

theorem empty_tracked (h : v.2 = sels v.1) (hj : v.1.join = none) :
    v = (none, []) ∨ v = (some none, []) := by
  obtain ⟨e, l⟩ := v
  have hl : l = sels e := h
  subst hl
  cases e with
  | none => exact .inl rfl
  | some e =>
    cases hj
    exact .inr rfl

theorem Tracked.port_of (ho : Valid cfg) (hb : Enabled cfg b) (h : Tracked cfg b.id pid v)
    (hs : v.1.join = some sh) :
    ∃ p ∈ b.ports, p.id = pid ∧ ∀ a, sh = .ble a → ∃ m, p.kind = .bleServer a m := by
  obtain ⟨b', p, hb', hid, hp, hpid, hk⟩ := h.port sh hs
  have he : b' = b := List.inj_on_of_nodup_map ho.bridge_ids hb'.1 hb.1 hid
  subst he
  exact ⟨p, hp, hpid, hk⟩

section compared
variable {old new : Config} {rt : Runtime} {net : IpNetLib} {ob nb : Conf.Bridge}

theorem tracked_started (hnb : Enabled new nb) (hnp : np ∈ nb.ports)
    (hv : v = (none, []) ∨ v = (some none, [])) (h : Begun np v v') :
    Tracked new nb.id np.id v' := by
  rcases hv with rfl | rfl
  · cases h with
    | left => exact tracked_off new
    | tcp hn _ => exact absurd rfl hn
    | ble hn _ => exact absurd rfl hn
  · exact tracked_begun hnb hnp h

/-- A port that is neither stopped nor restarted keeps its slot, and the selector
it has. -/
theorem tracked_kept (ho : Valid old) (hob : Enabled old ob) (hnb : Enabled new nb)
    (hid : ob.id = nb.id) (hop : op ∈ ob.ports) (hnp : np ∈ nb.ports) (hpid : op.id = np.id)
    (hl : sameLink rt op.kind np.kind = true)
    (hk : ∀ oa om na nm, v.1.join = some (.ble oa) → op.kind = .bleServer oa om →
      np.kind = .bleServer na nm → rt.sameAdapter oa na = true → oa = na)
    (h : Tracked old nb.id np.id v) : Tracked new nb.id np.id v := by
  refine ⟨h.slots, fun _ => ⟨nb, hnb, rfl⟩, fun sh hsh => ⟨nb, np, hnb, rfl, hnp, rfl, ?_⟩⟩
  rintro oa rfl
  rw [← hid] at h
  obtain ⟨p, hp, hpe, hkind⟩ := h.port_of ho hob hsh
  have he : p = op := List.inj_on_of_nodup_map (ho.port_ids hob.1) hp hop (hpe.trans hpid.symm)
  subst he
  obtain ⟨om, hokind⟩ := hkind oa rfl
  rw [hokind] at hl
  cases hnkind : np.kind with
  | bleServer na nm =>
    rw [hnkind] at hl
    exact ⟨nm, by rw [hk oa om na nm hsh hokind hnkind hl]⟩
  | _ =>
    rw [hnkind] at hl
    cases hl

theorem tracked_compared (ho : Valid old) (hn : Valid new) (hob : Enabled old ob)
    (hnb : Enabled new nb) (hid : ob.id = nb.id) (hp : pp ∈ comparePorts net rt ob nb)
    (hk : ∀ op ∈ ob.ports, ∀ np ∈ nb.ports, op.id = np.id → np.id = pp.id → op.role = np.role →
      ∀ oa om na nm, v.1.join = some (.ble oa) → op.kind = .bleServer oa om →
      np.kind = .bleServer na nm → rt.sameAdapter oa na = true → oa = na)
    (h : Tracked old nb.id pp.id v)
    (hv : Resumed pp.action (nb.ports.find? (fun p => p.id == pp.id)) (halted pp.action v) v') :
    Tracked new nb.id pp.id v' := by
  have hidle : ∀ {w}, (w = (none, []) ∨ w = (some none, [])) → Tracked new nb.id pp.id w := by
    rintro w (rfl | rfl)
    · exact tracked_off new
    · exact tracked_idle hnb
  rcases mem_comparePorts.mp hp with ⟨op, hop, hno, rfl⟩ | ⟨np, hnp, rfl⟩
  · have hf : nb.ports.find? (fun p => p.id == (stoppedPort rt ob.id op).id) = none :=
      List.find?_eq_none.mpr (fun p hp => by simpa [stoppedPort] using hno p hp)
    rw [hf] at hv
    have hv : v' = stopped v := hv
    rw [hv]
    exact hidle (stopped_tracked h.slots)
  · have hf : nb.ports.find? (fun p => p.id == (planPort net rt ob np).id) = some np :=
      hn.find_port hnb.1 hnp (planPort_id ob np)
    rw [hf] at hv
    rw [planPort_id] at h ⊢
    unfold planPort at hv
    cases hfo : ob.ports.find? (fun p => p.id == np.id) with
    | none =>
      rw [hfo] at hv
      have hv : Begun np v v' := hv
      refine tracked_started hnb hnp (empty_tracked h.slots ?_) hv
      by_contra hne
      obtain ⟨sh, hsh⟩ := Option.ne_none_iff_exists'.mp hne
      rw [← hid] at h
      obtain ⟨p, hp, hpe, _⟩ := h.port_of ho hob hsh
      exact List.find?_eq_none.mp hfo p hp (by simpa using hpe)
    | some op =>
      have hop : op ∈ ob.ports := List.mem_of_find?_eq_some hfo
      have hpid : op.id = np.id := by simpa using List.find?_some hfo
      rw [hfo] at hv
      dsimp only at hv
      by_cases hr : op.role ≠ np.role ∨ sameLink rt op.kind np.kind = false
      · rw [(comparePort_restarted net rt ob.id op np).mpr hr] at hv
        by_cases ht : v.1.join = some .tnc
        · have hv : v' = v := by simpa [Resumed, halted, ht] using hv
          refine hv ▸ ⟨h.slots, fun _ => ⟨nb, hnb, rfl⟩, fun sh hsh => ?_⟩
          rw [ht] at hsh
          cases hsh
          exact ⟨nb, np, hnb, rfl, hnp, rfl, fun a ha => by cases ha⟩
        · have hst := stopped_tracked h.slots
          have hj : (stopped v).1.join = none := by
            rcases hst with hst | hst <;> rw [hst] <;> rfl
          have hv : Begun np (stopped v) v' := by simpa [Resumed, halted, ht, hj] using hv
          exact tracked_started hnb hnp hst hv
      · rw [not_or, not_not, Bool.not_eq_false] at hr
        have hkept := comparePort_kept net ob.id hr.1 hr.2
        have hv : v' = v := by
          rw [hkept] at hv
          split at hv <;> exact hv
        rw [hv]
        refine tracked_kept ho hob hnb hid hop hnp hpid hr.2 (hk op hop np hnp hpid ?_ hr.1) h
        exact (planPort_id ob np).symm

end compared

theorem planFor_runtime (d : Daemon Doc) (snapshot : String → Option Snapshot) :
    (d.runtime env snapshot).adapterMac = some (Daemon.adapterMac env.adapters) := rfl

/-- A reload that respells no running port's selector keeps every port on the
selector the config has for it, and the slots with the ports. -/
theorem tracked_apply {new : Config} {snapshot : String → Option Snapshot} (ho : Valid d.cfg)
    (hn : Valid new) (h : ∀ bid pid, Tracked d.cfg bid pid (view bid pid d))
    (hk : ∀ ob nb op np oa na, ¬ Respelled env.adapters d new ob nb op np oa na)
    (bid pid : String) :
    Tracked new bid pid (view bid pid (d.apply env (d.planFor env snapshot new) new)) := by
  unfold Daemon.planFor
  have htr := h bid pid
  by_cases hob : ∃ ob, Enabled d.cfg ob ∧ ob.id = bid
  · obtain ⟨ob, hob, rfl⟩ := hob
    by_cases hnb : ∃ nb, Enabled new nb ∧ nb.id = ob.id
    · obtain ⟨nb, hnb, hid⟩ := hnb
      rw [← hid] at htr ⊢
      by_cases hp : ∃ pp ∈ comparePorts env.net (d.runtime env snapshot) ob nb, pp.id = pid
      · obtain ⟨pp, hp, rfl⟩ := hp
        refine tracked_compared ho hn hob hnb hid.symm hp ?_ htr
          (compared_view ho hn hob hnb hid.symm hp d)
        intro op hop np hnp hpid hpp hr oa om na nm hsh hok hnk hsame
        by_contra hne
        rcases sameAdapter_iff.mp hsame with he | ⟨f, mac, hf, ha, hb⟩
        · exact hne he
        · rw [planFor_runtime] at hf
          cases hf
          refine hk ob nb op np oa na ⟨⟨hob, hop, om, hok⟩, ⟨hnb, hnp, nm, hnk⟩,
            ⟨hid.symm, hpid, hr⟩, ?_, ⟨mac, ha, hb⟩, hne⟩
          rw [view_port, ← hpp] at hsh
          obtain ⟨rp, hrp, hs⟩ := Option.map_eq_some_iff.mp hsh
          cases rp with
          | ble a m => exact ⟨a, m, hrp⟩
          | _ => cases hs
      · rw [compared_view_ne ho hn hob hnb hid.symm (fun pp hm he => hp ⟨pp, hm, he⟩)]
        refine ⟨htr.slots, fun _ => ⟨nb, hnb, rfl⟩, fun sh hsh => ?_⟩
        rw [hid] at htr hsh
        obtain ⟨p, hpm, hpe, _⟩ := htr.port_of ho hob hsh
        refine absurd ?_ hp
        by_cases hnp : ∃ np ∈ nb.ports, np.id = p.id
        · obtain ⟨np, hnp, he⟩ := hnp
          exact ⟨_, mem_comparePorts.mpr (.inr ⟨np, hnp, rfl⟩),
            (planPort_id ob np).trans (he.trans hpe)⟩
        · exact ⟨_, mem_comparePorts.mpr (.inl ⟨p, hpm, fun q hq he => hnp ⟨q, hq, he⟩, rfl⟩), hpe⟩
    · rw [stopped_view ho hn hob (fun nb h he => hnb ⟨nb, h, he⟩) d htr.slots]
      exact tracked_off new
  · have hoff : (view bid pid d).1 = none := by
      by_contra hne
      exact hob (htr.bridge hne)
    have hoff : view bid pid d = (none, []) := Prod.ext hoff (by rw [htr.slots, hoff]; rfl)
    have hno : ∀ ob, Enabled d.cfg ob → ob.id ≠ bid := fun ob h he => hob ⟨ob, h, he⟩
    by_cases hnb : ∃ nb, Enabled new nb ∧ nb.id = bid
    · obtain ⟨nb, hnb, rfl⟩ := hnb
      exact tracked_fresh hnb (started_view ho hn hnb hno d hoff)
    · rw [aside_view ho hn hno (fun nb h he => hnb ⟨nb, h, he⟩), hoff]
      exact tracked_off new

end KissTncBridge.Proofs.BleSlots
