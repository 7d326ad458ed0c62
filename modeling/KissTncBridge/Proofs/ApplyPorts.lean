import KissTncBridge.Proofs.ApplyFrame
import KissTncBridge.Proofs.PlanFacts

namespace KissTncBridge.Proofs.ApplyPorts
open Conf Bridge Reconcile Supervisor Lib ApplyFrame PlanFacts ValidConfig

variable {Doc : Type} {env : Env Doc} {d d' : Daemon Doc} {bid pid : String}

def entry (bid pid : String) (d : Daemon Doc) : Option (Option RunningPort) :=
  (d.bridges[bid]?).map (fun rb => rb.ports[pid]?)

theorem entry_of_facet (h : facet bid d' = facet bid d) : entry bid pid d' = entry bid pid d := by
  have hs : d'.bridges[bid]? = d.bridges[bid]? := congrArg Prod.fst h
  simp only [entry, hs]

theorem port_eq (d : Daemon Doc) : d.port bid pid = (entry bid pid d).join := by
  unfold Daemon.port entry
  cases d.bridges[bid]? <;> rfl

theorem port_of_entry (h : entry bid pid d = some e) : d.port bid pid = e := by
  rw [port_eq, h]
  rfl

theorem port_of_same (h : entry bid pid d' = entry bid pid d) :
    d'.port bid pid = d.port bid pid := by
  rw [port_eq, port_eq, h]

theorem contains_iff_entry (d : Daemon Doc) (bid pid : String) :
    d.bridges.contains bid = true ↔ (entry bid pid d).isSome = true := by
  rw [Std.TreeMap.contains_eq_isSome_getElem?, entry, Option.isSome_map]

theorem contains_of_entry (h : entry bid pid d = some e) : d.bridges.contains bid = true := by
  rw [Std.TreeMap.contains_eq_isSome_getElem?]
  cases hb : d.bridges[bid]? with
  | none =>
    rw [entry, hb] at h
    cases h
  | some rb => rfl

theorem entry_emit (d : Daemon Doc) (e : Effect) : entry bid pid (d.emit e) = entry bid pid d := rfl

/-- Changing a bridge's ports by `f`. -/
theorem entry_modifyBridge (d : Daemon Doc) (f : RunningBridge → RunningBridge) :
    entry bid pid (d.modifyBridge bid f) =
      (d.bridges[bid]?).map (fun rb => (f rb).ports[pid]?) := by
  rw [entry, slot_modifyBridge_self, Option.map_map]
  rfl

theorem entry_setPort_self (h : entry bid pid d = some e) :
    entry bid pid (d.setPort bid pid rp) = some (some rp) := by
  rw [Daemon.setPort, entry_modifyBridge]
  cases hb : d.bridges[bid]? with
  | none =>
    rw [entry, hb] at h
    cases h
  | some rb => simp only [Option.map_some, getElem?_insert_self]

theorem entry_setPort_ne (h : q ≠ pid) (d : Daemon Doc) :
    entry bid pid (d.setPort bid q rp) = entry bid pid d := by
  rw [Daemon.setPort, entry_modifyBridge]
  simp only [entry, getElem?_insert_ne h]

theorem entry_bridgeCmd (d : Daemon Doc) : entry bid pid (d.bridgeCmd b c) = entry bid pid d := by
  unfold Daemon.bridgeCmd
  split <;> rfl

theorem entry_kickAll (d : Daemon Doc) : entry bid pid (d.kickAll b ids) = entry bid pid d :=
  foldl_keep (entry bid pid) _ _ _ (fun d _ _ => entry_bridgeCmd d)

theorem entry_stopPort_self (d : Daemon Doc) :
    entry bid pid (d.stopPort bid pid) = (entry bid pid d).map (fun _ => none) := by
  unfold Daemon.stopPort
  split
  · rename_i hp
    rw [port_eq] at hp
    cases he : entry bid pid d with
    | none => rfl
    | some e =>
      rw [he] at hp
      cases e with
      | none => rfl
      | some rp => cases hp
  · have hm : entry bid pid
      (d.modifyBridge bid (fun rb => { rb with ports := rb.ports.erase pid })) =
        (entry bid pid d).map (fun _ => none) := by
      rw [entry_modifyBridge]
      simp only [entry, getElem?_erase_self, Option.map_map, Function.comp_def]
    dsimp only
    rw [entry_emit]
    split
    · rw [entry_of_facet (facet_announceDown _), hm]
    · exact hm
    · exact hm

theorem entry_stopPort_ne (h : q ≠ pid) (d : Daemon Doc) :
    entry bid pid (d.stopPort bid q) = entry bid pid d := by
  unfold Daemon.stopPort
  split
  · rfl
  · have hm : entry bid pid (d.modifyBridge bid (fun rb => { rb with ports := rb.ports.erase q })) =
        entry bid pid d := by
      rw [entry_modifyBridge]
      simp only [entry, getElem?_erase_ne h]
    dsimp only
    rw [entry_emit]
    split
    · rw [entry_of_facet (facet_announceDown _), hm]
    · exact hm
    · exact hm

/-- What a port that can be started runs as when the announcer and BlueZ do
their part. -/
def serves (p : Port) : Option RunningPort :=
  match p.kind with
  | .tcpServer listen maxClients allow announce => some (.tcp listen ⟨maxClients, allow⟩ announce)
  | .bleServer adapter maxClients => some (.ble adapter maxClients)
  | _ => none

structure Starts (env : Env Doc) : Prop where
  announcer : env.startAnnouncer = true
  ble : ∀ bridge port, env.addBle bridge port = .ok ()

theorem entry_startPort_self (hs : Starts env) (hb : nb.id = bid) (h : entry bid p.id d = some e) :
    entry bid p.id (d.startPort env nb p) = some ((serves p).or e) := by
  subst hb
  have hc := contains_of_entry h
  simp only [Daemon.startPort, hc, Bool.not_true, Bool.false_eq_true, if_false, serves]
  cases hk : p.kind with
  | tcpServer listen maxClients allow announce =>
    dsimp only
    cases announce with
    | true =>
      simp only [if_true, Daemon.startFollowing, Daemon.withAnnouncer, hs.announcer, Bool.or_true,
        Bool.true_or, entry_emit]
      exact entry_setPort_self (e := e) h
    | false =>
      simp only [Bool.false_eq_true, if_false, entry_emit]
      exact entry_setPort_self h
  | bleServer adapter maxClients =>
    simp only [hs.ble, entry_emit]
    exact entry_setPort_self h
  | _ => exact h

theorem entry_startPort_ne (hb : nb.id = bid) (h : p.id ≠ pid) (d : Daemon Doc) :
    entry bid pid (d.startPort env nb p) = entry bid pid d := by
  subst hb
  unfold Daemon.startPort
  split
  · rfl
  · split
    · dsimp only
      rw [entry_emit]
      split
      · rw [entry_setPort_ne h]
        rfl
      · rw [entry_setPort_ne h]
    · split
      · rw [entry_emit, entry_setPort_ne h]
      · rfl
    all_goals rfl

def live (p : Port) (rp : RunningPort) : RunningPort :=
  match p.kind, rp with
  | .tcpServer _ maxClients allow announce, .tcp listen _ _ =>
    .tcp listen ⟨maxClients, allow⟩ announce
  | .bleServer _ maxClients, .ble adapter _ => .ble adapter maxClients
  | _, rp => rp

theorem entry_updatePort_self (hs : Starts env) (hb : nb.id = bid)
    (h : entry bid p.id d = some (some rp)) :
    entry bid p.id (d.updatePort env nb p) = some (some (live p rp)) := by
  subst hb
  unfold Daemon.updatePort live
  rw [port_of_entry h]
  cases hk : p.kind with
  | tcpServer l maxClients allow announce =>
    cases rp with
    | tcp listen lv follow =>
      dsimp only
      cases announce <;> cases follow <;> simp only [Bool.not_true, Bool.not_false, Bool.and_true,
        Bool.and_false, Bool.and_self, Bool.false_eq_true, if_true, if_false]
      · exact entry_setPort_self h
      · rw [entry_of_facet (facet_announceDown _), entry_setPort_self h]
      · have h1 : ∀ rp', entry nb.id p.id ((d.setPort nb.id p.id rp').announceBridge env nb) =
            some (some rp') := by
          intro rp'
          rw [entry_of_facet (facet_announceBridge _ _), entry_setPort_self h]
        simp only [Daemon.startFollowing, Daemon.withAnnouncer, hs.announcer, Bool.or_true,
          Bool.true_or]
        exact entry_setPort_self (e := some _) (h1 _)
      · exact entry_setPort_self h
    | _ => exact h
  | bleServer adapter maxClients =>
    cases rp with
    | ble adapter' _ => exact entry_setPort_self h
    | _ => exact h
  | _ => exact h

theorem entry_updatePort_ne (hb : nb.id = bid) (h : p.id ≠ pid) (d : Daemon Doc) :
    entry bid pid (d.updatePort env nb p) = entry bid pid d := by
  subst hb
  unfold Daemon.updatePort
  split
  · dsimp only
    split
    · rw [entry_of_facet (facet_announceDown _), entry_setPort_ne h]
    · split
      · rw [entry_setPort_ne h, entry_of_facet (facet_startFollowing _ _),
          entry_of_facet (facet_announceBridge _ _), entry_setPort_ne h]
      · exact entry_setPort_ne h d
  · exact entry_setPort_ne h d
  · rfl

/-- What the first pass leaves of an entry. -/
def afterStop (a : Action) (e : Option RunningPort) : Option RunningPort :=
  if a = .stopped ∨ (a = .restarted ∧ e ≠ some .tnc) then none else e

def afterLive (a : Action) (p : Port) (e : Option RunningPort) : Option RunningPort :=
  if a = .updated then e.map (live p) else e

def afterStart (a : Action) (p : Port) (e : Option RunningPort) : Option RunningPort :=
  if a = .started ∨ (a = .restarted ∧ e = none) then (serves p).or e else e

theorem entry_stopOne_self (d : Daemon Doc) :
    entry bid pp.id (d.stopOne bid pp) = (entry bid pp.id d).map (afterStop pp.action) := by
  unfold Daemon.stopOne afterStop
  simp only [port_eq, Bool.or_eq_true, Bool.and_eq_true, beq_iff_eq, bne_iff_ne]
  cases he : entry bid pp.id d with
  | none =>
    split
    · rw [entry_stopPort_self, he]
      rfl
    · exact he
  | some e =>
    simp only [Option.join_some, Option.map_some]
    split
    · rw [entry_stopPort_self, he]
      rfl
    · exact he

theorem entry_stopOne_ne (h : pp.id ≠ pid) (d : Daemon Doc) :
    entry bid pid (d.stopOne bid pp) = entry bid pid d := by
  unfold Daemon.stopOne
  dsimp only
  split
  · exact entry_stopPort_ne h d
  · rfl

theorem entry_applyPort_self (hs : Starts env) (hb : nb.id = bid)
    (hf : nb.ports.find? (fun p => p.id == pp.id) = some np) (h : entry bid pp.id d = some e) :
    entry bid pp.id (d.applyPort env bid nb pp) = some (afterLive pp.action np e) := by
  have hid : np.id = pp.id := by simpa using List.find?_some hf
  have ht : entry bid pp.id (d.touchPort env bid nb np pp) = some (afterLive pp.action np e) := by
    unfold Daemon.touchPort afterLive
    rw [port_of_entry h]
    cases ha : pp.action with
    | restarted =>
      simp only [reduceCtorEq, if_false]
      split
      · split
        · rw [entry_bridgeCmd, h]
        · exact h
      · rename_i hc
        cases hc
      · exact h
    | updated =>
      simp only [if_true]
      cases e with
      | none => exact h
      | some rp =>
        simp only [Option.map_some]
        rw [← hid] at h ⊢
        exact entry_updatePort_self hs hb h
    | _ => exact h
  unfold Daemon.applyPort
  rw [hf]
  dsimp only
  split
  · rw [entry_kickAll, ht]
  · exact ht

theorem entry_applyPort_ne (hb : nb.id = bid) (h : pp.id ≠ pid) (d : Daemon Doc) :
    entry bid pid (d.applyPort env bid nb pp) = entry bid pid d := by
  unfold Daemon.applyPort
  split
  · rfl
  · rename_i np hf
    have hid : np.id = pp.id := by simpa using List.find?_some hf
    have ht : entry bid pid (d.touchPort env bid nb np pp) = entry bid pid d := by
      unfold Daemon.touchPort
      split
      · split
        · exact entry_bridgeCmd d
        · rfl
      · exact entry_updatePort_ne hb (hid ▸ h) d
      · rfl
    dsimp only
    split
    · rw [entry_kickAll, ht]
    · exact ht

theorem entry_publicNameChanged (d : Daemon Doc) (nb : Conf.Bridge) :
    entry bid pid (d.publicNameChanged env nb) = entry bid pid d := by
  have hm : entry bid pid
    ((d.updateState env (fun s => s.clearAdjustedPublicName nb.id)).2.modifyBridge
      nb.id (fun rb => { rb with name := nb.publicName })) = entry bid pid d := by
    by_cases hb : nb.id = bid
    · subst hb
      rw [entry_modifyBridge]
      exact entry_of_facet (facet_updateState d _)
    · rw [entry_of_facet (facet_modifyBridge hb _), entry_of_facet (facet_updateState d _)]
  unfold Daemon.publicNameChanged
  dsimp only
  split
  · exact hm
  · exact hm

theorem entry_sendSettings (d : Daemon Doc) (nb : Conf.Bridge) :
    entry bid pid (d.sendSettings bp nb) = entry bid pid d := by
  unfold Daemon.sendSettings
  split
  · split
    · exact entry_bridgeCmd d
    · rfl
  · rfl

theorem entry_restartPort_self (hs : Starts env) (hb : nb.id = bid)
    (hf : nb.ports.find? (fun p => p.id == pp.id) = some np) (h : entry bid pp.id d = some e) :
    entry bid pp.id (d.restartPort env bid nb pp) = some (afterStart pp.action np e) := by
  have hid : np.id = pp.id := by simpa using List.find?_some hf
  unfold Daemon.restartPort afterStart
  simp only [Daemon.hasPort, port_of_entry h, Bool.or_eq_true, Bool.and_eq_true, beq_iff_eq,
    Bool.not_eq_true', Option.isSome_eq_false_iff, Option.isNone_iff_eq_none, hf]
  split
  · rw [← hid] at h ⊢
    exact entry_startPort_self hs hb h
  · exact h

theorem entry_restartPort_ne (hb : nb.id = bid) (h : pp.id ≠ pid) (d : Daemon Doc) :
    entry bid pid (d.restartPort env bid nb pp) = entry bid pid d := by
  unfold Daemon.restartPort
  split
  · split
    · rename_i np hf
      have hid : np.id = pp.id := by simpa using List.find?_some hf
      exact entry_startPort_ne hb (hid ▸ h) d
    · rfl
  · rfl

section passes
variable {bp : BridgePlan} {pp : PortPlan} {new : Config}

theorem entry_applyStop (ha : bp.action = .updated) (hd : (bp.ports.map PortPlan.id).Nodup)
    (hp : pp ∈ bp.ports) (d : Daemon Doc) :
    entry bp.id pp.id (d.applyStop bp) = (entry bp.id pp.id d).map (afterStop pp.action) := by
  unfold Daemon.applyStop
  rw [ha]
  obtain ⟨d₁, h₁, hf⟩ := foldl_single (entry bp.id pp.id) (Daemon.stopOne bp.id) PortPlan.id
    bp.ports d hd hp (fun d _ _ hy => entry_stopOne_ne hy d)
  rw [hf, entry_stopOne_self, h₁]

theorem entry_applyStop_ne (ha : bp.action = .updated) (hn : ∀ pp ∈ bp.ports, pp.id ≠ pid)
    (d : Daemon Doc) : entry bp.id pid (d.applyStop bp) = entry bp.id pid d := by
  unfold Daemon.applyStop
  rw [ha]
  exact foldl_keep (entry bp.id pid) _ _ _ (fun d pp hp => entry_stopOne_ne (hn pp hp) d)

/-- What runs as the TNC port after the first pass did before it. -/
theorem port_applyStop_tnc (ha : bp.action = .updated) (hd : (bp.ports.map PortPlan.id).Nodup)
    (h : (d.applyStop bp).port bp.id pid = some .tnc) : d.port bp.id pid = some .tnc := by
  rw [port_eq] at h ⊢
  by_cases hp : ∃ pp ∈ bp.ports, pp.id = pid
  · obtain ⟨pp, hp, rfl⟩ := hp
    rw [entry_applyStop ha hd hp] at h
    cases he : entry bp.id pp.id d with
    | none =>
      rw [he] at h
      cases h
    | some e =>
      rw [he] at h
      simp only [Option.map_some, Option.join_some, afterStop] at h
      split at h
      · cases h
      · exact h
  · rwa [entry_applyStop_ne ha (fun pp hm he => hp ⟨pp, hm, he⟩)] at h

theorem entry_applyLive (hs : Starts env)
    (hb : new.bridges.find? (fun b => b.id == bp.id) = some nb)
    (hd : (bp.ports.map PortPlan.id).Nodup) (hp : pp ∈ bp.ports)
    (h : entry bp.id pp.id d = some e) :
    entry bp.id pp.id (d.applyLive env new bp) =
      some (match nb.ports.find? (fun p => p.id == pp.id) with
        | some np => afterLive pp.action np e
        | none => e) := by
  have hid : nb.id = bp.id := by simpa using List.find?_some hb
  unfold Daemon.applyLive
  rw [hb]
  dsimp only
  rw [entry_modifyBridge]
  obtain ⟨d₁, h₁, hf⟩ :=
    foldl_single (entry bp.id pp.id) (Daemon.applyPort env bp.id nb) PortPlan.id
    bp.ports ((if bp.changes.contains "public_name" then d.publicNameChanged env nb
      else d).sendSettings
      bp nb) hd hp (fun d _ _ hy => entry_applyPort_ne hid hy d)
  have he : entry bp.id pp.id d₁ = some e := by
    rw [h₁, entry_sendSettings]
    split
    · rw [entry_publicNameChanged, h]
    · exact h
  refine hf.trans ?_
  split
  · rename_i np hnp
    exact entry_applyPort_self hs hid hnp he
  · rename_i hnp
    unfold Daemon.applyPort
    rw [hnp]
    exact he

theorem entry_applyLive_ne (hn : ∀ pp ∈ bp.ports, pp.id ≠ pid) (d : Daemon Doc) :
    entry bp.id pid (d.applyLive env new bp) = entry bp.id pid d := by
  unfold Daemon.applyLive
  split
  · rfl
  · rename_i nb hb
    have hid : nb.id = bp.id := by simpa using List.find?_some hb
    dsimp only
    rw [entry_modifyBridge]
    refine (foldl_keep (entry bp.id pid) (Daemon.applyPort env bp.id nb) bp.ports _
      (fun d pp hp => entry_applyPort_ne hid (hn pp hp) d)).trans ?_
    rw [entry_sendSettings]
    split
    · exact entry_publicNameChanged d nb
    · rfl

theorem entry_applyStart (hs : Starts env) (ha : bp.action = .updated)
    (hb : new.bridges.find? (fun b => b.id == bp.id) = some nb)
    (hd : (bp.ports.map PortPlan.id).Nodup) (hp : pp ∈ bp.ports)
    (h : entry bp.id pp.id d = some e) :
    entry bp.id pp.id (d.applyStart env new bp) =
      some (match nb.ports.find? (fun p => p.id == pp.id) with
        | some np => afterStart pp.action np e
        | none => e) := by
  have hid : nb.id = bp.id := by simpa using List.find?_some hb
  unfold Daemon.applyStart
  rw [hb, ha]
  obtain ⟨d₁, h₁, hf⟩ := foldl_single (entry bp.id pp.id) (Daemon.restartPort env bp.id nb)
    PortPlan.id bp.ports d hd hp (fun d _ _ hy => entry_restartPort_ne hid hy d)
  refine hf.trans ?_
  split
  · rename_i np hnp
    exact entry_restartPort_self hs hid hnp (h₁.trans h)
  · rename_i hnp
    unfold Daemon.restartPort
    simp only [hnp, ite_self]
    exact h₁.trans h

theorem entry_applyStart_ne (ha : bp.action = .updated) (hn : ∀ pp ∈ bp.ports, pp.id ≠ pid)
    (d : Daemon Doc) : entry bp.id pid (d.applyStart env new bp) = entry bp.id pid d := by
  unfold Daemon.applyStart
  split
  · rfl
  · rename_i nb hb
    have hid : nb.id = bp.id := by simpa using List.find?_some hb
    rw [ha]
    exact foldl_keep (entry bp.id pid) _ _ _ (fun d pp hp => entry_restartPort_ne hid (hn pp hp) d)

end passes

theorem entry_adopt (d : Daemon Doc) (new : Config) :
    entry bid pid (d.adopt new) = entry bid pid d := by
  simp only [entry, Daemon.adopt, Std.TreeMap.getElem?_map, Option.map_map]
  cases d.bridges[bid]? with
  | none => rfl
  | some rb =>
    simp only [Option.map_some, Function.comp_apply]
    split <;> rfl

/-- What the three passes make of the entry of a port, given the new version
of the port if there is one. -/
def afterApply (a : Action) (np : Option Port) (e : Option RunningPort) : Option RunningPort :=
  match np with
  | some np => afterStart a np (afterLive a np (afterStop a e))
  | none => afterStop a e

section compared
variable {old new : Config} {rt : Runtime} {net : IpNetLib}

/-- Where a comparison finds nothing to do there is nothing to do to a port. -/
theorem unchanged_ports (h : (compareBridge net rt ob nb).action ≠ .updated)
    (hp : pp ∈ comparePorts net rt ob nb) : pp.action = .unchanged := by
  by_contra hne
  refine h (if_neg ?_)
  rw [Bool.and_eq_true, List.all_eq_true]
  exact fun hu => hne (by simpa using hu.2 pp hp)

theorem compareBridge_action (net : IpNetLib) (rt : Runtime) (ob nb : Conf.Bridge) :
    (compareBridge net rt ob nb).action = .unchanged ∨
      (compareBridge net rt ob nb).action = .updated := by
  unfold compareBridge
  dsimp only
  generalize (_ && _ : Bool) = c
  cases c
  · exact .inr rfl
  · exact .inl rfl

theorem applyStop_unchanged (ha : bp.action = .unchanged) (d : Daemon Doc) :
    d.applyStop bp = d := by
  unfold Daemon.applyStop
  rw [ha]

theorem applyStart_unchanged (ha : bp.action = .unchanged) (d : Daemon Doc) :
    d.applyStart env new bp = d := by
  unfold Daemon.applyStart
  split
  · rfl
  · rw [ha]

/-- What a reload makes of one port of a bridge that runs before and after. -/
theorem compared_entry (hs : Starts env) (ho : Valid old) (hn : Valid new) (hob : Enabled old ob)
    (hnb : Enabled new nb) (hid : ob.id = nb.id) (hp : pp ∈ comparePorts net rt ob nb)
    (h : entry nb.id pp.id d = some e) :
    entry nb.id pp.id (d.apply env (plan net old new rt) new) =
      some (afterApply pp.action (nb.ports.find? (fun p => p.id == pp.id)) e) := by
  have hm : compareBridge net rt ob nb ∈ (plan net old new rt).bridges :=
    (mem_plan ho hn).mpr (.compared hob hnb hid)
  obtain ⟨d₁, d₂, d₃, h₁, h₂, h₃, hf⟩ := apply_focus env d new (plan_ids ho hn) hm
  have hd : ((comparePorts net rt ob nb).map PortPlan.id).Nodup :=
    comparePorts_ids (ho.port_ids hob.1) (hn.port_ids hnb.1)
  have hb : new.bridges.find? (fun b => b.id == nb.id) = some nb := hn.find_bridge hnb.1 rfl
  rw [Daemon.apply, entry_adopt]
  refine (entry_of_facet hf).trans ?_
  have e₁ : entry nb.id pp.id d₁ = some e := (entry_of_facet h₁).trans h
  rcases compareBridge_action net rt ob nb with ha | ha
  · have hne : (compareBridge net rt ob nb).action ≠ .updated := by simp [ha]
    rw [if_neg hne] at h₃
    rw [applyStop_unchanged ha] at h₂
    rw [applyStart_unchanged ha, unchanged_ports hne hp]
    refine (entry_of_facet (h₃.trans h₂)).trans (e₁.trans ?_)
    unfold afterApply
    split <;> simp [afterStart, afterLive, afterStop]
  · rw [if_pos ha] at h₃
    have e₂ := (entry_of_facet h₂).trans (entry_applyStop ha hd hp d₁)
    rw [show (compareBridge net rt ob nb).id = nb.id from rfl, e₁, Option.map_some] at e₂
    have e₃ := (entry_of_facet h₃).trans (entry_applyLive hs hb hd hp e₂)
    refine (entry_applyStart hs ha hb hd hp e₃).trans ?_
    unfold afterApply
    split <;> rfl

/-- Nothing happens under an id that neither version of the bridge has. -/
theorem compared_entry_ne (ho : Valid old) (hn : Valid new) (hob : Enabled old ob)
    (hnb : Enabled new nb) (hid : ob.id = nb.id)
    (hp : ∀ pp ∈ comparePorts net rt ob nb, pp.id ≠ pid) :
    entry nb.id pid (d.apply env (plan net old new rt) new) = entry nb.id pid d := by
  have hm : compareBridge net rt ob nb ∈ (plan net old new rt).bridges :=
    (mem_plan ho hn).mpr (.compared hob hnb hid)
  obtain ⟨d₁, d₂, d₃, h₁, h₂, h₃, hf⟩ := apply_focus env d new (plan_ids ho hn) hm
  rw [Daemon.apply, entry_adopt]
  refine (entry_of_facet hf).trans ?_
  rcases compareBridge_action net rt ob nb with ha | ha
  · rw [if_neg (by simp [ha])] at h₃
    rw [applyStop_unchanged ha] at h₂
    rw [applyStart_unchanged ha]
    exact entry_of_facet (h₃.trans (h₂.trans h₁))
  · rw [if_pos ha] at h₃
    refine (entry_applyStart_ne ha hp d₃).trans ?_
    refine (entry_of_facet h₃).trans ((entry_applyLive_ne hp d₂).trans ?_)
    exact (entry_of_facet h₂).trans ((entry_applyStop_ne ha hp d₁).trans (entry_of_facet h₁))

end compared

theorem entry_stopBridge (d : Daemon Doc) : entry bid pid (d.stopBridge bid) = none := by
  unfold Daemon.stopBridge
  split
  · rename_i hb
    rw [entry, hb]
    rfl
  · have he : ∀ d' : Daemon Doc,
        entry bid pid { d' with bridges := d'.bridges.erase bid } = none := by
      intro d'
      simp only [entry, getElem?_erase_self, Option.map_none]
    dsimp only
    split
    · exact he _
    · exact he _

def Startable (env : Env Doc) (b : Conf.Bridge) : Prop :=
  ∃ tnc c, b.tncPorts.head? = some tnc ∧ Daemon.connectorFor env b tnc = .ok c

def startedEntry (b : Conf.Bridge) (pid : String) : Option RunningPort :=
  match b.ports.find? (fun p => p.id == pid) with
  | some p => if p.role = .tnc then some .tnc else serves p
  | none => none

theorem settingsFor_of_connector (ht : b.tncPorts.head? = some tnc)
    (hc : Daemon.connectorFor env b tnc = .ok c) : ∃ s, settingsFor b = some s := by
  unfold Daemon.connectorFor at hc
  simp only [settingsFor, ht, Option.bind_eq_bind, Option.bind_some, Port.connectPolicy]
  cases hk : tnc.kind with
  | tcpServer listen maxClients allow announce =>
    rw [hk] at hc
    cases hc
  | bleServer adapter maxClients =>
    rw [hk] at hc
    cases hc
  | _ => exact ⟨_, rfl⟩

theorem startedEntry_tnc (h : Valid cfg) (hb : b ∈ cfg.bridges) (ht : b.tncPorts = [tnc])
    (pid : String) : startedEntry b pid = some .tnc ↔ pid = tnc.id := by
  obtain ⟨htm, htr⟩ := (mem_tncPorts b).mp (ht ▸ List.mem_singleton_self tnc)
  unfold startedEntry
  constructor
  · intro he
    split at he
    · rename_i p hf
      split at he
      · rename_i hr
        have hp : p ∈ b.tncPorts := (mem_tncPorts b).mpr ⟨List.mem_of_find?_eq_some hf, hr⟩
        rw [ht, List.mem_singleton] at hp
        have hid : p.id = pid := by simpa using List.find?_some hf
        rw [← hid, hp]
      · unfold serves at he
        split at he <;> cases he
    · cases he
  · rintro rfl
    rw [h.find_port hb htm rfl]
    simp only [htr, if_true]

/-- Starting the app ports of a bridge that so far runs its TNC port only. -/
theorem entry_startPorts (hs : Starts env) (hd : (b.ports.map Port.id).Nodup)
    (ht : b.tncPorts = [tnc])
    (h : ∀ q, entry b.id q d = some (if tnc.id = q then some .tnc else none)) :
    entry b.id pid (b.appPorts.foldl (fun d p => d.startPort env b p) d) =
      some (startedEntry b pid) := by
  have htm : tnc ∈ b.ports ∧ tnc.role = .tnc :=
    (mem_tncPorts b).mp (ht ▸ List.mem_singleton_self tnc)
  have hinj : ∀ p ∈ b.ports, ∀ q ∈ b.ports, p.id = q.id → p = q :=
    fun p hp q hq he => List.inj_on_of_nodup_map hd hp hq he
  have hkeep : (∀ p ∈ b.appPorts, p.id ≠ pid) →
      entry b.id pid (b.appPorts.foldl (fun d p => d.startPort env b p) d) = entry b.id pid d :=
    fun hne => foldl_keep (entry b.id pid) _ _ _ (fun d p hp => entry_startPort_ne rfl (hne p hp) d)
  unfold startedEntry
  split
  · rename_i p hf
    have hpm : p ∈ b.ports := List.mem_of_find?_eq_some hf
    have hpid : p.id = pid := by simpa using List.find?_some hf
    split
    · rename_i hr
      have hpt : p ∈ b.tncPorts := (mem_tncPorts b).mpr ⟨hpm, hr⟩
      rw [ht, List.mem_singleton] at hpt
      rw [hkeep, h, if_pos (hpt ▸ hpid)]
      intro q hq he
      obtain ⟨hqm, hqr⟩ := (mem_appPorts b).mp hq
      rw [hinj q hqm p hpm (he.trans hpid.symm), hr] at hqr
      cases hqr
    · rename_i hr
      have hpa : p ∈ b.appPorts := (mem_appPorts b).mpr ⟨hpm, by cases hp : p.role <;> simp_all⟩
      have hne : tnc.id ≠ pid := by
        intro he
        rw [hinj tnc htm.1 p hpm (he.trans hpid.symm)] at htm
        exact hr htm.2
      obtain ⟨d₁, h₁, hfold⟩ :=
        foldl_single (entry b.id p.id) (fun d p => d.startPort env b p) Port.id
        b.appPorts d (hd.sublist (List.filter_sublist.map _)) hpa
        (fun d _ _ hy => entry_startPort_ne rfl hy d)
      rw [← hpid, hfold, entry_startPort_self hs rfl (h₁.trans (h p.id)),
        if_neg (hpid ▸ hne), Option.or_none]
  · rename_i hf
    have hno : ∀ p ∈ b.ports, p.id ≠ pid := by simpa using hf
    rw [hkeep (fun p hp => hno p ((mem_appPorts b).mp hp).1), h, if_neg (hno tnc htm.1)]

/-- The ports of a bridge that has just been started. -/
theorem entry_startBridge (hs : Starts env) (hd : (b.ports.map Port.id).Nodup)
    (ht : b.tncPorts = [tnc]) (hc : Daemon.connectorFor env b tnc = .ok c) (d : Daemon Doc) :
    entry b.id pid (d.startBridge env b) = some (startedEntry b pid) := by
  have hh : b.tncPorts.head? = some tnc := by rw [ht]; rfl
  obtain ⟨s, hset⟩ := settingsFor_of_connector hh hc
  simp only [Daemon.startBridge, hh, hc, hset]
  refine entry_startPorts hs hd ht (fun q => ?_)
  have h0 : ∀ (d' : Daemon Doc) rb, entry b.id q { d' with bridges := d'.bridges.insert b.id rb } =
      some rb.ports[q]? := by
    intro d' rb
    simp only [entry, getElem?_insert_self, Option.map_some]
  have hp : (Std.TreeMap.ofList [(tnc.id, RunningPort.tnc)])[q]? =
      if tnc.id = q then some RunningPort.tnc else none := by
    rw [Std.TreeMap.ofList_singleton]
    split
    · rename_i he
      rw [← he, getElem?_insert_self]
    · rename_i he
      rw [getElem?_insert_ne he, Std.TreeMap.getElem?_emptyc]
  split
  · rw [entry_of_facet (facet_announceBridge _ _), entry_emit, h0, hp]
  · rw [entry_emit, h0, hp]

section whole
variable {old new : Config} {rt : Runtime} {net : IpNetLib}

/-- A bridge that the new config doesn't run is gone after the reload. -/
theorem stopped_entry (ho : Valid old) (hn : Valid new) (hob : Enabled old ob)
    (hno : ∀ nb, Enabled new nb → nb.id ≠ ob.id) :
    entry ob.id pid (d.apply env (plan net old new rt) new) = none := by
  have hm : stopBridge ob rt ∈ (plan net old new rt).bridges :=
    (mem_plan ho hn).mpr (.stopped hob hno)
  obtain ⟨d₁, d₂, d₃, h₁, h₂, h₃, hf⟩ := apply_focus env d new (plan_ids ho hn) hm
  rw [if_neg (by simp [stopBridge])] at h₃
  have hstart : d₃.applyStart env new (stopBridge ob rt) = d₃ := by
    unfold Daemon.applyStart
    split
    · rfl
    · rfl
  rw [Daemon.apply, entry_adopt]
  refine (entry_of_facet hf).trans ?_
  rw [hstart]
  exact (entry_of_facet (h₃.trans h₂)).trans (entry_stopBridge d₁)

/-- A bridge that only the new config runs is started. -/
theorem started_entry (hs : Starts env) (ho : Valid old) (hn : Valid new) (hnb : Enabled new nb)
    (hno : ∀ ob, Enabled old ob → ob.id ≠ nb.id) (hst : Startable env nb) :
    entry nb.id pid (d.apply env (plan net old new rt) new) = some (startedEntry nb pid) := by
  have hm : ⟨nb.id, .started, [], nb.ports.map startedPort, false⟩ ∈
      (plan net old new rt).bridges :=
    (mem_plan ho hn).mpr (.started hnb hno)
  obtain ⟨d₁, d₂, d₃, h₁, h₂, h₃, hf⟩ := apply_focus env d new (plan_ids ho hn) hm
  obtain ⟨tnc, c, ht, hc⟩ := hst
  obtain ⟨tnc', ht'⟩ := hn.tnc_port hnb.1 hnb.2
  rw [ht'] at ht
  cases ht
  rw [Daemon.apply, entry_adopt]
  refine (entry_of_facet hf).trans ?_
  unfold Daemon.applyStart
  rw [hn.find_bridge hnb.1 rfl]
  exact entry_startBridge hs (hn.port_ids hnb.1) ht' hc d₃

/-- A bridge neither config runs is left alone. -/
theorem aside_entry (ho : Valid old) (hn : Valid new) (hob : ∀ ob, Enabled old ob → ob.id ≠ bid)
    (hnb : ∀ nb, Enabled new nb → nb.id ≠ bid) :
    entry bid pid (d.apply env (plan net old new rt) new) = entry bid pid d := by
  rw [Daemon.apply, entry_adopt]
  refine entry_of_facet (apply_aside env d new (fun bp hm => ?_))
  cases (mem_plan ho hn).mp hm with
  | stopped h _ => exact hob _ h
  | compared _ h _ => exact hnb _ h
  | started h _ => exact hnb _ h

end whole

def sampleEnv : Env String where
  net :=
    { parse := fun _ => none
      contains := fun n ip => match n.addr, ip with
        | .v4 a, .v4 b => a >>> (32 - n.bits) == b >>> (32 - n.bits)
        | .v6 a, .v6 b => a >>> (128 - n.bits) == b >>> (128 - n.bits)
        | _, _ => false }
  toml :=
    { parseFile := fun _ => .ok {}
      parseState := fun _ => .ok .empty
      stateText := fun _ => .ok ""
      parseDoc := .ok
      docText := fun doc => doc
      insertEnabled := fun _ _ _ => none }
  host := ⟨fun _ => true, fun _ => true⟩
  adapters := []
  btSession := fun _ _ => .ok ()
  addBle := fun _ _ => .ok ()
  startAnnouncer := true
  statics := ⟨"/etc/kiss-tnc-bridge/kiss-tnc-bridge.toml", .ok "", "/etc/kiss-tnc-bridge/conf.d",
    none, false⟩
  stateDir := "/var/lib/kiss-tnc-bridge"
  readDynamic := .ok ()
  readState := .ok ()
  writeDynamic := .ok ()
  writeState := .ok ()

theorem sampleEnv_starts : Starts sampleEnv := ⟨rfl, fun _ _ => rfl⟩

def sampleRadio : Port := ⟨"radio", .tnc, .tcpClient "tnc.local" 8001 .onDemand 0⟩

def sampleListen : Listen := .addr (.v4 0x7f000001#32 8001)

def sampleApps : Port := ⟨"apps", .app, .tcpServer sampleListen none [] false⟩

def sampleBridge (ports : List Port) : Conf.Bridge :=
  ⟨"ktbr0", "Shack", "Shack", true, none, .drop, ports, .dynamic⟩

def sampleConfig (bridges : List Conf.Bridge) : Config :=
  ⟨⟨"info", .default⟩, ⟨"kiss-tnc-bridge"⟩, [], [], bridges⟩

theorem enabled_sample (h : Enabled (sampleConfig [b]) b') : b' = b := List.mem_singleton.mp h.1

def idleDaemon : Daemon String where
  cfg := sampleConfig []
  sources := ⟨[], none, .empty, false, []⟩
  store := ⟨"/var/lib/kiss-tnc-bridge/dynamic.toml", "", none⟩
  bridges := ∅
  state := .empty
  disk := ⟨none, none⟩
  announcer := false
  bluezErrors := []
  log := []

def sampleDaemon (cfg : Config) : Daemon String :=
  { idleDaemon.apply sampleEnv (plan sampleEnv.net (sampleConfig []) cfg ⟨∅, none⟩) cfg with
    log := [] }

theorem sample_port (hv : Valid (sampleConfig [b])) (he : b.enabled = true)
    (hst : Startable sampleEnv b) (pid : String) :
    (sampleDaemon (sampleConfig [b])).port b.id pid = startedEntry b pid :=
  port_of_entry (started_entry sampleEnv_starts (by decide) hv ⟨List.mem_singleton_self b, he⟩
    (fun _ hob => by cases hob.1) hst)

end KissTncBridge.Proofs.ApplyPorts
