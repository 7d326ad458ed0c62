import KissTncBridge.Proofs.ApplyPorts

namespace KissTncBridge.Proofs.ApplyEffects
open Conf Bridge Reconcile Supervisor Lib ApplyFrame PlanFacts ValidConfig ApplyPorts

variable {Doc : Type} {env : Env Doc} {d d' d'' : Daemon Doc} {bid pid : String}
variable {P Q : Effect → Prop}

def effects (env : Env Doc) (d : Daemon Doc) (plan : Plan) (new : Config) : List Effect :=
  ({ d with log := [] }.apply env plan new).log

def Emits (P : Effect → Prop) (d d' : Daemon Doc) : Prop :=
  ∃ es, d'.log = d.log ++ es ∧ ∀ e ∈ es, P e

theorem emits_of_log (h : d'.log = d.log) : Emits P d d' :=
  ⟨[], by rw [h, List.append_nil], fun _ he => by cases he⟩

theorem Emits.refl (d : Daemon Doc) : Emits P d d := emits_of_log rfl

theorem Emits.trans (h : Emits P d d') (h' : Emits P d' d'') : Emits P d d'' := by
  obtain ⟨es, he, hp⟩ := h
  obtain ⟨fs, hf, hq⟩ := h'
  refine ⟨es ++ fs, by rw [hf, he, List.append_assoc], fun e hm => ?_⟩
  exact (List.mem_append.mp hm).elim (hp e) (hq e)

theorem Emits.mem (h : Emits P d d') (hm : e ∈ d'.log) : e ∈ d.log ∨ P e := by
  obtain ⟨es, he, hp⟩ := h
  rw [he] at hm
  exact (List.mem_append.mp hm).imp_right (hp e)

theorem Emits.grows (h : Emits P d d') (hm : e ∈ d.log) : e ∈ d'.log := by
  obtain ⟨es, he, _⟩ := h
  rw [he]
  exact List.mem_append_left es hm

theorem emits_emit (h : P e) : Emits P d (d.emit e) :=
  ⟨[e], rfl, fun _ hf => List.mem_singleton.mp hf ▸ h⟩

theorem emits_bridgeCmd (h : P (.cmd bid c)) : Emits P d (d.bridgeCmd bid c) := by
  unfold Daemon.bridgeCmd
  split
  · exact emits_emit h
  · exact .refl d

theorem log_setPort (d : Daemon Doc) : (d.setPort bid pid rp).log = d.log := log_modifyBridge ..

theorem log_updateState (d : Daemon Doc) (f : State → State) :
    (d.updateState env f).2.log = d.log := by
  simp only [Daemon.updateState]
  split
  · rfl
  · split
    · rfl
    · split <;> rfl

/-- What `P` lets through of one bridge in any case: talking to the announcer
about it, and starting things. -/
structure Lenient (bid : String) (P : Effect → Prop) : Prop where
  announce : ∀ c, c.about = bid → P (.announce c)
  announceLater : ∀ n, P (.announceLater bid n)
  startPort : ∀ p rp, P (.startPort bid p rp)
  startBridge : ∀ c s, P (.startBridge bid c s)

theorem all_lenient (bid : String) : Lenient bid (fun _ => True) :=
  ⟨fun _ _ => trivial, fun _ => trivial, fun _ _ => trivial, fun _ _ => trivial⟩

theorem emits_announceDown (hp : Lenient bid P) (d : Daemon Doc) :
    Emits P d (d.announceDown bid pid) := by
  unfold Daemon.announceDown
  split
  · exact emits_emit (hp.announce _ rfl)
  · exact .refl d

section
variable {b : Conf.Bridge} (hp : Lenient b.id P)
include hp

theorem emits_announceBridge (d : Daemon Doc) : Emits P d (d.announceBridge env b) := by
  unfold Daemon.announceBridge
  split
  · dsimp only
    split
    · exact emits_emit (hp.announce _ rfl)
    · exact emits_of_log rfl
  · exact .refl d

theorem emits_updatePort (d : Daemon Doc) (p : Port) :
    Emits P d (d.updatePort env b p) := by
  unfold Daemon.updatePort
  split
  · dsimp only
    split
    · exact (emits_of_log (log_setPort d)).trans (emits_announceDown hp _)
    · split
      · have ha : ∀ rp, Emits P d ((d.setPort b.id p.id rp).announceBridge env b) :=
          fun rp => (emits_of_log (log_setPort d)).trans (emits_announceBridge hp _)
        exact (ha _).trans (emits_of_log (log_modifyBridge ..))
      · exact emits_of_log (log_setPort d)
  · exact emits_of_log (log_setPort d)
  · exact .refl d

theorem emits_publicNameChanged (d : Daemon Doc) :
    Emits P d (d.publicNameChanged env b) := by
  have hm : ∀ f, Emits P d ((d.updateState env f).2.modifyBridge b.id
      (fun rb => { rb with name := b.publicName })) :=
    fun f => emits_of_log ((log_modifyBridge ..).trans (log_updateState d f))
  unfold Daemon.publicNameChanged
  dsimp only
  split
  · exact (hm _).trans (emits_emit (hp.announceLater _))
  · exact hm _

theorem emits_startPort (d : Daemon Doc) (p : Port) :
    Emits P d (d.startPort env b p) := by
  have hs : ∀ (d : Daemon Doc) rp,
      Emits P d ((d.setPort b.id p.id rp).emit (.startPort b.id p.id rp)) :=
    fun d rp => (emits_of_log (log_setPort d)).trans (emits_emit (hp.startPort ..))
  unfold Daemon.startPort
  split
  · exact .refl d
  · split
    · dsimp only
      split
      · exact (emits_of_log rfl).trans (hs _ _)
      · exact hs d _
    · split
      · exact hs d _
      · exact emits_of_log rfl
    all_goals exact .refl d

theorem emits_startBridge (d : Daemon Doc) : Emits P d (d.startBridge env b) := by
  have hn : Emits P d (d.effectivePublicName env b.id b.publicName).2 := by
    unfold Daemon.effectivePublicName
    split
    · exact .refl d
    · dsimp only
      split
      · exact emits_of_log (log_updateState d _)
      · exact .refl d
  unfold Daemon.startBridge
  split
  · exact .refl d
  · split
    · dsimp only
      refine foldl_inv (P := Emits P d) _ _ _ ?_
        (fun d' p _ h => h.trans (emits_startPort hp d' p))
      have hi : ∀ bridges, Emits P d
          { (d.effectivePublicName env b.id b.publicName).2 with bridges := bridges } :=
        fun _ => hn.trans (emits_of_log rfl)
      split
      · refine Emits.trans ?_ (emits_announceBridge hp _)
        exact (hi _).trans (emits_emit (hp.startBridge ..))
      · exact (hi _).trans (emits_emit (hp.startBridge ..))
    · exact .refl d
    · exact emits_of_log rfl

end

section
variable (hp : Lenient bid P)
include hp

theorem emits_stopPort (h : ∀ rp, d.port bid pid = some rp → P (.stopPort bid pid rp)) :
    Emits P d (d.stopPort bid pid) := by
  unfold Daemon.stopPort
  split
  · exact .refl d
  · rename_i rp hrp
    have hm : ∀ f, Emits P d (d.modifyBridge bid f) := fun f => emits_of_log (log_modifyBridge ..)
    dsimp only
    refine Emits.trans ?_ (emits_emit (h rp hrp))
    split
    · exact (hm _).trans (emits_announceDown hp _)
    · exact hm _
    · exact hm _

theorem emits_stopBridge (h : d.bridges.contains bid = true →
      P (.stopBridge bid) ∧ ∀ p rp, P (.stopPort bid p rp)) : Emits P d (d.stopBridge bid) := by
  unfold Daemon.stopBridge
  split
  · exact .refl d
  · rename_i rb hb
    have hc : d.bridges.contains bid = true := by
      rw [Std.TreeMap.contains_eq_isSome_getElem?, hb]
      rfl
    obtain ⟨hs, h⟩ := h hc
    have hk := foldl_inv (P := Emits P d) (fun d p => Daemon.stopPort d bid p) rb.ports.keys d
      (.refl d) (fun d' p _ hd => hd.trans (emits_stopPort hp (fun rp _ => h p rp)))
    have hi : ∀ bridges, Emits P d
        { rb.ports.keys.foldl (fun d p => d.stopPort bid p) d with bridges := bridges } :=
      fun _ => hk.trans (emits_of_log rfl)
    have he := fun bridges => (hi bridges).trans (emits_emit hs)
    dsimp only
    split
    · exact (he _).trans (emits_emit (hp.announce _ rfl))
    · exact he _

theorem emits_stopOne (h : pp.action = .stopped ∨ (pp.action = .restarted ∧
      d.port bid pp.id ≠ some .tnc) → ∀ rp, d.port bid pp.id = some rp →
        P (.stopPort bid pp.id rp)) : Emits P d (d.stopOne bid pp) := by
  unfold Daemon.stopOne
  simp only [Bool.or_eq_true, Bool.and_eq_true, beq_iff_eq, bne_iff_ne]
  split
  · rename_i hc
    exact emits_stopPort hp (h hc)
  · exact .refl d

theorem emits_applyPort (hb : nb.id = bid)
    (hc : pp.action = .restarted → d.port bid pp.id = some .tnc → ∀ np c,
      nb.ports.find? (fun p => p.id == pp.id) = some np → Daemon.connectorFor env nb np = .ok c →
        P (.cmd bid (.connector c)))
    (hk : pp.action = .updated → ∀ s ∈ pp.disconnects, P (.cmd bid (.kick s))) :
    Emits P d (d.applyPort env bid nb pp) := by
  unfold Daemon.applyPort
  split
  · exact .refl d
  · rename_i np hf
    have ht : Emits P d (d.touchPort env bid nb np pp) := by
      unfold Daemon.touchPort
      split
      · rename_i ha he
        split
        · rename_i c hok
          exact emits_bridgeCmd (hc ha he np c hf hok)
        · exact .refl d
      · exact emits_updatePort (hb ▸ hp) d np
      · exact .refl d
    dsimp only
    split
    · rename_i ha
      exact foldl_inv (P := Emits P d) _ _ _ ht
        (fun d' s hs h => h.trans (emits_bridgeCmd (hk ha s hs)))
    · exact ht

end

theorem emits_sendSettings (d : Daemon Doc) (bp : BridgePlan) (nb : Conf.Bridge)
    (hs : ∀ s, P (.cmd bp.id (.settings s))) : Emits P d (d.sendSettings bp nb) := by
  unfold Daemon.sendSettings
  split
  · split
    · exact emits_bridgeCmd (hs _)
    · exact .refl d
  · exact .refl d

section passes
variable {bp : BridgePlan} {new : Config} (hp : Lenient bp.id P)
include hp

/-- What the first pass may do to a bridge, by what runs there before it. -/
theorem emits_applyStop (hd : (bp.ports.map PortPlan.id).Nodup)
    (hb : bp.action = .stopped → d.bridges.contains bp.id = true →
      P (.stopBridge bp.id) ∧ ∀ p rp, P (.stopPort bp.id p rp))
    (h : bp.action = .updated → ∀ pp ∈ bp.ports, pp.action = .stopped ∨ (pp.action = .restarted ∧
      d.port bp.id pp.id ≠ some .tnc) → ∀ rp, d.port bp.id pp.id = some rp →
        P (.stopPort bp.id pp.id rp)) : Emits P d (d.applyStop bp) := by
  unfold Daemon.applyStop
  split
  · rename_i ha
    exact emits_stopBridge hp (hb ha)
  · rename_i ha
    refine foldl_each (π := fun k d => entry bp.id k d) Emits.refl Emits.trans hd
      (fun s x _ k hne => entry_stopOne_ne hne s) (fun s pp hpp he => emits_stopOne hp ?_)
    rw [port_of_same he]
    exact h ha pp hpp
  · exact .refl d

/-- What the second pass may do to a bridge. -/
theorem emits_applyLive (hd : (bp.ports.map PortPlan.id).Nodup)
    (hc : ∀ nb, new.bridges.find? (fun b => b.id == bp.id) = some nb → ∀ pp ∈ bp.ports,
      pp.action = .restarted → d.port bp.id pp.id = some .tnc → ∀ np c,
      nb.ports.find? (fun p => p.id == pp.id) = some np → Daemon.connectorFor env nb np = .ok c →
        P (.cmd bp.id (.connector c)))
    (hk : ∀ pp ∈ bp.ports, pp.action = .updated → ∀ s ∈ pp.disconnects, P (.cmd bp.id (.kick s)))
    (hset : ∀ s, P (.cmd bp.id (.settings s))) : Emits P d (d.applyLive env new bp) := by
  unfold Daemon.applyLive
  split
  · exact .refl d
  · rename_i nb hf
    have hid : nb.id = bp.id := by simpa using List.find?_some hf
    have hn : Emits P d (if bp.changes.contains "public_name" then d.publicNameChanged env nb
        else d) := by
      split
      · exact emits_publicNameChanged (hid ▸ hp) d
      · exact .refl d
    have he : ∀ pid, entry bp.id pid ((if bp.changes.contains "public_name" then
        d.publicNameChanged env nb else d).sendSettings bp nb) = entry bp.id pid d := by
      intro pid
      rw [entry_sendSettings]
      split
      · exact entry_publicNameChanged d nb
      · rfl
    dsimp only
    refine (hn.trans (emits_sendSettings _ bp nb hset)).trans
      (Emits.trans ?_ (emits_of_log (log_modifyBridge ..)))
    refine foldl_each (π := fun k d => entry bp.id k d) Emits.refl Emits.trans hd
      (fun s x _ k hne => entry_applyPort_ne hid hne s)
      (fun s pp hpp hs => emits_applyPort hp hid ?_ (hk pp hpp))
    rw [port_of_same (hs.trans (he pp.id))]
    exact hc nb hf pp hpp

/-- The third pass only starts things. -/
theorem emits_applyStart (d : Daemon Doc) : Emits P d (d.applyStart env new bp) := by
  unfold Daemon.applyStart
  split
  · exact .refl d
  · rename_i nb hb
    have hid : nb.id = bp.id := by simpa using List.find?_some hb
    split
    · exact emits_startBridge (hid ▸ hp) d
    · refine foldl_inv (P := Emits P d) _ _ _ (.refl d) (fun d' pp _ h => h.trans ?_)
      unfold Daemon.restartPort
      split
      · split
        · exact emits_startPort (hid ▸ hp) d' _
        · exact .refl d'
      · exact .refl d'
    · exact .refl d

end passes

theorem mem_effectsOn : e ∈ effectsOn bid log ↔ e ∈ log ∧ target e = some bid := by
  simp only [effectsOn, List.mem_filter, beq_iff_eq]

theorem mem_of_facet (h : facet bid d' = facet bid d) (ht : target e = some bid) :
    e ∈ d'.log ↔ e ∈ d.log := by
  have hl : effectsOn bid d'.log = effectsOn bid d.log := congrArg Prod.snd h
  constructor
  · intro he
    have hm : e ∈ effectsOn bid d'.log := mem_effectsOn.mpr ⟨he, ht⟩
    rw [hl] at hm
    exact (mem_effectsOn.mp hm).1
  · intro he
    have hm : e ∈ effectsOn bid d.log := mem_effectsOn.mpr ⟨he, ht⟩
    rw [← hl] at hm
    exact (mem_effectsOn.mp hm).1

theorem port_of_facet (h : facet bid d' = facet bid d) (pid : String) :
    d'.port bid pid = d.port bid pid := port_of_same (entry_of_facet h)

theorem contains_of_facet (h : facet bid d' = facet bid d) :
    d'.bridges.contains bid = d.bridges.contains bid := by
  have hs : d'.bridges[bid]? = d.bridges[bid]? := congrArg Prod.fst h
  rw [Std.TreeMap.contains_eq_isSome_getElem?, Std.TreeMap.contains_eq_isSome_getElem?, hs]

section whole
variable {bp : BridgePlan} {new : Config} {plan : Plan}

/-- What a plan does to one of its bridges is within `P`, if its part of the
first two passes is. -/
theorem apply_emits (hp : Lenient bp.id P) (hi : (plan.bridges.map BridgePlan.id).Nodup)
    (hm : bp ∈ plan.bridges) (hd : (bp.ports.map PortPlan.id).Nodup)
    (hb : bp.action = .stopped → d.bridges.contains bp.id = true →
      P (.stopBridge bp.id) ∧ ∀ p rp, P (.stopPort bp.id p rp))
    (hs : bp.action = .updated → ∀ pp ∈ bp.ports, pp.action = .stopped ∨ (pp.action = .restarted ∧
      d.port bp.id pp.id ≠ some .tnc) → ∀ rp, d.port bp.id pp.id = some rp →
        P (.stopPort bp.id pp.id rp))
    (hc : bp.action = .updated → ∀ nb, new.bridges.find? (fun b => b.id == bp.id) = some nb →
      ∀ pp ∈ bp.ports, pp.action = .restarted → d.port bp.id pp.id = some .tnc → ∀ np c,
      nb.ports.find? (fun p => p.id == pp.id) = some np → Daemon.connectorFor env nb np = .ok c →
        P (.cmd bp.id (.connector c)))
    (hk : bp.action = .updated → ∀ pp ∈ bp.ports, pp.action = .updated → ∀ s ∈ pp.disconnects,
      P (.cmd bp.id (.kick s)))
    (hset : ∀ s, P (.cmd bp.id (.settings s)))
    (he : e ∈ (d.apply env plan new).log) (ht : target e = some bp.id) : e ∈ d.log ∨ P e := by
  obtain ⟨d₁, d₂, d₃, h₁, h₂, h₃, hf⟩ := apply_focus env d new hi hm
  have hstop : Emits P d₁ (d₁.applyStop bp) := by
    refine emits_applyStop hp hd ?_ ?_
    · rw [contains_of_facet h₁]
      exact hb
    · intro ha pp hpp
      rw [port_of_facet h₁]
      exact hs ha pp hpp
  have hlive : Emits P d₂ (if bp.action = .updated then d₂.applyLive env new bp else d₂) := by
    split
    · rename_i ha
      refine emits_applyLive hp hd (fun nb hnb pp hpp hr hq => ?_) (hk ha) hset
      rw [port_of_facet h₂] at hq
      have hq' := port_applyStop_tnc ha hd hq
      rw [port_of_facet h₁] at hq'
      exact hc ha nb hnb pp hpp hr hq'
    · exact .refl d₂
  have hfin : e ∈ (d₃.applyStart env new bp).log := (mem_of_facet hf ht).mp he
  rcases (emits_applyStart hp d₃).mem hfin with hin | hin
  · rcases hlive.mem ((mem_of_facet h₃ ht).mp hin) with hin | hin
    · rcases hstop.mem ((mem_of_facet h₂ ht).mp hin) with hin | hin
      · exact .inl ((mem_of_facet h₁ ht).mp hin)
      · exact .inr hin
    · exact .inr hin
  · exact .inr hin

/-- What is done to a bridge in the first pass, or then in the second, is in
the log. -/
theorem apply_grows (env : Env Doc) (d : Daemon Doc) (new : Config)
    (hi : (plan.bridges.map BridgePlan.id).Nodup) (hm : bp ∈ plan.bridges)
    (hd : (bp.ports.map PortPlan.id).Nodup) :
    ∃ d₁ d₂ : Daemon Doc, facet bp.id d₁ = facet bp.id d ∧
      facet bp.id d₂ = facet bp.id (d₁.applyStop bp) ∧
      ∀ e, target e = some bp.id → (e ∈ (d₁.applyStop bp).log ∨
        (bp.action = .updated ∧ e ∈ (d₂.applyLive env new bp).log)) →
        e ∈ (d.apply env plan new).log := by
  obtain ⟨d₁, d₂, d₃, h₁, h₂, h₃, hf⟩ := apply_focus env d new hi hm
  refine ⟨d₁, d₂, h₁, h₂, fun e ht he => ?_⟩
  refine (mem_of_facet hf ht).mpr
    ((emits_applyStart (all_lenient _) d₃).grows ((mem_of_facet h₃ ht).mpr ?_))
  rcases he with he | ⟨ha, he⟩
  · have he₂ := (mem_of_facet h₂ ht).mpr he
    split
    · exact (emits_applyLive (all_lenient _) hd (by simp) (by simp) (by simp)).grows he₂
    · exact he₂
  · rw [if_pos ha]
    exact he

end whole

end KissTncBridge.Proofs.ApplyEffects
