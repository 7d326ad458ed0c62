import KissTncBridge.Lib.Folds
import KissTncBridge.Lib.Maps
import KissTncBridge.Supervisor.Daemon

namespace KissTncBridge.Proofs.ApplyFrame
open Conf Bridge Reconcile Supervisor Lib

variable {Doc : Type} {env : Env Doc} {d d' : Daemon Doc} {bid b : String}

def target : Effect → Option String
  | .cmd bridge _ | .startBridge bridge _ _ | .stopBridge bridge | .startPort bridge _ _
  | .stopPort bridge _ _ => some bridge
  | .announce _ | .announceLater _ _ | .logLevel _ => none

def effectsOn (bid : String) (log : List Effect) : List Effect :=
  log.filter (fun e => target e == some bid)

/-- What the daemon holds of one bridge, and what it has done to it. -/
def facet (bid : String) (d : Daemon Doc) : Option RunningBridge × List Effect :=
  (d.bridges[bid]?, effectsOn bid d.log)

theorem effectsOn_append (bid : String) (l m : List Effect) :
    effectsOn bid (l ++ m) = effectsOn bid l ++ effectsOn bid m := List.filter_append l m

theorem facet_emit (h : target e ≠ some bid) : facet bid (d.emit e) = facet bid d := by
  have he : effectsOn bid [e] = [] := by simp [effectsOn, h]
  simp only [facet, Daemon.emit, effectsOn_append, he, List.append_nil]

theorem slot_modifyBridge_self (d : Daemon Doc) (bid : String) (f : RunningBridge → RunningBridge) :
    (d.modifyBridge bid f).bridges[bid]? = (d.bridges[bid]?).map f := by
  unfold Daemon.modifyBridge
  split
  · rename_i rb hb
    rw [hb]
    exact getElem?_insert_self ..
  · rename_i hb
    rw [hb]
    rfl

theorem slot_modifyBridge_ne (h : b ≠ bid) (f : RunningBridge → RunningBridge) :
    (d.modifyBridge b f).bridges[bid]? = d.bridges[bid]? := by
  unfold Daemon.modifyBridge
  split
  · exact getElem?_insert_ne h ..
  · rfl

theorem log_modifyBridge (d : Daemon Doc) (b : String) (f : RunningBridge → RunningBridge) :
    (d.modifyBridge b f).log = d.log := by
  unfold Daemon.modifyBridge
  split <;> rfl

theorem facet_modifyBridge (h : b ≠ bid) (f : RunningBridge → RunningBridge) :
    facet bid (d.modifyBridge b f) = facet bid d := by
  simp only [facet, slot_modifyBridge_ne h, log_modifyBridge]

theorem facet_setPort (h : b ≠ bid) : facet bid (d.setPort b p rp) = facet bid d :=
  facet_modifyBridge h _

theorem facet_bridgeCmd (h : b ≠ bid) : facet bid (d.bridgeCmd b c) = facet bid d := by
  unfold Daemon.bridgeCmd
  split
  · exact facet_emit (by simpa [target] using h)
  · rfl

theorem facet_updateState (d : Daemon Doc) (f : State → State) :
    facet bid (d.updateState env f).2 = facet bid d := by
  simp only [Daemon.updateState]
  split
  · rfl
  · split
    · rfl
    · split <;> rfl

theorem facet_announceDown (d : Daemon Doc) : facet bid (d.announceDown b p) = facet bid d := by
  unfold Daemon.announceDown
  split
  · exact facet_emit (by simp [target])
  · rfl

theorem facet_announceBridge (d : Daemon Doc) (nb : Conf.Bridge) :
    facet bid (d.announceBridge env nb) = facet bid d := by
  unfold Daemon.announceBridge
  split
  · dsimp only
    split
    · exact facet_emit (by simp [target])
    · rfl
  · rfl

theorem facet_startFollowing (d : Daemon Doc) (rp : RunningPort) :
    facet bid (d.startFollowing env rp).1 = facet bid d := rfl

theorem facet_startPort (h : nb.id ≠ bid) : facet bid (d.startPort env nb p) = facet bid d := by
  have hs : ∀ (d : Daemon Doc) rp,
      facet bid ((d.setPort nb.id p.id rp).emit (.startPort nb.id p.id rp)) = facet bid d := by
    intro d rp
    rw [facet_emit (by simpa [target] using h), facet_setPort h]
  unfold Daemon.startPort
  split
  · rfl
  · split
    · dsimp only
      split <;> rw [hs]
      rfl
    · split
      · exact hs d _
      · rfl
    all_goals rfl

theorem facet_stopPort (h : b ≠ bid) : facet bid (d.stopPort b p) = facet bid d := by
  unfold Daemon.stopPort
  split
  · rfl
  · dsimp only
    rw [facet_emit (by simpa [target] using h)]
    split
    · rw [facet_announceDown, facet_modifyBridge h]
    · exact facet_modifyBridge h _
    · exact facet_modifyBridge h _

theorem facet_updatePort (h : nb.id ≠ bid) : facet bid (d.updatePort env nb p) = facet bid d := by
  unfold Daemon.updatePort
  split
  · dsimp only
    split
    · rw [facet_announceDown, facet_setPort h]
    · split
      · rw [facet_setPort h, facet_startFollowing, facet_announceBridge, facet_setPort h]
      · exact facet_setPort h
  · exact facet_setPort h
  · rfl

theorem facet_effectivePublicName (d : Daemon Doc) :
    facet bid (d.effectivePublicName env b configured).2 = facet bid d := by
  unfold Daemon.effectivePublicName
  split
  · rfl
  · dsimp only
    split
    · exact facet_updateState d _
    · rfl

theorem facet_startBridge (h : nb.id ≠ bid) : facet bid (d.startBridge env nb) = facet bid d := by
  unfold Daemon.startBridge
  split
  · rfl
  · split
    · have hi : ∀ rb, facet bid { (d.effectivePublicName env nb.id nb.publicName).2 with
          bridges := (d.effectivePublicName env nb.id nb.publicName).2.bridges.insert nb.id rb } =
            facet bid d := by
        intro rb
        have he : facet bid (d.effectivePublicName env nb.id nb.publicName).2 = facet bid d :=
          facet_effectivePublicName d
        rw [← he]
        simp only [facet, getElem?_insert_ne h]
      dsimp only
      rw [foldl_keep (facet bid) _ _ _ (fun d p _ => facet_startPort h)]
      split
      · rw [facet_announceBridge, facet_emit (by simpa [target] using h)]
        exact hi _
      · rw [facet_emit (by simpa [target] using h)]
        exact hi _
    · rfl
    · rfl

theorem facet_stopBridge (h : b ≠ bid) : facet bid (d.stopBridge b) = facet bid d := by
  unfold Daemon.stopBridge
  split
  · rfl
  · rename_i rb _
    have hk := foldl_keep (facet bid) (fun d p => Daemon.stopPort d b p) rb.ports.keys d
      (fun d p _ => facet_stopPort h)
    have hf : facet bid (Daemon.emit { rb.ports.keys.foldl (fun d p => d.stopPort b p) d with
        bridges := (rb.ports.keys.foldl (fun d p => d.stopPort b p) d).bridges.erase b }
        (.stopBridge b)) = facet bid d := by
      rw [facet_emit (by simpa [target] using h), ← hk]
      simp only [facet, getElem?_erase_ne h]
    dsimp only
    split
    · rw [facet_emit (by simp [target]), hf]
    · exact hf

theorem facet_publicNameChanged (h : nb.id ≠ bid) :
    facet bid (d.publicNameChanged env nb) = facet bid d := by
  unfold Daemon.publicNameChanged
  dsimp only
  split
  · rw [facet_emit (by simp [target]), facet_modifyBridge h, facet_updateState]
  · rw [facet_modifyBridge h, facet_updateState]

theorem facet_stopOne (h : b ≠ bid) : facet bid (d.stopOne b pp) = facet bid d := by
  unfold Daemon.stopOne
  dsimp only
  split
  · exact facet_stopPort h
  · rfl

theorem facet_applyStop (h : bp.id ≠ bid) : facet bid (d.applyStop bp) = facet bid d := by
  unfold Daemon.applyStop
  split
  · exact facet_stopBridge h
  · exact foldl_keep (facet bid) _ _ _ (fun _ _ _ => facet_stopOne h)
  · rfl

theorem facet_touchPort (h : b ≠ bid) (hnb : nb.id ≠ bid) :
    facet bid (d.touchPort env b nb np pp) = facet bid d := by
  unfold Daemon.touchPort
  split
  · split
    · exact facet_bridgeCmd h
    · rfl
  · exact facet_updatePort hnb
  · rfl

theorem facet_kickAll (h : b ≠ bid) : facet bid (d.kickAll b ids) = facet bid d :=
  foldl_keep (facet bid) _ _ _ (fun _ _ _ => facet_bridgeCmd h)

theorem facet_applyPort (h : b ≠ bid) (hnb : nb.id ≠ bid) :
    facet bid (d.applyPort env b nb pp) = facet bid d := by
  unfold Daemon.applyPort
  split
  · rfl
  · dsimp only
    split
    · rw [facet_kickAll h, facet_touchPort h hnb]
    · exact facet_touchPort h hnb

theorem facet_sendSettings (h : bp.id ≠ bid) : facet bid (d.sendSettings bp nb) = facet bid d := by
  unfold Daemon.sendSettings
  split
  · split
    · exact facet_bridgeCmd h
    · rfl
  · rfl

theorem facet_applyLive (h : bp.id ≠ bid) : facet bid (d.applyLive env new bp) = facet bid d := by
  unfold Daemon.applyLive
  split
  · rfl
  · rename_i nb hf
    have hnb : nb.id ≠ bid := by
      have he := List.find?_some hf
      rw [beq_iff_eq] at he
      rwa [he]
    dsimp only
    rw [facet_modifyBridge h, foldl_keep (facet bid) _ _ _ (fun d pp _ => facet_applyPort h hnb),
      facet_sendSettings h]
    split
    · exact facet_publicNameChanged hnb
    · rfl

theorem facet_restartPort (hnb : nb.id ≠ bid) :
    facet bid (d.restartPort env b nb pp) = facet bid d := by
  unfold Daemon.restartPort
  split
  · split
    · exact facet_startPort hnb
    · rfl
  · rfl

theorem facet_applyStart (h : bp.id ≠ bid) : facet bid (d.applyStart env new bp) = facet bid d := by
  unfold Daemon.applyStart
  split
  · rfl
  · rename_i nb hf
    have hnb : nb.id ≠ bid := by
      have he := List.find?_some hf
      rw [beq_iff_eq] at he
      rwa [he]
    split
    · exact facet_startBridge hnb
    · exact foldl_keep (facet bid) _ _ _ (fun _ _ _ => facet_restartPort hnb)
    · rfl

theorem facet_logLevel (d : Daemon Doc) (c : Bool) (level : String) :
    facet bid (if c then d.emit (.logLevel level) else d) = facet bid d := by
  split
  · exact facet_emit (by simp [target])
  · rfl

/-- What one bridge sees of a plan: its own part of the three passes. -/
theorem apply_focus (env : Env Doc) (d : Daemon Doc) (new : Config) {plan : Plan}
    (hd : (plan.bridges.map BridgePlan.id).Nodup) (hm : bp ∈ plan.bridges) :
    ∃ d₁ d₂ d₃ : Daemon Doc, facet bp.id d₁ = facet bp.id d ∧
      facet bp.id d₂ = facet bp.id (d₁.applyStop bp) ∧
      facet bp.id d₃ =
        facet bp.id (if bp.action = .updated then d₂.applyLive env new bp else d₂) ∧
      facet bp.id (((d.stops plan).lives env new plan).starts env new plan) =
        facet bp.id (d₃.applyStart env new bp) := by
  obtain ⟨d₁, h₁, hstop⟩ := foldl_single (facet bp.id) Daemon.applyStop BridgePlan.id
    plan.bridges d hd hm (fun _ _ _ hy => facet_applyStop hy)
  have hlog : facet bp.id (if plan.global.contains "log_level" then
      (d.stops plan).emit (.logLevel new.global.logLevel) else d.stops plan) =
      facet bp.id (d.stops plan) := facet_logLevel ..
  have hlive : ∃ d₂, facet bp.id d₂ = facet bp.id (d₁.applyStop bp) ∧
      facet bp.id ((d.stops plan).lives env new plan) =
        facet bp.id (if bp.action = .updated then d₂.applyLive env new bp else d₂) := by
    by_cases ha : bp.action = .updated
    · have hm' : bp ∈ plan.bridges.filter (fun bp => bp.action == .updated) :=
        List.mem_filter.mpr ⟨hm, by simp [ha]⟩
      obtain ⟨d₂, h₂, hl⟩ := foldl_single (facet bp.id) (Daemon.applyLive env new) BridgePlan.id _
        (if plan.global.contains "log_level" then (d.stops plan).emit (.logLevel new.global.logLevel)
          else d.stops plan)
        (hd.sublist (List.filter_sublist.map _)) hm' (fun _ _ _ hy => facet_applyLive hy)
      refine ⟨d₂, h₂.trans (hlog.trans hstop), ?_⟩
      rw [if_pos ha]
      exact hl
    · refine ⟨(d.stops plan).lives env new plan, ?_, by rw [if_neg ha]⟩
      refine Eq.trans ?_ (hlog.trans hstop)
      refine foldl_keep (facet bp.id) _ _ _ (fun _ y hy => facet_applyLive (fun he => ha ?_))
      obtain ⟨hy, hu⟩ := List.mem_filter.mp hy
      rw [List.inj_on_of_nodup_map hd hm hy he.symm]
      simpa using hu
  obtain ⟨d₂, h₂, hlive⟩ := hlive
  obtain ⟨d₃, h₃, hstart⟩ := foldl_single (facet bp.id) (Daemon.applyStart env new) BridgePlan.id
    plan.bridges ((d.stops plan).lives env new plan) hd hm (fun _ _ _ hy => facet_applyStart hy)
  exact ⟨d₁, d₂, d₃, h₁, h₂, h₃.trans hlive, hstart⟩

/-- A bridge that is not in a plan sees nothing of it. -/
theorem apply_aside (env : Env Doc) (d : Daemon Doc) (new : Config) {plan : Plan}
    (hn : ∀ bp ∈ plan.bridges, bp.id ≠ bid) :
    facet bid (((d.stops plan).lives env new plan).starts env new plan) = facet bid d := by
  unfold Daemon.starts Daemon.lives Daemon.stops
  rw [foldl_keep (facet bid) _ _ _ (fun _ y hy => facet_applyStart (hn y hy)),
    foldl_keep (facet bid) _ _ _ (fun _ y hy => facet_applyLive (hn y (List.mem_filter.mp hy).1)),
    facet_logLevel, foldl_keep (facet bid) _ _ _ (fun _ y hy => facet_applyStop (hn y hy))]

end KissTncBridge.Proofs.ApplyFrame
