import KissTncBridge.Lib.Folds
import KissTncBridge.Supervisor.Daemon

namespace KissTncBridge.Proofs.ApplyRules
open Conf Bridge Reconcile Supervisor Lib

variable {Doc : Type} {env : Env Doc} {d : Daemon Doc} {new : Config} {plan : Plan}
variable {I P : Daemon Doc → Prop}

/-- What the steps of the first pass keep. -/
structure StopRules (P : Daemon Doc → Prop) : Prop where
  port : ∀ d b p, P d → P (d.stopPort b p)
  bridge : ∀ d b, P d → P (d.stopBridge b)

theorem stopOne_keeps (r : StopRules P) (b : String) (pp : PortPlan) (h : P d) :
    P (d.stopOne b pp) := by
  unfold Daemon.stopOne
  dsimp only
  split
  · exact r.port d b pp.id h
  · exact h

theorem applyStop_keeps (r : StopRules P) (bp : BridgePlan) (h : P d) : P (d.applyStop bp) := by
  unfold Daemon.applyStop
  split
  · exact r.bridge d bp.id h
  · exact foldl_inv _ _ _ h (fun d pp _ h => stopOne_keeps r bp.id pp h)
  · exact h

theorem stops_keeps (r : StopRules P) (plan : Plan) (h : P d) : P (d.stops plan) :=
  foldl_inv _ _ _ h (fun _ bp _ h => applyStop_keeps r bp h)

/-- What stopping one of the plan's bridges brings about. -/
theorem stops_gains_bridge (hi : StopRules I) (r : StopRules P) (hm : bp ∈ plan.bridges)
    (ha : bp.action = .stopped) (h : I d) (gain : ∀ d, I d → P (d.stopBridge bp.id)) :
    P (d.stops plan) := by
  refine foldl_gains hm h (fun d bp _ h => applyStop_keeps hi bp h) (fun d h => ?_)
    (fun _ bp _ h => applyStop_keeps r bp h)
  unfold Daemon.applyStop
  rw [ha]
  exact gain d h

/-- What the first pass brings about at one of the plan's ports. -/
theorem stops_gains_port (hi : StopRules I) (r : StopRules P) (hm : bp ∈ plan.bridges)
    (ha : bp.action = .updated) (hp : pp ∈ bp.ports) (h : I d)
    (gain : ∀ d, I d → P (d.stopOne bp.id pp)) : P (d.stops plan) := by
  refine foldl_gains hm h (fun d bp _ h => applyStop_keeps hi bp h) (fun d h => ?_)
    (fun _ bp _ h => applyStop_keeps r bp h)
  unfold Daemon.applyStop
  rw [ha]
  exact foldl_gains hp h (fun d pp _ h => stopOne_keeps hi bp.id pp h) gain
    (fun d pp _ h => stopOne_keeps r bp.id pp h)

section live
variable {B : Conf.Bridge → Prop}

structure LiveRules (env : Env Doc) (B : Conf.Bridge → Prop) (P : Daemon Doc → Prop) : Prop where
  level : ∀ d l, P d → P (d.emit (.logLevel l))
  name : ∀ d nb, B nb → P d → P (d.publicNameChanged env nb)
  cmd : ∀ d b c, P d → P (d.bridgeCmd b c)
  connector : ∀ d nb np e, Daemon.connectorFor env nb np = .error e → P d →
    P (d.connectorFailed np e)
  port : ∀ d nb, B nb → ∀ np ∈ nb.ports, P d → P (d.updatePort env nb np)
  cfg : ∀ d b nb, P d → P (d.modifyBridge b (fun rb => { rb with cfg := nb }))

section
variable {nb : Conf.Bridge} (r : LiveRules env B P) (hb : B nb)
include r

theorem kickAll_keeps (b : String) (ids : List SessionId) (h : P d) : P (d.kickAll b ids) :=
  foldl_inv _ _ _ h (fun d s _ h => r.cmd d b (.kick s) h)

theorem sendSettings_keeps (bp : BridgePlan) (nb : Conf.Bridge) (h : P d) :
    P (d.sendSettings bp nb) := by
  unfold Daemon.sendSettings
  split
  · split
    · exact r.cmd d _ _ h
    · exact h
  · exact h

include hb

theorem touchPort_keeps (hp : np ∈ nb.ports) (b : String) (pp : PortPlan) (h : P d) :
    P (d.touchPort env b nb np pp) := by
  unfold Daemon.touchPort
  split
  · split
    · exact r.cmd d _ _ h
    · exact r.connector d nb np _ (by assumption) h
  · exact r.port d nb hb np hp h
  · exact h

theorem applyPort_keeps (b : String) (pp : PortPlan) (h : P d) : P (d.applyPort env b nb pp) := by
  unfold Daemon.applyPort
  split
  · exact h
  · rename_i np hf
    have ht := touchPort_keeps r hb (List.mem_of_find?_eq_some hf) b pp h
    dsimp only
    split
    · exact kickAll_keeps r b _ ht
    · exact ht

theorem named_keeps (c : Bool) (h : P d) : P (if c then d.publicNameChanged env nb else d) := by
  split
  · exact r.name d nb hb h
  · exact h

end

theorem applyLive_keeps (r : LiveRules env B P) (bp : BridgePlan)
    (hb : ∀ nb, new.bridges.find? (fun b => b.id == bp.id) = some nb → B nb) (h : P d) :
    P (d.applyLive env new bp) := by
  unfold Daemon.applyLive
  split
  · exact h
  · rename_i nb hf
    refine r.cfg _ _ _
      (foldl_inv _ _ _ ?_ (fun d pp _ h => applyPort_keeps r (hb nb hf) bp.id pp h))
    exact sendSettings_keeps r bp nb (named_keeps r (hb nb hf) _ h)

theorem level_keeps (r : LiveRules env B P) (c : Bool) (l : String) (h : P d) :
    P (if c then d.emit (.logLevel l) else d) := by
  split
  · exact r.level d l h
  · exact h

variable (hb : ∀ bp ∈ plan.bridges, bp.action = .updated →
  ∀ nb, new.bridges.find? (fun b => b.id == bp.id) = some nb → B nb)
include hb

theorem lives_step (r : LiveRules env B P) (d : Daemon Doc) (bp : BridgePlan)
    (hm : bp ∈ plan.bridges.filter (fun bp => bp.action == .updated)) (h : P d) :
    P (d.applyLive env new bp) := by
  obtain ⟨hm, ha⟩ := List.mem_filter.mp hm
  exact applyLive_keeps r bp (hb bp hm (by simpa using ha)) h

theorem lives_keeps (r : LiveRules env B P) (h : P d) : P (d.lives env new plan) :=
  foldl_inv _ _ _ (level_keeps r _ _ h) (lives_step hb r)

/-- What the second pass brings about at one of the plan's ports. -/
theorem lives_gains (hi : LiveRules env B I) (r : LiveRules env B P) (hm : bp ∈ plan.bridges)
    (ha : bp.action = .updated) (hf : new.bridges.find? (fun b => b.id == bp.id) = some nb)
    (hp : pp ∈ bp.ports) (hfp : nb.ports.find? (fun p => p.id == pp.id) = some np) (h : I d)
    (gain : ∀ d, I d → P (d.touchPort env bp.id nb np pp)) : P (d.lives env new plan) := by
  have hnb : B nb := hb bp hm ha nb hf
  refine foldl_gains (List.mem_filter.mpr ⟨hm, by simp [ha]⟩) (level_keeps hi _ _ h)
    (lives_step hb hi) (fun d h => ?_) (lives_step hb r)
  unfold Daemon.applyLive
  rw [hf]
  refine r.cfg _ _ _ (foldl_gains hp (sendSettings_keeps hi bp nb (named_keeps hi hnb _ h))
    (fun d pp _ h => applyPort_keeps hi hnb bp.id pp h) (fun d h => ?_)
    (fun d pp _ h => applyPort_keeps r hnb bp.id pp h))
  unfold Daemon.applyPort
  rw [hfp]
  dsimp only
  split
  · exact kickAll_keeps r _ _ (gain d h)
  · exact gain d h

end live

section start
variable {B : Conf.Bridge → Prop}

structure StartRules (env : Env Doc) (B : Conf.Bridge → Prop) (P : Daemon Doc → Prop) : Prop where
  port : ∀ d nb, B nb → ∀ np ∈ nb.ports, P d → P (d.startPort env nb np)
  bridge : ∀ d nb, B nb → P d → P (d.startBridge env nb)

theorem restartPort_keeps (r : StartRules env B P) {nb : Conf.Bridge} (hb : B nb)
    (b : String) (pp : PortPlan) (h : P d) : P (d.restartPort env b nb pp) := by
  unfold Daemon.restartPort
  split
  · split
    · rename_i np hf
      exact r.port d nb hb np (List.mem_of_find?_eq_some hf) h
    · exact h
  · exact h

theorem starts_keeps (hb : ∀ bp ∈ plan.bridges, bp.action = .updated ∨ bp.action = .started →
      ∀ nb, new.bridges.find? (fun b => b.id == bp.id) = some nb → B nb)
    (r : StartRules env B P) (h : P d) : P (d.starts env new plan) := by
  refine foldl_inv _ _ _ h (fun d bp hm h => ?_)
  unfold Daemon.applyStart
  split
  · exact h
  · rename_i nb hf
    split
    · rename_i ha
      exact r.bridge d nb (hb bp hm (.inr ha) nb hf) h
    · rename_i ha
      exact foldl_inv _ _ _ h
        (fun d pp _ h => restartPort_keeps r (hb bp hm (.inl ha) nb hf) bp.id pp h)
    · exact h

end start

end KissTncBridge.Proofs.ApplyRules
