import KissTncBridge.Proofs.ApplyRules
import KissTncBridge.Proofs.StateFile

namespace KissTncBridge.Proofs.BluezErrors
open Lib Conf Bridge Reconcile Supervisor Daemon ApplyRules StateFile

variable {Doc : Type}

/-- BlueZ answers whatever a port needs of it. -/
structure HasBluez (env : Env Doc) : Prop where
  session : ∀ b p, env.btSession b p = .ok ()
  ble : ∀ b p, env.addBle b p = .ok ()

section
variable (env : Env Doc) (d : Daemon Doc)

theorem errors_emit (e : Effect) : (d.emit e).bluezErrors = d.bluezErrors := rfl

theorem errors_modifyBridge (b : String) (f : RunningBridge → RunningBridge) :
    (d.modifyBridge b f).bluezErrors = d.bluezErrors := by
  unfold modifyBridge
  split <;> rfl

theorem errors_setPort (b p : String) (rp : RunningPort) :
    (d.setPort b p rp).bluezErrors = d.bluezErrors := errors_modifyBridge ..

theorem errors_updateState (f : State → State) :
    (d.updateState env f).2.bluezErrors = d.bluezErrors := by
  rcases updateState_cases env d f with ⟨_, hu⟩ | ⟨_, _, hu⟩ | ⟨_, _, hu⟩
  · rw [hu]
  · rw [hu]
  · rw [hu]
    rfl

theorem errors_announceDown (b p : String) :
    (d.announceDown b p).bluezErrors = d.bluezErrors := by
  unfold announceDown
  split <;> rfl

theorem errors_announceBridge (nb : Conf.Bridge) :
    (d.announceBridge env nb).bluezErrors = d.bluezErrors := by
  unfold announceBridge
  split
  · dsimp only
    split <;> rfl
  · rfl

theorem errors_effectivePublicName (b configured : String) :
    (d.effectivePublicName env b configured).2.bluezErrors = d.bluezErrors := by
  unfold effectivePublicName
  split
  · rfl
  · dsimp only
    split
    · exact errors_updateState ..
    · rfl

theorem errors_publicNameChanged (nb : Conf.Bridge) :
    (d.publicNameChanged env nb).bluezErrors = d.bluezErrors := by
  have hm := (errors_modifyBridge (d.updateState env (fun s => s.clearAdjustedPublicName nb.id)).2
    nb.id (fun rb => { rb with name := nb.publicName })).trans (errors_updateState env d _)
  unfold publicNameChanged
  dsimp only
  split <;> exact hm

theorem errors_stopPort (b p : String) : (d.stopPort b p).bluezErrors = d.bluezErrors := by
  unfold stopPort
  split
  · rfl
  · dsimp only
    rw [errors_emit]
    split
    · rw [errors_announceDown, errors_modifyBridge]
    · exact errors_modifyBridge ..
    · exact errors_modifyBridge ..

theorem errors_stopBridge (b : String) : (d.stopBridge b).bluezErrors = d.bluezErrors := by
  unfold Daemon.stopBridge
  split
  · rfl
  · rename_i rb _
    have hk : (rb.ports.keys.foldl (fun d p => d.stopPort b p) d).bluezErrors = d.bluezErrors :=
      foldl_keep bluezErrors _ _ _ (fun d p _ => errors_stopPort d b p)
    dsimp only
    split <;> exact hk

theorem errors_updatePort (nb : Conf.Bridge) (np : Port) :
    (d.updatePort env nb np).bluezErrors = d.bluezErrors := by
  unfold updatePort
  split
  · dsimp only
    split
    · rw [errors_announceDown, errors_setPort]
    · split
      · rw [errors_setPort]
        exact (errors_announceBridge env _ nb).trans (errors_setPort ..)
      · exact errors_setPort ..
  · exact errors_setPort ..
  · rfl

end

section
variable {env : Env Doc} (h : HasBluez env)
include h

/-- With BlueZ there, the only TNC side that can't be had is an unsupported one. -/
theorem errors_connectorFailed {d : Daemon Doc} (hc : connectorFor env nb np = .error e) :
    (d.connectorFailed np e).bluezErrors = d.bluezErrors := by
  unfold connectorFor at hc
  unfold connectorFailed
  cases hk : np.kind <;> simp_all [h.session, Except.map]

theorem errors_startPort (d : Daemon Doc) (nb : Conf.Bridge) (np : Port) :
    (d.startPort env nb np).bluezErrors = d.bluezErrors := by
  unfold startPort
  split
  · rfl
  · split
    · dsimp only
      split <;> exact errors_setPort ..
    · rw [h.ble]
      exact errors_setPort ..
    all_goals rfl

theorem errors_startBridge (d : Daemon Doc) (nb : Conf.Bridge) :
    (d.startBridge env nb).bluezErrors = d.bluezErrors := by
  unfold Daemon.startBridge
  split
  · rfl
  · split
    · dsimp only
      rw [foldl_keep bluezErrors _ _ _ (fun d p _ => errors_startPort h d nb p)]
      have he := errors_effectivePublicName env d nb.id nb.publicName
      split
      · exact (errors_announceBridge ..).trans he
      · exact he
    · rfl
    · exact errors_connectorFailed h ‹_›

/-- With BlueZ there, no plan meets a BlueZ failure. -/
theorem errors_apply (d : Daemon Doc) (plan : Plan) (new : Config) :
    (d.apply env plan new).bluezErrors = d.bluezErrors := by
  have stop : StopRules (fun d' : Daemon Doc => d'.bluezErrors = d.bluezErrors) :=
    ⟨fun d' b p hd => (errors_stopPort d' b p).trans hd,
      fun d' b hd => (errors_stopBridge d' b).trans hd⟩
  have live : LiveRules env (fun _ => True) (fun d' => d'.bluezErrors = d.bluezErrors) := {
    level := fun _ _ hd => hd
    name := fun d' nb _ hd => (errors_publicNameChanged env d' nb).trans hd
    cmd := fun d' b c hd => by
      unfold bridgeCmd
      split <;> exact hd
    connector := fun _ _ _ _ hc hd => (errors_connectorFailed h hc).trans hd
    port := fun d' nb _ np _ hd => (errors_updatePort env d' nb np).trans hd
    cfg := fun d' b nb hd => (errors_modifyBridge d' b _).trans hd }
  have start : StartRules env (fun _ => True) (fun d' => d'.bluezErrors = d.bluezErrors) :=
    ⟨fun d' nb _ np _ hd => (errors_startPort h d' nb np).trans hd,
      fun d' nb _ hd => (errors_startBridge h d' nb).trans hd⟩
  have hs := stops_keeps stop plan rfl
  have hl : ((d.stops plan).lives env new plan).bluezErrors = d.bluezErrors :=
    lives_keeps (fun _ _ _ _ _ => trivial) live hs
  exact starts_keeps (fun _ _ _ _ _ => trivial) start hl

end

end KissTncBridge.Proofs.BluezErrors
