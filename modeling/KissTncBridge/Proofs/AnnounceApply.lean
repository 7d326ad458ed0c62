import KissTncBridge.Proofs.Following
import KissTncBridge.Proofs.BleSlots

namespace KissTncBridge.Proofs.AnnounceApply
open Conf Bridge Reconcile Supervisor Lib Announcing AnnounceSide
open ApplyFrame ApplyPorts ApplyEffects ApplyRules PlanFacts ValidConfig Following

variable {Doc : Type} {env : Env Doc} {d d' : Daemon Doc} {w : Side} {b p : String}
variable {nb : Conf.Bridge} {np : Port} {k : String × String} {old new : Config}

theorem stance_effectivePublicName (env : Env Doc) (d : Daemon Doc) (b configured : String) :
    stance (d.effectivePublicName env b configured).2 = stance d := by
  unfold Daemon.effectivePublicName
  split
  · rfl
  · dsimp only
    split
    · exact stance_updateState d _
    · rfl

theorem log_effectivePublicName (env : Env Doc) (d : Daemon Doc) (b configured : String) :
    (d.effectivePublicName env b configured).2.log = d.log := by
  unfold Daemon.effectivePublicName
  split
  · rfl
  · dsimp only
    split
    · exact log_updateState d _
    · rfl

structure Entered (w : Side) (d : Daemon Doc) (nb : Conf.Bridge) (d' : Daemon Doc) : Prop where
  flag : ∀ k, flag d' k = if k.1 = nb.id then none else flag d k
  announcer : d'.announcer = d.announcer
  side : side w d' = side w d
  contains : ∀ b, d'.bridges.contains b = (nb.id == b || d.bridges.contains b)

/-- A bridge that starts is entered, registered if it announces, and then its
app ports start. -/
theorem startBridge_cases (env : Env Doc) (w : Side) (d : Daemon Doc) (nb : Conf.Bridge) :
    (∃ es, d.startBridge env nb = { d with bluezErrors := es }) ∨
      ∃ d', Entered w d nb d' ∧
        d.startBridge env nb = nb.appPorts.foldl (fun d p => d.startPort env nb p)
        (if announces nb then d'.announceBridge env nb else d') := by
  unfold Daemon.startBridge
  split
  · exact .inl ⟨d.bluezErrors, rfl⟩
  · rename_i tnc _
    split
    · rename_i connector settings _ _
      have hs := stance_effectivePublicName env d nb.id nb.publicName
      have hl := log_effectivePublicName env d nb.id nb.publicName
      generalize d.effectivePublicName env nb.id nb.publicName = r at hs hl
      obtain ⟨n, d₁⟩ := r
      dsimp only at hs hl ⊢
      refine .inr ⟨_, ?_, rfl⟩
      have hann : d₁.announcer = d.announcer := announcer_of_stance hs
      refine ⟨fun k => ?_, hann, ?_, fun b => ?_⟩
      · rw [← flag_of_stance hs]
        exact flag_enterBridge d₁ nb n tnc k
      · rw [side_emit]
        exact side_of_log hl
      · have hc := contains_of_stance hs b
        refine Eq.trans Std.TreeMap.contains_insert ?_
        rw [hc]
        congr 1
        by_cases he : nb.id = b
        · simp [he]
        · have hne : ¬ compare nb.id b = .eq := fun h => he (Std.LawfulEqCmp.eq_of_compare h)
          simp [he, hne]
    · exact .inl ⟨d.bluezErrors, rfl⟩
    · exact .inl ⟨_, rfl⟩

section announcer
variable {B : Conf.Bridge → Prop}

theorem asked_iff : asked env d = true ↔ d.announcer = true ∨ env.startAnnouncer = true := by
  simp [asked]

theorem asked_mono (hm : d.announcer = true → d'.announcer = true) (h : asked env d = true) :
    asked env d' = true := asked_iff.mpr ((asked_iff.mp h).imp_left hm)

theorem announcer_stopBridge (d : Daemon Doc) (b : String) :
    (d.stopBridge b).announcer = d.announcer := by
  unfold Daemon.stopBridge
  split
  · rfl
  · rename_i rb _
    have hk : (rb.ports.keys.foldl (fun d p => d.stopPort b p) d).announcer = d.announcer :=
      foldl_keep Daemon.announcer _ _ _ (fun d p _ => announcer_stopPort d b p)
    dsimp only
    split <;> exact hk

theorem asked_updatePort (nb : Conf.Bridge) (np : Port) (h : asked env d = true) :
    asked env (d.updatePort env nb np) = true := by
  refine asked_mono (fun ha => ?_) h
  cases updatePort_updated env .new d nb np with
  | same hs _ _ => exact (announcer_of_stance hs).trans ha
  | off _ _ _ hann _ => exact hann.trans ha
  | on _ _ _ hann _ => exact hann.trans h

theorem asked_startPort (nb : Conf.Bridge) (np : Port) (h : asked env d = true) :
    asked env (d.startPort env nb np) = true := by
  refine asked_mono (fun ha => ?_) h
  cases startPort_begun env .new d nb np with
  | left he =>
    rw [he]
    exact ha
  | tcp _ _ _ hann _ =>
    rw [hann]
    split
    · exact h
    · exact ha
  | ble _ hann _ => exact hann.trans ha

theorem asked_announceBridge (nb : Conf.Bridge) (h : asked env d = true) :
    asked env (d.announceBridge env nb) = true := by
  refine asked_mono (fun ha => ?_) h
  rw [announcer_announceBridge]
  split
  · exact h
  · exact ha

theorem asked_named (nb : Conf.Bridge) (c : Bool) (h : asked env d = true) :
    asked env (if c then d.announceBridge env nb else d) = true := by
  split
  · exact asked_announceBridge nb h
  · exact h

theorem asked_startBridge (nb : Conf.Bridge) (h : asked env d = true) :
    asked env (d.startBridge env nb) = true := by
  rcases startBridge_cases env .new d nb with ⟨es, he⟩ | ⟨d', hd, he⟩
  · rw [he]
    exact h
  · rw [he]
    have hd' : asked env d' = true := asked_mono (fun ha => hd.announcer.trans ha) h
    exact foldl_inv (P := fun d => asked env d = true) _ _ _ (asked_named nb _ hd')
      (fun d p _ h => asked_startPort nb p h)

theorem asked_stops : StopRules (fun d : Daemon Doc => asked env d = true) where
  port d b p := asked_mono (fun ha => (announcer_stopPort d b p).trans ha)
  bridge d b := asked_mono (fun ha => (announcer_stopBridge d b).trans ha)

theorem asked_lives : LiveRules env B (fun d => asked env d = true) where
  level _ _ h := h
  name d nb _ :=
    asked_mono (fun ha =>
      (announcer_of_stance (publicNameChanged_same (w := .new) env d nb).1).trans ha)
  cmd d b c :=
    asked_mono (fun ha => (announcer_of_stance (bridgeCmd_same (w := .new) d b c).1).trans ha)
  connector _ _ _ _ _ h := h
  port _ nb _ np _ := asked_updatePort nb np
  cfg d b _ := asked_mono (fun ha => (announcer_modifyBridge d b _).trans ha)

end announcer

section good
variable {B : Conf.Bridge → Prop}

theorem good_stops : StopRules (fun d : Daemon Doc => Good w d) where
  port _ b p h := good_stopPort h b p
  bridge _ b h := good_stopBridge h b

theorem good_lives : LiveRules env B (fun d => Good w d) where
  level d _ h := h.of_stance (stance_emit d _) (side_emit d _)
  name _ nb _ h := good_publicNameChanged h nb
  cmd d b c h := h.of_stance (bridgeCmd_same (w := w) d b c).1 (bridgeCmd_same d b c).2
  connector _ _ _ _ _ h := h.of_stance rfl rfl
  port _ nb _ np _ h := good_updatePort h nb np
  cfg d b nb h := h.of_stance
    (stance_modifyBridge d b (f := fun rb => { rb with cfg := nb }) (fun _ => rfl))
    (side_of_log (log_modifyBridge ..))

end good

/-- A bridge that runs is known. -/
def Met (w : Side) (b : String) (d : Daemon Doc) : Prop :=
  d.bridges.contains b = true → Knows (side w d) b

theorem Met.of_stance (h : Met w b d) (hs : stance d' = stance d) (hw : side w d' = side w d) :
    Met w b d' := by
  intro hc
  rw [contains_of_stance hs] at hc
  exact hw ▸ h hc

theorem Met.tells (h : Met w b d) (hc : d'.bridges.contains b = true → d.bridges.contains b = true)
    (hw : side w d' = done (side w d) e) (he : e ≠ .announce (.forget b)) : Met w b d' :=
  fun hc' => hw ▸ knows_done he (h (hc hc'))

theorem met_emit (h : Met w b d) (he : e ≠ .announce (.forget b)) : Met w b (d.emit e) :=
  h.tells id (side_emit d e) he

theorem met_stopPort (h : Met w b d) (b' p : String) : Met w b (d.stopPort b' p) := by
  have hw := side_stopPort (w := w) d b' p
  have hc : (d.stopPort b' p).bridges.contains b = true → d.bridges.contains b = true :=
    fun hc => (contains_stopPort d b' p b).symm.trans hc
  split at hw
  · exact h.tells hc hw (by simp)
  · exact fun hc' => hw ▸ h (hc hc')

theorem met_stopBridge (h : Met w b d) (b' : String) : Met w b (d.stopBridge b') := by
  unfold Daemon.stopBridge
  split
  · exact h
  · rename_i rb hb
    have hm : Met w b (rb.ports.keys.foldl (fun d p => d.stopPort b' p) d) :=
      foldl_inv _ _ _ h (fun d p _ h => met_stopPort h b' p)
    generalize rb.ports.keys.foldl (fun d p => d.stopPort b' p) d = d₁ at hm
    have hc : ∀ d₂ : Daemon Doc, d₂.bridges = d₁.bridges.erase b' → d₂.bridges.contains b = true →
        b' ≠ b ∧ d₁.bridges.contains b = true := by
      intro d₂ he hc
      rw [he, Std.TreeMap.contains_erase] at hc
      obtain ⟨hne, hc⟩ := Bool.and_eq_true_iff.mp hc
      refine ⟨fun heq => ?_, hc⟩
      subst heq
      simp at hne
    have hs : Met w b ({ d₁ with bridges := d₁.bridges.erase b' }.emit (.stopBridge b')) :=
      hm.tells (fun h => (hc _ rfl h).2) (side_emit _ _) (by simp)
    dsimp only
    split
    · intro hcon
      have hne := (hc _ rfl hcon).1
      have he : Effect.announce (.forget b') ≠ .announce (.forget b) := by simpa using hne
      exact met_emit hs he hcon
    · exact hs

theorem met_updatePort (h : Met w b d) (nb : Conf.Bridge) (np : Port) :
    Met w b (d.updatePort env nb np) := by
  have hc : (d.updatePort env nb np).bridges.contains b = true → d.bridges.contains b = true :=
    fun hc => (contains_updatePort d nb np b).symm.trans hc
  cases updatePort_updated env w d nb np with
  | same hs hw _ => exact h.of_stance hs hw
  | off _ _ _ _ hw =>
    split at hw
    · exact h.tells hc hw (by simp)
    · exact fun hc' => hw ▸ h (hc hc')
  | on _ _ _ _ hw =>
    split at hw
    · exact h.tells hc hw (by simp)
    · exact fun hc' => hw ▸ h (hc hc')

theorem met_stops : StopRules (fun d : Daemon Doc => Met w b d) where
  port _ b' p h := met_stopPort h b' p
  bridge _ b' h := met_stopBridge h b'

theorem met_lives {B : Conf.Bridge → Prop} : LiveRules env B (fun d => Met w b d) where
  level d _ h := h.of_stance (stance_emit d _) (side_emit d _)
  name d nb _ h := by
    obtain ⟨hs, hw | hw⟩ := publicNameChanged_same (w := w) env d nb
    · exact h.of_stance hs hw
    · exact h.tells (fun hc => (contains_of_stance hs b).symm.trans hc) hw (by simp)
  cmd d b c h := h.of_stance (bridgeCmd_same (w := w) d b c).1 (bridgeCmd_same d b c).2
  connector _ _ _ _ _ h := h.of_stance rfl rfl
  port _ nb _ np _ h := met_updatePort h nb np
  cfg d b nb h := h.of_stance
    (stance_modifyBridge d b (f := fun rb => { rb with cfg := nb }) (fun _ => rfl))
    (side_of_log (log_modifyBridge ..))

theorem met_startPort (h : Met w b d) (nb : Conf.Bridge) (np : Port) :
    Met w b (d.startPort env nb np) := by
  have hc : (d.startPort env nb np).bridges.contains b = true → d.bridges.contains b = true :=
    fun hc => (contains_startPort d nb np b).symm.trans hc
  cases startPort_begun env w d nb np with
  | left he =>
    rw [he]
    exact h
  | tcp _ _ _ _ hw => exact h.tells hc hw (by simp)
  | ble _ _ hw => exact h.tells hc hw (by simp)

theorem met_announceBridge (h : Met w b d) (nb : Conf.Bridge) :
    Met w b (d.announceBridge env nb) := by
  have hc : (d.announceBridge env nb).bridges.contains b = true → d.bridges.contains b = true :=
    fun hc => (contains_announceBridge env d nb b).symm.trans hc
  have hw := side_announceBridge (w := w) env d nb
  split at hw
  · exact h.tells hc hw (by simp)
  · exact fun hc' => hw ▸ h (hc hc')

theorem met_startBridge (h : Met w b d) (hne : nb.id ≠ b) : Met w b (d.startBridge env nb) := by
  rcases startBridge_cases env w d nb with ⟨es, he⟩ | ⟨d', hd, he⟩
  · rw [he]
    exact h
  · rw [he]
    have hd' : Met w b d' := by
      intro hc
      rw [hd.contains] at hc
      rw [hd.side]
      exact h (by simpa [hne] using hc)
    refine foldl_inv (P := Met w b) _ _ _ ?_ (fun d p _ h => met_startPort h nb p)
    split
    · exact met_announceBridge hd' nb
    · exact hd'

/-- Two ports of one bridge start independently. -/
theorem flag_startPort_ne (h : k ≠ (nb.id, np.id)) (d : Daemon Doc) :
    flag (d.startPort env nb np) k = flag d k := by
  cases startPort_begun env .new d nb np with
  | left he =>
    rw [he]
    rfl
  | tcp _ _ hfl _ _ => rw [hfl, Function.update_of_ne h]
  | ble hfl _ _ => rw [hfl, Function.update_of_ne h]

theorem announces_of_port (hp : np ∈ nb.ports) (hk : np.kind = .tcpServer l m a true) :
    announces nb = true := by
  refine List.any_eq_true.mpr ⟨np, hp, ?_⟩
  rw [hk]

/-- A bridge of which nothing runs starts with its announcing ports registered. -/
theorem good_startBridge (h : Good w d) (ha : asked env d = true)
    (hi : (nb.ports.map Port.id).Nodup) (hf : ∀ p, flag d (nb.id, p) ≠ some true) :
    Good w (d.startBridge env nb) := by
  rcases startBridge_cases env w d nb with ⟨es, he⟩ | ⟨d', hd, he⟩
  · rw [he]
    exact h.same rfl id (fun _ => Iff.rfl)
  · rw [he]
    have hg : Good w d' := by
      refine h.same hd.side (fun ha => hd.announcer.trans ha) (fun ⟨b, p⟩ => ?_)
      rw [hd.flag]
      split
      · rename_i hb
        have hb : b = nb.id := hb
        exact iff_of_false (by simp) (hb ▸ hf p)
      · rfl
    have ha' : asked env d' = true := asked_mono (fun ha => hd.announcer.trans ha) ha
    have hc : d'.bridges.contains nb.id = true := by simp [hd.contains]
    have hn : announces nb = true → Knows (side w (d'.announceBridge env nb)) nb.id := by
      intro _
      rw [side_announceBridge, if_pos ⟨hc, ha'⟩]
      exact knows_bridge ..
    have hids : (nb.appPorts.map Port.id).Nodup := hi.sublist (List.filter_sublist.map _)
    refine (foldl_each (π := fun p d => flag d (nb.id, p)) (R := fun d d' =>
      (Good w d ∧ asked env d = true ∧ (announces nb = true → Knows (side w d) nb.id)) →
        Good w d' ∧ asked env d' = true ∧ (announces nb = true → Knows (side w d') nb.id))
      (fun _ h => h) (fun h h' x => h' (h x)) hids ?_ ?_ ?_).1
    · intro d p _ q hq
      exact flag_startPort_ne (fun he => hq (congrArg Prod.snd he).symm) d
    · rintro d p hp hfl ⟨hg, ha, hk⟩
      have hpm : p ∈ nb.ports := (List.mem_filter.mp hp).1
      have hflag : flag d (nb.id, p.id) ≠ some true := by
        rw [hfl]
        split
        · rw [flag_announceBridge, hd.flag, if_pos rfl]
          simp
        · rw [hd.flag, if_pos rfl]
          simp
      refine ⟨good_startPort hg ha hflag (fun l m a hkind _ => hk (announces_of_port hpm hkind)),
        asked_startPort nb p ha, fun hn => ?_⟩
      cases startPort_begun env w d nb p with
      | left he =>
        rw [he]
        exact hk hn
      | tcp _ _ _ _ hw =>
        rw [hw]
        exact knows_done (by simp) (hk hn)
      | ble _ _ hw =>
        rw [hw]
        exact knows_done (by simp) (hk hn)
    · split
      · exact ⟨good_announceBridge hg nb, asked_announceBridge nb ha', hn⟩
      · rename_i hno
        exact ⟨hg, ha', fun h => absurd h hno⟩

end KissTncBridge.Proofs.AnnounceApply
