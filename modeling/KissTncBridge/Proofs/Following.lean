import KissTncBridge.Proofs.AnnounceSide
import KissTncBridge.Proofs.ApplyEffects
import KissTncBridge.Proofs.ApplyRules

namespace KissTncBridge.Proofs.Following
open Conf Bridge Reconcile Supervisor Lib Announcing AnnounceSide ApplyFrame ApplyEffects ApplyRules

variable {Doc : Type} {env : Env Doc} {d d' : Daemon Doc} {w : Side} {b p : String}
variable {nb : Conf.Bridge} {np : Port}

def flagOf : RunningPort → Option Bool
  | .tcp _ _ f => some f
  | _ => none

/-- Whether a `tcp-server` port runs here, and is followed. -/
def flag (d : Daemon Doc) (k : String × String) : Option Bool := (d.port k.1 k.2).bind flagOf

theorem followed_iff (d : Daemon Doc) (k : String × String) :
    (followed d k).isSome = true ↔ flag d k = some true := by
  unfold followed flag
  cases d.port k.1 k.2 with
  | none => simp
  | some rp =>
    cases rp with
    | tcp l live f => cases f <;> simp [flagOf]
    | _ => simp [flagOf]

def side (w : Side) (d : Daemon Doc) : Side := d.log.foldl done w

theorem side_emit (d : Daemon Doc) (e : Effect) : side w (d.emit e) = done (side w d) e := by
  simp only [side, Daemon.emit, List.foldl_append, List.foldl_cons, List.foldl_nil]

theorem side_of_log (h : d'.log = d.log) : side w d' = side w d := by
  unfold side
  rw [h]

theorem port_modifyBridge (d : Daemon Doc) (b : String) (f : RunningBridge → RunningBridge)
    (b' p' : String) : (d.modifyBridge b f).port b' p' =
      if b = b' then (d.bridges[b']?).bind (fun rb => (f rb).ports[p']?) else d.port b' p' := by
  unfold Daemon.port
  by_cases hb : b = b'
  · subst hb
    rw [if_pos rfl, slot_modifyBridge_self, Option.bind_map]
    rfl
  · rw [if_neg hb, slot_modifyBridge_ne hb]

theorem contains_modifyBridge (d : Daemon Doc) (b : String) (f : RunningBridge → RunningBridge)
    (b' : String) : (d.modifyBridge b f).bridges.contains b' = d.bridges.contains b' := by
  rw [Std.TreeMap.contains_eq_isSome_getElem?, Std.TreeMap.contains_eq_isSome_getElem?]
  by_cases hb : b = b'
  · subst hb
    rw [slot_modifyBridge_self, Option.isSome_map]
  · rw [slot_modifyBridge_ne hb]

theorem announcer_modifyBridge (d : Daemon Doc) (b : String) (f : RunningBridge → RunningBridge) :
    (d.modifyBridge b f).announcer = d.announcer := by
  unfold Daemon.modifyBridge
  split <;> rfl

theorem announcer_setPort (d : Daemon Doc) : (d.setPort b p rp).announcer = d.announcer :=
  announcer_modifyBridge ..

theorem contains_setPort (d : Daemon Doc) (b' : String) :
    (d.setPort b p rp).bridges.contains b' = d.bridges.contains b' := contains_modifyBridge ..

theorem flag_modifyBridge (d : Daemon Doc) (b : String) {f : RunningBridge → RunningBridge}
    (hf : ∀ rb, (f rb).ports = rb.ports) : flag (d.modifyBridge b f) = flag d := by
  funext k
  unfold flag
  rw [port_modifyBridge]
  split
  · simp only [hf]
    rfl
  · rfl

theorem flag_setPort (h : d.bridges.contains b = true) (rp : RunningPort) :
    flag (d.setPort b p rp) = Function.update (flag d) (b, p) (flagOf rp) := by
  rw [Std.TreeMap.contains_eq_isSome_getElem?] at h
  obtain ⟨rb, hb⟩ := Option.isSome_iff_exists.mp h
  funext ⟨b', p'⟩
  unfold flag Daemon.setPort
  rw [port_modifyBridge]
  by_cases hk : (b', p') = (b, p)
  · cases hk
    rw [Function.update_self, if_pos rfl, hb]
    simp only [Option.bind_some, getElem?_insert_self]
  · rw [Function.update_of_ne hk]
    split
    · rename_i hbb
      subst hbb
      have hp : p ≠ p' := fun he => hk (he ▸ rfl)
      simp only [getElem?_insert_ne hp]
      rfl
    · rfl

theorem flag_erasePort (d : Daemon Doc) (b p : String) :
    flag (d.modifyBridge b (fun rb => { rb with ports := rb.ports.erase p })) =
      Function.update (flag d) (b, p) none := by
  funext ⟨b', p'⟩
  unfold flag
  rw [port_modifyBridge]
  by_cases hk : (b', p') = (b, p)
  · cases hk
    rw [Function.update_self, if_pos rfl]
    cases d.bridges[b]? <;> simp
  · rw [Function.update_of_ne hk]
    split
    · rename_i hbb
      subst hbb
      have hp : p ≠ p' := fun he => hk (he ▸ rfl)
      simp only [getElem?_erase_ne hp]
      rfl
    · rfl

theorem contains_of_flag (h : flag d (b, p) = some f) : d.bridges.contains b = true := by
  obtain ⟨rp, hp, _⟩ := Option.bind_eq_some_iff.mp h
  obtain ⟨rb, hb, _⟩ := Option.bind_eq_some_iff.mp hp
  rw [Std.TreeMap.contains_eq_isSome_getElem?, hb]
  rfl

def stance (d : Daemon Doc) : (String × String → Option Bool) × Bool × (String → Bool) :=
  (flag d, d.announcer, fun b => d.bridges.contains b)

theorem flag_of_stance (h : stance d' = stance d) : flag d' = flag d := congrArg Prod.fst h

theorem announcer_of_stance (h : stance d' = stance d) : d'.announcer = d.announcer :=
  congrArg (fun s => s.2.1) h

theorem contains_of_stance (h : stance d' = stance d) (b : String) :
    d'.bridges.contains b = d.bridges.contains b := congrFun (congrArg (fun s => s.2.2) h) b

theorem stance_emit (d : Daemon Doc) (e : Effect) : stance (d.emit e) = stance d := rfl

theorem stance_modifyBridge (d : Daemon Doc) (b : String) {f : RunningBridge → RunningBridge}
    (hf : ∀ rb, (f rb).ports = rb.ports) : stance (d.modifyBridge b f) = stance d :=
  Prod.ext (flag_modifyBridge d b hf) (Prod.ext (announcer_modifyBridge ..)
    (funext (contains_modifyBridge d b f)))

theorem stance_updateState (d : Daemon Doc) (f : State → State) :
    stance (d.updateState env f).2 = stance d := by
  simp only [Daemon.updateState]
  split
  · rfl
  · split
    · rfl
    · split <;> rfl

theorem stance_setPort_same (h : d.port b p = some rp') (hs : flagOf rp = flagOf rp') :
    stance (d.setPort b p rp) = stance d := by
  have hc : d.bridges.contains b = true := by
    obtain ⟨rb, hb, _⟩ := Option.bind_eq_some_iff.mp h
    rw [Std.TreeMap.contains_eq_isSome_getElem?, hb]
    rfl
  refine Prod.ext ?_ (Prod.ext (announcer_setPort d) (funext (contains_setPort d)))
  have hf : flag d (b, p) = flagOf rp := by
    unfold flag
    rw [h, hs]
    rfl
  dsimp only [stance]
  rw [flag_setPort hc, ← hf, Function.update_eq_self]

theorem bridgeCmd_same (d : Daemon Doc) (b : String) (c : BridgeCmd) :
    stance (d.bridgeCmd b c) = stance d ∧ side w (d.bridgeCmd b c) = side w d := by
  unfold Daemon.bridgeCmd
  split
  · exact ⟨rfl, side_emit d _⟩
  · exact ⟨rfl, rfl⟩

section stopping

theorem flag_stopPort (d : Daemon Doc) (b p : String) :
    flag (d.stopPort b p) = Function.update (flag d) (b, p) none := by
  unfold Daemon.stopPort
  split
  · rename_i hp
    have hf : flag d (b, p) = none := by
      unfold flag
      rw [hp]
      rfl
    rw [← hf, Function.update_eq_self]
  · dsimp only
    split
    · unfold Daemon.announceDown
      split <;> exact flag_erasePort d b p
    · exact flag_erasePort d b p
    · exact flag_erasePort d b p

theorem announcer_stopPort (d : Daemon Doc) (b p : String) :
    (d.stopPort b p).announcer = d.announcer := by
  unfold Daemon.stopPort
  split
  · rfl
  · dsimp only
    split
    · unfold Daemon.announceDown
      split <;> exact announcer_modifyBridge ..
    · exact announcer_modifyBridge ..
    · exact announcer_modifyBridge ..

theorem contains_stopPort (d : Daemon Doc) (b p b' : String) :
    (d.stopPort b p).bridges.contains b' = d.bridges.contains b' := by
  unfold Daemon.stopPort
  split
  · rfl
  · dsimp only
    split
    · unfold Daemon.announceDown
      split <;> exact contains_modifyBridge ..
    · exact contains_modifyBridge ..
    · exact contains_modifyBridge ..

/-- The announcer is told of a `tcp-server` port that stops. -/
theorem side_stopPort (d : Daemon Doc) (b p : String) : side w (d.stopPort b p) =
    if (flag d (b, p)).isSome ∧ d.announcer = true then done (side w d) (.announce (.down b p))
    else side w d := by
  have hm : ∀ f, side w (d.modifyBridge b f) = side w d :=
    fun f => side_of_log (log_modifyBridge ..)
  unfold Daemon.stopPort
  split
  · rename_i hp
    have hf : flag d (b, p) = none := by
      unfold flag
      rw [hp]
      rfl
    rw [if_neg (by simp [hf])]
  · rename_i rp hp
    have hf : flag d (b, p) = flagOf rp := by
      unfold flag
      rw [hp]
      rfl
    rw [hf]
    dsimp only
    rw [side_emit]
    split
    · unfold Daemon.announceDown
      rw [announcer_modifyBridge]
      split
      · rename_i ha
        rw [if_pos ⟨rfl, ha⟩, side_emit, hm]
        rfl
      · rename_i ha
        rw [if_neg (fun h => ha h.2), hm]
        rfl
    · rw [if_neg (by simp [flagOf]), hm]
      rfl
    · rw [if_neg (by simp [flagOf]), hm]
      rfl

end stopping

def asked (env : Env Doc) (d : Daemon Doc) : Bool := d.announcer || env.startAnnouncer

theorem flag_announceBridge (env : Env Doc) (d : Daemon Doc) (nb : Conf.Bridge) :
    flag (d.announceBridge env nb) = flag d := by
  unfold Daemon.announceBridge
  split
  · dsimp only
    split <;> rfl
  · rfl

theorem contains_announceBridge (env : Env Doc) (d : Daemon Doc) (nb : Conf.Bridge) (b : String) :
    (d.announceBridge env nb).bridges.contains b = d.bridges.contains b := by
  unfold Daemon.announceBridge
  split
  · dsimp only
    split <;> rfl
  · rfl

theorem announcer_announceBridge (env : Env Doc) (d : Daemon Doc) (nb : Conf.Bridge) :
    (d.announceBridge env nb).announcer =
      if d.bridges.contains nb.id = true then asked env d else d.announcer := by
  unfold Daemon.announceBridge
  split
  · dsimp only
    split <;> rfl
  · rfl

theorem side_announceBridge (env : Env Doc) (d : Daemon Doc) (nb : Conf.Bridge) :
    side w (d.announceBridge env nb) =
      if d.bridges.contains nb.id = true ∧ asked env d = true then
        done (side w d) (.announce (.bridge nb.id nb.publicName))
      else side w d := by
  unfold Daemon.announceBridge
  split
  · rename_i hc
    dsimp only
    split
    · rename_i ha
      have ha : asked env d = true := ha
      rw [if_pos ⟨hc, ha⟩, side_emit]
      rfl
    · rename_i ha
      have ha : ¬ asked env d = true := ha
      rw [if_neg (fun h => ha h.2)]
      rfl
  · rename_i hc
    rw [if_neg (fun h => hc h.1)]

/-- A change of name may leave a command to a task of its own. -/
theorem publicNameChanged_same (env : Env Doc) (d : Daemon Doc) (nb : Conf.Bridge) :
    stance (d.publicNameChanged env nb) = stance d ∧
      (side w (d.publicNameChanged env nb) = side w d ∨
        side w (d.publicNameChanged env nb) =
          done (side w d) (.announceLater nb.id nb.publicName)) := by
  have hst : stance (d.updateState env (fun s => s.clearAdjustedPublicName nb.id)).2 = stance d :=
    stance_updateState d _
  have hl : side w (d.updateState env (fun s => s.clearAdjustedPublicName nb.id)).2 = side w d :=
    side_of_log (log_updateState d _)
  unfold Daemon.publicNameChanged
  generalize (d.updateState env (fun s => s.clearAdjustedPublicName nb.id)).2 = d₁ at hst hl
  have hs : stance (d₁.modifyBridge nb.id (fun rb => { rb with name := nb.publicName })) =
      stance d :=
    (stance_modifyBridge d₁ nb.id (f := fun rb => { rb with name := nb.publicName })
      (fun _ => rfl)).trans hst
  have hw : side w (d₁.modifyBridge nb.id (fun rb => { rb with name := nb.publicName })) =
      side w d :=
    (side_of_log (log_modifyBridge ..)).trans hl
  dsimp only
  split
  · exact ⟨(stance_emit ..).trans hs, .inr (by rw [side_emit, hw])⟩
  · exact ⟨hs, .inl hw⟩

/-- What an update can do to a port's announcing: nothing, where it is as the
config has it or not there at all, stop it, or start it. -/
inductive Updated (env : Env Doc) (w : Side) (d : Daemon Doc) (nb : Conf.Bridge) (np : Port)
    (d' : Daemon Doc) : Prop where
  | same : stance d' = stance d → side w d' = side w d →
      (∀ f, flag d (nb.id, np.id) = some f → ∀ l m a n, np.kind = .tcpServer l m a n → n = f) →
      Updated env w d nb np d'
  | off : flag d (nb.id, np.id) = some true → np.kind = .tcpServer l m a false →
      flag d' = Function.update (flag d) (nb.id, np.id) (some false) →
      d'.announcer = d.announcer →
      side w d' = (if d.announcer = true then
        done (side w d) (.announce (.down nb.id np.id)) else side w d) →
      Updated env w d nb np d'
  | on : flag d (nb.id, np.id) = some false → np.kind = .tcpServer l m a true →
      flag d' = Function.update (flag d) (nb.id, np.id) (some (asked env d)) →
      d'.announcer = asked env d →
      side w d' = (if asked env d = true then
        done (side w d) (.announce (.bridge nb.id nb.publicName)) else side w d) →
      Updated env w d nb np d'

theorem updatePort_updated (env : Env Doc) (w : Side) (d : Daemon Doc) (nb : Conf.Bridge)
    (np : Port) : Updated env w d nb np (d.updatePort env nb np) := by
  unfold Daemon.updatePort
  split
  · rename_i l' m a n l live f hk hp
    have hf : flag d (nb.id, np.id) = some f := by
      unfold flag
      rw [hp]
      rfl
    have hc := contains_of_flag hf
    dsimp only
    split
    · rename_i hn
      obtain ⟨rfl, rfl⟩ : n = false ∧ f = true := by simpa using hn
      refine .off hf hk ?_ ?_ ?_
      · unfold Daemon.announceDown
        split <;> exact flag_setPort hc _
      · unfold Daemon.announceDown
        split <;> exact announcer_setPort d
      · unfold Daemon.announceDown
        rw [announcer_setPort]
        split
        · rw [side_emit, side_of_log (log_setPort d)]
        · exact side_of_log (log_setPort d)
    · split
      · rename_i hn
        obtain ⟨rfl, rfl⟩ : n = true ∧ f = false := by simpa using hn
        have hs : stance (d.setPort nb.id np.id (.tcp l ⟨m, a⟩ false)) = stance d :=
          stance_setPort_same hp rfl
        have hlog : side w (d.setPort nb.id np.id (.tcp l ⟨m, a⟩ false)) = side w d :=
          side_of_log (log_setPort d)
        generalize d.setPort nb.id np.id (.tcp l ⟨m, a⟩ false) = d₁ at hs hlog
        have hc₁ := (contains_of_stance hs nb.id).trans hc
        have ha₁ : asked env d₁ = asked env d :=
          congrArg (fun x => x || env.startAnnouncer) (announcer_of_stance hs)
        have hann : asked env (d₁.announceBridge env nb) = asked env d := by
          unfold asked at ha₁ ⊢
          rw [announcer_announceBridge, if_pos hc₁]
          unfold asked
          rw [ha₁]
          simp
        have hcon : ((d₁.announceBridge env nb).withAnnouncer env).bridges.contains nb.id = true :=
          (contains_announceBridge env d₁ nb nb.id).trans hc₁
        refine .on hf hk ?_ ?_ ?_
        · refine (flag_setPort hcon _).trans ?_
          have hfl : flag ((d₁.announceBridge env nb).withAnnouncer env) = flag d :=
            (flag_announceBridge env d₁ nb).trans (flag_of_stance hs)
          rw [hfl]
          have hfo : flagOf (.tcp l ⟨m, a⟩
              (((d₁.announceBridge env nb).withAnnouncer env).announcer || false)) =
              some (asked env d) := by
            rw [Bool.or_false]
            exact congrArg some hann
          exact congrArg (Function.update (flag d) (nb.id, np.id)) hfo
        · exact (announcer_setPort _).trans hann
        · refine (side_of_log (log_setPort _)).trans ?_
          have hw : side w ((d₁.announceBridge env nb).withAnnouncer env) =
            side w (d₁.announceBridge env nb) := rfl
          refine hw.trans ?_
          rw [side_announceBridge, ha₁, hlog]
          simp only [hc₁, true_and]
      · rename_i hoff hon
        refine .same (stance_setPort_same hp rfl) (side_of_log (log_setPort d)) ?_
        intro f' hf' l₂ m₂ a₂ n₂ hk₂
        rw [hk] at hk₂
        cases hk₂
        rw [hf] at hf'
        cases hf'
        cases n <;> cases f <;> simp_all
  · rename_i adapter' m adapter m' hk hp
    refine .same (stance_setPort_same hp rfl) (side_of_log (log_setPort d)) ?_
    intro f hf l m a n hk'
    rw [hk] at hk'
    cases hk'
  · rename_i hno _
    refine .same rfl rfl ?_
    intro f hf l m a n hk
    obtain ⟨rp, hp, hrp⟩ := Option.bind_eq_some_iff.mp hf
    cases rp with
    | tcp l live f => exact absurd hp (hno _ _ _ _ _ _ _ hk)
    | _ => cases hrp

inductive Begun (env : Env Doc) (w : Side) (d : Daemon Doc) (nb : Conf.Bridge) (np : Port)
    (d' : Daemon Doc) : Prop where
  | left : d' = { d with bluezErrors := es } → Begun env w d nb np d'
  | tcp : d.bridges.contains nb.id = true → np.kind = .tcpServer l m a n →
      flag d' = Function.update (flag d) (nb.id, np.id) (some (n && asked env d)) →
      d'.announcer = (if n then asked env d else d.announcer) →
      side w d' = done (side w d) (.startPort nb.id np.id rp) → Begun env w d nb np d'
  | ble : flag d' = Function.update (flag d) (nb.id, np.id) none →
      d'.announcer = d.announcer →
      side w d' = done (side w d) (.startPort nb.id np.id rp) → Begun env w d nb np d'

theorem startPort_begun (env : Env Doc) (w : Side) (d : Daemon Doc) (nb : Conf.Bridge) (np : Port) :
    Begun env w d nb np (d.startPort env nb np) := by
  have hset : ∀ (d : Daemon Doc) rp,
    side w ((d.setPort nb.id np.id rp).emit (.startPort nb.id np.id rp)) =
      done (side w d) (.startPort nb.id np.id rp) := by
    intro d rp
    rw [side_emit, side_of_log (log_setPort d)]
  have hself : d = { d with bluezErrors := d.bluezErrors } := rfl
  unfold Daemon.startPort
  split
  · exact .left hself
  · rename_i hc
    have hc : d.bridges.contains nb.id = true := by simpa using hc
    split
    · rename_i l m a n hk
      dsimp only
      cases n with
      | false => exact .tcp hc hk (flag_setPort hc _) (announcer_setPort d) (hset d _)
      | true =>
        have hcw : (d.withAnnouncer env).bridges.contains nb.id = true := hc
        refine .tcp hc hk ?_ (announcer_setPort (d.withAnnouncer env))
          (hset (d.withAnnouncer env) _)
        refine (flag_setPort hcw _).trans ?_
        have hfo : flagOf (.tcp l ⟨m, a⟩ ((d.withAnnouncer env).announcer || false)) =
            some (true && asked env d) := by
          rw [Bool.or_false, Bool.true_and]
          rfl
        exact congrArg (Function.update (flag d) (nb.id, np.id)) hfo
    · split
      · exact .ble (flag_setPort hc _) (announcer_setPort d) (hset d _)
      · exact .left rfl
    all_goals exact .left hself

theorem contains_startPort (d : Daemon Doc) (nb : Conf.Bridge) (np : Port) (b : String) :
    (d.startPort env nb np).bridges.contains b = d.bridges.contains b := by
  unfold Daemon.startPort
  split
  · rfl
  · split
    · rename_i l m a n _
      dsimp only
      cases n
      · exact contains_setPort d b
      · exact contains_setPort (d.withAnnouncer env) b
    · split
      · exact contains_setPort d b
      · rfl
    all_goals rfl

theorem contains_updatePort (d : Daemon Doc) (nb : Conf.Bridge) (np : Port) (b : String) :
    (d.updatePort env nb np).bridges.contains b = d.bridges.contains b := by
  unfold Daemon.updatePort
  split
  · dsimp only
    split
    · unfold Daemon.announceDown
      split <;> exact contains_setPort d b
    · split
      · refine (contains_setPort _ b).trans ?_
        exact (contains_announceBridge env _ nb b).trans (contains_setPort d b)
      · exact contains_setPort d b
  · exact contains_setPort d b
  · rfl

theorem flag_stopPorts (keys : List String) (d : Daemon Doc) (k : String × String) :
    flag (keys.foldl (fun d p => d.stopPort b p) d) k =
      if k.1 = b ∧ k.2 ∈ keys then none else flag d k := by
  induction keys generalizing d with
  | nil => simp
  | cons q keys ih =>
    rw [List.foldl_cons, ih, flag_stopPort]
    by_cases hk : k = (b, q)
    · subst hk
      simp
    · rw [Function.update_of_ne hk]
      have hq : k.1 = b → k.2 ≠ q := fun h he => hk (Prod.ext h he)
      by_cases hb : k.1 = b
      · simp [hb, hq hb]
      · simp [hb]

/-- Nothing of a bridge runs once its ports are stopped. -/
theorem flag_stopAll (hb : d.bridges[b]? = some rb) (p : String) :
    flag (rb.ports.keys.foldl (fun d p => d.stopPort b p) d) (b, p) = none := by
  rw [flag_stopPorts]
  split
  · rfl
  · rename_i hn
    have hp : rb.ports[p]? = none := by
      refine Std.TreeMap.getElem?_eq_none (fun hm => hn ⟨rfl, ?_⟩)
      exact Std.TreeMap.mem_keys.mpr hm
    unfold flag Daemon.port
    rw [hb]
    dsimp only [Option.bind_some]
    rw [hp]
    rfl

theorem flag_eraseBridge (h : ∀ p, flag d (b, p) = none) :
    flag { d with bridges := d.bridges.erase b } = flag d := by
  funext ⟨b', p⟩
  by_cases hb : b = b'
  · subst hb
    rw [h p]
    unfold flag Daemon.port
    dsimp only
    rw [getElem?_erase_self]
    rfl
  · unfold flag Daemon.port
    dsimp only
    rw [getElem?_erase_ne hb]

theorem flag_stopBridge (d : Daemon Doc) (b : String) (k : String × String) :
    flag (d.stopBridge b) k = if k.1 = b then none else flag d k := by
  unfold Daemon.stopBridge
  split
  · rename_i hb
    split
    · rename_i he
      unfold flag Daemon.port
      rw [he, hb]
      rfl
    · rfl
  · rename_i rb hb
    have hn := flag_stopAll hb
    have hk := flag_stopPorts (b := b) rb.ports.keys d k
    generalize rb.ports.keys.foldl (fun d p => d.stopPort b p) d = d₁ at hn hk
    have hfl : flag { d₁ with bridges := d₁.bridges.erase b } k =
        if k.1 = b then none else flag d k := by
      rw [flag_eraseBridge hn]
      split
      · rename_i he
        have hkb : k = (b, k.2) := Prod.ext he rfl
        rw [hkb]
        exact hn k.2
      · rename_i he
        rw [hk, if_neg (fun h => he h.1)]
    dsimp only
    split <;> exact hfl

theorem flag_enterBridge (d : Daemon Doc) (nb : Conf.Bridge) (n : String) (tnc : Port)
    (k : String × String) : flag { d with
      bridges := d.bridges.insert nb.id ⟨nb, n, .ofList [(tnc.id, RunningPort.tnc)]⟩ } k =
    if k.1 = nb.id then none else flag d k := by
  unfold flag Daemon.port
  dsimp only
  split
  · rename_i he
    rw [he, getElem?_insert_self]
    simp only [Option.bind_some, Std.TreeMap.ofList_singleton]
    by_cases ht : tnc.id = k.2
    · rw [ht, getElem?_insert_self]
      rfl
    · rw [getElem?_insert_ne ht, Std.TreeMap.getElem?_emptyc]
      rfl
  · rename_i he
    rw [getElem?_insert_ne (fun h => he h.symm)]

structure Good (w : Side) (d : Daemon Doc) : Prop where
  told : ∀ k, flag d k = some true → Told (side w d) k
  untold : ∀ k, flag d k ≠ some true → Untold (side w d) k
  announcer : ∀ k, flag d k = some true → d.announcer = true

theorem Good.same (h : Good w d) (hw : side w d' = side w d)
    (ha : d.announcer = true → d'.announcer = true)
    (hk : ∀ k, flag d' k = some true ↔ flag d k = some true) : Good w d' := by
  refine ⟨fun k hf => ?_, fun k hf => ?_, fun k hf => ha (h.announcer k ((hk k).mp hf))⟩
  · rw [hw]
    exact h.told k ((hk k).mp hf)
  · rw [hw]
    exact h.untold k (fun hf' => hf ((hk k).mpr hf'))

/-- A step that ends with one effect: a port that is followed after it was and is
not touched by the effect, or comes to be followed on a bridge that is known;
and the announcer is told of one that no longer is. -/
theorem Good.after (h : Good w d) (hw : side w d' = done (side w d) e)
    (ha : d.announcer = true → d'.announcer = true)
    (hk : ∀ k, flag d' k = some true → (flag d k = some true ∧ ¬ Touches k e) ∨
      (flag d k ≠ some true ∧ Knows (done (side w d) e) k.1 ∧ d'.announcer = true))
    (hu : ∀ k, flag d k = some true → flag d' k ≠ some true → e = .announce (.down k.1 k.2)) :
    Good w d' := by
  refine ⟨fun k hf => ?_, fun k hf => ?_, fun k hf => ?_⟩
  · rw [hw]
    rcases hk k hf with ⟨hd, ht⟩ | ⟨hd, hn, _⟩
    · exact (h.told k hd).aside ht
    · exact ((h.untold k hd).done e).begin hn
  · rw [hw]
    by_cases hd : flag d k = some true
    · rw [hu k hd hf]
      exact untold_down ..
    · exact (h.untold k hd).done e
  · rcases hk k hf with ⟨hd, _⟩ | ⟨_, _, hn⟩
    · exact ha (h.announcer k hd)
    · exact hn

theorem Good.of_stance (h : Good w d) (hs : stance d' = stance d) (hw : side w d' = side w d) :
    Good w d' := by
  refine h.same hw (fun ha => (announcer_of_stance hs).trans ha) (fun k => ?_)
  rw [flag_of_stance hs]

theorem Good.tells (h : Good w d) (hs : stance d' = stance d) (hw : side w d' = done (side w d) e)
    (ht : ∀ k, flag d k = some true → ¬ Touches k e) : Good w d' := by
  refine h.after hw (fun ha => (announcer_of_stance hs).trans ha) (fun k hf => ?_)
    (fun k hf hn => ?_)
  · rw [flag_of_stance hs] at hf
    exact .inl ⟨hf, ht k hf⟩
  · rw [flag_of_stance hs] at hn
    exact absurd hf hn

theorem good_stopPort (h : Good w d) (b p : String) : Good w (d.stopPort b p) := by
  have hfl := flag_stopPort d b p
  have ha : d.announcer = true → (d.stopPort b p).announcer = true :=
    fun ha => (announcer_stopPort d b p).trans ha
  have hw := side_stopPort (w := w) d b p
  by_cases hd : (flag d (b, p)).isSome ∧ d.announcer = true
  · rw [if_pos hd] at hw
    refine h.after hw ha (fun k hf => .inl ?_) (fun k hf hn => ?_)
    · rw [hfl] at hf
      by_cases hk : k = (b, p)
      · rw [hk, Function.update_self] at hf
        cases hf
      · rw [Function.update_of_ne hk] at hf
        exact ⟨hf, fun ht => hk ht.symm⟩
    · by_cases hk : k = (b, p)
      · rw [hk]
      · rw [hfl, Function.update_of_ne hk] at hn
        exact absurd hf hn
  · rw [if_neg hd] at hw
    refine h.same hw ha (fun k => ?_)
    rw [hfl]
    by_cases hk : k = (b, p)
    · subst hk
      rw [Function.update_self]
      refine iff_of_false (by simp) (fun hf => hd ⟨?_, h.announcer _ hf⟩)
      rw [hf]
      rfl
    · rw [Function.update_of_ne hk]

theorem good_stopBridge (h : Good w d) (b : String) : Good w (d.stopBridge b) := by
  unfold Daemon.stopBridge
  split
  · exact h
  · rename_i rb hb
    have hg : Good w (rb.ports.keys.foldl (fun d p => d.stopPort b p) d) :=
      foldl_inv _ _ _ h (fun d p _ h => good_stopPort h b p)
    have hn := flag_stopAll hb
    generalize rb.ports.keys.foldl (fun d p => d.stopPort b p) d = d₁ at hg hn
    have hfl := flag_eraseBridge hn
    have he : Good w ({ d₁ with bridges := d₁.bridges.erase b }.emit (.stopBridge b)) := by
      refine hg.same (side_emit _ _) id (fun k => ?_)
      have hfe : flag ({ d₁ with bridges := d₁.bridges.erase b }.emit (.stopBridge b)) = flag d₁ :=
        hfl
      rw [hfe]
    dsimp only
    split
    · refine he.tells (stance_emit ..) (side_emit ..) (fun k hf ht => ?_)
      have hfk : flag d₁ k = some true := (congrFun hfl k).symm.trans hf
      have hk : k = (b, k.2) := Prod.ext (Eq.symm ht) rfl
      rw [hk, hn k.2] at hfk
      cases hfk
    · exact he

theorem good_announceBridge (h : Good w d) (nb : Conf.Bridge) :
    Good w (d.announceBridge env nb) := by
  have ha : d.announcer = true → (d.announceBridge env nb).announcer = true := by
    intro ha
    rw [announcer_announceBridge]
    split
    · simp [asked, ha]
    · exact ha
  have hfl := flag_announceBridge env d nb
  have hw := side_announceBridge (w := w) env d nb
  split at hw
  · refine h.after hw ha (fun k hf => .inl ⟨hfl ▸ hf, id⟩) (fun k hf hn => ?_)
    rw [hfl] at hn
    exact absurd hf hn
  · refine h.same hw ha (fun k => ?_)
    rw [hfl]

theorem good_publicNameChanged (h : Good w d) (nb : Conf.Bridge) :
    Good w (d.publicNameChanged env nb) := by
  obtain ⟨hs, hw | hw⟩ := publicNameChanged_same (w := w) env d nb
  · exact h.of_stance hs hw
  · exact h.tells hs hw (fun _ _ => id)

theorem good_updatePort (h : Good w d) (nb : Conf.Bridge) (np : Port) :
    Good w (d.updatePort env nb np) := by
  cases updatePort_updated env w d nb np with
  | same hs hw _ => exact h.of_stance hs hw
  | off hf _ hfl ha hw =>
    rw [if_pos (h.announcer _ hf)] at hw
    refine h.after hw (fun h => ha.trans h) (fun k hk => .inl ?_) (fun k hk hn => ?_)
    · rw [hfl] at hk
      by_cases he : k = (nb.id, np.id)
      · rw [he, Function.update_self] at hk
        cases hk
      · rw [Function.update_of_ne he] at hk
        exact ⟨hk, fun ht => he ht.symm⟩
    · by_cases he : k = (nb.id, np.id)
      · rw [he]
      · rw [hfl, Function.update_of_ne he] at hn
        exact absurd hk hn
  | on hf _ hfl ha hw =>
    have hmono : d.announcer = true → (d.updatePort env nb np).announcer = true := by
      intro h
      rw [ha]
      simp [asked, h]
    have hne : flag d (nb.id, np.id) ≠ some true := by simp [hf]
    split at hw
    · rename_i has
      refine h.after hw hmono (fun k hk => ?_) (fun k hk hn => ?_)
      · by_cases he : k = (nb.id, np.id)
        · subst he
          exact .inr ⟨hne, knows_bridge .., ha.trans has⟩
        · rw [hfl, Function.update_of_ne he] at hk
          exact .inl ⟨hk, id⟩
      · by_cases he : k = (nb.id, np.id)
        · exact absurd (he ▸ hk) hne
        · rw [hfl, Function.update_of_ne he] at hn
          exact absurd hk hn
    · rename_i has
      refine h.same hw hmono (fun k => ?_)
      rw [hfl]
      by_cases he : k = (nb.id, np.id)
      · subst he
        rw [Function.update_self]
        refine iff_of_false ?_ hne
        simpa using has
      · rw [Function.update_of_ne he]

/-- A port that starts to announce on a bridge that is known. -/
theorem good_startPort (h : Good w d) (ha : asked env d = true)
    (hf : flag d (nb.id, np.id) ≠ some true)
    (hk : ∀ l m a, np.kind = .tcpServer l m a true → d.bridges.contains nb.id = true →
      Knows (side w d) nb.id) : Good w (d.startPort env nb np) := by
  cases startPort_begun env w d nb np with
  | left he =>
    rw [he]
    exact h.same rfl id (fun _ => Iff.rfl)
  | @tcp l m a n rp hc hkind hfl hann hw =>
    have hmono : d.announcer = true → (d.startPort env nb np).announcer = true := by
      intro h
      rw [hann]
      split
      · exact ha
      · exact h
    refine h.after hw hmono (fun k hk' => ?_) (fun k hk' hn => ?_)
    · by_cases he : k = (nb.id, np.id)
      · subst he
        rw [hfl, Function.update_self, ha] at hk'
        cases n with
        | false => cases hk'
        | true =>
          refine .inr ⟨hf, knows_done (by simp) (hk l m a hkind hc), ?_⟩
          rw [hann]
          exact ha
      · rw [hfl, Function.update_of_ne he] at hk'
        exact .inl ⟨hk', fun ht => he ht.symm⟩
    · by_cases he : k = (nb.id, np.id)
      · exact absurd (he ▸ hk') hf
      · rw [hfl, Function.update_of_ne he] at hn
        exact absurd hk' hn
  | ble hfl hann hw =>
    refine h.after hw (fun h => hann.trans h) (fun k hk' => .inl ?_) (fun k hk' hn => ?_)
    · by_cases he : k = (nb.id, np.id)
      · rw [hfl, he, Function.update_self] at hk'
        cases hk'
      · rw [hfl, Function.update_of_ne he] at hk'
        exact ⟨hk', fun ht => he ht.symm⟩
    · by_cases he : k = (nb.id, np.id)
      · exact absurd (he ▸ hk') hf
      · rw [hfl, Function.update_of_ne he] at hn
        exact absurd hk' hn

end KissTncBridge.Proofs.Following
