import KissTncBridge.Lib.Runs
import KissTncBridge.Proofs.ActSteps
import KissTncBridge.Proofs.AnnounceMoves

namespace KissTncBridge.Proofs.Announced
open Conf Bridge Reconcile Supervisor Lib Announce Announcing AnnounceSide Daemon
open ApplyFrame ApplyPorts ApplyEffects PlanFacts ValidConfig ActSteps
open Following AnnounceApply AnnounceFlags AnnounceMoves

variable {Doc : Type} {env : Env Doc} {d d' : Daemon Doc} {w : Side}
variable {s s' : Sys Doc} {k : String × String}

def Registered (cs : List Cmd) (b : String) : Prop :=
  ∃ before c after, cs = before ++ .bridge b c :: after ∧ .forget b ∉ after

theorem Registered.snoc (h : Registered cs b) (hc : c ≠ .forget b) : Registered (cs ++ [c]) b := by
  obtain ⟨before, n, after, rfl, hn⟩ := h
  refine ⟨before, n, after ++ [c], by simp, fun hm => ?_⟩
  rcases List.mem_append.mp hm with hm | hm
  · exact hn hm
  · exact hc (List.mem_singleton.mp hm).symm

/-- The announcer knows the bridges that are registered. -/
theorem registered_of_knows (h : (heard cs).knows b = true) : Registered cs b := by
  induction cs using List.reverseRecOn with
  | nil => simp [heard, Announcer.knows, Announcer.new] at h
  | append_singleton cs c ih =>
    rw [heard_snoc, knows_onCmd] at h
    cases c with
    | bridge n c =>
      by_cases he : n = b
      · subst he
        exact ⟨cs, c, [], rfl, by simp⟩
      · exact (ih (by simpa [he] using h)).snoc (by simp)
    | forget n =>
      obtain ⟨hne, hk⟩ : ¬n = b ∧ (heard cs).knows b = true := by simpa using h
      exact (ih hk).snoc (by simpa using hne)
    | up n q svc => exact (ih h).snoc (by simp)
    | down n q => exact (ih h).snoc (by simp)

def UpsKnown (cs : List Cmd) : Prop :=
  ∀ before b p svc after, cs = before ++ .up b p svc :: after → Registered before b

theorem UpsKnown.snoc (h : UpsKnown cs) (hc : ∀ b p svc, c = .up b p svc → Registered cs b) :
    UpsKnown (cs ++ [c]) := by
  intro before b p svc after he
  rcases List.eq_nil_or_concat after with rfl | ⟨rest, x, rfl⟩
  · obtain ⟨rfl, hx⟩ := List.append_inj' he rfl
    exact hc b p svc (List.singleton_inj.mp hx)
  · rw [List.concat_eq_append, ← List.cons_append, ← List.append_assoc] at he
    exact h before b p svc rest (List.append_inj' he rfl).1

structure Flowing (w : Side) : Prop where
  drained : w.queue.foldl Announcer.onCmd w.announcer = heard w.sent
  late : ∀ c ∈ w.late, ∃ b n, c = .bridge b n
  ups : UpsKnown w.sent

theorem Flowing.push (h : Flowing w) (hc : ∀ b p svc, c = .up b p svc → Knows w b) :
    Flowing (w.push c) := by
  refine ⟨?_, h.late, h.ups.snoc (fun b p svc he => registered_of_knows (hc b p svc he))⟩
  show (w.queue ++ [c]).foldl Announcer.onCmd w.announcer = heard (w.sent ++ [c])
  rw [List.foldl_append, h.drained, heard_snoc]
  rfl

theorem flowing_done (h : Flowing w) (e : Effect) : Flowing (done w e) := by
  cases e with
  | announce c =>
    cases c with
    | down b p =>
      have ha : Flowing (w.abort (fun _ => false) (b, p)) := by
        refine ⟨h.drained, ?_, h.ups⟩
        simpa [Side.abort] using h.late
      exact ha.push (by simp)
    | bridge b n => exact h.push (by simp [cmdOf])
    | forget b => exact h.push (by simp [cmdOf])
  | announceLater b n =>
    refine ⟨h.drained, fun c hc => ?_, h.ups⟩
    rcases List.mem_append.mp hc with hc | hc
    · exact h.late c hc
    · exact ⟨b, n, List.mem_singleton.mp hc⟩
  | startPort b p rp => exact ⟨h.drained, h.late, h.ups⟩
  | _ => exact h

theorem flowing_side (h : Flowing w) (d : Daemon Doc) : Flowing (side w d) :=
  foldl_inv (P := Flowing) done d.log w h (fun _ e _ h => flowing_done h e)

/-- Where no task has a command in hand that slips through its abort, all of
them are dropped. -/
theorem effect_dropped {slips : String × String → Bool}
    (h : ∀ k, slips k = true → (w.follow k).hand = none) (e : Effect) :
    w.effect slips e = done w e := by
  cases e with
  | announce c =>
    cases c with
    | down b p =>
      have hl : (if slips (b, p) then (w.follow (b, p)).hand.toList else []) = [] := by
        split
        · rename_i hs
          rw [h _ hs]
          rfl
        · rfl
      simp only [done, Side.effect, Side.abort, hl]
      rfl
    | _ => rfl
  | _ => rfl

theorem hand_done (h : (w.follow k).hand = none) (e : Effect) :
    ((done w e).follow k).hand = none := by
  by_cases ht : Touches k e
  · cases e with
    | announce c =>
      cases c with
      | down b p =>
        subst ht
        have hf : (done w (.announce (.down b p))).follow (b, p) = {} := Function.update_self ..
        rw [hf]
      | _ => exact h
    | _ => exact h
  · rw [follow_aside ht]
    exact h

theorem foldl_dropped {slips : String × String → Bool} (es : List Effect)
    (h : ∀ k, slips k = true → (w.follow k).hand = none) :
    es.foldl (Side.effect slips) w = es.foldl done w := by
  induction es generalizing w with
  | nil => rfl
  | cons e es ih =>
    rw [List.foldl_cons, List.foldl_cons, effect_dropped h]
    exact ih (fun k hk => hand_done (h k hk) e)

/-- The announcing of a running daemon: its ports are followed as its config has
them, what is told is where the ports have it, and the commands flow in order. -/
structure Kept (s : Sys Doc) : Prop where
  valid : Valid s.daemon.cfg
  flagged : ∀ k, Flagged s.daemon.cfg k s.daemon
  good : Good s.side { s.daemon with log := [] }
  flowing : Flowing s.side

/-- A condition on the daemon's acts: the announcer runs or can be started; an
announcing port only joins a running bridge that the announcer has been told of,
or one on which the same act switches announcing on; and no task that follows a
port is caught sending as it is aborted. -/
def Sound (s : Sys Doc) : Step Doc → Prop
  | .act a slips =>
    (s.daemon.announcer = true ∨ (actEnv a).startAnnouncer = true) ∧
    (∀ d, { s.daemon with log := [] }.act a = some d → ∀ ob nb np, Joins s.daemon d.cfg ob nb np →
      Knows s.side nb.id ∨ ∃ op np, Switches s.daemon ob nb op np) ∧
    ∀ k, slips k = true → (s.side.follow k).hand = none
  | _ => True

theorem stance_of_core (h : core d' = core d) : stance d' = stance d := by
  have hb := bridges_of_core h
  have ha : d'.announcer = d.announcer := congrArg (fun c => c.2.2.2) h
  unfold stance flag Daemon.port
  rw [hb, ha]

theorem good_of_core (h : core d' = core d) (hg : Good w d) : Good w d' :=
  hg.of_stance (stance_of_core h) (side_of_log (log_of_core h))

theorem flagged_of_core (h : core d' = core d) (hf : Flagged d.cfg k d) : Flagged d'.cfg k d' := by
  rw [cfg_of_core h]
  exact hf.of_flag (congrFun (flag_of_stance (stance_of_core h)) k)

theorem joins_of_core (h : core d' = core d) (hj : Joins d' new ob nb np) :
    Joins d new ob nb np := by
  obtain ⟨hold, hnew, hid, hrun, hp, l, m, a, hk, hst⟩ := hj
  rw [cfg_of_core h] at hold
  rw [bridges_of_core h] at hrun
  refine ⟨hold, hnew, hid, hrun, hp, l, m, a, hk, fun op hop hpid => ?_⟩
  rw [← port_of_core h]
  exact hst op hop hpid

theorem switches_of_core (h : core d' = core d) (hs : Switches d ob nb op np) :
    Switches d' ob nb op np := by
  obtain ⟨hold, hnew, hid, hk, hrun⟩ := hs
  refine ⟨hold, hnew, hid, hk, ?_⟩
  rw [port_of_core h]
  exact hrun

/-- A move keeps the announcing. -/
theorem moves_kept (hv : Valid d.cfg) (hfl : ∀ k, Flagged d.cfg k d) (hg : Good w d)
    (ha : asked env d = true) (hm : Moves env d d')
    (hj : ∀ ob nb np, Joins d d'.cfg ob nb np → Knows (side w d) nb.id ∨
      ∃ op np, Switches d ob nb op np) :
    Valid d'.cfg ∧ (∀ k, Flagged d'.cfg k d') ∧ Good w d' := by
  obtain ⟨d₁, snapshot, new, h₁, hn, hc⟩ := hm
  have hcfg : d'.cfg = new := cfg_of_core hc
  have hv₁ : Valid d₁.cfg := by
    rw [cfg_of_core h₁]
    exact hv
  have ha₁ : asked env d₁ = true :=
    asked_mono (fun ha => (announcer_of_stance (stance_of_core h₁)).trans ha) ha
  have hf₁ : ∀ k, Flagged d₁.cfg k d₁ := fun k => flagged_of_core h₁ (hfl k)
  have hs₁ : side w d₁ = side w d := side_of_log (log_of_core h₁)
  refine ⟨hcfg ▸ hn, fun k => ?_, good_of_core hc ?_⟩
  · refine flagged_of_core hc ?_
    exact flagged_apply hv₁ hn (hf₁ k) ha₁
  · refine good_apply hv₁ hn hf₁ (good_of_core h₁ hg) ha₁ (fun ob nb np hjoin => ?_)
    rw [hs₁]
    refine (hj ob nb np (hcfg ▸ joins_of_core h₁ hjoin)).imp_right ?_
    exact fun ⟨op, np, hs⟩ => ⟨op, np, switches_of_core h₁ hs⟩

theorem good_renamed (hg : Good w d) (b n : String) (f : State → State) :
    Good w ((d.updateState env f).2.modifyBridge b (fun rb => { rb with name := n })) := by
  refine hg.of_stance ?_ (side_of_log ((log_modifyBridge ..).trans (log_updateState d f)))
  exact (stance_modifyBridge _ b (f := fun rb => { rb with name := n }) (fun _ => rfl)).trans
    (stance_updateState d f)

theorem flag_renamed (d : Daemon Doc) (b n : String) (f : State → State) :
    flag ((d.updateState env f).2.modifyBridge b (fun rb => { rb with name := n })) = flag d :=
  (flag_modifyBridge _ b (f := fun rb => { rb with name := n }) (fun _ => rfl)).trans
    (flag_of_stance (stance_updateState d f))

theorem retryPublicName_kept (env : Env Doc) (hg : Good w d) (b : String) :
    Good w (d.retryPublicName env b) ∧ flag (d.retryPublicName env b) = flag d := by
  unfold Daemon.retryPublicName
  dsimp only
  split
  · have hst : ∀ f, stance (d.updateState env f).2 = stance d := fun f => stance_updateState d f
    exact ⟨hg.of_stance (hst _) (side_of_log (log_updateState d _)), flag_of_stance (hst _)⟩
  · rename_i nb _
    split
    · exact ⟨good_announceBridge (good_renamed hg b _ _) nb,
        (flag_announceBridge env _ nb).trans (flag_renamed d b _ _)⟩
    · exact ⟨good_renamed hg b _ _, flag_renamed d b _ _⟩

theorem act_kept (hv : Valid d.cfg) (hfl : ∀ k, Flagged d.cfg k d) (hg : Good w d)
    (ha : asked (actEnv a) d = true) (hd : d.act a = some d')
    (hj : ∀ ob nb np, Joins d d'.cfg ob nb np → Knows (side w d) nb.id ∨
      ∃ op np, Switches d ob nb op np) :
    Valid d'.cfg ∧ (∀ k, Flagged d'.cfg k d') ∧ Good w d' := by
  have hsame : ∀ d' : Daemon Doc, d'.cfg = d.cfg → flag d' = flag d → Good w d' →
      Valid d'.cfg ∧ (∀ k, Flagged d'.cfg k d') ∧ Good w d' := by
    intro d' hc hs hg
    refine ⟨hc ▸ hv, fun k => ?_, hg⟩
    rw [hc]
    exact (hfl k).of_flag (congrFun hs k)
  rcases act_cases hd with hc | hm | ⟨env, b, c, n, _, rfl⟩ | ⟨env, b, _, rfl⟩
  · exact hsame d' (cfg_of_core hc) (flag_of_stance (stance_of_core hc)) (good_of_core hc hg)
  · exact moves_kept hv hfl hg ha hm hj
  · exact hsame _ (cfg_adjustName ..) (flag_renamed d b n _) (good_renamed hg b n _)
  · obtain ⟨hg', hf'⟩ := retryPublicName_kept env hg b
    exact hsame _ (cfg_retryPublicName ..) hf' hg'

theorem act_steps (h : Sys.step s (.act a slips) = some s') :
    ∃ d, { s.daemon with log := [] }.act a = some d ∧
      s' = ⟨d, d.log.foldl (Side.effect slips) s.side⟩ := by
  obtain ⟨d, hd, hs⟩ := Option.bind_eq_some_iff.mp h
  exact ⟨d, hd, (Option.some.inj hs).symm⟩

theorem step_act_kept (h : Kept s) (hs : Sound s (.act a slips))
    (hstep : s.step (.act a slips) = some s') : Kept s' := by
  obtain ⟨ha, hj, hslips⟩ := hs
  obtain ⟨d, hd, rfl⟩ := act_steps hstep
  obtain ⟨hv, hfl, hg⟩ :=
    act_kept (d := { s.daemon with log := [] }) (w := s.side) h.valid h.flagged
    h.good (asked_iff.mpr ha) hd (fun ob nb np hjoin => (hj d hd ob nb np
      ⟨hjoin.old, hjoin.new, hjoin.same, hjoin.running, hjoin.port, hjoin.starts⟩).imp_right
      (fun ⟨op, np, hs⟩ => ⟨op, np, hs.old, hs.new, hs.same, hs.kinds, hs.running⟩))
  have hside : d.log.foldl (Side.effect slips) s.side = side s.side d := foldl_dropped d.log hslips
  refine ⟨hv, hfl, ?_, ?_⟩
  · dsimp only
    rw [hside]
    exact ⟨hg.told, hg.untold, hg.announcer⟩
  · dsimp only
    rw [hside]
    exact flowing_side h.flowing d

theorem Kept.told (h : Kept s) (hf : flag s.daemon k = some true) : Told s.side k :=
  h.good.told k hf

theorem Kept.untold (h : Kept s) (hf : flag s.daemon k ≠ some true) : Untold s.side k :=
  h.good.untold k hf

/-- A step that leaves the daemon alone. -/
theorem Kept.aside (h : Kept s) (ht : ∀ k, flag s.daemon k = some true → Told s.side k → Told w k)
    (hu : ∀ k, flag s.daemon k ≠ some true → Untold s.side k → Untold w k) (hw : Flowing w) :
    Kept { s with side := w } :=
  ⟨h.valid, h.flagged, ⟨fun k hf => ht k hf (h.told hf), fun k hf => hu k hf (h.untold hf),
    h.good.announcer⟩, hw⟩

/-- A state that was just published is still to be read. -/
theorem publish_kept (h : Kept s) (hs : s.step (.publish b p st) = some s') : Kept s' := by
  unfold Sys.step at hs
  dsimp only at hs
  split at hs
  · split at hs
    · cases hs
      refine h.aside (fun k hf ht => ?_) (fun k hf hu => ?_)
        ⟨h.flowing.drained, h.flowing.late, h.flowing.ups⟩
      · by_cases hk : k = (b, p)
        · subst hk
          refine ⟨ht.knows, ?_, ?_, ?_⟩
          · simpa using ht.own
          · simp
          · simp
        · exact ht.of_same rfl (Function.update_of_ne hk ..) (Function.update_of_ne hk ..)
      · by_cases hk : k = (b, p)
        · subst hk
          exact ⟨by simp [hu.idle], hu.unlisted⟩
        · exact hu.of_same rfl (Function.update_of_ne hk ..)
    · cases hs
  · cases hs

theorem report_cases {listen : Listen} (h : w.report ifs listen k = some w') : ∃ c, Own k c ∧
    (w.follow k).hand = none ∧ isUp c = (w.server k).isListening ∧ ∃ f, f.unseen = false ∧
      f.hand = some c ∧ w' = { w with follow := Function.update w.follow k f } := by
  unfold Side.report at h
  dsimp only at h
  split at h
  · cases h
  · rename_i hn
    have hnone : (w.follow k).hand = none := by
      rw [Bool.or_eq_true, not_or] at hn
      simpa using hn.2
    split at h
    · cases h
      refine ⟨_, ?_, hnone, ?_, _, rfl, rfl, rfl⟩
      · split
        · exact .inl ⟨_, rfl⟩
        · exact .inr rfl
      · cases w.server k <;> rfl
    · rename_i hseen
      split at h
      · rename_i hend
        cases h
        refine ⟨.down k.1 k.2, .inr rfl, hnone, ?_, _, ?_, rfl, rfl⟩
        · cases hst : w.server k <;> simp [hst, ServerState.ended] at hend <;> rfl
        · simpa using hseen
      · cases h

theorem report_kept (h : Kept s) (hs : s.step (.report ifs b p) = some s') : Kept s' := by
  obtain ⟨listen, hfol, hs⟩ := Option.bind_eq_some_iff.mp hs
  obtain ⟨w, hrep, hs⟩ := Option.bind_eq_some_iff.mp hs
  cases hs
  obtain ⟨c, hown, _, hup, f, hseen, hhand, rfl⟩ := report_cases hrep
  have hflag : flag s.daemon (b, p) = some true := by
    rw [← followed_iff, hfol]
    rfl
  refine h.aside (fun k hf ht => ?_) (fun k hf hu => ?_)
    ⟨h.flowing.drained, h.flowing.late, h.flowing.ups⟩
  · by_cases hk : k = (b, p)
    · subst hk
      refine ⟨ht.knows, ?_, ?_, ?_⟩
      · simpa [hhand] using hown
      · simpa [hhand] using fun _ => hup
      · simp [hhand]
    · exact ht.of_same rfl (Function.update_of_ne hk ..) rfl
  · have hk : k ≠ (b, p) := fun hk => hf (hk ▸ hflag)
    exact hu.of_same rfl (Function.update_of_ne hk ..)

theorem take_kept (h : Kept s) (hs : s.step .take = some s') : Kept s' := by
  unfold Sys.step at hs
  cases hq : s.side.queue with
  | nil => simp [hq] at hs
  | cons c queue =>
    rw [hq] at hs
    cases hs
    have hd := h.flowing.drained
    rw [hq] at hd
    exact h.aside (fun k _ ht => ht.of_same rfl rfl rfl) (fun k _ hu => hu.of_same rfl rfl)
      ⟨hd, h.flowing.late, h.flowing.ups⟩

theorem sendLate_kept (h : Kept s) (hs : s.step (.sendLate i) = some s') : Kept s' := by
  unfold Sys.step at hs
  dsimp only at hs
  split at hs
  · rename_i c hc
    cases hs
    have hm : c ∈ s.side.late := List.mem_of_getElem? hc
    obtain ⟨b, n, rfl⟩ := h.flowing.late c hm
    have hw : s.side.push (.bridge b n) = done s.side (.announce (.bridge b n)) := rfl
    rw [hw]
    have hfl := flowing_done h.flowing (.announce (.bridge b n))
    refine h.aside (fun k _ ht => ?_) (fun k _ hu => ?_) ⟨hfl.drained, fun c hc => ?_, hfl.ups⟩
    · exact (ht.aside (e := .announce (.bridge b n)) id).of_same rfl rfl rfl
    · exact (hu.done (.announce (.bridge b n))).of_same rfl rfl
    · exact h.flowing.late c (List.mem_of_mem_eraseIdx hc)
  · cases hs

/-- A task that sends what it has in hand has told of the port's state. -/
theorem send_kept (h : Kept s) (hs : s.step (.send b p) = some s') : Kept s' := by
  unfold Sys.step at hs
  dsimp only at hs
  split at hs
  · rename_i listen c hfol hhand
    cases hs
    have hflag : flag s.daemon (b, p) = some true := by
      rw [← followed_iff, hfol]
      rfl
    have ht := h.told hflag
    have hown := ht.own c hhand
    have hflow : Flowing (s.side.push c) := by
      refine h.flowing.push (fun b' p' svc he => ?_)
      rcases hown with ⟨svc', rfl⟩ | rfl
      · cases he
        exact ht.knows
      · cases he
    have hknows : ∀ b', Knows (s.side.push c) b' ↔ Knows s.side b' := by
      intro b'
      rw [knows_push, knows_onCmd]
      rcases hown with ⟨svc, rfl⟩ | rfl <;> rfl
    have hlists : ∀ k, k ≠ (b, p) → (Lists (s.side.push c) k ↔ Lists s.side k) := by
      intro k hk
      have hne : ¬(b = k.1 ∧ p = k.2) := fun he => hk (Prod.ext he.1.symm he.2.symm)
      rw [lists_push, service_onCmd]
      rcases hown with ⟨svc, rfl⟩ | rfl
      · dsimp only
        rw [if_neg (fun he => hne ⟨he.1, he.2.1⟩)]
        rfl
      · dsimp only
        rw [if_neg hne]
        rfl
    refine h.aside (fun k hf htk => ?_) (fun k hf hu => ?_) ⟨hflow.drained, hflow.late, hflow.ups⟩
    · by_cases hk : k = (b, p)
      · subst hk
        refine ⟨(hknows b).mpr ht.knows, by simp, by simp, fun hseen _ => ?_⟩
        have hup := ht.held (by simpa using hseen) c hhand
        have hl : Lists (s.side.push c) (b, p) ↔ isUp c = true := by
          rw [lists_push, service_onCmd]
          have hkn : (heard s.side.sent).knows b = true := ht.knows
          rcases hown with ⟨svc, rfl⟩ | rfl
          · simp [hkn, isUp]
          · simp [isUp]
        exact hl.trans (by rw [hup]; rfl)
      · have hfo :
          Function.update s.side.follow (b, p) { s.side.follow (b, p) with hand := none } k =
            s.side.follow k := Function.update_of_ne hk ..
        refine ⟨(hknows k.1).mpr htk.knows, ?_, ?_, ?_⟩
        · dsimp only
          rw [hfo]
          exact htk.own
        · dsimp only
          rw [hfo]
          exact htk.held
        · dsimp only
          rw [hfo]
          exact fun hseen hnone => (hlists k hk).trans (htk.read hseen hnone)
    · have hk : k ≠ (b, p) := fun hk => hf (hk ▸ hflag)
      refine ⟨(Function.update_of_ne hk ..).trans hu.idle, fun hl => hu.unlisted ?_⟩
      exact (hlists k hk).mp hl
  · cases hs

theorem step_kept (h : Kept s) (hs : Sound s e) (hstep : s.step e = some s') : Kept s' := by
  cases e with
  | act a slips => exact step_act_kept h hs hstep
  | publish b p st => exact publish_kept h hstep
  | report ifs b p => exact report_kept h hstep
  | send b p => exact send_kept h hstep
  | sendLate i => exact sendLate_kept h hstep
  | take => exact take_kept h hstep

theorem untold_new (k : String × String) : Untold .new k :=
  ⟨rfl, by simp [AnnounceSide.Lists, heard, Side.new, Announcer.service, Announcer.new]⟩

theorem flowing_new : Flowing .new := ⟨rfl, by simp [Side.new], by simp [UpsKnown, Side.new]⟩

theorem started_kept {disk : Disk} (h : start env disk = some (.ok d))
    (ha : env.startAnnouncer = true) : Kept (Sys.started d) := by
  obtain ⟨d₀, hcfg, hv, hb, hl, _, hm⟩ := start_moves h
  have hnone : ∀ k, flag d₀ k = none := by
    intro k
    unfold flag Daemon.port
    rw [hb, Std.TreeMap.getElem?_emptyc]
    rfl
  have hw : side .new d₀ = .new := by
    unfold side
    rw [hl]
    rfl
  have hg : Good .new d₀ := by
    refine ⟨fun k hf => ?_, fun k _ => ?_, fun k hf => ?_⟩
    · rw [hnone] at hf
      cases hf
    · rw [hw]
      exact untold_new k
    · rw [hnone] at hf
      cases hf
  obtain ⟨hv', hf', hg'⟩ := moves_kept hv (fun k => flagged_none (hnone k)) hg
    (asked_iff.mpr (.inr ha)) hm (fun ob nb np hj => by
      have hob := hj.old.1
      rw [hcfg] at hob
      cases hob)
  exact ⟨hv', hf', ⟨hg'.told, hg'.untold, hg'.announcer⟩, flowing_side flowing_new d⟩

/-- Nothing is on its way to the announcer: no command is left to a task or
queued, and each task that follows a port has told of its state. -/
structure Quiet (s : Sys Doc) : Prop where
  late : s.side.late = []
  queue : s.side.queue = []
  told : ∀ k, (followed s.daemon k).isSome = true →
    (s.side.follow k).unseen = false ∧ (s.side.follow k).hand = none

/-- A `tcp-server` port that runs, has `announce = true` in the config in effect,
and listens. -/
def Listens (s : Sys Doc) (b p : String) : Prop :=
  (∃ cb cp l m a, Enabled s.daemon.cfg cb ∧ cb.id = b ∧ cp ∈ cb.ports ∧ cp.id = p ∧
    cp.kind = .tcpServer l m a true) ∧
  (∃ l live f, s.daemon.port b p = some (.tcp l live f)) ∧
  ∃ bound, s.side.server (b, p) = .listening bound

theorem isListening_iff {st : ServerState} :
    st.isListening = true ↔ ∃ bound, st = .listening bound := by
  cases st <;> simp [ServerState.isListening]

theorem kept_listens (h : Kept s) (hf : flag s.daemon (b, p) = some true)
    (hl : (s.side.server (b, p)).isListening = true) : Listens s b p := by
  obtain ⟨cb, cp, l, m, a, hb, hid, hp, hpid, hk⟩ := h.flagged (b, p) true hf
  refine ⟨⟨cb, cp, l, m, a, hb, hid, hp, hpid, hk⟩, ?_, isListening_iff.mp hl⟩
  obtain ⟨rp, hrp, hfo⟩ := Option.bind_eq_some_iff.mp hf
  cases rp with
  | tcp l live f => exact ⟨l, live, f, hrp⟩
  | _ => cases hfo

theorem listens_flag (h : Kept s) (hl : Listens s b p) : flag s.daemon (b, p) = some true := by
  obtain ⟨⟨cb, cp, l, m, a, hb, rfl, hp, rfl, hk⟩, ⟨l', live, f, hport⟩, _⟩ := hl
  have hf : flag s.daemon (cb.id, cp.id) = some f := by
    unfold flag
    rw [hport]
    rfl
  obtain ⟨_, _, _, hkf⟩ := (h.flagged (cb.id, cp.id)).port_of h.valid hb hp hf
  rw [hk] at hkf
  cases hkf
  exact hf

/-- In every run whose acts are sound, whenever nothing is on its way to the
announcer, its entry for a bridge has exactly the bridge's running `tcp-server`
ports that have `announce = true` and listen; and each service was sent for a
bridge registered since it was last withdrawn. -/
theorem announcer_lists_listening {disk : Disk} (hstart : start env disk = some (.ok d))
    (henv : env.startAnnouncer = true) (hr : Reach Sys.step Sound (Sys.started d) es s) :
    (Quiet s → ∀ b p, (s.side.announcer.service b p).isSome = true ↔ Listens s b p) ∧
      UpsKnown s.side.sent := by
  have hk : Kept s :=
    hr.invariant (started_kept hstart henv) (fun _ _ _ hk ho hs => step_kept hk ho hs)
  refine ⟨fun hq b p => ?_, hk.flowing.ups⟩
  have hd := hk.flowing.drained
  rw [hq.queue] at hd
  have hd : s.side.announcer = heard s.side.sent := hd
  rw [hd]
  by_cases hf : flag s.daemon (b, p) = some true
  · obtain ⟨hseen, hhand⟩ := hq.told (b, p) ((followed_iff ..).mpr hf)
    have hread := (hk.told hf).read hseen hhand
    exact ⟨fun hl => kept_listens hk hf (hread.mp hl),
      fun hl => hread.mpr (isListening_iff.mpr hl.2.2)⟩
  · exact iff_of_false (hk.untold hf).unlisted (fun hl => hf (listens_flag hk hl))

def runningPorts (d : Daemon Doc) : List ((String × String) × RunningPort) :=
  d.bridges.toList.flatMap (fun b => b.2.ports.toList.map (fun p => ((b.1, p.1), p.2)))

theorem mem_runningPorts (h : d.port k.1 k.2 = some rp) : (k, rp) ∈ runningPorts d := by
  obtain ⟨rb, hb, hp⟩ := Option.bind_eq_some_iff.mp h
  refine List.mem_flatMap.mpr ⟨(k.1, rb), Std.TreeMap.mem_toList_iff_getElem?_eq_some.mpr hb, ?_⟩
  exact List.mem_map.mpr ⟨(k.2, rp), Std.TreeMap.mem_toList_iff_getElem?_eq_some.mpr hp, rfl⟩

def isQuiet (s : Sys Doc) : Bool :=
  s.side.late == [] && s.side.queue == [] && (runningPorts s.daemon).all (fun e =>
    flagOf e.2 != some true || (!(s.side.follow e.1).unseen && (s.side.follow e.1).hand == none))

theorem quiet_of_isQuiet (h : isQuiet s = true) : Quiet s := by
  simp only [isQuiet, Bool.and_eq_true, beq_iff_eq, List.all_eq_true] at h
  obtain ⟨⟨hl, hq⟩, hp⟩ := h
  refine ⟨hl, hq, fun k hf => ?_⟩
  obtain ⟨rp, hrp, hfo⟩ := Option.bind_eq_some_iff.mp ((followed_iff ..).mp hf)
  simpa [hfo] using hp (k, rp) (mem_runningPorts hrp)

/-- A bridge for a TNC on the network with a `tcp-server` port for each of
`listens`. -/
def shackText (listens : List String) : String :=
  "[[bridge]]\nid = \"ktbr0\"\nname = \"Shack\"\n\n" ++
  "[[bridge.port]]\ntype = \"tcp-client\"\naddress = \"tnc.local:8001\"\n\n" ++
  String.join (listens.map
    (fun l => "[[bridge.port]]\ntype = \"tcp-server\"\nlisten = \"" ++ l ++ "\"\n\n"))

def shackFile (listens : List String) : ConfigFile :=
  { bridge := [⟨some "ktbr0", "Shack", none, none, none,
      ⟨none, none, .tcpClient "tnc.local:8001" none none⟩ ::
        listens.map (fun l => ⟨none, none, .tcpServer l none none none⟩)⟩] }

def shackToml : TomlLib String where
  parseFile t :=
    if t = "" then .ok {}
    else match [["8002"], ["8002", "eth0:8003"], ["eth0:8003"], ["eth0:8003", "wlan0:8003"]].find?
        (fun ls => shackText ls == t) with
      | some ls => .ok (shackFile ls)
      | none => .error "another file"
  parseState t := if t = "" then .ok .empty else .error "another state"
  stateText _ := .error "another state"
  parseDoc t := .ok t
  docText t := t
  insertEnabled _ _ _ := none

def shackEnv (listens : List String) : Env String where
  net := ⟨fun _ => none, fun _ _ => false⟩
  toml := shackToml
  host := ⟨fun _ => true, fun _ => true⟩
  adapters := []
  btSession := fun _ _ => .ok ()
  addBle := fun _ _ => .ok ()
  startAnnouncer := true
  statics := ⟨"/etc/kiss-tnc-bridge/kiss-tnc-bridge.toml", .ok (shackText listens),
    "/etc/kiss-tnc-bridge/conf.d", none, false⟩
  stateDir := "/var/lib/kiss-tnc-bridge"
  readDynamic := .ok ()
  readState := .ok ()
  writeDynamic := .ok ()
  writeState := .ok ()

def shackRun (listens : List String) (es : List (Step String)) : Option (Sys String) :=
  match start (shackEnv listens) ⟨none, none⟩ with
  | some (.ok d) => es.foldlM Sys.step (Sys.started d)
  | _ => none

theorem shackRun_runs {s : Sys String} (h : shackRun listens es = some s) :
    ∃ d, start (shackEnv listens) ⟨none, none⟩ = some (.ok d) ∧
      es.foldlM Sys.step (Sys.started d) = some s := by
  unfold shackRun at h
  split at h
  · rename_i d hd
    exact ⟨d, hd, h⟩
  · cases h

def reopen (listens : List String) : Step String :=
  .act (.reload (shackEnv listens) (fun _ => some ⟨.idle, 0, none, []⟩) false) (fun _ => false)

def anyHost : Interfaces := ⟨fun _ => none, fun _ => none⟩

def comesUp (p : String) : List (Step String) :=
  [.publish "ktbr0" p (.listening (.v4 0 8003)), .report anyHost "ktbr0" p, .send "ktbr0" p, .take]

def shackBridge (ports : List Port) : Conf.Bridge :=
  ⟨"ktbr0", "Shack", "Shack", true, none, .pass,
    ⟨"tcp-client0", .tnc, .tcpClient "tnc.local" 8001 .onDemand 0⟩ :: ports,
    .static "/etc/kiss-tnc-bridge/kiss-tnc-bridge.toml"⟩

def localPort : Port :=
  ⟨"tcp-server0", .app, .tcpServer (.addr (.v4 0x7f000001#32 8002)) none [] false⟩

def lanPort (p ifname : String) : Port :=
  ⟨p, .app, .tcpServer (.interface ifname 8003) none [] true⟩

def lanService : Service := ⟨8003, .any, .v4⟩

/-- A bridge with a port for this host only gets one for the network. -/
theorem announcer_misses_listening : ∃ (d : Daemon String) (s : Sys String),
    start (shackEnv ["8002"]) ⟨none, none⟩ = some (.ok d) ∧
    Runs Sys.step (Sys.started d) (reopen ["8002", "eth0:8003"] :: comesUp "tcp-server1") s ∧
    Quiet s ∧ Listens s "ktbr0" "tcp-server1" ∧
    s.side.announcer.service "ktbr0" "tcp-server1" = none ∧ ¬ UpsKnown s.side.sent := by
  have heval : (shackRun ["8002"] (reopen ["8002", "eth0:8003"] :: comesUp "tcp-server1")).map
      (fun s => ((isQuiet s, s.side.announcer.service "ktbr0" "tcp-server1", s.side.sent),
        s.daemon.cfg.bridges, s.daemon.port "ktbr0" "tcp-server1",
          s.side.server ("ktbr0", "tcp-server1"))) =
      some ((true, none, [.up "ktbr0" "tcp-server1" lanService]),
        [shackBridge [localPort, lanPort "tcp-server1" "eth0"]],
        some (.tcp (.interface "eth0" 8003) ⟨none, []⟩ true), .listening (.v4 0 8003)) := by
    decide +kernel
  obtain ⟨s, hrun, hsees⟩ := Option.map_eq_some_iff.mp heval
  simp only [Prod.mk.injEq] at hsees
  obtain ⟨⟨hquiet, hservice, hsent⟩, hcfg, hport, hserver⟩ := hsees
  obtain ⟨d, hd, hsteps⟩ := shackRun_runs hrun
  refine ⟨d, s, hd, runs_of_foldlM hsteps, quiet_of_isQuiet hquiet,
    ⟨?_, ⟨_, _, _, hport⟩, _, hserver⟩, hservice, fun hups => ?_⟩
  · refine ⟨shackBridge [localPort, lanPort "tcp-server1" "eth0"],
      lanPort "tcp-server1" "eth0", _, _, _, ⟨?_, rfl⟩, rfl, ?_, rfl, rfl⟩
    · rw [hcfg]
      exact List.mem_singleton_self _
    · simp [shackBridge]
  · obtain ⟨before, c, after, he, _⟩ := hups [] "ktbr0" "tcp-server1" lanService [] hsent
    simp at he

/-- A bridge with a port for the network gets another one. -/
theorem announcer_lists_listening_lan : ∃ (d : Daemon String) (s : Sys String),
    start (shackEnv ["eth0:8003"]) ⟨none, none⟩ = some (.ok d) ∧
    Reach Sys.step Sound (Sys.started d) (([.take] ++ comesUp "tcp-server0") ++
      [reopen ["eth0:8003", "wlan0:8003"]] ++ comesUp "tcp-server1") s ∧
    Quiet s ∧ (s.side.announcer.service "ktbr0" "tcp-server1").isSome = true ∧
    (∀ b p, (s.side.announcer.service b p).isSome = true ↔ Listens s b p) ∧
    UpsKnown s.side.sent := by
  have hfirst : (shackRun ["eth0:8003"] ([.take] ++ comesUp "tcp-server0")).map
      (fun s => (s.daemon.announcer, s.side.sent)) =
      some (true, [.bridge "ktbr0" "Shack", .up "ktbr0" "tcp-server0" lanService]) := by
    decide +kernel
  have hsecond : (shackRun ["eth0:8003"] (([.take] ++ comesUp "tcp-server0") ++
      [reopen ["eth0:8003", "wlan0:8003"]])).map
        (fun s => s.daemon.cfg.bridges.map Conf.Bridge.id) =
      some ["ktbr0"] := by
    decide +kernel
  have hlast : (shackRun ["eth0:8003"] (([.take] ++ comesUp "tcp-server0") ++
      [reopen ["eth0:8003", "wlan0:8003"]] ++ comesUp "tcp-server1")).map (fun s => (isQuiet s,
        s.side.announcer.service "ktbr0" "tcp-server1")) = some (true, some lanService) := by
    decide +kernel
  obtain ⟨s, hrun, hsees⟩ := Option.map_eq_some_iff.mp hlast
  simp only [Prod.mk.injEq] at hsees
  obtain ⟨hquiet, hservice⟩ := hsees
  obtain ⟨d, hd, hsteps⟩ := shackRun_runs hrun
  rw [List.foldlM_append] at hsteps
  obtain ⟨s₂, hs₂, hsteps⟩ := Option.bind_eq_some_iff.mp hsteps
  have hids : s₂.daemon.cfg.bridges.map Conf.Bridge.id = ["ktbr0"] := by
    obtain ⟨s', hrun', hs'⟩ := Option.map_eq_some_iff.mp hsecond
    obtain ⟨d', hd', hsteps'⟩ := shackRun_runs hrun'
    rw [hd] at hd'
    cases hd'
    rw [hs₂] at hsteps'
    cases hsteps'
    exact hs'
  rw [List.foldlM_append] at hs₂
  obtain ⟨s₁, hs₁, hs₂⟩ := Option.bind_eq_some_iff.mp hs₂
  have hstep : s₁.step (reopen ["eth0:8003", "wlan0:8003"]) = some s₂ := by
    rw [List.foldlM_cons] at hs₂
    obtain ⟨t, ht, hs₂⟩ := Option.bind_eq_some_iff.mp hs₂
    cases hs₂
    exact ht
  have hknown : s₁.daemon.announcer = true ∧ Knows s₁.side "ktbr0" := by
    obtain ⟨s', hrun', hs'⟩ := Option.map_eq_some_iff.mp hfirst
    obtain ⟨d', hd', hsteps'⟩ := shackRun_runs hrun'
    rw [hd] at hd'
    cases hd'
    rw [hs₁] at hsteps'
    cases hsteps'
    simp only [Prod.mk.injEq] at hs'
    refine ⟨hs'.1, ?_⟩
    unfold Knows
    rw [hs'.2]
    decide +kernel
  have hsound : Sound s₁ (reopen ["eth0:8003", "wlan0:8003"]) := by
    refine ⟨.inl hknown.1, fun d' hd' ob nb np hj => .inl ?_, fun k hk => by cases hk⟩
    obtain ⟨d'', hd'', hs'⟩ := act_steps hstep
    rw [hd'] at hd''
    cases hd''
    cases hs'
    have hid : nb.id ∈ d'.cfg.bridges.map Conf.Bridge.id := List.mem_map_of_mem hj.new.1
    rw [hids] at hid
    rw [List.mem_singleton.mp hid]
    exact hknown.2
  have hfree : ∀ p, ∀ e ∈ comesUp p, ∀ t, Sound t e := by
    intro p e he t
    simp only [comesUp, List.mem_cons, List.not_mem_nil, or_false] at he
    rcases he with rfl | rfl | rfl | rfl <;> trivial
  have hr₁ : Reach Sys.step Sound (Sys.started d)
      ([] ++ ([.take] ++ comesUp "tcp-server0")) s₁ := by
    refine Reach.start.free hs₁ (fun e he t => ?_)
    rcases List.mem_append.mp he with he | he
    · cases List.mem_singleton.mp he
      trivial
    · exact hfree _ e he t
  have hr : Reach Sys.step Sound (Sys.started d) (([.take] ++ comesUp "tcp-server0") ++
      [reopen ["eth0:8003", "wlan0:8003"]] ++ comesUp "tcp-server1") s :=
    (hr₁.next hsound hstep).free hsteps (hfree _)
  have hq := quiet_of_isQuiet hquiet
  obtain ⟨hlists, hups⟩ := announcer_lists_listening hd rfl hr
  exact ⟨d, s, hd, hr, hq, by rw [hservice]; rfl, hlists hq, hups⟩

end KissTncBridge.Proofs.Announced
