import KissTncBridge.Lib.Maps
import KissTncBridge.Proofs.Coherence

namespace KissTncBridge.Proofs.FrameFlow
open Bridge Conf Lib BridgeSteps Coherence

variable {r r' r'' : Run} {now : Now}

/-- The frames handed to the writers, each with its link, in order. -/
def handed (out : List Out) : List (Nat × Frame) :=
  out.filterMap (fun o => match o with
    | .toWriter link (.frame f) => some (link, f)
    | _ => none)

def waitingFrames (r : Run) : List Frame := r.pending.map (fun p => p.2.1)

/-- The app frame a step takes, if its session is registered and the policy
lets it pass. -/
def passed (r : Run) : Event → List Frame
  | .app _ (.frame sid f) =>
    if (r.sessions.lookup sid).isSome ∧ filterAppFrame f r.settings.appParams = .pass then [f]
    else []
  | _ => []

def taken : Event → List Frame
  | .app _ (.frame _ f) => [f]
  | _ => []

def missed (r : Run) : Event → List SessionId
  | .tnc _ (.frame generation f) =>
    if generation = r.generation then
      r.sessions.keys.filter
        (fun sid => (r.sessions.lookup sid).any (fun s => (s.tx.trySend f).isNone))
    else []
  | _ => []

/-- Whether a step lets go of the link, or gives up on getting one. -/
def abandons (r : Run) : Event → Bool
  | .app _ (.sessionClosed sid) =>
    let r := { r with sessions := r.sessions.erase sid }
    r.sessions.entries.isEmpty && !r.wantsLink && r.settings.idleTimeout == 0
  | .cmd _ (.settings new) =>
    r.settings.connect == .always && new.connect == .onDemand && r.sessions.entries.isEmpty &&
      new.idleTimeout == 0
  | .cmd _ (.connector _) => true
  | .cmd _ (.hold hold) =>
    let r := { r with held := hold }
    !r.wantsLink && (hold.isSome || r.settings.idleTimeout == 0)
  | .idleElapsed _ | .link _ (.connected (.error _)) | .link _ .backoffOver => !r.wantsLink
  | _ => false

/-- The frames that leave the queue with no counter moved. -/
def discarded (r : Run) (e : Event) : List Frame := if abandons r e then waitingFrames r else []

def accounted (r : Run) : Nat := r.counters.framesUp + r.counters.dropped + r.pending.length

/-- What happens to the frames on their way up: those handed over and those
that wait on come, in order, from those that waited and those that were let
pass. Of `came` frames more to account for, `lost` are not. -/
structure Moves (r r' : Run) (passed : List Frame) (came lost : Nat) : Prop where
  hands : ∃ up, handed r'.out = handed r.out ++ up ∧
    (up.map Prod.snd ++ waitingFrames r').Sublist (waitingFrames r ++ passed)
  balance : accounted r + came = accounted r' + lost
  grows : r.counters.dropped ≤ r'.counters.dropped

theorem Moves.of_same (ho : handed r'.out = handed r.out) (hp : r'.pending = r.pending)
    (hc : r'.counters.framesUp = r.counters.framesUp)
    (hd : r'.counters.dropped = r.counters.dropped + came) : Moves r r' [] came 0 := by
  refine ⟨⟨[], by rw [ho, List.append_nil], ?_⟩, ?_, ?_⟩
  · rw [waitingFrames, hp, List.append_nil]
    exact List.Sublist.refl _
  · simp only [accounted, hp, hc, hd]
    omega
  · omega

theorem Moves.refl (r : Run) : Moves r r [] 0 0 := .of_same rfl rfl rfl rfl

theorem Moves.trans (h : Moves r r' ps n l) (h' : Moves r' r'' ps' n' l') :
    Moves r r'' (ps ++ ps') (n + n') (l + l') := by
  obtain ⟨⟨up, ho, hs⟩, hb, hg⟩ := h
  obtain ⟨⟨up', ho', hs'⟩, hb', hg'⟩ := h'
  refine ⟨⟨up ++ up', by rw [ho', ho, List.append_assoc], ?_⟩, by omega, by omega⟩
  have h1 : (up.map Prod.snd ++ (up'.map Prod.snd ++ waitingFrames r'')).Sublist
      (up.map Prod.snd ++ (waitingFrames r' ++ ps')) := hs'.append_left _
  have h2 : ((up.map Prod.snd ++ waitingFrames r') ++ ps').Sublist
      ((waitingFrames r ++ ps) ++ ps') :=
    hs.append_right _
  rw [List.map_append, List.append_assoc]
  rw [List.append_assoc] at h2
  rw [← List.append_assoc (waitingFrames r)]
  exact h1.trans h2

/-- After a step that only settles things, the same frames move. -/
theorem Moves.then (h : Moves r r' ps n l) (h' : Moves r' r'' [] 0 0) : Moves r r'' ps n l := by
  simpa using h.trans h'

theorem Moves.after (h : Moves r r' [] 0 0) (h' : Moves r' r'' ps n l) : Moves r r'' ps n l := by
  simpa using h.trans h'

/-- A frame that was let pass need not get anywhere. -/
theorem Moves.pass (h : Moves r r' [] n l) (ps : List Frame) : Moves r r' ps n l := by
  obtain ⟨⟨up, ho, hs⟩, hb, hg⟩ := h
  rw [List.append_nil] at hs
  exact ⟨⟨up, ho, List.sublist_append_of_sublist_left hs⟩, hb, hg⟩

theorem startConnect_moves (r : Run) : Moves r (r.startConnect now) [] 0 0 := by
  simp only [Run.startConnect]
  split <;> exact .of_same (by simp [handed, Run.setState]) rfl rfl rfl

theorem handed_release (r : Run) : handed r.release.out = handed r.out := by
  unfold Run.release
  split
  · simp [handed]
  · dsimp only
    split <;> split <;> simp [handed]
  · rfl
  · rfl

/-- Letting go of the link empties the queue. -/
theorem close_moves (r : Run) : Moves r (r.close now) [] 0 r.pending.length := by
  have hc : r.release.counters = r.counters := by
    unfold Run.release
    split <;> rfl
  refine ⟨⟨[], ?_, List.nil_sublist _⟩, ?_, ?_⟩
  · rw [List.append_nil]
    exact handed_release r
  · show accounted r + 0 = r.release.counters.framesUp + r.release.counters.dropped + 0 + _
    rw [hc, accounted]
    omega
  · show r.counters.dropped ≤ r.release.counters.dropped
    rw [hc]

theorem close_empty (hp : r.pending = []) : Moves r (r.close now) [] 0 0 := by
  have h : Moves r (r.close now) [] 0 r.pending.length := close_moves r
  rwa [hp] at h

theorem giveUp_moves (r : Run) : Moves r (r.giveUp now) [] 0 r.pending.length :=
  ⟨⟨[], (List.append_nil _).symm, List.nil_sublist _⟩,
    by simp [accounted, Run.giveUp, Run.setState], Nat.le_refl _⟩

theorem dropFrame_moves (r : Run) : Moves r r.dropFrame [] 1 0 := .of_same rfl rfl rfl rfl

theorem queuePending_moves (r : Run) : Moves r (r.queuePending now f src) [f] 1 0 := by
  simp only [Run.queuePending]
  split
  · rename_i hf
    refine ⟨⟨[], (List.append_nil _).symm, ?_⟩, ?_, Nat.le_succ _⟩
    · simp only [waitingFrames, Run.dropFrame, List.map_append, List.map_nil, List.nil_append,
        List.map_tail, List.map_singleton]
      exact (List.tail_sublist _).append_right _
    · simp only [UPLINK_QUEUE_FRAMES] at hf
      simp only [accounted, Run.dropFrame, List.length_append, List.length_tail,
        List.length_singleton]
      omega
  · refine ⟨⟨[], (List.append_nil _).symm, ?_⟩, ?_, Nat.le_refl _⟩
    · simp [waitingFrames]
    · simp only [accounted, List.length_append, List.length_singleton]
      omega

/-- A frame goes to the writer only when none waits: a link is not up while
frames wait for it. -/
theorem uplink_moves (hq : ∀ l, r.link = .connected l → r.pending = []) :
    Moves r (r.uplink now f src) [f] 1 0 := by
  have hdrop : Moves r r.dropFrame [f] 1 0 := (dropFrame_moves r).pass _
  unfold Run.uplink
  split
  · rename_i l hl
    split
    · refine ⟨⟨[(l, f)], by simp [handed], ?_⟩, ?_, Nat.le_refl _⟩
      · simp [waitingFrames, hq l hl]
      · simp only [accounted]
        omega
    · exact hdrop
  · split
    · exact hdrop
    · exact (queuePending_moves r).then (startConnect_moves _)
  · exact queuePending_moves r
  · exact queuePending_moves r

/-- A link that is up has no frames waiting for it. -/
theorem pending_nil (h : Coherent r) (hl : r.link = .connected l) : r.pending = [] := by
  by_contra hn
  have hw := h.queued hn
  rw [hl] at hw
  cases hw

theorem uplinkPending_pending (hl : r.link = .connected l) :
    (Run.uplinkPending now r p).pending = r.pending := by
  unfold Run.uplinkPending Run.uplink
  split
  · rfl
  · rw [hl]
    dsimp only
    split <;> rfl

theorem drain_moves (now : Now) (ps : List (Nat × Frame × Option SessionId))
    (hl : r.link = .connected l) (hq : r.pending = []) :
    (ps.foldl (Run.uplinkPending now) r).pending = [] ∧
      Moves r (ps.foldl (Run.uplinkPending now) r) (ps.map (fun p => p.2.1)) ps.length 0 := by
  induction ps generalizing r with
  | nil => exact ⟨hq, .refl r⟩
  | cons p ps ih =>
    have hone : Moves r (Run.uplinkPending now r p) [p.2.1] 1 0 := by
      unfold Run.uplinkPending
      split
      · exact (dropFrame_moves r).pass _
      · exact uplink_moves (fun _ _ => hq)
    obtain ⟨hp, hm⟩ := ih (r := Run.uplinkPending now r p) (uplinkPending_connected hl)
      ((uplinkPending_pending hl).trans hq)
    refine ⟨hp, ?_⟩
    have h := hone.trans hm
    rw [Nat.add_comm 1] at h
    exact h

/-- Frames that waited are handed to the link that came up, or dropped. -/
theorem linkUp_moves (now : Now) (steps : List (List UInt8)) (r : Run) :
    Moves r (r.pending.foldl (Run.uplinkPending now) { r.linkUp now steps with pending := [] })
      [] 0 0 := by
  obtain ⟨-, ⟨up, ho, hs⟩, hb, hg⟩ := drain_moves now r.pending
    (r := { r.linkUp now steps with pending := [] }) rfl rfl
  refine ⟨⟨up, ?_, ?_⟩, ?_, hg⟩
  · rw [ho]
    simp [handed, Run.linkUp, Run.setState]
  · simpa [waitingFrames] using hs
  · simp only [accounted, Run.linkUp, Run.setState, List.length_nil] at hb ⊢
    omega

theorem letGo_closes (hz : r.settings.idleTimeout = 0) :
    Moves r (r.letGo now) [] 0 r.pending.length := by
  rw [Run.letGo, if_pos hz]
  exact close_moves r

theorem letGo_waits (hz : r.settings.idleTimeout ≠ 0) : Moves r (r.letGo now) [] 0 0 := by
  rw [Run.letGo, if_neg hz]
  exact .of_same rfl rfl rfl rfl

theorem discarded_all (h : abandons r e = true) : (discarded r e).length = r.pending.length := by
  rw [discarded, if_pos h, waitingFrames, List.length_map]

theorem discarded_none (h : abandons r e = false) : (discarded r e).length = 0 := by
  rw [discarded, h]
  rfl

theorem onApp_moves (ev : AppEvent) (h : Coherent r) :
    Moves r (r.onApp now ev) (passed r (.app now ev)) (taken (.app now ev)).length
      (discarded r (.app now ev)).length := by
  cases ev with
  | sessionOpened sid tx kick =>
    simp only [Run.onApp, passed, taken, discarded, abandons]
    split
    · have ho : Moves r { { r with
          nextSeq := r.nextSeq + 1
          sessions := r.sessions.insert sid ⟨tx, kick, r.nextSeq + 1, now.system⟩
              }.countSessions with
          idleTimer := none } [] 0 0 := .of_same rfl rfl rfl rfl
      exact ho.then (startConnect_moves _)
    · exact .of_same rfl rfl rfl rfl
  | sessionClosed sid =>
    have hq : Moves r { r with sessions := r.sessions.erase sid }.countSessions [] 0 0 :=
      .of_same rfl rfl rfl rfl
    simp only [Run.onApp, passed, taken]
    split
    · rename_i hc
      have hw : (!{ r with sessions := r.sessions.erase sid }.wantsLink) = true := hc.2
      have he : (r.sessions.erase sid).entries.isEmpty = true := hc.1
      by_cases hz : r.settings.idleTimeout = 0
      · rw [discarded_all (by simp only [abandons, he, hw, hz]; rfl)]
        exact hq.after (letGo_closes hz)
      · rw [discarded_none (by simp [abandons, hz])]
        exact hq.after (letGo_waits hz)
    · rename_i hc
      rw [discarded_none]
      · exact hq
      · rw [← Bool.not_eq_true]
        intro ht
        simp only [abandons, Bool.and_eq_true] at ht
        exact hc ht.1
  | frame sid f =>
    simp only [Run.onApp, passed, taken, discarded, abandons]
    split
    · rename_i hn
      rw [if_neg (by simp_all)]
      exact dropFrame_moves r
    · rename_i hn
      split
      · rename_i hv
        rw [if_neg (by simp [hv])]
        exact dropFrame_moves r
      · rename_i hv
        rw [if_pos ⟨by simpa [Option.isSome_iff_ne_none] using hn, hv⟩]
        exact uplink_moves (fun l hl => pending_nil h hl)

theorem applySettings_moves (new : TncSettings) (r : Run) :
    Moves r (r.applySettings now new) [] 0 (discarded r (.cmd now (.settings new))).length := by
  have hset : Moves r { r with settings := new } [] 0 0 := .of_same rfl rfl rfl rfl
  simp only [Run.applySettings]
  split
  · rename_i he
    rw [discarded_none (by cases hn : new.connect <;> simp [abandons, he, hn])]
    exact hset
  · split
    · rename_i ho hn
      rw [discarded_none (by simp [abandons, ho])]
      split
      · have ht : Moves r { r with settings := new, idleTimer := none } [] 0 0 :=
          .of_same rfl rfl rfl rfl
        exact ht.then (startConnect_moves _)
      · exact .of_same rfl rfl rfl rfl
    · rename_i ho hn
      split
      · rename_i hs
        by_cases hz : new.idleTimeout = 0
        · rw [discarded_all (by simp_all [abandons])]
          exact hset.after (letGo_closes hz)
        · rw [discarded_none (by simp [abandons, hz])]
          exact hset.after (letGo_waits hz)
      · rename_i hs
        rw [discarded_none (by simp_all [abandons])]
        exact hset
    · rename_i hx hy
      rw [discarded_none]
      · exact hset
      · rw [← Bool.not_eq_true]
        intro ht
        simp only [abandons, Bool.and_eq_true, beq_iff_eq] at ht
        exact hy ht.1.1.1 ht.1.1.2

theorem onCmd_moves (cmd : BridgeCmd) (r : Run) :
    Moves r (r.onCmd now cmd) [] 0 (discarded r (.cmd now cmd)).length := by
  cases cmd with
  | settings new => exact applySettings_moves new r
  | connector c =>
    rw [discarded_all rfl]
    have hclose : Moves r (r.close now) [] 0 r.pending.length := close_moves r
    have hc : Moves r { r.close now with connector := c, attempt := 0 } [] 0 r.pending.length :=
      hclose.then (.of_same rfl rfl rfl rfl)
    simp only [Run.onCmd]
    split
    · exact hc.then (startConnect_moves _)
    · exact hc
  | hold hold =>
    have hh : Moves r { r with held := hold, idleTimer := none } [] 0 0 := .of_same rfl rfl rfl rfl
    simp only [Run.onCmd]
    split
    · rename_i hw
      have hw : { r with held := hold }.wantsLink = true := hw
      rw [discarded_none (by simp [abandons, hw])]
      split
      · exact hh.then (startConnect_moves _)
      · exact hh
    · rename_i hw
      have hw : { r with held := hold }.wantsLink = false := Bool.not_eq_true _ ▸ hw
      split
      · rename_i hc
        rw [discarded_all (by simp [abandons, hw, hc])]
        exact hh.after (close_moves _)
      · rename_i hc
        rw [discarded_none (by simp_all [abandons])]
        exact .of_same rfl rfl rfl rfl
  | kick sid =>
    rw [discarded_none rfl]
    simp only [Run.onCmd]
    split
    · exact .of_same (by simp [handed]) rfl rfl rfl
    · exact .refl r
  | snapshot => exact .of_same (by simp [Run.onCmd, handed]) rfl rfl rfl

def misses (r : Run) (f : Frame) (sid : SessionId) : Bool :=
  (r.sessions.lookup sid).any (fun s => (s.tx.trySend f).isNone)

/-- What offering a frame to some sessions does to the frames on their way up:
nothing, but `n` sessions that miss it are counted. -/
structure Offered (r r' : Run) (n : Nat) : Prop where
  handed : handed r'.out = handed r.out
  pending : r'.pending = r.pending
  framesUp : r'.counters.framesUp = r.counters.framesUp
  dropped : r'.counters.dropped = r.counters.dropped + n

theorem offer_offered (f : Frame) (sid : SessionId) (r : Run) :
    Offered r (Run.offer f r sid) (if misses r f sid then 1 else 0) := by
  unfold Run.offer
  split
  · rename_i hl
    simp only [misses, hl]
    exact ⟨rfl, rfl, rfl, rfl⟩
  · rename_i s hl
    dsimp only
    split
    · rename_i tx ht
      rw [if_neg (by simp [misses, hl, ht])]
      exact ⟨by simp [FrameFlow.handed], rfl, rfl, rfl⟩
    · rename_i ht
      rw [if_pos (by simp [misses, hl, ht])]
      exact ⟨by simp [FrameFlow.handed, Run.dropFrame], rfl, rfl, rfl⟩

theorem offer_misses (hn : other ≠ sid) (r : Run) :
    misses (Run.offer f r sid) f other = misses r f other := by
  unfold Run.offer
  split
  · rfl
  · dsimp only
    split
    · simp only [misses, lookup_replace_ne hn]
    · rfl

/-- Each session that misses the frame is counted once. -/
theorem offers_offered (f : Frame) (ids : List SessionId) (hn : ids.Nodup) (r : Run) :
    Offered r (ids.foldl (Run.offer f) r) (ids.filter (misses r f)).length := by
  induction ids generalizing r with
  | nil => exact ⟨rfl, rfl, rfl, rfl⟩
  | cons sid ids ih =>
    obtain ⟨hsid, hn⟩ := List.nodup_cons.mp hn
    have hsame : ids.filter (misses (Run.offer f r sid) f) = ids.filter (misses r f) := by
      refine List.filter_congr ?_
      intro other hm
      refine offer_misses ?_ r
      rintro rfl
      exact hsid hm
    have h := offer_offered f sid r
    have h' := ih hn (Run.offer f r sid)
    rw [hsame] at h'
    refine ⟨h'.handed.trans h.handed, h'.pending.trans h.pending, h'.framesUp.trans h.framesUp, ?_⟩
    rw [List.foldl_cons, h'.dropped, h.dropped, List.filter_cons]
    split
    · rw [List.length_cons]
      omega
    · omega

theorem onTnc_offered (now : Now) (g : Nat) (f : Frame) (r : Run) :
    Offered r (r.onTnc now (.frame g f)) (missed r (.tnc now (.frame g f))).length := by
  by_cases hg : g = r.generation
  · simp only [Run.onTnc, missed, hg, ne_eq, not_true_eq_false, if_false, if_true]
    obtain ⟨ho, hp, hu, hd⟩ := offers_offered f r.sessions.keys r.sessions.keys_nodup
      { r with counters := { r.counters with framesDown := r.counters.framesDown + 1 } }
    exact ⟨ho, hp, hu, hd⟩
  · simp only [Run.onTnc, missed, hg, ne_eq, not_false_eq_true, if_true, if_false]
    exact ⟨rfl, rfl, rfl, rfl⟩

theorem onTnc_moves (ev : TncEvent) (r : Run) :
    Moves r (r.onTnc now ev) [] (missed r (.tnc now ev)).length 0 := by
  cases ev with
  | frame g f =>
    have h := onTnc_offered now g f r
    exact .of_same h.handed h.pending h.framesUp h.dropped
  | closed g err =>
    simp only [Run.onTnc, missed]
    split
    · split
      · exact .refl r
      · split <;> exact .of_same rfl rfl rfl rfl
    · exact .refl r

theorem connectDone_moves (r : Run) : Moves r r.connectDone [] 0 0 := by
  unfold Run.connectDone
  split
  · exact .of_same (by simp [handed]) rfl rfl rfl
  · exact .refl r

theorem connected_moves (r : Run) : Moves r (r.onLink now (.connected (.ok steps))) [] 0 0 := by
  obtain ⟨hp, -⟩ := drain_moves now r.pending
    (r := { r.linkUp now steps with pending := [] }) rfl rfl
  simp only [Run.onLink]
  split
  · exact (linkUp_moves now steps r).then (close_empty hp)
  · exact linkUp_moves now steps r

theorem connectFailed_moves (now : Now) (err : Error) (r : Run) :
    Moves r (r.onLink now (.connected (.error err))) [] 0
      (discarded r (.link now (.connected (.error err)))).length := by
  have hl : Moves r { r with link := .idle } [] 0 0 := .of_same rfl rfl rfl rfl
  cases hw : r.wantsLink with
  | true =>
    rw [discarded_none (by simp [abandons, hw])]
    have hi : { r with link := .idle }.wantsLink = true := hw
    simp only [Run.onLink, hi]
    cases err <;> exact .of_same rfl rfl rfl rfl
  | false =>
    rw [discarded_all (by simp [abandons, hw])]
    have hi : { r with link := .idle }.wantsLink = false := hw
    simp only [Run.onLink, hi]
    exact hl.after (giveUp_moves _)

theorem backoffOver_moves (r : Run) :
    Moves r (r.onLink now .backoffOver) [] 0 (discarded r (.link now .backoffOver)).length := by
  have hl : Moves r { r with link := .idle } [] 0 0 := .of_same rfl rfl rfl rfl
  cases hw : r.wantsLink with
  | true =>
    rw [discarded_none (by simp [abandons, hw])]
    have hi : { r with link := .idle }.wantsLink = true := hw
    simp only [Run.onLink, hi]
    exact hl.then (startConnect_moves _)
  | false =>
    rw [discarded_all (by simp [abandons, hw])]
    have hi : { r with link := .idle }.wantsLink = false := hw
    simp only [Run.onLink, hi]
    exact hl.after (giveUp_moves _)

theorem onIdle_moves (r : Run) :
    Moves r (r.onIdle now) [] 0 (discarded r (.idleElapsed now)).length := by
  have hl : Moves r { r with idleTimer := none } [] 0 0 := .of_same rfl rfl rfl rfl
  cases hw : r.wantsLink with
  | true =>
    rw [discarded_none (by simp [abandons, hw])]
    have hi : { r with idleTimer := none }.wantsLink = true := hw
    simp only [Run.onIdle, hi]
    exact hl
  | false =>
    rw [discarded_all (by simp [abandons, hw])]
    have hi : { r with idleTimer := none }.wantsLink = false := hw
    simp only [Run.onIdle, hi]
    exact hl.after (close_moves _)

/-- Where the frames of one step go. -/
theorem step_moves (h : Coherent r) (hs : r.step e = some r') :
    Moves r r' (passed r e) ((taken e).length + (missed r e).length) (discarded r e).length := by
  cases step_turn hs with
  | app _ => exact onApp_moves _ h
  | tnc => simpa [passed, taken, discarded, abandons] using onTnc_moves _ r
  | cmd => exact onCmd_moves _ r
  | @connected _ n res hl =>
    cases res with
    | ok steps => exact (connectDone_moves r).then (connected_moves _)
    | error err =>
      have hm := (connectDone_moves r).after (connectFailed_moves n err r.connectDone)
      have hd : discarded r.connectDone (.link n (.connected (.error err))) =
          discarded r (.link n (.connected (.error err))) := by
        simp only [discarded, abandons, waitingFrames, Run.connectDone, hl]
        rfl
      rw [hd] at hm
      exact hm
  | backoffOver hl => exact backoffOver_moves r
  | idle _ => exact onIdle_moves r
  | takes _ _ => exact .of_same rfl rfl rfl rfl
  | gone _ => exact .of_same rfl rfl rfl rfl
  | writer _ hw => cases e <;> first | exact .of_same rfl rfl rfl rfl | cases hw
  | slot hw => cases e <;> first | exact .refl r | cases hw

/-- The sessions that miss a frame are counted among the drops. -/
theorem step_missed (h : Coherent r) (hs : r.step e = some r') :
    r.counters.dropped + (missed r e).length ≤ r'.counters.dropped := by
  have hg := (step_moves h hs).grows
  cases e with
  | tnc n ev =>
    cases ev with
    | frame g f =>
      cases hs
      exact Nat.le_of_eq (onTnc_offered n g f r).dropped.symm
    | closed g err => exact hg
  | _ => exact hg

/-- Where the frames of a whole run go. -/
theorem run_moves (h : Runs Run.step r es r') (hc : Coherent r) :
    Coherent r' ∧
      Moves r r' (along Run.step passed r es)
        ((es.flatMap taken).length + (along Run.step missed r es).length)
        (along Run.step discarded r es).length := by
  induction h with
  | start => exact ⟨hc, .refl r⟩
  | @next es t e u hr _ hs ih =>
    obtain ⟨hct, hm⟩ := ih
    refine ⟨step_coherent hct hs, ?_⟩
    have h := hm.trans (step_moves hct hs)
    rw [along_next hr hs, along_next hr hs, along_next hr hs, List.length_append,
      List.length_append, List.flatMap_append, List.length_append, List.flatMap_singleton]
    convert h using 1
    omega

theorem run_missed (h : Runs Run.step r es r') (hc : Coherent r) :
    r.counters.dropped + (along Run.step missed r es).length ≤ r'.counters.dropped := by
  induction h with
  | start => exact Nat.le_refl _
  | @next es t e u hr _ hs ih =>
    have hstep := step_missed (run_moves hr hc).1 hs
    rw [along_next hr hs, List.length_append]
    omega

end KissTncBridge.Proofs.FrameFlow
