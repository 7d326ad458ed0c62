import KissTncBridge.Proofs.FrameFlow

namespace KissTncBridge.Proofs.UplinkOrder
open Bridge Conf Lib BridgeSteps Coherence FrameFlow

variable {r r' : Run} {now : Now}

def handedTo (link : Nat) (out : List Out) : List Frame :=
  ((handed out).filter (fun p => p.1 == link)).map Prod.snd

def fresh (now : Now) (p : Nat × Frame × Option SessionId) : Bool :=
  !(p.1 + UPLINK_QUEUE_AGE < now.instant)

theorem handedTo_sublist (link : Nat) (out : List Out) :
    (handedTo link out).Sublist ((handed out).map Prod.snd) :=
  List.filter_sublist.map Prod.snd

/-- A writer with room takes the frame. -/
theorem uplink_handed (now : Now) (f : Frame) (src : Option SessionId) (hl : r.link = .connected l)
    (ht : r.writerTx = some tx) (ha : tx.alive = true) (hr : tx.queue.length < tx.cap) :
    handed (r.uplink now f src).out = handed r.out ++ [(l, f)] ∧
      (r.uplink now f src).link = .connected l ∧
      (r.uplink now f src).writerTx = some { tx with queue := tx.queue ++ [.frame f] } := by
  have hsend : tx.trySend (.frame f) = some { tx with queue := tx.queue ++ [.frame f] } := by
    rw [Chan.trySend, if_pos ⟨ha, hr⟩]
  simp only [Run.uplink, hl, ht, Option.bind_some, hsend]
  exact ⟨by simp [handed], trivial, trivial⟩

/-- While the writer has room for all of them, exactly the fresh frames are
handed over, in the order they waited. -/
theorem drain_handed (now : Now) (ps : List (Nat × Frame × Option SessionId))
    (hl : r.link = .connected l)
    (ht : r.writerTx = some tx) (ha : tx.alive = true) (hr : tx.queue.length + ps.length ≤ tx.cap) :
    handed (ps.foldl (Run.uplinkPending now) r).out =
      handed r.out ++ (ps.filter (fresh now)).map (fun p => (l, p.2.1)) := by
  induction ps generalizing r tx with
  | nil => simp
  | cons p ps ih =>
    rw [List.length_cons] at hr
    rw [List.foldl_cons]
    by_cases hf : fresh now p = true
    · have hlate : ¬ p.1 + UPLINK_QUEUE_AGE < now.instant := by simpa [fresh] using hf
      obtain ⟨ho, hl', ht'⟩ := uplink_handed now p.2.1 p.2.2 hl ht ha (by omega)
      have hstep : Run.uplinkPending now r p = r.uplink now p.2.1 p.2.2 := by
        rw [Run.uplinkPending, if_neg hlate]
      rw [hstep, ih hl' ht' ha (by simp only [List.length_append, List.length_singleton]; omega),
        ho, List.filter_cons_of_pos hf, List.map_cons, List.append_assoc, List.singleton_append]
    · have hlate : p.1 + UPLINK_QUEUE_AGE < now.instant := by simpa [fresh] using hf
      have hstep : Run.uplinkPending now r p = r.dropFrame := by
        rw [Run.uplinkPending, if_pos hlate]
      rw [hstep, ih (r := r.dropFrame) hl ht ha (by omega), List.filter_cons_of_neg hf]
      rfl

/-- The queue of waiting frames fits a new writer's whole. -/
theorem connected_handed (now : Now) (steps : List (List UInt8))
    (hb : r.pending.length ≤ UPLINK_QUEUE_FRAMES) :
    handed (r.onLink now (.connected (.ok steps))).out =
        handed r.out ++ (r.pending.filter (fresh now)).map (fun p => (r.nextLink, p.2.1)) ∧
      (r.onLink now (.connected (.ok steps))).pending = [] := by
  have hfit : (Chan.empty WRITER_QUEUE : Chan WriterMsg).queue.length + r.pending.length ≤
      (Chan.empty WRITER_QUEUE : Chan WriterMsg).cap := by
    simp only [Chan.empty, List.length_nil, WRITER_QUEUE]
    simp only [UPLINK_QUEUE_FRAMES] at hb
    omega
  have hd := drain_handed (r := { r.linkUp now steps with pending := [] }) now r.pending rfl
    rfl rfl hfit
  have hup : handed (r.linkUp now steps).out = handed r.out := by
    simp [handed, Run.linkUp, Run.setState]
  have hp := (drain_moves now r.pending
    (r := { r.linkUp now steps with pending := [] }) rfl rfl).1
  rw [hup] at hd
  simp only [Run.onLink]
  split
  · exact ⟨(handed_release _).trans hd, rfl⟩
  · exact ⟨hd, hp⟩

theorem taken_frame (hs : r.step (.app now (.frame sid f)) = some r') :
    r.appReady = true ∧ r' = r.onApp now (.frame sid f) := by
  simp only [Run.step] at hs
  split at hs
  · rename_i hr
    cases hs
    exact ⟨hr, rfl⟩
  · cases hs

theorem room_of_ready (hr : r.appReady = true) (ht : r.writerTx = some tx) :
    tx.queue.length < tx.cap := by
  simp only [Run.appReady, ht, Chan.capacity] at hr
  have hc := of_decide_eq_true hr
  omega

theorem onApp_passed (hp : passed r (.app now (.frame sid f)) = [f]) :
    r.onApp now (.frame sid f) = r.uplink now f (some sid) := by
  simp only [passed] at hp
  split at hp
  · rename_i hc
    have hn : (r.sessions.lookup sid).isNone = false := by simpa using hc.1
    simp only [Run.onApp, hn, Bool.false_eq_true, if_false, hc.2]
  · cases hp

theorem passed_taken (h : Runs Run.step r es r') :
    (along Run.step passed r es).Sublist (es.flatMap taken) := by
  induction h with
  | start => exact List.Sublist.refl _
  | @next es t e u hr _ hs ih =>
    rw [along_next hr hs, List.flatMap_append, List.flatMap_singleton]
    refine ih.append ?_
    unfold passed taken
    split
    · split <;> simp
    · exact List.nil_sublist _

/-- Frames go up in the order the bridge took them: what a link's writer was
handed comes, in order, from the app frames the policy let pass when they were
taken. A frame that is taken finds room in the writer's queue, and a live
writer gets it; a link that comes up gets exactly the waiting frames that are
still fresh, before anything taken later. -/
theorem uplink_in_order (h : Runs Run.step (Run.start bid c s now) es r) :
    (∀ link, (handedTo link r.out).Sublist (along Run.step passed (Run.start bid c s now) es)) ∧
    (along Run.step passed (Run.start bid c s now) es).Sublist (es.flatMap taken) ∧
    (∀ n sid f r', r.step (.app n (.frame sid f)) = some r' →
      ∀ link tx, r.link = .connected link → r.writerTx = some tx →
        tx.queue.length < tx.cap ∧
        (tx.alive = true → passed r (.app n (.frame sid f)) = [f] →
          handed r'.out = handed r.out ++ [(link, f)])) ∧
    (∀ n steps r', r.step (.link n (.connected (.ok steps))) = some r' →
      handed r'.out = handed r.out ++
        (r.pending.filter (fun p => !(p.1 + UPLINK_QUEUE_AGE < n.instant))).map
          (fun p => (r.nextLink, p.2.1)) ∧
      r'.pending = [] ∧
      ∀ es' r'', Runs Run.step r' es' r'' →
        ∃ later, handed r''.out = handed r'.out ++ later ∧
          (later.map Prod.snd).Sublist (along Run.step passed r' es')) := by
  obtain ⟨hc, hm⟩ := run_moves h (start_coherent bid c s)
  refine ⟨?_, passed_taken h, ?_, ?_⟩
  · intro link
    obtain ⟨up, ho, hs⟩ := hm.hands
    have hstart : handed (Run.start bid c s now).out = [] ∧
        waitingFrames (Run.start bid c s now) = [] := by
      simp only [Run.start, Run.new, Run.startConnect, Run.setState]
      split <;> simp [handed, waitingFrames]
    rw [hstart.1, List.nil_append] at ho
    rw [hstart.2, List.nil_append] at hs
    have hu : (up.map Prod.snd).Sublist (along Run.step passed (Run.start bid c s now) es) :=
      (List.sublist_append_left _ _).trans hs
    rw [← ho] at hu
    exact (handedTo_sublist link r.out).trans hu
  · intro n sid f r' hs link tx hl ht
    obtain ⟨hready, rfl⟩ := taken_frame hs
    refine ⟨room_of_ready hready ht, ?_⟩
    intro ha hp
    rw [onApp_passed hp]
    exact (uplink_handed n f (some sid) hl ht ha (room_of_ready hready ht)).1
  · intro n steps r' hs
    obtain ⟨task, hl⟩ : ∃ task, r.link = .connecting task := by
      simp only [Run.step] at hs
      split at hs
      · rename_i hl _
        exact ⟨_, hl⟩
      · rename_i he
        cases he
      · cases hs
    have hr' : r' = r.connectDone.onLink n (.connected (.ok steps)) := by
      simp only [Run.step, hl, Option.some.injEq] at hs
      exact hs.symm
    have hd : r.connectDone.pending = r.pending ∧ r.connectDone.nextLink = r.nextLink ∧
        handed r.connectDone.out = handed r.out := by
      simp only [Run.connectDone, hl]
      exact ⟨trivial, rfl, by simp [handed]⟩
    have hbound : r.connectDone.pending.length ≤ UPLINK_QUEUE_FRAMES := hd.1 ▸ hc.tasks.bounded
    obtain ⟨ho, hp⟩ := connected_handed n steps hbound
    rw [hd.1, hd.2.1, hd.2.2] at ho
    refine ⟨hr' ▸ ho, hr' ▸ hp, ?_⟩
    intro es' r'' hr
    obtain ⟨-, hm'⟩ := run_moves hr (step_coherent hc hs)
    obtain ⟨later, ho', hs'⟩ := hm'.hands
    have hnil : waitingFrames r' = [] := by rw [waitingFrames, hr', hp, List.map_nil]
    rw [hnil, List.nil_append] at hs'
    exact ⟨later, ho', (List.sublist_append_left _ _).trans hs'⟩

def sampleUplink : List Event :=
  [.app ⟨0, 0⟩ (.sessionOpened (sampleSession 40001) (.empty 64) 0),
   .app ⟨1, 1⟩ (.frame (sampleSession 40001) [0x00, 0x41]),
   .link ⟨2, 2⟩ (.connected (.ok [])),
   .app ⟨3, 3⟩ (.frame (sampleSession 40001) [0x00, 0x42])]

theorem uplink_in_order_sample :
    ∃ r, Runs Run.step (sampleRun .onDemand) sampleUplink r ∧
      handedTo 1 r.out = [[0x00, 0x41], [0x00, 0x42]] ∧
      (handedTo 1 r.out).Sublist (along Run.step passed (sampleRun .onDemand) sampleUplink) := by
  have h : Runs Run.step (sampleRun .onDemand) sampleUplink _ :=
    .next (.next (.next (.next .start trivial rfl) trivial rfl) trivial rfl) trivial rfl
  exact ⟨_, h, by decide, (uplink_in_order h).1 1⟩

end KissTncBridge.Proofs.UplinkOrder
