import KissTncBridge.Lib.Labelled
import KissTncBridge.Proofs.NoReturn

namespace KissTncBridge.Proofs.AppStreams
open Bridge Conf Lib Kiss Wire Coherence FrameFlow UplinkOrder Reassembly NoReturn

variable {a a' : Apps} {e : AppsEvent} {es : List AppsEvent}

def bytesRead (task : Nat) : AppsEvent → List UInt8
  | .reads t data => if t = task then data else []
  | _ => []

def sent (a : Apps) : AppsEvent → List (Nat × Frame)
  | .sends task =>
      ((a.readers[task]?).bind (fun t => t.reader.pending.head?)).toList.map (fun f => (task, f))
  | _ => []

def frameOf : AppEvent → Option Frame
  | .frame _ f => some f
  | .sessionOpened .. | .sessionClosed _ => none

def takenUp (a : Apps) : AppsEvent → List Frame
  | .takes _ => (a.queue.head?.bind frameOf).toList
  | _ => []

def queued (a : Apps) : List Frame := a.queue.filterMap frameOf

/-- The frames that were sent, and those that the reader holds ready, are whole frames of the
bytes that it has read, in order. -/
def Reads (bytes : List UInt8) (frames : List Frame) (r : KissReader) : Prop :=
  Tracks bytes (frames ++ r.pending) r.reassembly

theorem new_reads (maxFrame : Nat) : Reads [] [] (.withMaxFrame maxFrame) :=
  ⟨[], rfl, List.nil_sublist _, fun h => nomatch h⟩

section
variable {bytes data : List UInt8} {frames : List Frame} {r : KissReader}
    {buffer : KissReassemblyBuffer}

theorem Reads.push (h : Reads bytes frames r) (hp : r.pending = []) (data : List UInt8) :
    Tracks (bytes ++ data) frames (r.reassembly.push data).2 := by
  rw [Reads, hp, List.append_nil] at h
  exact push_tracks h data

theorem Reads.overflows (h : Reads bytes frames r) (hp : r.pending = [])
    (hb : r.reassembly.push data = (.error why, buffer)) :
    Reads (bytes ++ data) frames ⟨buffer, []⟩ := by
  have hpush := h.push hp data
  rw [hb] at hpush
  simpa [Reads] using hpush

theorem Reads.fits (h : Reads bytes frames r) (hp : r.pending = [])
    (hb : r.reassembly.push data = (.ok u, buffer)) :
    Reads (bytes ++ data) frames ⟨buffer.drainFrames.2, buffer.drainFrames.1⟩ := by
  have hpush := h.push hp data
  rw [hb] at hpush
  exact drain_tracks hpush

theorem Reads.sends (h : Reads bytes frames r) (hp : r.pending = f :: rest) :
    Reads bytes (frames ++ [f]) { r with pending := rest } := by
  rw [Reads, hp] at h
  simpa [Reads] using h

theorem Reads.whole (h : Reads bytes frames r) : frames.Sublist (bounded FEND bytes) := by
  obtain ⟨before, rfl, hs, -⟩ := h
  obtain ⟨more, hm⟩ := bounded_prefix (d := FEND) before r.reassembly.buf
  rw [hm]
  exact ((List.sublist_append_left ..).trans hs).trans (List.sublist_append_left ..)

end

inductive Advance : List UInt8 → List Frame → Option AppReader → Option AppReader → Prop where
  | same : Advance [] [] t t
  | starts : Advance [] [] none (some (.new sid))
  | reads : t.read data = some t' → Advance data [] (some t) (some t')
  | sends : t.reader.pending = f :: rest →
      Advance [] [f] (some t) (some { t with reader := { t.reader with pending := rest } })
  | ends : Advance [] [] (some t) (some { t with ended := true })

def Streams (bytes : List UInt8) (frames : List Frame) : Option AppReader → Prop
  | none => bytes = [] ∧ frames = []
  | some t => Reads bytes frames t.reader

theorem read_streams {t t' : AppReader} (h : Reads bytes frames t.reader)
    (hr : t.read data = some t') : Reads (bytes ++ data) frames t'.reader := by
  unfold AppReader.read at hr
  split at hr
  · cases hr
  · rename_i hc
    have hp : t.reader.pending = [] := by
      simp only [not_or, not_not] at hc
      exact hc.2.1
    split at hr
    · rename_i hb
      obtain rfl := Option.some.inj hr
      exact h.overflows hp hb
    · rename_i hb
      obtain rfl := Option.some.inj hr
      exact h.fits hp hb

theorem Streams.advance (h : Streams bytes frames t) (ha : Advance b f t t') :
    Streams (bytes ++ b) (frames ++ f) t' := by
  cases ha with
  | same => simpa using h
  | @starts sid =>
    obtain ⟨rfl, rfl⟩ := h
    unfold Streams AppReader.new
    cases sid.peer with
    | tcp _ => exact new_reads MAX_FRAME_BYTES
    | ble _ => exact new_reads BLE_FRAME_BYTES
  | reads hr =>
    rw [List.append_nil]
    exact read_streams h hr
  | sends hp =>
    rw [List.append_nil]
    exact Reads.sends h hp
  | ends => simpa [Streams] using h

theorem Streams.whole (h : Streams bytes frames t) : frames.Sublist (bounded FEND bytes) := by
  cases t with
  | none =>
    obtain ⟨-, rfl⟩ := h
    exact List.nil_sublist _
  | some t => exact Reads.whole h

theorem set_reader {readers : List AppReader} {t : AppReader} (ht : readers[i]? = some t)
    (task : Nat) : (readers.set i t')[task]? = if i = task then some t' else readers[task]? := by
  obtain ⟨hi, -⟩ := List.getElem?_eq_some_iff.mp ht
  by_cases he : i = task
  · subst he
    simp [hi]
  · simp [he]

theorem send_some {ev : AppEvent} (h : a.send ev = some a') :
    a' = { a with queue := a.queue ++ [ev] } := by
  unfold Apps.send at h
  split at h
  · exact (Option.some.inj h).symm
  · cases h

structure Steps (a : Apps) (e : AppsEvent) (a' : Apps) : Prop where
  tasks : ∀ task,
    Advance (bytesRead task e) (under task (sent a e)) a.readers[task]? a'.readers[task]?
  queue : queued a ++ (sent a e).map Prod.snd = takenUp a e ++ queued a'
  hands : Coherent a.run → Coherent a'.run ∧ ∃ up, handed a'.run.out = handed a.run.out ++ up ∧
    (up.map Prod.snd ++ waitingFrames a'.run).Sublist (waitingFrames a.run ++ takenUp a e)

theorem same_hands (hr : a'.run = a.run) (ht : takenUp a e = []) :
    Coherent a.run → Coherent a'.run ∧ ∃ up, handed a'.run.out = handed a.run.out ++ up ∧
      (up.map Prod.snd ++ waitingFrames a'.run).Sublist (waitingFrames a.run ++ takenUp a e) := by
  intro hc
  rw [hr, ht]
  exact ⟨hc, [], (List.append_nil _).symm, by simp⟩

theorem passed_sublist (r : Run) (e : Event) : (passed r e).Sublist (taken e) := by
  unfold passed
  split
  · split
    · exact List.Sublist.refl _
    · exact List.nil_sublist _
  · exact List.nil_sublist _

theorem turn_hands {r' : Run} {e : Event} (hs : a.run.step e = some r') (hc : Coherent a.run) :
    Coherent r' ∧ ∃ up, handed r'.out = handed a.run.out ++ up ∧
      (up.map Prod.snd ++ waitingFrames r').Sublist (waitingFrames a.run ++ taken e) := by
  obtain ⟨up, ho, hsub⟩ := (step_moves hc hs).hands
  exact ⟨step_coherent hc hs, up, ho, hsub.trans ((passed_sublist a.run e).append_left _)⟩

theorem queue_sent {ev : AppEvent} (hn : takenUp a e = [])
    (hf : (frameOf ev).toList = (sent a e).map Prod.snd) (hq : a'.queue = a.queue ++ [ev]) :
    queued a ++ (sent a e).map Prod.snd = takenUp a e ++ queued a' := by
  rw [hn, List.nil_append, queued, queued, hq, List.filterMap_append, ← hf]
  cases hg : frameOf ev with
  | none => simp [hg]
  | some f => simp [hg]

theorem step_steps (hs : a.step e = some a') : Steps a e a' := by
  cases e with
  | connects sid =>
    obtain rfl := Option.some.inj hs
    refine ⟨fun task => ?_, by simp [queued, sent, takenUp], same_hands rfl rfl⟩
    dsimp only
    rw [List.getElem?_append]
    split
    · exact .same
    · rename_i hlt
      rw [List.getElem?_eq_none (Nat.le_of_not_lt hlt)]
      rcases Nat.eq_zero_or_pos (task - a.readers.length) with hz | hp
      · rw [hz]
        exact .starts
      · have hlen : ([AppReader.new sid]).length ≤ task - a.readers.length := Nat.succ_le_of_lt hp
        rw [List.getElem?_eq_none hlen]
        exact .same
  | reads i data =>
    simp only [Apps.step, Option.bind_eq_bind, Option.bind_eq_some_iff] at hs
    obtain ⟨t, ht, t', hr, hs⟩ := hs
    obtain rfl := Option.some.inj hs
    refine ⟨fun task => ?_, by simp [queued, sent, takenUp], same_hands rfl rfl⟩
    rw [set_reader ht, bytesRead]
    split
    · rename_i he
      subst he
      rw [ht]
      exact .reads hr
    · exact .same
  | sends i =>
    simp only [Apps.step, Option.bind_eq_bind, Option.bind_eq_some_iff] at hs
    obtain ⟨t, ht, hs⟩ := hs
    split at hs
    · cases hs
    · rename_i f rest hp
      split at hs
      · cases hs
      · have hsent : sent a (.sends i) = [(i, f)] := by simp [sent, ht, hp]
        obtain rfl := send_some hs
        refine ⟨fun task => ?_, queue_sent rfl (by rw [hsent]; rfl) rfl, same_hands rfl rfl⟩
        rw [set_reader ht, hsent, under_cons]
        split
        · rename_i he
          subst he
          rw [ht]
          exact .sends hp
        · exact .same
  | ends i =>
    simp only [Apps.step, Option.bind_eq_bind, Option.bind_eq_some_iff] at hs
    obtain ⟨t, ht, hs⟩ := hs
    obtain rfl := Option.some.inj hs
    refine ⟨fun task => ?_, by simp [queued, sent, takenUp], same_hands rfl rfl⟩
    rw [set_reader ht]
    split
    · rename_i he
      subst he
      rw [ht]
      exact .ends
    · exact .same
  | opened sid tx kick =>
    obtain rfl := send_some hs
    exact ⟨fun _ => .same, queue_sent rfl rfl rfl, same_hands rfl rfl⟩
  | closed sid =>
    obtain rfl := send_some hs
    exact ⟨fun _ => .same, queue_sent rfl rfl rfl, same_hands rfl rfl⟩
  | takes n =>
    simp only [Apps.step] at hs
    split at hs
    · cases hs
    · rename_i ev rest hq
      obtain ⟨run, hr, rfl⟩ := Option.map_eq_some_iff.mp hs
      have htaken : takenUp a (.takes n) = taken (.app n ev) := by
        cases ev <;> simp [takenUp, hq, frameOf, taken]
      refine ⟨fun _ => .same, ?_, fun hc => htaken ▸ turn_hands hr hc⟩
      cases hf : frameOf ev with
      | none => simp [queued, sent, takenUp, hq, hf]
      | some f => simp [queued, sent, takenUp, hq, hf]
  | turn e =>
    cases e with
    | app n ev => cases hs
    | _ =>
      simp only [Apps.step, Option.map_eq_some_iff] at hs
      obtain ⟨run, hr, rfl⟩ := hs
      exact ⟨fun _ => .same, by simp [queued, sent, takenUp], fun hc => turn_hands hr hc⟩

variable {bid : String} {c : Connector} {s : TncSettings} {now : Now}

/-- Where the apps' frames are after a run: what the tasks sent was taken or is queued, and
what was handed to links or waits for one was taken. -/
structure Flows (start : Apps) (es : List AppsEvent) (a : Apps) : Prop where
  tasks : ∀ task, Streams (es.flatMap (bytesRead task)) (under task (along Apps.step sent start es))
    a.readers[task]?
  queue : (along Apps.step sent start es).map Prod.snd =
    along Apps.step takenUp start es ++ queued a
  coherent : Coherent a.run
  hands : ((handed a.run.out).map Prod.snd ++ waitingFrames a.run).Sublist
    (along Apps.step takenUp start es)

theorem start_flows (bid : String) (c : Connector) (s : TncSettings) (now : Now) :
    Flows (Apps.start bid c s now) [] (Apps.start bid c s now) := by
  refine ⟨fun _ => ⟨rfl, rfl⟩, rfl, start_coherent bid c s, ?_⟩
  have hwaiting : waitingFrames (Run.start bid c s now) = [] := by
    unfold Run.start
    dsimp only
    split <;> rfl
  have hhanded : handed (Run.start bid c s now).out = [] := by
    unfold Run.start
    dsimp only
    split <;> rfl
  have hrun : (Apps.start bid c s now).run = Run.start bid c s now := rfl
  rw [hrun, hwaiting, hhanded]
  exact List.nil_sublist _

theorem Flows.next {start : Apps} (h : Flows start es a) (hr : Runs Apps.step start es a)
    (hs : a.step e = some a') : Flows start (es ++ [e]) a' := by
  have hstep := step_steps hs
  obtain ⟨hcoherent, up, hout, hsub⟩ := hstep.hands h.coherent
  refine ⟨fun task => ?_, ?_, hcoherent, ?_⟩
  · rw [along_next hr hs, List.flatMap_append, List.flatMap_singleton, under_append]
    exact (h.tasks task).advance (hstep.tasks task)
  · rw [along_next hr hs, along_next hr hs, List.map_append, h.queue, List.append_assoc,
      hstep.queue, List.append_assoc]
  · rw [along_next hr hs, hout, List.map_append, List.append_assoc]
    calc ((handed a.run.out).map Prod.snd ++ (up.map Prod.snd ++ waitingFrames a'.run)).Sublist
          ((handed a.run.out).map Prod.snd ++ (waitingFrames a.run ++ takenUp a e)) :=
            hsub.append_left _
      List.Sublist _ (along Apps.step takenUp start es ++ takenUp a e) := by
        rw [← List.append_assoc]
        exact h.hands.append_right _

theorem run_flows (h : Runs Apps.step (Apps.start bid c s now) es a) :
    Flows (Apps.start bid c s now) es a := by
  induction h with
  | start => exact start_flows bid c s now
  | next hr _ hs ih => exact ih.next hr hs

theorem handedTo_under (link : Nat) (out : List Out) :
    handedTo link out = under link (handed out) := by
  unfold handedTo under
  congr 2

/-- What reaches the TNC of the apps' bytes is made of whole frames of theirs. Each is some
app's, those of one app come in the order in which it sent them and none twice, whatever
else goes on; and the bytes on a link fall into just these frames. -/
theorem link_merges_apps (h : Runs Apps.step (Apps.start bid c s now) es a) :
    ∃ origin : List (Nat × Frame), origin.map Prod.snd = (handed a.run.out).map Prod.snd ∧
      (∀ task, (under task origin).Sublist (bounded FEND (es.flatMap (bytesRead task)))) ∧
      ∀ link, bounded FEND (uplinkBytes link a.run.out) = under link (handed a.run.out) := by
  have hflow := run_flows h
  have hsent : ((handed a.run.out).map Prod.snd).Sublist
      ((along Apps.step sent (Apps.start bid c s now) es).map Prod.snd) := by
    rw [hflow.queue]
    exact ((List.sublist_append_left ..).trans hflow.hands).trans (List.sublist_append_left ..)
  obtain ⟨origin, horigin, hframes⟩ := exists_labelled hsent
  refine ⟨origin, hframes, fun task => ?_, fun link => ?_⟩
  · exact (under_sublist horigin).trans (hflow.tasks task).whole
  · have hwhole : ∀ f ∈ handedTo link a.run.out, f ≠ [] ∧ FEND ∉ f := by
      intro f hf
      obtain ⟨p, hp, rfl⟩ := List.mem_map.mp ((handedTo_sublist link a.run.out).subset hf)
      exact ((reachable_clean h).handed p hp).1
    rw [uplinkBytes, bounded_wires _ hwhole, handedTo_under]

/-- Two apps send a frame each, one of them in two pieces around the other's. -/
def sampleMerge : List AppsEvent :=
  [.connects (BridgeSteps.sampleSession 40001), .connects (BridgeSteps.sampleSession 40002),
   .opened (BridgeSteps.sampleSession 40001) (.empty 64) 0,
     .opened (BridgeSteps.sampleSession 40002) (.empty 64) 1,
   .takes ⟨0, 0⟩, .takes ⟨0, 0⟩, .turn (.link ⟨1, 1⟩ (.connected (.ok []))),
   .reads 0 [0xC0, 0x00], .reads 1 [0xC0, 0x00, 0x42, 0xC0], .sends 1,
     .reads 0 [0x41, 0xC0], .sends 0,
   .takes ⟨2, 2⟩, .takes ⟨3, 3⟩]

theorem link_merges_apps_two :
    ∃ a, Runs Apps.step ⟨BridgeSteps.sampleRun .onDemand, [], []⟩ sampleMerge a ∧
      uplinkBytes 1 a.run.out = [0xC0, 0x00, 0x42, 0xC0, 0xC0, 0x00, 0x41, 0xC0] ∧
      ∃ origin : List (Nat × Frame), origin.map Prod.snd = (handed a.run.out).map Prod.snd ∧
        ∀ task, (under task origin).Sublist
          (bounded FEND (sampleMerge.flatMap (bytesRead task))) := by
  have h : Runs Apps.step ⟨BridgeSteps.sampleRun .onDemand, [], []⟩ sampleMerge _ :=
    runs_of_foldlM rfl
  obtain ⟨origin, hframes, htasks, -⟩ := link_merges_apps h
  exact ⟨_, h, by decide, origin, hframes, htasks⟩

end KissTncBridge.Proofs.AppStreams
