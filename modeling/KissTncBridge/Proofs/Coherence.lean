import Mathlib.Tactic.IntervalCases
import KissTncBridge.Proofs.BridgeSteps

namespace KissTncBridge.Proofs.Coherence
open Bridge Conf Lib BridgeSteps

variable {r r' : Run} {now : Now}

/-- The connect tasks that were spawned and neither aborted nor awaited. -/
def liveConnects (out : List Out) : List Nat :=
  out.foldl (fun live o => match o with
    | .spawnConnect _ task => live ++ [task]
    | .abortConnect task | .connectDone task => live.erase task
    | _ => live) []

def isConnected : TncLink → Bool
  | .connected _ => true
  | _ => false

def connects : TncLink → List Nat
  | .connecting task => [task]
  | _ => []

def backoffDelay (attempt : Nat) : Duration := 1000 * min (2 ^ (attempt - 1)) 30

inductive Shown : TncLink → Option Wait → TncState → Prop where
  | idle : Shown .idle none .idle
  | connecting : Shown (.connecting task) none .connecting
  | connected : Shown (.connected link) none .connected
  | backoff : 1 ≤ attempt → Shown (.backoff (backoffDelay attempt)) none
      (.backoff attempt (backoffDelay attempt))
  | unpaired : link.isWaiting = true → Shown link (some .unpaired) (.unpaired why)
  | device : link.isWaiting = true → Shown link (some .device) (.waitingForDevice why)

/-- What holds of the connects and of the frames waiting for one, whatever is
published. -/
structure Tasks (link : TncLink) (pending : List (Nat × Frame × Option SessionId))
    (out : List Out) : Prop where
  bounded : pending.length ≤ UPLINK_QUEUE_FRAMES
  spawned : ∀ was task, .spawnConnect was task ∈ out → was = .idle
  live : liveConnects out = connects link

structure Fits (link : TncLink) (writerTx : Option (Chan WriterMsg)) (waiting : Option Wait)
    (state : TncState) (pending : List (Nat × Frame × Option SessionId)) (out : List Out) :
    Prop where
  writer : writerTx.isSome = isConnected link
  shown : Shown link waiting state
  queued : pending ≠ [] → link.isWaiting = true
  tasks : Tasks link pending out

abbrev Coherent (r : Run) : Prop := Fits r.link r.writerTx r.waiting r.state r.pending r.out

/-- A handler that has taken the link to idle but not yet said what comes next.
Waiting goes on being shown until it is over. -/
structure Ready (r : Run) : Prop where
  writer : r.writerTx = none
  link : r.link = .idle
  shown : ∀ kind, r.waiting = some kind → ∀ link, link.isWaiting = true →
    Shown link (some kind) r.state
  tasks : Tasks r.link r.pending r.out

theorem Shown.waits (h : Shown link (some kind) state) (hw : link'.isWaiting = true) :
    Shown link' (some kind) state := by
  cases h with
  | unpaired _ => exact .unpaired hw
  | device _ => exact .device hw

theorem Shown.of_connected (h : Shown (.connected link) waiting state) :
    waiting = none ∧ state = .connected := by
  cases h with
  | connected => exact ⟨rfl, rfl⟩
  | unpaired hw => cases hw
  | device hw => cases hw

theorem Shown.of_idle (h : Shown .idle waiting state) : waiting = none ∧ state = .idle := by
  cases h with
  | idle => exact ⟨rfl, rfl⟩
  | unpaired hw => cases hw
  | device hw => cases hw

theorem isWaiting_cases {link : TncLink} (h : link.isWaiting = true) :
    (∃ task, link = .connecting task) ∨ ∃ sleep, link = .backoff sleep := by
  cases link with
  | connecting task => exact .inl ⟨task, rfl⟩
  | backoff sleep => exact .inr ⟨sleep, rfl⟩
  | idle => cases h
  | connected _ => cases h

theorem Shown.idle_iff (h : Shown link waiting state) : state = .idle ↔ link = .idle := by
  cases h with
  | unpaired hw | device hw => rcases isWaiting_cases hw with ⟨_, rfl⟩ | ⟨_, rfl⟩ <;> simp
  | _ => simp

theorem Shown.connected_iff (h : Shown link waiting state) :
    state = .connected ↔ ∃ l, link = .connected l := by
  cases h with
  | unpaired hw | device hw => rcases isWaiting_cases hw with ⟨_, rfl⟩ | ⟨_, rfl⟩ <;> simp
  | _ => simp

theorem Shown.unpaired_iff (h : Shown link waiting state) :
    (∃ why, state = .unpaired why) ↔ waiting = some .unpaired := by
  cases h <;> simp

theorem Shown.device_iff (h : Shown link waiting state) :
    (∃ why, state = .waitingForDevice why) ↔ waiting = some .device := by
  cases h <;> simp

theorem Shown.isWaiting (h : Shown link waiting state) (hw : waiting.isSome = true) :
    link.isWaiting = true := by
  cases h with
  | unpaired hl | device hl => exact hl
  | _ => cases hw

theorem Shown.trying (h : Shown link waiting state) (hw : waiting = none) :
    (state = .connecting ↔ ∃ task, link = .connecting task) ∧
      ((∃ attempt retryIn, state = .backoff attempt retryIn) ↔ ∃ sleep, link = .backoff sleep) := by
  subst hw
  cases h <;> simp

theorem Shown.backoff_delay (h : Shown link waiting (.backoff attempt retryIn)) :
    1 ≤ attempt ∧ retryIn = backoffDelay attempt := by
  cases h with
  | backoff ha => exact ⟨ha, rfl⟩

theorem liveConnects_snoc (out : List Out) (o : Out) :
    liveConnects (out ++ [o]) = match o with
      | .spawnConnect _ task => liveConnects out ++ [task]
      | .abortConnect task | .connectDone task => (liveConnects out).erase task
      | _ => liveConnects out := by
  unfold liveConnects
  rw [List.foldl_append]
  cases o <;> rfl

def quiet : Out → Bool
  | .spawnConnect .. | .abortConnect _ | .connectDone _ => false
  | _ => true

theorem Tasks.say (h : Tasks link pending out) (hq : quiet o = true) :
    Tasks link pending (out ++ [o]) := by
  refine ⟨h.bounded, ?_, ?_⟩
  · intro was task hm
    rcases List.mem_append.mp hm with hm | hm
    · exact h.spawned was task hm
    · cases List.mem_singleton.mp hm
      cases hq
  · rw [liveConnects_snoc, ← h.live]
    cases o <;> first | rfl | cases hq

theorem Tasks.sayIf (h : Tasks link pending out) (hq : quiet o = true) (c : Bool) :
    Tasks link pending (out ++ if c then [o] else []) := by
  cases c with
  | false => simpa using h
  | true => exact h.say hq

/-- The task a connecting link stands for is let go of. -/
theorem Tasks.ends (h : Tasks (.connecting task) pending out)
    (ho : o = .abortConnect task ∨ o = .connectDone task) :
    Tasks .idle pending (out ++ [o]) := by
  refine ⟨h.bounded, ?_, ?_⟩
  · intro was t hm
    rcases List.mem_append.mp hm with hm | hm
    · exact h.spawned was t hm
    · rcases ho with rfl | rfl <;> cases List.mem_singleton.mp hm
  · have hl : liveConnects out = [task] := h.live
    rcases ho with rfl | rfl <;> simp [liveConnects_snoc, hl, connects]

theorem Tasks.spawn (h : Tasks .idle pending out) :
    Tasks (.connecting task) pending (out ++ [.spawnConnect .idle task]) := by
  refine ⟨h.bounded, ?_, ?_⟩
  · intro was t hm
    rcases List.mem_append.mp hm with hm | hm
    · exact h.spawned was t hm
    · cases List.mem_singleton.mp hm
      rfl
  · have hl : liveConnects out = [] := h.live
    simp [liveConnects_snoc, hl, connects]

theorem Tasks.idles (h : Tasks link pending out) (hc : connects link = []) :
    Tasks .idle pending out := ⟨h.bounded, h.spawned, h.live.trans hc⟩

theorem Tasks.waits (h : Tasks link pending out) (hl : link = .idle) (d : Duration) :
    Tasks (.backoff d) pending out := by
  subst hl
  exact ⟨h.bounded, h.spawned, h.live⟩

theorem Tasks.clear (h : Tasks link pending out) : Tasks link [] out :=
  ⟨Nat.zero_le _, h.spawned, h.live⟩

theorem Tasks.queue (h : Tasks link pending out) (hb : pending'.length ≤ UPLINK_QUEUE_FRAMES) :
    Tasks link pending' out := ⟨hb, h.spawned, h.live⟩

theorem backoffDelay_eq (n : Nat) :
    min ((checkedMul BACKOFF_MIN (1 <<< min n 16)).getD BACKOFF_MAX) BACKOFF_MAX =
      backoffDelay (n + 1) := by
  have hb : n ≤ 4 ∨ 5 ≤ n := by omega
  rcases hb with hb | hb
  · interval_cases n <;> decide
  · have hm : ∃ k, min n 16 = k ∧ 5 ≤ k ∧ k ≤ 16 := ⟨_, rfl, by omega, by omega⟩
    obtain ⟨k, hk, hl, hu⟩ := hm
    have hp : 2 ^ 5 ≤ 2 ^ n := Nat.pow_le_pow_right (by decide) hb
    have hr : backoffDelay (n + 1) = BACKOFF_MAX := by
      simp only [backoffDelay, BACKOFF_MAX, Nat.add_sub_cancel]
      rw [Nat.min_eq_right (by omega)]
    rw [hk, hr]
    interval_cases k <;> decide

theorem startConnect_coherent (h : Ready r) : Coherent (r.startConnect now) := by
  have ht := h.tasks
  rw [h.link] at ht
  simp only [Run.startConnect]
  split
  · rename_i hw
    rw [Option.isNone_iff_eq_none] at hw
    refine ⟨congrArg Option.isSome h.writer, ?_, fun _ => rfl, ?_⟩
    · exact hw ▸ Shown.connecting
    · exact h.link ▸ ht.spawn
  · rename_i hw
    refine ⟨congrArg Option.isSome h.writer, ?_, fun _ => rfl, ?_⟩
    · obtain ⟨kind, hk⟩ := Option.ne_none_iff_exists'.mp (Option.isNone_iff_eq_none.not.mp hw)
      exact hk ▸ h.shown kind hk _ rfl
    · exact h.link ▸ ht.spawn

theorem startWait_coherent (h : Ready r) : Coherent (r.startWait now kind why) := by
  have ht := h.tasks.waits h.link
  cases kind with
  | unpaired => exact ⟨congrArg Option.isSome h.writer, .unpaired rfl, fun _ => rfl, ht _⟩
  | device => exact ⟨congrArg Option.isSome h.writer, .device rfl, fun _ => rfl, ht _⟩

theorem startBackoff_coherent (h : Ready r) (hw : r.waiting = none) :
    Coherent (r.startBackoff now) := by
  have ht := h.tasks.waits h.link
  have hd := backoffDelay_eq r.attempt
  refine ⟨congrArg Option.isSome h.writer, ?_, fun _ => rfl, ht _⟩
  simp only [Run.startBackoff, Run.setState, Nat.add_sub_cancel, hw, hd]
  exact .backoff (Nat.le_add_left ..)

theorem giveUp_coherent (h : Ready r) : Coherent (r.giveUp now) := by
  refine ⟨?_, ?_, fun hn => absurd rfl hn, h.tasks.clear⟩
  · show r.writerTx.isSome = isConnected r.link
    rw [h.writer, h.link]
    rfl
  · show Shown r.link none .idle
    rw [h.link]
    exact .idle

theorem ready_of_idle (h : Coherent r) (hl : r.link = .idle) : Ready r := by
  have hs := h.shown
  have hw := h.writer
  rw [hl] at hs hw
  refine ⟨Option.isSome_eq_false_iff.mp hw |> Option.isNone_iff_eq_none.mp, hl, ?_, h.tasks⟩
  intro kind hk
  rw [hs.of_idle.1] at hk
  cases hk

theorem release_tasks (h : Coherent r) :
    r.release.writerTx = none ∧ Tasks .idle r.pending r.release.out := by
  have ht := h.tasks
  have hw := h.writer
  unfold Run.release
  split
  · rename_i task hl
    rw [hl] at ht hw
    exact ⟨Option.isSome_eq_false_iff.mp hw |> Option.isNone_iff_eq_none.mp, ht.ends (.inl rfl)⟩
  · rename_i link hl
    rw [hl] at ht
    refine ⟨rfl, ?_⟩
    exact (ht.sayIf rfl _).idles rfl
  · rename_i hl
    rw [hl] at ht hw
    exact ⟨Option.isSome_eq_false_iff.mp hw |> Option.isNone_iff_eq_none.mp, ht.idles rfl⟩
  · rename_i hl
    rw [hl] at ht hw
    exact ⟨Option.isSome_eq_false_iff.mp hw |> Option.isNone_iff_eq_none.mp, ht⟩

theorem close_coherent (h : Coherent r) : Coherent (r.close now) := by
  obtain ⟨hw, ht⟩ := release_tasks h
  exact ⟨congrArg Option.isSome hw, .idle, fun hn => absurd rfl hn, ht.clear⟩

theorem queuePending_bounded (h : r.pending.length ≤ UPLINK_QUEUE_FRAMES) :
    (r.queuePending now f src).pending.length ≤ UPLINK_QUEUE_FRAMES := by
  simp only [Run.queuePending]
  split
  · rename_i hf
    simp only [Run.dropFrame, List.length_append, List.length_tail, List.length_singleton]
    simp only [UPLINK_QUEUE_FRAMES] at h ⊢
    omega
  · rename_i hf
    simp only [List.length_append, List.length_singleton]
    omega

/-- Queueing a frame changes the queue and a counter, and nothing else the
link's coherence is about. -/
theorem queuePending_frame (r : Run) (now : Now) (f : Frame) (src : Option SessionId) :
    (r.queuePending now f src).writerTx = r.writerTx ∧ (r.queuePending now f src).link = r.link ∧
      (r.queuePending now f src).waiting = r.waiting ∧ (r.queuePending now f src).state = r.state ∧
      (r.queuePending now f src).out = r.out := by
  simp only [Run.queuePending]
  split <;> exact ⟨rfl, rfl, rfl, rfl, rfl⟩

theorem queuePending_coherent (h : Coherent r) (hw : r.link.isWaiting = true) :
    Coherent (r.queuePending now f src) := by
  obtain ⟨htx, hl, hwait, hs, ho⟩ := queuePending_frame r now f src
  refine ⟨?_, ?_, ?_, ?_⟩
  · rw [htx, hl]
    exact h.writer
  · rw [hl, hwait, hs]
    exact h.shown
  · rw [hl]
    exact fun _ => hw
  · rw [hl, ho]
    exact h.tasks.queue (queuePending_bounded h.tasks.bounded)

theorem queuePending_ready (h : Ready r) : Ready (r.queuePending now f src) := by
  obtain ⟨htx, hl, hwait, hs, ho⟩ := queuePending_frame r now f src
  refine ⟨htx.trans h.writer, hl.trans h.link, ?_, ?_⟩
  · rw [hwait, hs]
    exact h.shown
  · rw [hl, ho]
    exact h.tasks.queue (queuePending_bounded h.tasks.bounded)

theorem uplink_coherent (h : Coherent r) : Coherent (r.uplink now f src) := by
  unfold Run.uplink
  split
  · rename_i l hl
    split
    · refine ⟨?_, h.shown, h.queued, h.tasks.say rfl⟩
      show true = isConnected r.link
      rw [hl]
      rfl
    · exact h
  · rename_i hl
    split
    · exact h
    · exact startConnect_coherent (queuePending_ready (ready_of_idle h hl))
  · rename_i hl
    exact queuePending_coherent h (hl ▸ rfl)
  · rename_i hl
    exact queuePending_coherent h (hl ▸ rfl)

theorem drain_coherent (ps : List (Nat × Frame × Option SessionId)) (h : Coherent r) :
    Coherent (ps.foldl (Run.uplinkPending now) r) := by
  induction ps generalizing r with
  | nil => exact h
  | cons p ps ih =>
    refine ih ?_
    unfold Run.uplinkPending
    split
    · exact h
    · exact uplink_coherent h

theorem letGo_coherent (h : Coherent r) : Coherent (r.letGo now) := by
  unfold Run.letGo
  split
  · exact close_coherent h
  · exact h

theorem onApp_coherent (ev : AppEvent) (h : Coherent r) : Coherent (r.onApp now ev) := by
  cases ev with
  | sessionOpened id tx kick =>
    simp only [Run.onApp]
    split
    · rename_i hc
      exact startConnect_coherent (ready_of_idle h hc.1)
    · exact h
  | sessionClosed id =>
    simp only [Run.onApp]
    split
    · exact letGo_coherent h
    · exact h
  | frame id f =>
    simp only [Run.onApp]
    split
    · exact h
    · split
      · exact h
      · exact uplink_coherent h

theorem applySettings_coherent (new : TncSettings) (h : Coherent r) :
    Coherent (r.applySettings now new) := by
  simp only [Run.applySettings]
  split
  · exact h
  · split
    · split
      · rename_i hl
        exact startConnect_coherent (ready_of_idle h hl)
      · exact h
    · split
      · exact letGo_coherent h
      · exact h
    · exact h

theorem onCmd_coherent (cmd : BridgeCmd) (h : Coherent r) : Coherent (r.onCmd now cmd) := by
  cases cmd with
  | settings new => exact applySettings_coherent new h
  | connector c =>
    have hc : Coherent (r.close now) := close_coherent h
    simp only [Run.onCmd]
    split
    · exact startConnect_coherent (ready_of_idle hc rfl)
    · exact hc
  | hold hold =>
    simp only [Run.onCmd]
    split
    · split
      · rename_i hl
        exact startConnect_coherent (ready_of_idle h hl)
      · exact h
    · split
      · exact close_coherent h
      · exact h
  | kick id =>
    simp only [Run.onCmd]
    split
    · exact ⟨h.writer, h.shown, h.queued, h.tasks.say rfl⟩
    · exact h
  | snapshot => exact ⟨h.writer, h.shown, h.queued, h.tasks.say rfl⟩

theorem offer_coherent (f : Frame) (h : Coherent r) : Coherent (Run.offer f r sid) := by
  unfold Run.offer
  split
  · exact h
  · dsimp only
    split <;> exact ⟨h.writer, h.shown, h.queued, h.tasks.say rfl⟩

theorem offers_coherent (f : Frame) (ids : List SessionId) (h : Coherent r) :
    Coherent (ids.foldl (Run.offer f) r) := by
  induction ids generalizing r with
  | nil => exact h
  | cons id ids ih => exact ih (offer_coherent f h)

/-- The link is lost while nothing waited for it. -/
theorem lost_ready (h : Coherent r) (hl : r.link = .connected l) :
    Ready { r with link := .idle, writerTx := none, generation := g } ∧ r.waiting = none := by
  have hs := h.shown
  have ht := h.tasks
  rw [hl] at hs ht
  refine ⟨⟨rfl, rfl, ?_, ht.idles rfl⟩, hs.of_connected.1⟩
  intro kind hk
  exact absurd (hs.of_connected.1.symm.trans hk) (by simp)

theorem onTnc_coherent (ev : TncEvent) (h : Coherent r) : Coherent (r.onTnc now ev) := by
  cases ev with
  | frame g f =>
    simp only [Run.onTnc]
    split
    · exact h
    · exact offers_coherent f _ h
  | closed g e =>
    simp only [Run.onTnc]
    split
    · rename_i l hl
      split
      · exact h
      · obtain ⟨hr, hw⟩ := lost_ready (g := r.generation + 1) h hl
        split
        · exact startBackoff_coherent ⟨hr.writer, hr.link, hr.shown, hr.tasks⟩ hw
        · refine ⟨rfl, hw ▸ Shown.idle, fun hn => ?_, hr.tasks⟩
          exact absurd (h.queued hn) (by rw [hl]; simp [TncLink.isWaiting])
    · exact h

/-- A connect has ended; what its link waited for is still shown. -/
theorem connectDone_ready (h : Coherent r) (hl : r.link = .connecting task) :
    Ready { r.connectDone with link := .idle } := by
  have hs := h.shown
  have ht := h.tasks
  have hw := h.writer
  rw [hl] at hs ht hw
  simp only [Run.connectDone, hl]
  refine ⟨?_, rfl, ?_, ht.ends (.inr rfl)⟩
  · exact Option.isNone_iff_eq_none.mp (Option.isSome_eq_false_iff.mp hw)
  · intro kind hk link hw
    rw [show r.waiting = some kind from hk] at hs
    exact hs.waits hw

theorem linkUp_coherent (h : Ready { r with link := .idle }) :
    Coherent { r.linkUp now steps with pending := [] } := by
  have ht : Tasks (.connected r.nextLink) [] r.out :=
    ⟨Nat.zero_le _, h.tasks.spawned, h.tasks.live⟩
  exact ⟨rfl, .connected, fun hn => absurd rfl hn, ht.say rfl⟩

theorem onLink_coherent (ev : LinkEvent) (h : Ready { r with link := .idle }) :
    Coherent (r.onLink now ev) := by
  cases ev with
  | connected res =>
    cases res with
    | ok steps =>
      have hd : Coherent (r.pending.foldl (Run.uplinkPending now)
          { r.linkUp now steps with pending := [] }) :=
        drain_coherent r.pending (linkUp_coherent h)
      simp only [Run.onLink]
      split
      · exact close_coherent hd
      · exact hd
    | error e =>
      simp only [Run.onLink]
      split
      · exact giveUp_coherent h
      · split
        · exact startWait_coherent h
        · exact startWait_coherent h
        · refine startBackoff_coherent ⟨h.writer, rfl, ?_, h.tasks⟩ rfl
          intro kind hk
          cases hk
  | backoffOver =>
    simp only [Run.onLink]
    split
    · exact startConnect_coherent h
    · exact giveUp_coherent h

theorem backoff_ready (h : Coherent r) (hl : r.link = .backoff d) :
    Ready { r with link := .idle } := by
  have hs := h.shown
  have ht := h.tasks
  have hw := h.writer
  rw [hl] at hs ht hw
  refine ⟨Option.isNone_iff_eq_none.mp (Option.isSome_eq_false_iff.mp hw), rfl, ?_, ht.idles rfl⟩
  intro kind hk link hw
  rw [show r.waiting = some kind from hk] at hs
  exact hs.waits hw

theorem onIdle_coherent (h : Coherent r) : Coherent (r.onIdle now) := by
  simp only [Run.onIdle]
  split
  · exact close_coherent h
  · exact h

theorem step_coherent (h : Coherent r) (hs : r.step e = some r') : Coherent r' := by
  cases step_turn hs with
  | app _ => exact onApp_coherent _ h
  | tnc => exact onTnc_coherent _ h
  | cmd => exact onCmd_coherent _ h
  | connected hl => exact onLink_coherent _ (connectDone_ready h hl)
  | backoffOver hl => exact onLink_coherent _ (backoff_ready h hl)
  | idle _ => exact onIdle_coherent h
  | takes _ _ => exact h
  | gone _ => exact h
  | writer hw => exact ⟨hw.symm.trans h.writer, h.shown, h.queued, h.tasks⟩
  | slot => exact h

theorem start_coherent (bid : String) (c : Connector) (s : TncSettings) :
    Coherent (Run.start bid c s now) := by
  have hn : Coherent (Run.new bid c s now) :=
    ⟨rfl, .idle, fun hn => absurd rfl hn,
      ⟨Nat.zero_le _, fun _ _ hm => absurd hm (by simp [Run.new]), rfl⟩⟩
  simp only [Run.start]
  split
  · exact startConnect_coherent (ready_of_idle hn rfl)
  · exact hn

theorem reachable_coherent (h : Runs Run.step (Run.start bid c s now) es r) : Coherent r :=
  h.invariant (start_coherent bid c s) (fun _ _ _ hi _ hs => step_coherent hi hs)

/-- In every state the select loop is in, the writer, the published state and
the queue of waiting frames follow the link, a connect is only ever started on
an idle link, and a published backoff is the one its attempt asks for. -/
theorem link_writer_state_agree (h : Runs Run.step (Run.start bid c s now) es r) :
    (r.writerTx.isSome = true ↔ ∃ link, r.link = .connected link) ∧
    (r.state = .idle ↔ r.link = .idle) ∧
    (r.state = .connected ↔ ∃ link, r.link = .connected link) ∧
    ((∃ why, r.state = .unpaired why) ↔ r.waiting = some .unpaired) ∧
    ((∃ why, r.state = .waitingForDevice why) ↔ r.waiting = some .device) ∧
    (r.waiting.isSome = true → r.link.isWaiting = true) ∧
    (r.waiting = none →
      (r.state = .connecting ↔ ∃ task, r.link = .connecting task) ∧
      ((∃ attempt retryIn, r.state = .backoff attempt retryIn) ↔
        ∃ sleep, r.link = .backoff sleep)) ∧ (r.pending ≠ [] → r.link.isWaiting = true) ∧
    r.pending.length ≤ UPLINK_QUEUE_FRAMES ∧
    (∀ was task, .spawnConnect was task ∈ r.out → was = .idle) ∧
    (liveConnects r.out).length ≤ 1 ∧
    (∀ attempt retryIn, r.state = .backoff attempt retryIn →
      1 ≤ attempt ∧ retryIn = 1000 * min (2 ^ (attempt - 1)) 30) := by
  have hc := reachable_coherent h
  have hw : r.writerTx.isSome = true ↔ ∃ link, r.link = .connected link := by
    rw [hc.writer]
    cases r.link <;> simp [isConnected]
  have hl : (liveConnects r.out).length ≤ 1 := by
    rw [hc.tasks.live]
    cases r.link <;> simp [connects]
  exact ⟨hw, hc.shown.idle_iff, hc.shown.connected_iff, hc.shown.unpaired_iff, hc.shown.device_iff,
    hc.shown.isWaiting, hc.shown.trying, hc.queued, hc.tasks.bounded, hc.tasks.spawned, hl,
    fun _ _ he => (he ▸ hc.shown).backoff_delay⟩

theorem link_writer_state_agree_backoff :
    ∃ r, Runs Run.step (sampleRun .always)
        [.link ⟨7, 7⟩ (.connected (.error (.other "connection refused")))] r ∧
      r.state = .backoff 1 1000 ∧ (r.writerTx.isSome = true ↔ ∃ link, r.link = .connected link) ∧
      (liveConnects r.out).length ≤ 1 := by
  have h : Runs Run.step (sampleRun .always)
      [.link ⟨7, 7⟩ (.connected (.error (.other "connection refused")))] _ :=
    .next .start trivial rfl
  have hc := link_writer_state_agree h
  exact ⟨_, h, rfl, hc.1, hc.2.2.2.2.2.2.2.2.2.2.1⟩

end KissTncBridge.Proofs.Coherence
