import KissTncBridge.Bridge.Run

namespace KissTncBridge.Proofs.BridgeSteps
open Bridge Conf Lib

variable {r r' : Run} {now : Now}

/-- What decides whether the link is wanted, and the timer that lets go of it.
The link primitives leave all of it alone. -/
structure Keeps (r r' : Run) : Prop where
  held : r'.held = r.held
  settings : r'.settings = r.settings
  sessions : r'.sessions = r.sessions
  idleTimer : r'.idleTimer = r.idleTimer

theorem Keeps.refl (r : Run) : Keeps r r := ⟨rfl, rfl, rfl, rfl⟩

theorem Keeps.trans (h : Keeps r r') (h' : Keeps r' r'') : Keeps r r'' :=
  ⟨h'.held.trans h.held, h'.settings.trans h.settings, h'.sessions.trans h.sessions,
    h'.idleTimer.trans h.idleTimer⟩

theorem Keeps.wants (h : Keeps r r') : r'.wantsLink = r.wantsLink := by
  simp only [Run.wantsLink, h.held, h.settings, h.sessions]

@[simp] theorem startConnect_link (r : Run) :
    (r.startConnect now).link = .connecting (r.generation + 1) := by
  simp only [Run.startConnect]
  split <;> rfl

theorem startConnect_keeps (r : Run) : Keeps r (r.startConnect now) := by
  unfold Run.startConnect
  dsimp only
  split <;> exact ⟨rfl, rfl, rfl, rfl⟩

theorem release_keeps (r : Run) : Keeps r r.release := by
  unfold Run.release
  split <;> exact ⟨rfl, rfl, rfl, rfl⟩

theorem close_keeps (r : Run) : Keeps r (r.close now) := by
  have h := release_keeps r
  exact ⟨h.held, h.settings, h.sessions, h.idleTimer⟩

theorem queuePending_link (r : Run) : (r.queuePending now f src).link = r.link := by
  simp only [Run.queuePending]
  split <;> rfl

theorem queuePending_generation (r : Run) :
    (r.queuePending now f src).generation = r.generation := by
  simp only [Run.queuePending]
  split <;> rfl

theorem queuePending_keeps (r : Run) : Keeps r (r.queuePending now f src) := by
  simp only [Run.queuePending]
  split <;> exact ⟨rfl, rfl, rfl, rfl⟩

/-- A frame starts a connect only on an idle link that isn't held down. -/
theorem uplink_link (r : Run) (now : Now) (f : Frame) (src : Option SessionId) :
    (r.uplink now f src).link = r.link ∨
      (r.link = .idle ∧ r.held ≠ some false ∧
        (r.uplink now f src).link = .connecting (r.generation + 1)) := by
  cases hl : r.link with
  | connected l =>
    left
    simp only [Run.uplink, hl]
    split
    · rfl
    · exact hl
  | idle =>
    simp only [Run.uplink, hl]
    split
    · exact Or.inl hl
    · rename_i hh
      refine Or.inr ⟨trivial, hh, ?_⟩
      rw [startConnect_link, queuePending_generation]
  | connecting t =>
    left
    simp only [Run.uplink, hl]
    exact (queuePending_link r).trans hl
  | backoff d =>
    left
    simp only [Run.uplink, hl]
    exact (queuePending_link r).trans hl

theorem uplink_keeps (r : Run) : Keeps r (r.uplink now f src) := by
  unfold Run.uplink
  split
  · split <;> exact ⟨rfl, rfl, rfl, rfl⟩
  · split
    · exact ⟨rfl, rfl, rfl, rfl⟩
    · exact (queuePending_keeps r).trans (startConnect_keeps _)
  · exact queuePending_keeps r
  · exact queuePending_keeps r

theorem uplinkPending_keeps (r : Run) : Keeps r (Run.uplinkPending now r p) := by
  unfold Run.uplinkPending
  split
  · exact ⟨rfl, rfl, rfl, rfl⟩
  · exact uplink_keeps r

theorem uplinkPending_connected (h : r.link = .connected l) :
    (Run.uplinkPending now r p).link = .connected l := by
  unfold Run.uplinkPending
  split
  · exact h
  · rcases uplink_link r now p.2.1 p.2.2 with he | ⟨hi, _⟩
    · exact he.trans h
    · rw [h] at hi
      cases hi

/-- Handing over what waited for the link touches the writer and the counters
only. -/
theorem drain_spec (ps : List (Nat × Frame × Option SessionId)) (h : r.link = .connected l) :
    (ps.foldl (Run.uplinkPending now) r).link = .connected l ∧
      Keeps r (ps.foldl (Run.uplinkPending now) r) := by
  induction ps generalizing r with
  | nil => exact ⟨h, .refl r⟩
  | cons p ps ih =>
    obtain ⟨hl, hk⟩ := ih (r := Run.uplinkPending now r p) (uplinkPending_connected h)
    exact ⟨hl, (uplinkPending_keeps r).trans hk⟩

/-- The writer task's own steps, and the wake-up when its queue has room
again. -/
def ofWriter : Event → Bool
  | .writerSlot | .writerTakes | .writerGone => true
  | _ => false

/-- What one step can do, with what made it possible. A task at the other end
of a session's or the writer's queue changes that queue only. -/
inductive Turn (r : Run) : Event → Run → Prop where
  | app : r.appReady = true → Turn r (.app n ev) (r.onApp n ev)
  | tnc : Turn r (.tnc n ev) (r.onTnc n ev)
  | cmd : Turn r (.cmd n c) (r.onCmd n c)
  | connected : r.link = .connecting task →
      Turn r (.link n (.connected res)) (r.connectDone.onLink n (.connected res))
  | backoffOver : r.link = .backoff d →
      Turn r (.link n .backoffOver) (r.onLink n .backoffOver)
  | idle : r.idleTimer.isSome = true → Turn r (.idleElapsed n) (r.onIdle n)
  | takes : r.sessions.lookup sid = some s → s.tx.recv = some (f, tx) →
      Turn r (.sessionTakes sid) { r with sessions := r.sessions.replace sid { s with tx := tx } }
  | gone : r.sessions.lookup sid = some s →
      Turn r (.sessionGone sid)
        { r with sessions := r.sessions.replace sid { s with tx := s.tx.close } }
  | writer : r.writerTx.isSome = true → ofWriter e = true → Turn r e { r with writerTx := some tx }
  | slot : ofWriter e = true → Turn r e r

theorem step_turn (hs : r.step e = some r') : Turn r e r' := by
  cases e with
  | app now ev =>
    simp only [Run.step] at hs
    split at hs
    · rename_i hr
      cases hs
      exact .app hr
    · cases hs
  | writerSlot =>
    simp only [Run.step] at hs
    split at hs
    · cases hs
    · cases hs
      exact .slot rfl
  | tnc now ev =>
    cases hs
    exact .tnc
  | cmd now c =>
    cases hs
    exact .cmd
  | link now ev =>
    simp only [Run.step] at hs
    split at hs
    · rename_i hl
      cases hs
      exact .connected hl
    · rename_i hl
      cases hs
      exact .backoffOver hl
    · cases hs
  | idleElapsed now =>
    simp only [Run.step] at hs
    split at hs
    · rename_i ht
      cases hs
      exact .idle ht
    · cases hs
  | sessionTakes sid =>
    simp only [Run.step, Option.bind_eq_bind, Option.bind_eq_some_iff] at hs
    obtain ⟨s, hl, ⟨f, tx⟩, hr, hs⟩ := hs
    cases hs
    exact .takes hl hr
  | sessionGone sid =>
    simp only [Run.step, Option.bind_eq_bind, Option.bind_eq_some_iff] at hs
    obtain ⟨s, hl, hs⟩ := hs
    cases hs
    exact .gone hl
  | writerTakes =>
    simp only [Run.step, Option.bind_eq_bind, Option.bind_eq_some_iff] at hs
    obtain ⟨tx, htx, tx', _, hs⟩ := hs
    cases hs
    exact .writer (by rw [htx]; rfl) rfl
  | writerGone =>
    simp only [Run.step, Option.bind_eq_bind, Option.bind_eq_some_iff] at hs
    obtain ⟨tx, htx, hs⟩ := hs
    cases hs
    exact .writer (by rw [htx]; rfl) rfl

def sampleSettings : TncSettings where
  portId := "radio"
  connect := .onDemand
  idleTimeout := 0
  appParams := .drop
  exitKissOnDisconnect := true

def sampleRun (connect : ConnectPolicy) : Run :=
  Run.start "ktbr0" (.tcp "tnc.local" 8001) { sampleSettings with connect := connect } ⟨0, 0⟩

def sampleSession (port : UInt16) : SessionId := ⟨"apps", .tcp (.v4 0x7f000001#32 port)⟩

end KissTncBridge.Proofs.BridgeSteps
