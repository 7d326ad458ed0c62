import KissTncBridge.Proofs.FrameFlow

namespace KissTncBridge.Proofs.FrameAccounts
open Bridge Conf Lib BridgeSteps Coherence FrameFlow

variable {r r' : Run} {now : Now}

/-- A step that lets go of the link finds no frame waiting for it. -/
def Spares (r : Run) (e : Event) : Prop := abandons r e = true → r.pending = []

/-- Every app frame taken so far went up, was counted as dropped, or still
waits. Drops counted for frames from the TNC that a session missed are not
app frames. -/
def Balanced (start : Run) (es : List Event) (r : Run) : Prop :=
  (es.flatMap taken).length =
    r.counters.framesUp + (r.counters.dropped - (along Run.step missed start es).length) +
      r.pending.length

theorem discarded_nil (r : Run) (e : Event) : discarded r e = [] ↔ Spares r e := by
  unfold discarded Spares
  cases abandons r e with
  | true => simp [waitingFrames]
  | false => simp

/-- Nothing is discarded along a run exactly if each of its steps spares the
waiting frames. -/
theorem discards_nothing (h : Runs Run.step r es r') :
    along Run.step discarded r es = [] ↔ Reach Run.step Spares r es r' := by
  induction h with
  | start => exact ⟨fun _ => .start, fun _ => rfl⟩
  | @next es t e u hr _ hs ih =>
    rw [along_next hr hs, List.append_eq_nil_iff, ih, discarded_nil]
    constructor
    · rintro ⟨hes, he⟩
      exact .next hes he hs
    · intro hu
      obtain ⟨t', ht, hok, -⟩ := hu.last
      cases ht.unique hr
      exact ⟨ht, hok⟩

/-- A run's books balance exactly if it never lets go of the link, or gives up
on one, while frames wait for it. -/
theorem frames_accounted (h : Runs Run.step (Run.start bid c s now) es r) :
    (along Run.step missed (Run.start bid c s now) es).length ≤ r.counters.dropped ∧
      (Balanced (Run.start bid c s now) es r ↔
        Reach Run.step Spares (Run.start bid c s now) es r) := by
  have hc : Coherent (Run.start bid c s now) := start_coherent bid c s
  have hstart : accounted (Run.start bid c s now) = 0 := by
    simp only [Run.start, Run.new, Run.startConnect, Run.setState]
    split <;> rfl
  have hb := (run_moves h hc).2.balance
  have hm : (along Run.step missed (Run.start bid c s now) es).length ≤ r.counters.dropped :=
    Nat.le_trans (Nat.le_add_left _ _) (run_missed h hc)
  refine ⟨hm, ?_⟩
  rw [← discards_nothing h, ← List.length_eq_zero_iff, Balanced]
  rw [hstart, accounted] at hb
  omega

theorem frames_accounted_quiet :
    ∃ r, Runs Run.step (sampleRun .onDemand)
        [.app ⟨0, 0⟩ (.sessionOpened (sampleSession 40001) (.empty 64) 0),
         .app ⟨1, 1⟩ (.frame (sampleSession 40001) [0x00, 0x41])] r ∧
      r.pending.length = 1 ∧
      Balanced (sampleRun .onDemand)
        [.app ⟨0, 0⟩ (.sessionOpened (sampleSession 40001) (.empty 64) 0),
         .app ⟨1, 1⟩ (.frame (sampleSession 40001) [0x00, 0x41])] r := by
  have h : Reach Run.step Spares (sampleRun .onDemand)
      [.app ⟨0, 0⟩ (.sessionOpened (sampleSession 40001) (.empty 64) 0),
       .app ⟨1, 1⟩ (.frame (sampleSession 40001) [0x00, 0x41])] _ :=
    .next (.next .start (fun ha => by cases ha) rfl) (fun ha => by cases ha) rfl
  exact ⟨_, h.forget, rfl, (frames_accounted h.forget).2.mpr h⟩

/-- The last session leaves while its frame waits for the link: the frame is
gone, and no counter moved. -/
theorem last_leave_discards :
    ∃ r, Runs Run.step (sampleRun .onDemand)
        [.app ⟨0, 0⟩ (.sessionOpened (sampleSession 40001) (.empty 64) 0),
         .app ⟨1, 1⟩ (.frame (sampleSession 40001) [0x00, 0x41]),
         .app ⟨2, 2⟩ (.sessionClosed (sampleSession 40001))] r ∧
      r.pending = [] ∧ r.counters.framesUp = 0 ∧ r.counters.dropped = 0 ∧
      ¬ Balanced (sampleRun .onDemand)
        [.app ⟨0, 0⟩ (.sessionOpened (sampleSession 40001) (.empty 64) 0),
         .app ⟨1, 1⟩ (.frame (sampleSession 40001) [0x00, 0x41]),
         .app ⟨2, 2⟩ (.sessionClosed (sampleSession 40001))] r := by
  refine ⟨_, .next (.next (.next .start trivial rfl) trivial rfl) trivial rfl, rfl, rfl, rfl, ?_⟩
  intro hb
  have hone : 1 = 0 := hb
  cases hone

end KissTncBridge.Proofs.FrameAccounts
