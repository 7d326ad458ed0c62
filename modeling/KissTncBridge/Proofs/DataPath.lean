import KissTncBridge.Proofs.NoReturn

namespace KissTncBridge.Proofs.DataPath
open Bridge Conf Lib Kiss Wire FrameFlow UplinkOrder Reassembly NoReturn

variable {r r' : Run} {now : Now} {f : KissFrame}

theorem stuffByte_free (b : UInt8) : FEND ∉ stuffByte b := by
  unfold stuffByte
  split
  · decide
  · split
    · decide
    · rename_i hb _
      simpa using fun he => hb he.symm

theorem stuffByte_ne_nil (b : UInt8) : stuffByte b ≠ [] := by
  unfold stuffByte
  split
  · exact List.cons_ne_nil _ _
  · split <;> exact List.cons_ne_nil _ _

/-- Stuffing leaves no FEND between the delimiters. -/
theorem stuffed_whole (f : KissFrame) : Whole f.stuffed := by
  refine ⟨?_, ?_⟩
  · rw [KissFrame.stuffed]
    simp [stuffByte_ne_nil]
  · rw [KissFrame.stuffed, List.mem_append, List.mem_flatMap, not_or]
    refine ⟨stuffByte_free _, ?_⟩
    rintro ⟨b, -, hb⟩
    exact stuffByte_free b hb

theorem encode_eq (f : KissFrame) : f.encode = writeFrame f.stuffed := rfl

/-- The policy looks at the first byte on the wire, which for a data frame is
its command byte unless stuffing replaced that. -/
theorem data_passes (hd : f.command &&& 0x0F = 0) (p : AppParams) :
    filterAppFrame f.stuffed p = .pass ↔ f.command ≠ FEND := by
  have hesc : f.command ≠ FESC := by
    rintro hc
    rw [hc] at hd
    exact absurd hd (by decide)
  constructor
  · rintro hv hc
    have hdrop : ∀ rest, filterAppFrame (FESC :: rest) p = .drop "unknown KISS command" :=
      fun _ => rfl
    rw [KissFrame.stuffed, stuffByte, if_pos hc] at hv
    rw [List.cons_append, hdrop] at hv
    cases hv
  · intro hc
    have hret : f.command ≠ CMD_RETURN := by
      intro hr
      rw [hr] at hd
      exact absurd hd (by decide)
    rw [KissFrame.stuffed, stuffByte, if_neg hc, if_neg hesc]
    simp [filterAppFrame, hret, hd, CMD_DATA]

/-- A frame that is read last comes out last, whatever was read before. -/
theorem frame_read (maxSize : Nat) (f : KissFrame) {earlier chunks : List (List UInt8)}
    (hc : chunks.flatten = f.encode)
    (ho : along call overflows (.new maxSize) (pushes (earlier ++ chunks)) = []) :
    along call emits (.new maxSize) (pushes (earlier ++ chunks)) =
      bounded FEND (earlier.flatten ++ [FEND]) ++ [f.stuffed] := by
  obtain ⟨hn, hd⟩ := stuffed_whole f
  have hone : ended FEND (f.stuffed ++ [FEND]) = [f.stuffed] := by
    rw [ended_snoc, ended_free hd, unfinished_free hd, if_neg (by simpa using hn)]
    rfl
  have hs : earlier.flatten ++ f.encode = earlier.flatten ++ FEND :: (f.stuffed ++ [FEND]) := rfl
  rw [along_emits maxSize _ ho (pushes_last _), input_pushes, List.flatten_append, hc, hs,
    bounded_append_cons, hone]

theorem handedTo_snoc {f : Frame} (ho : handed r'.out = handed r.out ++ [(link, f)]) :
    handedTo link r'.out = handedTo link r.out ++ [f] := by
  simp [handedTo, ho]

/-- A data frame read last from an app, in any pieces that fit the buffer, is
read whole after what came before it, and goes to the TNC just as it was
encoded, except on the channel whose command byte is a FEND. -/
theorem data_path_transparent (f : KissFrame) (hdata : f.command &&& 0x0F = 0) (maxSize : Nat)
    (earlier chunks : List (List UInt8)) (hn : ∀ c ∈ earlier ++ chunks, c ≠ [])
    (hsplit : chunks.flatten = f.encode)
    (hroom : along call overflows (.new maxSize) (pushes (earlier ++ chunks)) = [])
    (hreg : (r.sessions.lookup sid).isSome = true) (hlink : r.link = .connected link)
    (hwriter : r.writerTx = some tx) (halive : tx.alive = true)
    (htaken : r.step (.app now (.frame sid f.stuffed)) = some r') :
    along call emits (.new maxSize) (pushes (earlier ++ chunks)) =
        bounded FEND (earlier.flatten ++ [FEND]) ++ [f.stuffed] ∧
      (KissReader.withMaxFrame maxSize).readAll ((earlier ++ chunks).map .ok) =
        (bounded FEND (earlier.flatten ++ [FEND]) ++ [f.stuffed], .linkClosed) ∧
      (uplinkBytes link r'.out = uplinkBytes link r.out ++ f.encode ↔ f.command ≠ 0xC0) := by
  have hread := frame_read maxSize f hsplit hroom
  refine ⟨hread, ?_, ?_⟩
  · rw [← hread]
    exact (readAll_calls _ hn (.new maxSize)).1 hroom
  · obtain ⟨hready, rfl⟩ := taken_frame htaken
    rw [show (0xC0 : UInt8) = FEND from rfl, ← data_passes hdata r.settings.appParams]
    constructor
    · intro hbytes
      by_contra hv
      have hdrop : r.onApp now (.frame sid f.stuffed) = r.dropFrame := by
        have hs : (r.sessions.lookup sid).isNone = false := by simpa using hreg
        simp only [Run.onApp, hs, Bool.false_eq_true, if_false]
        split
        · rfl
        · rename_i hp
          exact absurd hp hv
      rw [hdrop] at hbytes
      have hlen := congrArg List.length hbytes
      rw [List.length_append, encode_eq, writeFrame] at hlen
      simp [Run.dropFrame] at hlen
    · intro hv
      have hp : passed r (.app now (.frame sid f.stuffed)) = [f.stuffed] := by
        rw [passed, if_pos ⟨hreg, hv⟩]
      rw [onApp_passed hp]
      have ho := (uplink_handed now f.stuffed (some sid) hlink hwriter halive
        (room_of_ready hready hwriter)).1
      rw [uplinkBytes, handedTo_snoc ho, List.flatMap_append, List.flatMap_singleton, encode_eq]
      rfl

def connectedRun : Run :=
  ((BridgeSteps.sampleRun .onDemand).onApp ⟨0, 0⟩
    (.sessionOpened (BridgeSteps.sampleSession 40001) (.empty 64) 0)).onLink ⟨1, 1⟩
      (.connected (.ok []))

theorem data_path_transparent_channel :
    ∃ r', connectedRun.step (.app ⟨2, 2⟩ (.frame (BridgeSteps.sampleSession 40001)
        (⟨0x10, [0xC0, 0x41]⟩ : KissFrame).stuffed)) = some r' ∧
      uplinkBytes 1 r'.out = uplinkBytes 1 connectedRun.out ++
        [0xC0, 0x10, 0xDB, 0xDC, 0x41, 0xC0] := by
  refine ⟨_, rfl, ?_⟩
  have hwriter : connectedRun.writerTx = some (.empty WRITER_QUEUE) := rfl
  exact (data_path_transparent ⟨0x10, [0xC0, 0x41]⟩ (by decide) 16 []
    [[0xC0, 0x10, 0xDB], [0xDC, 0x41, 0xC0]] (by decide) (by decide) (by decide)
      (by decide) rfl hwriter
    rfl rfl).2.2.mpr (by decide)

/-- A data frame on channel 12 is encoded with its command byte stuffed; the
policy takes the escape for an unknown command and the frame never goes up. -/
theorem channel_twelve_dropped :
    (⟨0xC0, [0x41]⟩ : KissFrame).command &&& 0x0F = 0 ∧
      (⟨0xC0, [0x41]⟩ : KissFrame).encode = [0xC0, 0xDB, 0xDC, 0x41, 0xC0] ∧
      along call emits (.new MAX_FRAME_BYTES) (pushes [[0xC0, 0xDB, 0xDC, 0x41, 0xC0]]) =
        [[0xDB, 0xDC, 0x41]] ∧
      ∃ r', connectedRun.step (.app ⟨2, 2⟩ (.frame (BridgeSteps.sampleSession 40001)
          [0xDB, 0xDC, 0x41])) = some r' ∧
        uplinkBytes 1 r'.out = uplinkBytes 1 connectedRun.out ∧
        uplinkBytes 1 r'.out ≠
          uplinkBytes 1 connectedRun.out ++ (⟨0xC0, [0x41]⟩ : KissFrame).encode := by
  refine ⟨by decide, by decide, by decide, _, rfl, by decide, by decide⟩

end KissTncBridge.Proofs.DataPath
