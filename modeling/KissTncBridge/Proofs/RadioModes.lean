import KissTncBridge.Lib.Folds
import KissTncBridge.Proofs.RadioTalk

namespace KissTncBridge.Proofs.RadioModes
open Kiss Wire TncInit Scanner TalkSteps RadioQueue RadioTexts RadioTalk

variable {lim : Nat} {st st' : RadioState} {s' t : Link}

theorem core_obey (st : RadioState) (cmd : String) :
    core (st.obey cmd) = core ((core st).obey cmd) := by
  unfold RadioState.obey
  split
  · rfl
  · split
    · rfl
    · split
      · rfl
      · split
        · unfold RadioState.setTn
          split
          · rfl
          · split <;> rfl
        · rfl

theorem core_command (st : RadioState) (cmd : String) :
    core (st.command cmd) = core ((core st).command cmd) := by
  obtain ⟨mode, band, elsewhere, busy, line, kiss, queue, owed⟩ := st
  match busy with
  | [] => exact core_obey _ cmd
  | true :: busy => rfl
  | false :: busy => exact core_obey ⟨mode, band, elsewhere, busy, line, kiss, queue, owed⟩ cmd

/-- What the radio makes of a byte does not depend on what it has sent. -/
theorem core_take (st : RadioState) (b : UInt8) : core (st.take b) = core ((core st).take b) := by
  have hk : (core st).inKiss = st.inKiss := rfl
  have hkiss : (core st).kiss = st.kiss := rfl
  unfold RadioState.take
  simp only [hk, hkiss]
  split
  · split
    · rfl
    · split <;> rfl
  · split
    · rfl
    · split
      · rfl
      · exact core_command _ _

def write (a : RadioState) (bs : List UInt8) : RadioState := core (bs.foldl RadioState.take a)

theorem write_core (st : RadioState) (bs : List UInt8) : write (core st) bs = write st bs := by
  unfold write
  induction bs generalizing st with
  | nil => rfl
  | cons b bs ih =>
    rw [List.foldl_cons, List.foldl_cons, ← ih ((core st).take b), ← ih (st.take b), ← core_take]

/-- Only what the radio is sent changes it. -/
theorem core_sees (h : Sees lim st as st') : core st' = (sends as).foldl write (core st) := by
  induction h with
  | done => rfl
  | air hs _ _ ih =>
    obtain ⟨-, -, rfl⟩ := step_air hs
    exact ih
  | @act st a u as st' hs _ ih =>
    rw [ih]
    cases a with
    | sent bs =>
      have hu : bs.foldl RadioState.take st = u := Option.some.inj hs
      have hw : core u = write (core st) bs := by rw [write_core, write, hu]
      rw [hw]
      rfl
    | got bs =>
      obtain ⟨rest, -, rfl⟩ := step_got hs
      rfl
    | quiet wait =>
      obtain ⟨-, rfl⟩ := step_quiet hs
      rfl
    | slept time =>
      cases hs
      rfl

/-- A bound for all frames of a run. -/
theorem heard_length (hm : raw ∈ heard labels) :
    raw.length ≤ max MAX_FRAME (heard labels).flatten.length :=
  Nat.le_trans (List.sublist_flatten_of_mem hm).length_le (Nat.le_max_right ..)

theorem core_run (h : labels.foldlM RadioState.step st = some st') :
    core st' = (sends (acts labels)).foldl write (core st) :=
  core_sees (sees_of_run h (fun _ hm => heard_length hm))

theorem elsewhere_command (st : RadioState) (cmd : String) :
    (st.command cmd).kissElsewhere = st.kissElsewhere := by
  have hobey : ∀ st : RadioState, (st.obey cmd).kissElsewhere = st.kissElsewhere := by
    intro st
    unfold RadioState.obey RadioState.setTn
    repeat' split
    all_goals rfl
  unfold RadioState.command
  split
  · rfl
  · exact hobey _
  · exact hobey _

theorem elsewhere_take (st : RadioState) (b : UInt8) :
    (st.take b).kissElsewhere = st.kissElsewhere := by
  unfold RadioState.take
  split
  · dsimp only
    split
    · rfl
    · split <;> rfl
  · split
    · rfl
    · split
      · rfl
      · exact elsewhere_command _ _

/-- Which link has KISS mode is a setting of the radio. -/
theorem elsewhere_run {labels : List Label} (h : labels.foldlM RadioState.step st = some st') :
    st'.kissElsewhere = st.kissElsewhere := by
  have hw : ∀ a bs, (write a bs).kissElsewhere = a.kissElsewhere := fun a bs =>
    Lib.foldl_keep RadioState.kissElsewhere _ _ a (fun st b _ => elsewhere_take st b)
  have hall := congrArg RadioState.kissElsewhere (core_run h)
  exact hall.trans (Lib.foldl_keep RadioState.kissElsewhere _ _ _ (fun a bs _ => hw a bs))

theorem attempt_last (h : attempt "BT" wait t = .ok x s') : ∃ as, s'.trace = t.trace ++ as ∧
    ∀ lim st st', Mute (core st) → Sees lim st as st' → core st' = core st := by
  obtain ⟨as, ht, hs⟩ := attempt_sent h
  refine ⟨_, ht, fun lim st st' hm hsees => ?_⟩
  have hsends : sends (.sent (bytes ("BT" ++ "\r")) :: as) = bytes "BT\r" :: sends as := rfl
  have hmute : write (core st) (bytes "BT\r") = core st := by
    rw [write, take_mute hm]
    rfl
  rw [core_sees hsees, hsends, hs, List.foldl_cons, List.foldl_nil, hmute]

/-- Listening for silence leaves a radio in KISS mode as it is, whatever frames come
after the last write. -/
theorem ask_last (h : ask "BT" wait n t = .ok none s') : ∃ as, s'.trace = t.trace ++ as ∧
    ∀ lim st st', MAX_FRAME ≤ lim →
      (∀ before bs after, s'.trace = before ++ .sent bs :: after → Fits (received before)) →
      Meets lim t st → Mute (core st) → Sees lim st as st' → core st' = core st := by
  rcases ask_ok h with ⟨ha, -⟩ | ⟨m, t', -, ha, hrest⟩
  · obtain ⟨as, ht, hlast⟩ := attempt_last ha
    exact ⟨as, ht, fun lim st st' _ _ _ => hlast lim st st'⟩
  · -- It would have had an answer, which a radio in KISS mode doesn't give.
    obtain ⟨as, ht, hmute⟩ := attempt_mute ha
    obtain ⟨more, hmore⟩ := ask_sent hrest
    refine ⟨as ++ .slept BUSY_GAP :: .sent (bytes ("BT" ++ "\r")) :: more, ?_,
      fun lim st st' hle hf hm hst hsees => ?_⟩
    · rw [hmore, ht, List.append_assoc, List.append_assoc]
      rfl
    · have hfit := hf _ _ _ hmore
      have hslept : received [.slept BUSY_GAP] = [] := rfl
      rw [received_append, hslept, List.append_nil] at hfit
      obtain ⟨u, hu, -⟩ := hsees.split
      obtain ⟨-, hnone, -⟩ := hmute lim st u hle hfit hm hst hu
      cases hnone

/-- The mode a radio is to be left in: APRS and off as they were, and off if it was
in KISS mode. -/
def Restored (found left : UInt8) : Prop :=
  (found = 1 → left = 1) ∧ (found = 0 → left = 0) ∧ (found = 2 → left = 0)

theorem write_return (hm : Mute a) (hc : core a = a) :
    write a KISS_RETURN = { a with mode := 0 } := by
  rw [write, take_return hm, ← hc]
  rfl

theorem write_set (ht : Talks a) (hc : core a = a) (mode band : UInt8) :
    write a (bytes (tnText mode band ++ "\r")) = (told (.set mode band) a).2 := by
  rw [write, take_command ht.1 ht.2 (spoken_tn mode band)]
  have h := command_told (.set mode band) a
  have hcore := told_core (.set mode band) a
  rw [hc] at hcore
  have htext : tnText mode band = Query.text (.set mode band) := rfl
  rw [htext, h]
  exact (congrArg Prod.snd hcore).symm

/-- What the exit steps leave of a radio that init has put into KISS mode. -/
theorem write_exit (a : RadioState) (prevMode : Option UInt8) (hm : Mute a) (hl : a.line = [])
    (hc : core a = a) : ((exitSteps prevMode a.band).foldl write a).mode =
      if prevMode = some 1 ∧ a.busy.head? ≠ some true then 1 else 0 := by
  have hreturn := write_return hm hc
  unfold exitSteps
  rw [List.foldl_cons, hreturn]
  by_cases hp : prevMode = some 1
  · have ht : Talks { a with mode := 0 } := ⟨rfl, hl⟩
    have htext : bytes ("TN 1," ++ toString a.band ++ "\r") = bytes (tnText 1 a.band ++ "\r") := by
      have h1 : "TN 1," = "TN " ++ toString (1 : UInt8) ++ "," := by decide
      rw [h1]
      rfl
    have hcore : core { a with mode := 0 } = { a with mode := 0 } := by rw [← hc]; rfl
    rw [if_pos hp, List.foldl_cons, List.foldl_nil, htext, write_set ht hcore]
    obtain ⟨mode, band, elsewhere, busy, line, kiss, queue, owed⟩ := a
    match busy with
    | [] => simp [told, Query.does, hp]
    | true :: busy => simp [told]
    | false :: busy => simp [told, Query.does, hp]
  · rw [if_neg hp, if_neg (fun h => hp h.1)]
    rfl

/-- Init puts back APRS exactly where it found the radio in it and was told so. -/
theorem oldMode_aprs (a : RadioState) (he : a.kissElsewhere = false) :
    oldMode a = some 1 ↔ a.mode = 1 ∧ untold a.busy = false := by
  have hk : a.inKiss = (a.mode == 2) := by rw [RadioState.inKiss, he, Bool.not_false, Bool.and_true]
  rw [oldMode, hk]
  by_cases h2 : a.mode = 2
  · simp [h2]
  · have hb : (a.mode == 2) = false := by simpa using h2
    rw [hb]
    cases untold a.busy <;> simp

theorem restored_iff (mode band : UInt8) (silent : Bool) (late : Prop) [Decidable late] :
    ((if silent then 0 else band) = band ∧
        Restored mode (if (mode = 1 ∧ silent = false) ∧ ¬ late then 1 else 0)) ↔
      (silent = false ∨ band = 0 ∧ mode ≠ 1) ∧ (mode = 1 → ¬ late) := by
  unfold Restored
  by_cases h1 : mode = 1
  · subst h1
    cases silent with
    | false => by_cases hl : late <;> simp [hl]
    | true => simp
  · cases silent with
    | false => simp [h1]
    | true => simp [h1, eq_comm]

/-- A radio that is found as given, talks with init to its end and is then told the
exit steps. As long as init reads no more of a frame than the scanner takes, up to its
last write, the radio is left in KISS mode on its own band, and taken out of it into the
mode it was in, exactly if it has KISS mode on this link, answers `TN` before init gives
up (or is on the band and not in the mode that silence stands for) and is not busy when
it is told to go back to APRS. -/
theorem init_restores_iff (tape : List Event) (out : InitOutcome) (link : Link) (mode band : UInt8)
    (elsewhere : Bool) (busy : List Bool) (labels exits : List Label) (st₁ st₂ : RadioState)
    (h : initThD7x { tape } = .ok out link)
    (hrun : labels.foldlM RadioState.step ⟨mode, band, elsewhere, busy, [], [], [], 0⟩ = some st₁)
    (hacts : acts labels = link.trace)
    (hexit : exits.foldlM RadioState.step st₁ = some st₂)
    (hsteps : sends (acts exits) = out.exitKiss)
    (hfits : ∀ before bs after, link.trace = before ++ .sent bs :: after → Fits (received before)) :
    (st₁.inKiss = true ∧ st₁.band = band ∧ Restored mode st₂.mode) ↔
      elsewhere = false ∧ (untold busy = false ∨ band = 0 ∧ mode ≠ 1) ∧
        (mode = 1 → (unspent busy).head? ≠ some true) := by
  have hels : st₁.kissElsewhere = elsewhere := elsewhere_run hrun
  cases elsewhere with
  | true => simp [RadioState.inKiss, hels]
  | false =>
    obtain ⟨t, ⟨as, htrace, hleads⟩, hlast⟩ := init_leads h
    obtain ⟨bs, hend, hstays⟩ := ask_last hlast
    obtain ⟨more, hsent⟩ := ask_sent hlast
    have hsees := sees_of_run hrun (fun _ hm => heard_length hm)
    have hall : link.trace = as ++ bs := by rw [hend, htrace, List.nil_append]
    rw [hacts, hall] at hsees
    obtain ⟨u, hfirst, hrest⟩ := hsees.split
    have hle := Nat.le_max_left MAX_FRAME (heard labels).flatten.length
    have hcalm : Calm (max MAX_FRAME (heard labels).flatten.length) ({} : Radio)
        ⟨mode, band, false, busy, [], [], [], 0⟩ := ⟨⟨rfl, rfl, by simp [push_nil]⟩, rfl, rfl⟩
    obtain ⟨hmeets, hcore, hexitKiss⟩ := hleads _ _ u hle (hfits _ _ _ hsent)
      ⟨rfl, hcalm⟩ ⟨rfl, rfl⟩ hfirst
    have hmute : Mute (core u) := by
      rw [hcore]
      exact ⟨rfl, rfl⟩
    have hcore := (hstays _ u st₁ hle hfits hmeets hmute hrest).trans hcore
    have hout := core_run hexit
    rw [hsteps, hexitKiss, hcore] at hout
    have hmode := (congrArg RadioState.mode hout).trans
      (write_exit ⟨2, newBand ⟨mode, band, false, busy, [], [], [], 0⟩, false, unspent busy, [], [],
          [], 0⟩ (oldMode ⟨mode, band, false, busy, [], [], [], 0⟩) ⟨rfl, rfl⟩ rfl rfl)
    have hmode : st₂.mode = if oldMode ⟨mode, band, false, busy, [], [], [], 0⟩ = some 1 ∧
        (unspent busy).head? ≠ some true then 1 else 0 := hmode
    have hband : st₁.band = if untold busy then 0 else band := congrArg RadioState.band hcore
    have hkiss : st₁.inKiss = true := congrArg RadioState.inKiss hcore
    have haprs := oldMode_aprs ⟨mode, band, false, busy, [], [], [], 0⟩ rfl
    simp only [haprs] at hmode
    rw [hmode, hband, and_iff_right hkiss, and_iff_right rfl]
    exact restored_iff mode band (untold busy) ((unspent busy).head? = some true)

theorem fits_of_length (h : bs.length ≤ MAX_FRAME) : Fits bs := fun _ hr _ =>
  Nat.le_trans hr.length_le h

theorem fits_received {trace : List Act} (h : (received trace).length ≤ MAX_FRAME)
    (before : List Act) (bs : List UInt8) (after : List Act)
    (he : trace = before ++ .sent bs :: after) : Fits (received before) := by
  rw [he, received_append, List.length_append] at h
  exact fits_of_length (Nat.le_trans (Nat.le_add_right ..) h)

/-- A radio found in APRS mode on band B, busy at first, that hears a frame before
its last answer. -/
def patient : List Label :=
  [.act (.sent (bytes "BT\r")), .act (.got (bytes "?\r")), .act (.slept BUSY_GAP),
    .act (.sent (bytes "BT\r")), .act (.got (bytes "BT 1\r")),
    .act (.sent (bytes "ID\r")), .act (.got (bytes "ID TH-D75\r")),
    .act (.sent (bytes "TN\r")), .act (.got (bytes "TN 1,1\r")), .air [0x00, 0x41],
    .act (.sent (bytes "TN 2,1\r")), .act (.got [FEND, 0x00]),
      .act (.got ([0x41, FEND] ++ bytes "TN 2,1\r")),
    .act (.sent (bytes "BT\r")), .act (.quiet KISS_CHECK_WAIT)]

def patientTape : List Event :=
  [.bytes (bytes "?\r"), .bytes (bytes "BT 1\r"), .bytes (bytes "ID TH-D75\r"),
    .bytes (bytes "TN 1,1\r"), .bytes [FEND, 0x00],
      .bytes ([0x41, FEND] ++ bytes "TN 2,1\r"), .deadline]

def patientExit : List Label :=
  [.act (.sent KISS_RETURN), .act (.slept AFTER_KISS_RETURN), .act (.sent (bytes "TN 1,1\r"))]

theorem init_restores_iff_aprs :
    ∃ st₁ st₂, patient.foldlM RadioState.step ⟨1, 1, false, [true], [], [], [], 0⟩ = some st₁ ∧
      patientExit.foldlM RadioState.step st₁ = some st₂ ∧
      st₁.inKiss = true ∧ st₁.band = 1 ∧ Restored 1 st₂.mode :=
  ⟨⟨2, 1, false, [], [], [], [], 0⟩, ⟨1, 1, false, [], [], [], bytes "TN 1,1\r", 7⟩,
    by decide +kernel, by decide +kernel,
    (init_restores_iff patientTape ⟨some "TH-D75", [[0x00, 0x41]], [KISS_RETURN, bytes "TN 1,1\r"]⟩
      ⟨⟨[], [], .text, [], [[0x00, 0x41]]⟩, [], acts patient⟩ 1 1 false
        [true] patient patientExit _ _
      (ok_of_okOf (by decide +kernel)) (by decide +kernel) rfl (by decide +kernel)
        (by decide +kernel)
      (fits_received (by decide +kernel))).mpr (by decide +kernel)⟩

/-- The same radio, answering and then busy for as long as init asks it for its
mode. -/
def hurried : List Label :=
  [.act (.sent (bytes "BT\r")), .act (.got (bytes "BT 1\r")),
    .act (.sent (bytes "ID\r")), .act (.got (bytes "ID TH-D75\r")),
    .act (.sent (bytes "TN\r")), .act (.got (bytes "?\r")), .act (.slept BUSY_GAP),
    .act (.sent (bytes "TN\r")), .act (.got (bytes "?\r")), .act (.slept BUSY_GAP),
    .act (.sent (bytes "TN\r")), .act (.got (bytes "?\r")), .act (.slept BUSY_GAP),
    .act (.sent (bytes "TN\r")), .act (.got (bytes "?\r")),
    .act (.sent (bytes "TN 2,0\r")), .act (.got (bytes "TN 2,0\r")),
    .act (.sent (bytes "BT\r")), .act (.quiet KISS_CHECK_WAIT)]

def hurriedTape : List Event :=
  [.bytes (bytes "BT 1\r"), .bytes (bytes "ID TH-D75\r"), .bytes (bytes "?\r"),
    .bytes (bytes "?\r"), .bytes (bytes "?\r"), .bytes (bytes "?\r"),
      .bytes (bytes "TN 2,0\r"), .deadline]

/-- It is taken to band A, and left off. -/
theorem busy_radio_changes_band :
    ¬ ∀ (tape : List Event) (out : InitOutcome) (link : Link) (mode band : UInt8) (elsewhere : Bool)
      (busy : List Bool) (labels exits : List Label) (st₁ st₂ : RadioState),
      initThD7x { tape } = .ok out link →
      labels.foldlM RadioState.step ⟨mode, band, elsewhere, busy, [], [], [], 0⟩ = some st₁ →
      acts labels = link.trace → exits.foldlM RadioState.step st₁ = some st₂ →
      sends (acts exits) = out.exitKiss →
      st₁.inKiss = true ∧ st₁.band = band ∧ Restored mode st₂.mode := by
  intro h
  have hr := h hurriedTape ⟨some "TH-D75", [], [KISS_RETURN]⟩ ⟨{}, [], acts hurried⟩ 1 1 false
    [false, false, true, true, true, true] hurried [.act (.sent KISS_RETURN)]
    ⟨2, 0, false, [], [], [], [], 0⟩ ⟨0, 0, false, [], [], [], [], 0⟩
    (ok_of_okOf (by decide +kernel)) (by decide +kernel) rfl (by decide +kernel) (by decide +kernel)
  exact absurd hr.2.1 (by decide)

end KissTncBridge.Proofs.RadioModes
