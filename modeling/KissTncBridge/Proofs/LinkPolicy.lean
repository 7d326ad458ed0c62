import KissTncBridge.Proofs.BridgeSteps

namespace KissTncBridge.Proofs.LinkPolicy
open Bridge Conf Lib BridgeSteps

variable {r r' : Run} {now : Now}

/-- A settings change that starts or closes the link against a hold. -/
def Overrides (r : Run) (new : TncSettings) : Prop :=
  (r.held = some false ∧ r.settings.connect = .onDemand ∧ new.connect = .always) ∨
    (r.held = some true ∧ r.settings.connect = .always ∧ new.connect = .onDemand ∧
      r.sessions.entries = [] ∧ new.idleTimeout = 0)

/-- How a step can change whether the link is up and whether it is wanted:
not at all, to a wanted link that is up, to an unwanted one that is idle, or
by starting the timer for one that is no longer wanted. -/
inductive Moved (r r' : Run) : Prop where
  | kept : (r'.link = .idle ↔ r.link = .idle) → r'.wantsLink = r.wantsLink →
      (r.held = none → r.wantsLink = false → r'.idleTimer = r.idleTimer) → Moved r r'
  | up : r'.link ≠ .idle → r'.wantsLink = true → Moved r r'
  | down : r'.link = .idle → r'.wantsLink = false → Moved r r'
  | armed : (r'.link = .idle ↔ r.link = .idle) → r'.wantsLink = false →
      r'.idleTimer.isSome = true → Moved r r'

theorem Moved.of_keeps (hl : r'.link = r.link) (hk : Keeps r r') : Moved r r' :=
  .kept (by rw [hl]) hk.wants (fun _ _ => hk.idleTimer)

theorem wants_of_held (h : r.held = some want) : r.wantsLink = want := by
  simp only [Run.wantsLink, h]

theorem wants_of_policy (h : r.held = none) :
    r.wantsLink = true ↔ r.settings.connect = .always ∨ r.sessions.entries ≠ [] := by
  simp [Run.wantsLink, h]

/-- A link is wanted for the same reasons when only the sessions' queues
differ. -/
theorem wants_congr (hh : r'.held = r.held) (hc : r'.settings.connect = r.settings.connect)
    (hs : r'.sessions.entries = [] ↔ r.sessions.entries = []) : r'.wantsLink = r.wantsLink := by
  cases hd : r.held with
  | some want => rw [wants_of_held (hh.trans hd), wants_of_held hd]
  | none =>
    rw [Bool.eq_iff_iff, wants_of_policy (hh.trans hd), wants_of_policy hd, hc, ne_eq, ne_eq, hs]

theorem entries_replace (s : Sessions) : (s.replace sid x).entries = [] ↔ s.entries = [] := by
  have hk := AList.keys_replace sid x s
  simp only [AList.keys, List.keys] at hk
  rw [← List.map_eq_nil_iff (f := Sigma.fst), hk, List.map_eq_nil_iff]

theorem entries_of_erase (s : Sessions) (h : s.entries = []) : (s.erase sid).entries = [] := by
  have hk := AList.keys_erase sid s
  simp only [AList.keys, List.keys, h, List.map_nil, List.erase_nil] at hk
  exact List.map_eq_nil_iff.mp hk

theorem entries_insert (s : Sessions) : (s.insert sid x).entries ≠ [] := by
  rw [AList.entries_insert]
  exact List.cons_ne_nil _ _

theorem startConnect_moved (hw : r'.wantsLink = true) : Moved r (r'.startConnect now) := by
  refine .up ?_ ((startConnect_keeps r').wants.trans hw)
  rw [startConnect_link]
  simp

theorem close_moved (hw : r'.wantsLink = false) : Moved r (r'.close now) :=
  .down rfl ((close_keeps r').wants.trans hw)

theorem letGo_moved (hl : r'.link = .idle ↔ r.link = .idle) (hw : r'.wantsLink = false) :
    Moved r (r'.letGo now) := by
  unfold Run.letGo
  split
  · exact close_moved hw
  · exact .armed hl hw rfl

theorem letGo_held (r : Run) : (r.letGo now).held = r.held := by
  unfold Run.letGo
  split
  · exact (close_keeps r).held
  · rfl

theorem uplink_moved (hs : r.sessions.entries ≠ []) :
    (r.uplink now f src).held = r.held ∧ Moved r (r.uplink now f src) := by
  have hk : Keeps r (r.uplink now f src) := uplink_keeps r
  refine ⟨hk.held, ?_⟩
  rcases uplink_link r now f src with he | ⟨_, hd, he⟩
  · exact .of_keeps he hk
  · refine .up (by simp [he]) (hk.wants.trans ?_)
    rcases Option.eq_none_or_eq_some r.held with hn | ⟨want, hn⟩
    · exact (wants_of_policy hn).mpr (.inr hs)
    · rw [wants_of_held hn]
      cases want with
      | true => rfl
      | false => exact absurd hn hd

/-- A session was added and no connect was started for it. -/
theorem opened_moved (hl : r'.link = r.link) (hh : r'.held = r.held)
    (hs : r'.sessions.entries ≠ []) (hc : ¬(r'.link = .idle ∧ r'.wantsLink = true)) :
    Moved r r' := by
  rcases Option.eq_none_or_eq_some r.held with hd | ⟨want, hd⟩
  · have hw := (wants_of_policy (hh.trans hd)).mpr (.inr hs)
    exact .up (fun hi => hc ⟨hi, hw⟩) hw
  · refine .kept (by rw [hl]) ?_ (fun hn => absurd (hn.symm.trans hd) (by simp))
    rw [wants_of_held hd, wants_of_held (hh.trans hd)]

/-- A session was removed and the link is still wanted, or never hung on it. -/
theorem closed_moved (hl : r'.link = r.link) (hh : r'.held = r.held)
    (hc : r'.settings = r.settings) (ht : r'.idleTimer = r.idleTimer)
    (hs : r'.sessions = r.sessions.erase sid)
    (hn : ¬(r'.sessions.entries.isEmpty = true ∧ (!r'.wantsLink) = true)) : Moved r r' := by
  refine .kept (by rw [hl]) ?_ (fun _ _ => ht)
  rcases Option.eq_none_or_eq_some r.held with hd | ⟨want, hd⟩
  · have hw := wants_of_policy hd
    have hw' := wants_of_policy (hh.trans hd)
    rw [hc] at hw'
    by_cases he : r'.sessions.entries = []
    · have ha : r'.wantsLink = true := by
        by_contra hf
        exact hn ⟨by simp [he], by simpa using hf⟩
      rw [ha, eq_comm, hw]
      exact .inl ((hw'.mp ha).resolve_right (fun h => h he))
    · rw [hw'.mpr (.inr he), eq_comm, hw]
      exact .inr (fun h => he (hs ▸ entries_of_erase _ h))
  · rw [wants_of_held hd, wants_of_held (hh.trans hd)]

theorem onApp_moved (ev : AppEvent) :
    (r.onApp now ev).held = r.held ∧ Moved r (r.onApp now ev) := by
  cases ev with
  | sessionOpened sid tx kick =>
    simp only [Run.onApp]
    split
    · rename_i hc
      exact ⟨(startConnect_keeps _).held, startConnect_moved hc.2⟩
    · rename_i hc
      exact ⟨rfl, opened_moved rfl rfl (entries_insert _) hc⟩
  | sessionClosed sid =>
    simp only [Run.onApp]
    split
    · rename_i hc
      have hw := hc.2
      rw [Bool.not_eq_true'] at hw
      exact ⟨letGo_held _, letGo_moved Iff.rfl hw⟩
    · rename_i hc
      exact ⟨rfl, closed_moved rfl rfl rfl rfl rfl hc⟩
  | frame sid f =>
    simp only [Run.onApp]
    split
    · exact ⟨rfl, .of_keeps rfl ⟨rfl, rfl, rfl, rfl⟩⟩
    · rename_i hk
      split
      · exact ⟨rfl, .of_keeps rfl ⟨rfl, rfl, rfl, rfl⟩⟩
      · refine uplink_moved (fun he => hk ?_)
        simp [AList.lookup, he]

theorem toAlways_wants (hh : r'.held = r.held) (ha : r'.settings.connect = .always)
    (hn : r.held ≠ some false) : r'.wantsLink = true := by
  rcases Option.eq_none_or_eq_some r.held with hd | ⟨want, hd⟩
  · exact (wants_of_policy (hh.trans hd)).mpr (.inl ha)
  · rw [wants_of_held (hh.trans hd)]
    cases want with
    | true => rfl
    | false => exact absurd hd hn

theorem toOnDemand_moved (hl : r'.link = r.link) (hh : r'.held = r.held)
    (hc : r'.settings.connect = .onDemand) (he : r'.sessions.entries = [])
    (hn : r.held = some true → r'.settings.idleTimeout ≠ 0) : Moved r (r'.letGo now) := by
  rcases Option.eq_none_or_eq_some r.held with hd | ⟨want, hd⟩
  · refine letGo_moved (by rw [hl]) ?_
    rw [← Bool.not_eq_true, wants_of_policy (hh.trans hd)]
    simp [hc, he]
  · have hw := wants_of_held (hh.trans hd)
    cases want with
    | false => exact letGo_moved (by rw [hl]) hw
    | true =>
      rw [Run.letGo, if_neg (hn hd)]
      refine .kept (by rw [hl]) (hw.trans (wants_of_held hd).symm) (fun hf => ?_)
      rw [hd] at hf
      cases hf

/-- The link stays wanted, or unwanted, for the same sessions under a policy
that does not matter to them. -/
theorem policy_moved (hl : r'.link = r.link) (hh : r'.held = r.held)
    (hs : r'.sessions = r.sessions) (ht : r'.idleTimer = r.idleTimer)
    (hc : r'.settings.connect = r.settings.connect ∨ r.sessions.entries ≠ []) : Moved r r' := by
  refine .kept (by rw [hl]) ?_ (fun _ _ => ht)
  rcases hc with hc | hc
  · exact wants_congr hh hc (by rw [hs])
  · rcases Option.eq_none_or_eq_some r.held with hd | ⟨want, hd⟩
    · rw [(wants_of_policy hd).mpr (.inr hc),
        (wants_of_policy (hh.trans hd)).mpr (.inr (hs ▸ hc))]
    · rw [wants_of_held hd, wants_of_held (hh.trans hd)]

/-- New settings act on the link only as the hold lets them, unless they
override it. -/
theorem applySettings_moved (new : TncSettings) (hn : ¬Overrides r new) :
    (r.applySettings now new).held = r.held ∧ Moved r (r.applySettings now new) := by
  simp only [Run.applySettings]
  split
  · rename_i he
    exact ⟨rfl, .of_keeps rfl ⟨rfl, he.symm, rfl, rfl⟩⟩
  · split
    · rename_i ho ha
      have hd : r.held ≠ some false := fun hd => hn (.inl ⟨hd, ho, ha⟩)
      have hw : Run.wantsLink { r with settings := new, idleTimer := none } = true :=
        toAlways_wants rfl ha hd
      split
      · exact ⟨(startConnect_keeps _).held, startConnect_moved hw⟩
      · rename_i hl
        exact ⟨rfl, .up hl hw⟩
    · rename_i ho ha
      split
      · rename_i he
        have he : r.sessions.entries = [] := List.isEmpty_iff.mp he
        refine ⟨letGo_held _, toOnDemand_moved rfl rfl ha he ?_⟩
        exact fun hd hz => hn (.inr ⟨hd, ho, ha, he, hz⟩)
      · rename_i he
        exact ⟨rfl, policy_moved rfl rfl rfl rfl (.inr (by simpa using he))⟩
    · rename_i hoa hao
      refine ⟨rfl, policy_moved rfl rfl rfl rfl (.inl ?_)⟩
      show new.connect = r.settings.connect
      cases ho : r.settings.connect <;> cases ha : new.connect
      · rfl
      · exact absurd ha (hoa ho)
      · exact absurd ha (hao ho)
      · rfl

theorem onCmd_moved (cmd : BridgeCmd) (hh : ∀ hold, cmd ≠ .hold hold)
    (hn : ∀ new, cmd = .settings new → ¬Overrides r new) :
    (r.onCmd now cmd).held = r.held ∧ Moved r (r.onCmd now cmd) := by
  cases cmd with
  | settings new => exact applySettings_moved new (hn new rfl)
  | connector c =>
    have hk : Keeps r (r.close now) := close_keeps r
    simp only [Run.onCmd]
    split
    · rename_i hw
      exact ⟨(startConnect_keeps _).held.trans hk.held, startConnect_moved hw⟩
    · rename_i hw
      exact ⟨hk.held, .down rfl (by simpa using hw)⟩
  | hold hold => exact absurd rfl (hh hold)
  | kick sid =>
    simp only [Run.onCmd]
    split <;> exact ⟨rfl, .of_keeps rfl ⟨rfl, rfl, rfl, rfl⟩⟩
  | snapshot => exact ⟨rfl, .of_keeps rfl ⟨rfl, rfl, rfl, rfl⟩⟩

theorem offer_moved (f : Frame) (sid : SessionId) (r : Run) :
    (Run.offer f r sid).link = r.link ∧ (Run.offer f r sid).held = r.held ∧
      (Run.offer f r sid).settings = r.settings ∧ (Run.offer f r sid).idleTimer = r.idleTimer ∧
      ((Run.offer f r sid).sessions.entries = [] ↔ r.sessions.entries = []) := by
  unfold Run.offer
  split
  · exact ⟨rfl, rfl, rfl, rfl, Iff.rfl⟩
  · dsimp only
    split
    · exact ⟨rfl, rfl, rfl, rfl, entries_replace _⟩
    · exact ⟨rfl, rfl, rfl, rfl, Iff.rfl⟩

theorem offers_moved (f : Frame) (ids : List SessionId) (r : Run) :
    (ids.foldl (Run.offer f) r).link = r.link ∧ (ids.foldl (Run.offer f) r).held = r.held ∧
      (ids.foldl (Run.offer f) r).settings = r.settings ∧
      (ids.foldl (Run.offer f) r).idleTimer = r.idleTimer ∧
      ((ids.foldl (Run.offer f) r).sessions.entries = [] ↔ r.sessions.entries = []) := by
  induction ids generalizing r with
  | nil => exact ⟨rfl, rfl, rfl, rfl, Iff.rfl⟩
  | cons sid ids ih =>
    obtain ⟨hl, hh, hc, ht, hs⟩ := offer_moved f sid r
    obtain ⟨hl', hh', hc', ht', hs'⟩ := ih (Run.offer f r sid)
    exact ⟨hl'.trans hl, hh'.trans hh, hc'.trans hc, ht'.trans ht, hs'.trans hs⟩

theorem onTnc_moved (ev : TncEvent) :
    (r.onTnc now ev).held = r.held ∧ Moved r (r.onTnc now ev) := by
  cases ev with
  | frame g f =>
    simp only [Run.onTnc]
    split
    · exact ⟨rfl, .of_keeps rfl (.refl r)⟩
    · obtain ⟨hl, hh, hc, ht, hs⟩ := offers_moved f r.sessions.keys
        { r with counters := { r.counters with framesDown := r.counters.framesDown + 1 } }
      refine ⟨hh, .kept (by rw [hl]) (wants_congr hh (by rw [hc]) hs) (fun _ _ => ht)⟩
  | closed g e =>
    simp only [Run.onTnc]
    split
    · split
      · exact ⟨rfl, .of_keeps rfl (.refl r)⟩
      · split
        · rename_i hw
          exact ⟨rfl, .up (by simp [Run.startBackoff, Run.setState]) hw⟩
        · rename_i hw
          exact ⟨rfl, .down rfl (Bool.eq_false_iff.mpr hw)⟩
    · exact ⟨rfl, .of_keeps rfl (.refl r)⟩

theorem giveUp_moved (hw : r'.wantsLink = false) (hl : r'.link = .idle) : Moved r (r'.giveUp now) :=
  .down hl hw

theorem linkUp_moved (hl : r.link = .connecting task) :
    (r.connectDone.onLink now (.connected (.ok steps))).held = r.held ∧
      Moved r (r.connectDone.onLink now (.connected (.ok steps))) := by
  have hk : Keeps r { r.connectDone.linkUp now steps with pending := [] } := by
    simp only [Run.connectDone, hl]
    exact ⟨rfl, rfl, rfl, rfl⟩
  have hs : (r.connectDone.pending.foldl (Run.uplinkPending now)
        { r.connectDone.linkUp now steps with pending := [] }).link =
          .connected r.connectDone.nextLink ∧ Keeps _ _ := drain_spec r.connectDone.pending rfl
  obtain ⟨hu, hd⟩ := hs
  have hk := hk.trans hd
  simp only [Run.onLink]
  split
  · rename_i hc
    exact ⟨(close_keeps _).held.trans hk.held, close_moved (by simpa using hc.1)⟩
  · refine ⟨hk.held, .kept ?_ hk.wants (fun _ _ => hk.idleTimer)⟩
    rw [hu, hl]
    simp

theorem connectFailed_moved (e : Error) (hk : Keeps r r') :
    (r'.onLink now (.connected (.error e))).held = r.held ∧
      Moved r (r'.onLink now (.connected (.error e))) := by
  simp only [Run.onLink]
  split
  · rename_i hw
    exact ⟨hk.held, giveUp_moved (by simpa using hw) rfl⟩
  · rename_i hw
    rw [Bool.not_eq_true', Bool.not_eq_false] at hw
    split
    · exact ⟨hk.held, .up (by simp [Run.startWait, Run.setState]) hw⟩
    · exact ⟨hk.held, .up (by simp [Run.startWait, Run.setState]) hw⟩
    · exact ⟨hk.held, .up (by simp [Run.startBackoff, Run.setState]) hw⟩

theorem backoffOver_moved (r : Run) :
    (r.onLink now .backoffOver).held = r.held ∧ Moved r (r.onLink now .backoffOver) := by
  simp only [Run.onLink]
  split
  · rename_i hw
    exact ⟨(startConnect_keeps _).held, startConnect_moved hw⟩
  · rename_i hw
    exact ⟨rfl, giveUp_moved (Bool.eq_false_iff.mpr hw) rfl⟩

theorem onIdle_moved (r : Run) : (r.onIdle now).held = r.held ∧ Moved r (r.onIdle now) := by
  simp only [Run.onIdle]
  split
  · rename_i hw
    exact ⟨(close_keeps _).held, close_moved (by simpa using hw)⟩
  · rename_i hw
    have hw : r.wantsLink = true := by
      rw [Bool.not_eq_true', Bool.not_eq_false] at hw
      exact hw
    exact ⟨rfl, .kept Iff.rfl rfl (fun _ hf => absurd (hw.symm.trans hf) (by simp))⟩

theorem connectDone_keeps (r : Run) : Keeps r r.connectDone := by
  unfold Run.connectDone
  split <;> exact ⟨rfl, rfl, rfl, rfl⟩

theorem step_moved (hh : ∀ now hold, e ≠ .cmd now (.hold hold))
    (hn : ∀ now new, e = .cmd now (.settings new) → ¬Overrides r new) (hs : r.step e = some r') :
    r'.held = r.held ∧ Moved r r' := by
  cases step_turn hs with
  | app _ => exact onApp_moved _
  | tnc => exact onTnc_moved _
  | cmd =>
    exact onCmd_moved _ (fun hold he => hh _ hold (congrArg _ he))
      (fun new he => hn _ new (congrArg _ he))
  | connected hl =>
    rename_i res
    cases res with
    | ok steps => exact linkUp_moved hl
    | error e => exact connectFailed_moved e (connectDone_keeps r)
  | backoffOver _ => exact backoffOver_moved r
  | idle _ => exact onIdle_moved r
  | takes _ _ | gone _ =>
    exact ⟨rfl, .kept Iff.rfl (wants_congr rfl rfl (entries_replace _)) (fun _ _ => rfl)⟩
  | writer _ => exact ⟨rfl, .of_keeps rfl ⟨rfl, rfl, rfl, rfl⟩⟩
  | slot => exact ⟨rfl, .of_keeps rfl (.refl r)⟩

/-- Without a hold, the link is up for whoever wants it, and a timer runs for
a link nobody wants. -/
structure Served (r : Run) : Prop where
  held : r.held = none
  wanted : r.wantsLink = true → r.link ≠ .idle
  timed : r.wantsLink = false → r.link ≠ .idle → r.idleTimer.isSome = true

theorem Served.moved (h : Served r) (hh : r'.held = r.held) (hm : Moved r r') : Served r' := by
  refine ⟨hh.trans h.held, ?_, ?_⟩
  · intro hw
    cases hm with
    | kept hl hk _ => exact fun hi => h.wanted (hk ▸ hw) (hl.mp hi)
    | up hl _ => exact hl
    | down _ hf => exact absurd (hw.symm.trans hf) (by simp)
    | armed _ hf _ => exact absurd (hw.symm.trans hf) (by simp)
  · intro hw hn
    cases hm with
    | kept hl hk ht =>
      rw [ht h.held (hk ▸ hw)]
      exact h.timed (hk ▸ hw) (fun hi => hn (hl.mpr hi))
    | up _ ht => exact absurd (hw.symm.trans ht) (by simp)
    | down hi _ => exact absurd hi hn
    | armed _ _ ht => exact ht

theorem start_served (bid : String) (c : Connector) (s : TncSettings) :
    Served (Run.start bid c s now) := by
  simp only [Run.start]
  split
  · rename_i ha
    have hk : Keeps _ ((Run.new bid c s now).startConnect now) := startConnect_keeps _
    refine ⟨hk.held, fun _ => by simp, fun hf => ?_⟩
    have hw : (Run.new bid c s now).wantsLink = true := (wants_of_policy rfl).mpr (.inl ha)
    exact absurd ((hk.wants.trans hw).symm.trans hf) (by simp)
  · rename_i ha
    refine ⟨rfl, fun hw => ?_, fun _ hn => absurd rfl hn⟩
    rcases (wants_of_policy rfl).mp hw with hw | hw
    · exact absurd hw ha
    · exact absurd rfl hw

def NoHold (_ : Run) (e : Event) : Prop := ∀ now hold, e ≠ .cmd now (.hold hold)

theorem reachable_served (h : Reach Run.step NoHold (Run.start bid c s now) es r) : Served r := by
  refine h.invariant (start_served bid c s) ?_
  intro t e u hi hok hs
  have hn : ∀ new, ¬Overrides t new := by
    intro new ho
    rcases ho with ⟨hd, _⟩ | ⟨hd, _⟩ <;> exact absurd (hi.held.symm.trans hd) (by simp)
  obtain ⟨hh, hm⟩ := step_moved hok (fun _ new _ => hn new) hs
  exact hi.moved hh hm

/-- A bridge that is never held connects for whoever wants the link, and lets
go of one nobody wants when the timer that is then running is over. -/
theorem link_follows_policy (h : Reach Run.step NoHold (Run.start bid c s now) es r) :
    (r.wantsLink = true → r.link ≠ .idle) ∧
    (r.wantsLink = false → r.link ≠ .idle → r.idleTimer.isSome = true ∧
      ∀ now', ∃ r', r.step (.idleElapsed now') = some r' ∧ r'.link = .idle) := by
  have hs := reachable_served h
  refine ⟨hs.wanted, fun hw hn => ?_⟩
  have ht := hs.timed hw hn
  refine ⟨ht, fun now' => ⟨r.onIdle now', ?_, ?_⟩⟩
  · simp only [Run.step, ht, if_true]
  · have hf : Run.wantsLink { r with idleTimer := none } = false := hw
    simp only [Run.onIdle, hf]
    rfl

theorem link_follows_policy_left :
    ∃ r, Reach Run.step NoHold (sampleRun .onDemand)
        [.cmd ⟨0, 0⟩ (.settings { sampleSettings with idleTimeout := 3000 }),
          .app ⟨1, 1⟩ (.sessionOpened (sampleSession 4001) (.empty 4) 1),
          .app ⟨2, 2⟩ (.sessionClosed (sampleSession 4001))] r ∧
      r.wantsLink = false ∧ r.link ≠ .idle ∧
      ∃ r', r.step (.idleElapsed ⟨3002, 3002⟩) = some r' ∧ r'.link = .idle := by
  have hok : ∀ r e, (match e with | Event.cmd _ (.hold _) => false | _ => true) = true →
      NoHold r e := by
    intro r e he now hold hc
    subst hc
    cases he
  have h : Reach Run.step NoHold (sampleRun .onDemand)
      [.cmd ⟨0, 0⟩ (.settings { sampleSettings with idleTimeout := 3000 }),
        .app ⟨1, 1⟩ (.sessionOpened (sampleSession 4001) (.empty 4) 1),
        .app ⟨2, 2⟩ (.sessionClosed (sampleSession 4001))] _ :=
    .next (.next (.next .start (hok _ _ rfl) rfl) (hok _ _ rfl) rfl) (hok _ _ rfl) rfl
  refine ⟨_, h, by decide, by decide, ?_⟩
  exact ((link_follows_policy h).2 (by decide) (by decide)).2 ⟨3002, 3002⟩

def HeldLaw (r : Run) : Prop :=
  (r.held = some false → r.link = .idle) ∧ (r.held = some true → r.link ≠ .idle)

theorem HeldLaw.moved (h : HeldLaw r) (hh : r'.held = r.held) (hm : Moved r r') : HeldLaw r' := by
  refine ⟨?_, ?_⟩
  · intro hd
    cases hm with
    | kept hl _ _ => exact hl.mpr (h.1 (hh ▸ hd))
    | up _ hw => exact absurd ((wants_of_held hd).symm.trans hw) (by simp)
    | down hl _ => exact hl
    | armed hl _ _ => exact hl.mpr (h.1 (hh ▸ hd))
  · intro hd
    cases hm with
    | kept hl _ _ => exact fun hi => h.2 (hh ▸ hd) (hl.mp hi)
    | up hl _ => exact hl
    | down _ hw => exact absurd ((wants_of_held hd).symm.trans hw) (by simp)
    | armed _ hw _ => exact absurd ((wants_of_held hd).symm.trans hw) (by simp)

theorem hold_held (hold : Option Bool) : (r.onCmd now (.hold hold)).held = hold := by
  simp only [Run.onCmd]
  split
  · split
    · exact (startConnect_keeps _).held
    · rfl
  · split
    · exact (close_keeps _).held
    · rfl

/-- A hold is in force at once, whatever the link did before. -/
theorem hold_law (hold : Option Bool) : HeldLaw (r.onCmd now (.hold hold)) := by
  unfold HeldLaw
  rw [hold_held]
  refine ⟨?_, ?_⟩
  · rintro rfl
    rfl
  · rintro rfl
    simp only [Run.onCmd, Run.wantsLink, if_true]
    split
    · simp
    · assumption

/-- New settings that override a hold leave the link the other way round. -/
theorem overrides_breaks (h : HeldLaw r) (ho : Overrides r new) :
    ¬HeldLaw (r.applySettings now new) := by
  rcases ho with ⟨hd, hold, hnew⟩ | ⟨hd, hold, hnew, hs, hz⟩
  · have hne : r.settings ≠ new := fun he => by rw [he, hnew] at hold; cases hold
    have hl := h.1 hd
    simp only [Run.applySettings, hne, hold, hnew, hl, if_true, if_false]
    intro hb
    have hf := hb.1 ((startConnect_keeps _).held.trans hd)
    rw [startConnect_link] at hf
    cases hf
  · have hne : r.settings ≠ new := fun he => by rw [he, hnew] at hold; cases hold
    simp only [Run.applySettings, hne, hold, hnew, hs, if_false, Run.letGo, hz]
    exact fun hb => hb.2 ((close_keeps _).held.trans hd) rfl

def HoldRespected (r : Run) (e : Event) : Prop :=
  ∀ now new, e = .cmd now (.settings new) → ¬Overrides r new

theorem reachable_heldLaw (h : Reach Run.step HoldRespected (Run.start bid c s now) es r) :
    HeldLaw r := by
  refine h.invariant ?_ ?_
  · have hd : (Run.start bid c s now).held = none := (start_served bid c s).held
    exact ⟨fun hf => absurd (hd.symm.trans hf) (by simp),
      fun hf => absurd (hd.symm.trans hf) (by simp)⟩
  · intro t e u hi hok hs
    by_cases hh : ∃ now hold, e = .cmd now (.hold hold)
    · obtain ⟨_, hold, rfl⟩ := hh
      cases hs
      exact hold_law hold
    · obtain ⟨hd, hm⟩ := step_moved (fun now hold he => hh ⟨now, hold, he⟩) hok hs
      exact hi.moved hd hm

/-- While no settings change overrides a hold, the link is as it is held; the
first that does leaves it otherwise. -/
theorem hold_decides_link (h : Reach Run.step HoldRespected (Run.start bid c s now) es r) :
    (r.held = some false → r.link = .idle) ∧ (r.held = some true → r.link ≠ .idle) ∧
    ∀ now' new, Overrides r new → ∃ r', r.step (.cmd now' (.settings new)) = some r' ∧
      ¬((r'.held = some false → r'.link = .idle) ∧ (r'.held = some true → r'.link ≠ .idle)) := by
  have hl := reachable_heldLaw h
  exact ⟨hl.1, hl.2, fun now' new ho => ⟨_, rfl, overrides_breaks hl ho⟩⟩

theorem hold_decides_link_frame :
    ∃ r, Reach Run.step HoldRespected (sampleRun .onDemand)
        [.cmd ⟨0, 0⟩ (.hold (some false)),
          .app ⟨1, 1⟩ (.sessionOpened (sampleSession 4001) (.empty 4) 1),
          .app ⟨2, 2⟩ (.frame (sampleSession 4001) [0, 0x41])] r ∧
      r.held = some false ∧ r.wantsLink = false ∧ r.sessions.entries.length = 1 ∧
      r.link = .idle := by
  have hok : ∀ r e, (∀ now new, e ≠ .cmd now (.settings new)) → HoldRespected r e := by
    intro r e he now new hc
    exact absurd hc (he now new)
  have h : Reach Run.step HoldRespected (sampleRun .onDemand)
      [.cmd ⟨0, 0⟩ (.hold (some false)),
        .app ⟨1, 1⟩ (.sessionOpened (sampleSession 4001) (.empty 4) 1),
        .app ⟨2, 2⟩ (.frame (sampleSession 4001) [0, 0x41])] _ :=
    .next (.next (.next .start (hok _ _ (by simp)) rfl) (hok _ _ (by simp)) rfl)
      (hok _ _ (by simp)) rfl
  exact ⟨_, h, rfl, rfl, rfl, (hold_decides_link h).1 rfl⟩

/-- Held down, the link comes up when `connect` changes to `always`; held up,
it goes down when `connect` changes to `on-demand`. -/
theorem hold_overridden_by_settings :
    (∃ r task, Runs Run.step (sampleRun .onDemand)
        [.cmd ⟨0, 0⟩ (.hold (some false)),
          .cmd ⟨1, 1⟩ (.settings { sampleSettings with connect := .always })] r ∧
      r.held = some false ∧ r.link = .connecting task) ∧
    (∃ r, Runs Run.step (sampleRun .always)
        [.cmd ⟨0, 0⟩ (.hold (some true)), .cmd ⟨1, 1⟩ (.settings sampleSettings)] r ∧
      r.held = some true ∧ r.link = .idle) :=
  ⟨⟨_, 2, .next (.next .start trivial rfl) trivial rfl, rfl, rfl⟩,
    ⟨_, .next (.next .start trivial rfl) trivial rfl, rfl, rfl⟩⟩

end KissTncBridge.Proofs.LinkPolicy
