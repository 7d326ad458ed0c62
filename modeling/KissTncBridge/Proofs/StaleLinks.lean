import KissTncBridge.Bridge.Links
import KissTncBridge.Lib.Maps
import KissTncBridge.Proofs.BridgeSteps

namespace KissTncBridge.Proofs.StaleLinks
open Bridge Conf Lib BridgeSteps

variable {r r' r'' : Run} {now : Now}

def spawned (out : List Out) : List (Nat × Nat) :=
  out.filterMap (fun o => match o with
    | .spawnLink link generation => some (link, generation)
    | _ => none)

theorem mem_spawned : (l, g) ∈ spawned out ↔ .spawnLink l g ∈ out := by
  simp only [spawned, List.mem_filterMap]
  constructor
  · rintro ⟨o, ho, he⟩
    cases o <;> simp at he
    obtain ⟨rfl, rfl⟩ := he
    exact ho
  · exact fun h => ⟨_, h, rfl⟩

/-- No link comes up, and a connected one stays so exactly as long as its
generation lasts. -/
structure Advances (r r' : Run) : Prop where
  generation : r.generation ≤ r'.generation
  spawned : spawned r'.out = spawned r.out
  connects : r'.counters.tncConnects = r.counters.tncConnects
  current : r'.generation = r.generation → ∀ l, r.link = .connected l → r'.link = .connected l
  stays : ∀ l, r'.link = .connected l → r.link = .connected l ∧ r'.generation = r.generation

theorem Advances.of_same (hg : r'.generation = r.generation)
    (hs : StaleLinks.spawned r'.out = StaleLinks.spawned r.out)
    (hc : r'.counters.tncConnects = r.counters.tncConnects) (hl : r'.link = r.link) :
    Advances r r' :=
  ⟨Nat.le_of_eq hg.symm, hs, hc, fun _ _ h => hl.trans h, fun _ h => ⟨hl.symm.trans h, hg⟩⟩

theorem Advances.refl (r : Run) : Advances r r := .of_same rfl rfl rfl rfl

/-- The generation moves on, and no link is connected in the new one. -/
theorem Advances.of_next (hg : r'.generation = r.generation + 1)
    (hs : StaleLinks.spawned r'.out = StaleLinks.spawned r.out)
    (hc : r'.counters.tncConnects = r.counters.tncConnects) (hn : ∀ l, r'.link ≠ .connected l) :
    Advances r r' :=
  ⟨hg ▸ Nat.le_succ _, hs, hc, fun he => absurd (hg.symm.trans he) (Nat.succ_ne_self _),
    fun l h => absurd h (hn l)⟩

theorem Advances.trans (h : Advances r r') (h' : Advances r' r'') : Advances r r'' := by
  refine ⟨Nat.le_trans h.generation h'.generation, h'.spawned.trans h.spawned,
    h'.connects.trans h.connects, fun he l hl => ?_, fun l hl => ?_⟩
  · have hg := h.generation
    have hg' := h'.generation
    exact h'.current (by omega) l (h.current (by omega) l hl)
  · obtain ⟨hl, hg'⟩ := h'.stays l hl
    obtain ⟨hl, hg⟩ := h.stays l hl
    exact ⟨hl, hg'.trans hg⟩

/-- Only the link changes, and it neither was nor is connected. -/
theorem Advances.of_waiting (hg : r'.generation = r.generation) (ho : r'.out = r.out)
    (hc : r'.counters = r.counters) (hn : ∀ l, r.link ≠ .connected l)
    (hn' : ∀ l, r'.link ≠ .connected l) : Advances r r' :=
  ⟨Nat.le_of_eq hg.symm, by rw [ho], by rw [hc], fun _ l hl => absurd hl (hn l),
    fun l hl => absurd hl (hn' l)⟩

theorem startConnect_advances (r : Run) : Advances r (r.startConnect now) := by
  have hs : spawned (r.out ++ [.spawnConnect r.link (r.generation + 1)]) = spawned r.out := by
    simp [spawned]
  simp only [Run.startConnect]
  split <;> exact .of_next rfl hs rfl (fun _ h => by cases h)

theorem spawned_sayIf (ho : spawned [o] = []) (c : Bool) :
    spawned (out ++ if c then [o] else []) = spawned out := by
  cases c with
  | false => simp
  | true => simpa [spawned, List.filterMap_append] using ho

theorem release_spawned (r : Run) : spawned r.release.out = spawned r.out := by
  unfold Run.release
  split
  · simp [spawned]
  · exact spawned_sayIf rfl _
  · rfl
  · rfl

theorem release_connects (r : Run) : r.release.counters = r.counters := by
  unfold Run.release
  split <;> rfl

theorem close_advances (r : Run) : Advances r (r.close now) :=
  .of_next rfl (release_spawned r) (congrArg _ (release_connects r)) (fun _ h => by cases h)

theorem queuePending_advances (r : Run) : Advances r (r.queuePending now f src) := by
  simp only [Run.queuePending]
  split <;> exact .of_same rfl rfl rfl rfl

theorem dropFrame_advances (r : Run) : Advances r r.dropFrame :=
  .of_same rfl rfl rfl rfl

theorem uplink_advances (r : Run) : Advances r (r.uplink now f src) := by
  unfold Run.uplink
  split
  · split
    · exact .of_same rfl (by simp [spawned]) rfl rfl
    · exact dropFrame_advances r
  · split
    · exact dropFrame_advances r
    · exact (queuePending_advances r).trans (startConnect_advances _)
  · exact queuePending_advances r
  · exact queuePending_advances r

theorem drain_advances (ps : List (Nat × Frame × Option SessionId)) (r : Run) :
    Advances r (ps.foldl (Run.uplinkPending now) r) := by
  induction ps generalizing r with
  | nil => exact .refl r
  | cons p ps ih =>
    refine Advances.trans ?_ (ih _)
    unfold Run.uplinkPending
    split
    · exact dropFrame_advances r
    · exact uplink_advances r

theorem letGo_advances (r : Run) : Advances r (r.letGo now) := by
  unfold Run.letGo
  split
  · exact close_advances r
  · exact .of_same rfl rfl rfl rfl

theorem onApp_advances (ev : AppEvent) (r : Run) : Advances r (r.onApp now ev) := by
  cases ev with
  | sessionOpened sid tx kick =>
    simp only [Run.onApp]
    split
    · refine Advances.trans ?_ (startConnect_advances _)
      exact .of_same rfl rfl rfl rfl
    · exact .of_same rfl rfl rfl rfl
  | sessionClosed sid =>
    simp only [Run.onApp]
    split
    · refine Advances.trans ?_ (letGo_advances _)
      exact .of_same rfl rfl rfl rfl
    · exact .of_same rfl rfl rfl rfl
  | frame sid f =>
    simp only [Run.onApp]
    split
    · exact dropFrame_advances r
    · split
      · exact dropFrame_advances r
      · exact uplink_advances r

theorem onCmd_advances (cmd : BridgeCmd) (r : Run) : Advances r (r.onCmd now cmd) := by
  cases cmd with
  | settings new =>
    simp only [Run.onCmd, Run.applySettings]
    split
    · exact .of_same rfl rfl rfl rfl
    · split
      · split
        · refine Advances.trans ?_ (startConnect_advances _)
          exact .of_same rfl rfl rfl rfl
        · exact .of_same rfl rfl rfl rfl
      · split
        · refine Advances.trans ?_ (letGo_advances _)
          exact .of_same rfl rfl rfl rfl
        · exact .of_same rfl rfl rfl rfl
      · exact .of_same rfl rfl rfl rfl
  | connector c =>
    have hc : Advances r { r.close now with connector := c, attempt := 0 } :=
      Advances.trans (close_advances r : Advances r (r.close now))
        (.of_same rfl rfl rfl rfl)
    simp only [Run.onCmd]
    split
    · exact hc.trans (startConnect_advances _)
    · exact hc
  | hold hold =>
    have hh : Advances r { r with held := hold, idleTimer := none } :=
      .of_same rfl rfl rfl rfl
    simp only [Run.onCmd]
    split
    · split
      · exact hh.trans (startConnect_advances _)
      · exact hh
    · split
      · exact hh.trans (close_advances _)
      · exact .of_same rfl rfl rfl rfl
  | kick sid =>
    simp only [Run.onCmd]
    split
    · exact .of_same rfl (by simp [spawned]) rfl rfl
    · exact .refl r
  | snapshot => exact .of_same rfl (by simp [Run.onCmd, spawned]) rfl rfl

theorem offer_advances (f : Frame) (sid : SessionId) (r : Run) :
    Advances r (Run.offer f r sid) := by
  unfold Run.offer
  split
  · exact .refl r
  · dsimp only
    split <;> exact .of_same rfl (by simp [spawned, Run.dropFrame]) rfl rfl

theorem offers_advances (f : Frame) (ids : List SessionId) (r : Run) :
    Advances r (ids.foldl (Run.offer f) r) := by
  induction ids generalizing r with
  | nil => exact .refl r
  | cons sid ids ih => exact (offer_advances f sid r).trans (ih _)

theorem startBackoff_advances (hl : r.link = .idle) : Advances r (r.startBackoff now) :=
  .of_waiting rfl rfl rfl (by simp [hl]) (fun _ h => by cases h)

theorem onTnc_advances (ev : TncEvent) (r : Run) : Advances r (r.onTnc now ev) := by
  cases ev with
  | frame g f =>
    simp only [Run.onTnc]
    split
    · exact .refl r
    · refine Advances.trans ?_ (offers_advances f _ _)
      exact .of_same rfl rfl rfl rfl
  | closed g e =>
    simp only [Run.onTnc]
    split
    · split
      · exact .refl r
      · split
        · refine Advances.trans ?_ (startBackoff_advances rfl)
          exact .of_next rfl rfl rfl (fun _ h => by cases h)
        · exact .of_next rfl rfl rfl (fun _ h => by cases h)
    · exact .refl r

theorem connectDone_advances (r : Run) : Advances r r.connectDone := by
  unfold Run.connectDone
  split
  · exact .of_same rfl (by simp [spawned]) rfl rfl
  · exact .refl r

theorem connectFailed_advances (e : Error) (hn : ∀ l, r.link ≠ .connected l) :
    Advances r (r.onLink now (.connected (.error e))) := by
  simp only [Run.onLink]
  split
  · exact .of_waiting rfl rfl rfl hn (fun _ h => by cases h)
  · split <;> exact .of_waiting rfl rfl rfl hn (fun _ h => by cases h)

theorem backoffOver_advances (hn : ∀ l, r.link ≠ .connected l) :
    Advances r (r.onLink now .backoffOver) := by
  simp only [Run.onLink]
  split
  · refine Advances.trans ?_ (startConnect_advances _)
    exact .of_waiting rfl rfl rfl hn (fun _ h => by cases h)
  · exact .of_waiting rfl rfl rfl hn (fun _ h => by cases h)

/-- The links that came up have numbers and generations of their own, and one
whose generation is the bridge's is the one connected now. -/
structure Fresh (r : Run) : Prop where
  bound : ∀ l g, (l, g) ∈ spawned r.out → l ≤ r.counters.tncConnects ∧ g ≤ r.generation
  current : ∀ l g, (l, g) ∈ spawned r.out → g = r.generation → r.link = .connected l
  live : ∀ l, r.link = .connected l → (l, r.generation) ∈ spawned r.out
  distinct : ((spawned r.out).map Prod.fst).Nodup

theorem Fresh.advances (h : Fresh r) (ha : Advances r r') : Fresh r' := by
  refine ⟨?_, ?_, ?_, ?_⟩
  · intro l g hm
    rw [ha.spawned] at hm
    rw [ha.connects]
    exact ⟨(h.bound l g hm).1, Nat.le_trans (h.bound l g hm).2 ha.generation⟩
  · intro l g hm hg
    rw [ha.spawned] at hm
    have hb := (h.bound l g hm).2
    have hle := ha.generation
    have he : r'.generation = r.generation := by omega
    exact ha.current he l (h.current l g hm (by omega))
  · intro l hl
    obtain ⟨hl, hg⟩ := ha.stays l hl
    rw [ha.spawned, hg]
    exact h.live l hl
  · rw [ha.spawned]
    exact h.distinct

/-- The link that comes up is the first of its generation: while a connect is
under way no link is connected. -/
theorem linkUp_fresh (h : Fresh r) (hn : ∀ l, r.link ≠ .connected l) :
    Fresh { r.linkUp now steps with pending := [] } := by
  have hs : spawned (r.out ++ [.spawnLink r.nextLink r.generation]) =
      spawned r.out ++ [(r.nextLink, r.generation)] := by
    simp [spawned]
  refine ⟨?_, ?_, ?_, ?_⟩
  · intro l g hm
    rcases List.mem_append.mp (hs ▸ hm) with hm | hm
    · obtain ⟨hl, hg⟩ := h.bound l g hm
      exact ⟨Nat.le_succ_of_le hl, hg⟩
    · cases List.mem_singleton.mp hm
      exact ⟨Nat.le_refl _, Nat.le_refl _⟩
  · intro l g hm hg
    rcases List.mem_append.mp (hs ▸ hm) with hm | hm
    · exact absurd (h.current l g hm hg) (hn l)
    · cases List.mem_singleton.mp hm
      rfl
  · intro l hl
    cases hl
    exact hs ▸ List.mem_append_right _ (List.mem_singleton_self _)
  · show ((spawned (r.out ++ [.spawnLink r.nextLink r.generation])).map Prod.fst).Nodup
    rw [hs, List.map_append, List.map_singleton]
    refine List.Nodup.append h.distinct (List.nodup_singleton _) ?_
    intro l hm hl
    obtain ⟨⟨l', g⟩, hp, rfl⟩ := List.mem_map.mp hm
    have hb := (h.bound l' g hp).1
    have he : l' = r.nextLink := List.mem_singleton.mp hl
    simp only [Run.nextLink] at he
    omega

/-- A step either brings no link up, or is the end of a connect that
succeeded. -/
theorem step_advances (hs : r.step e = some r') :
    Advances r r' ∨ ∃ task now steps, r.link = .connecting task ∧
      r' = r.connectDone.onLink now (.connected (.ok steps)) := by
  cases step_turn hs with
  | app _ => exact .inl (onApp_advances _ r)
  | tnc => exact .inl (onTnc_advances _ r)
  | cmd => exact .inl (onCmd_advances _ r)
  | connected hl =>
    rename_i res
    cases res with
    | ok steps => exact .inr ⟨_, _, steps, hl, rfl⟩
    | error e =>
      refine .inl ((connectDone_advances r).trans (connectFailed_advances e ?_))
      simp [Run.connectDone, hl]
  | backoffOver hl => exact .inl (backoffOver_advances (by simp [hl]))
  | idle _ =>
    left
    simp only [Run.onIdle]
    split
    · refine Advances.trans ?_ (close_advances _)
      exact .of_same rfl rfl rfl rfl
    · exact .of_same rfl rfl rfl rfl
  | takes _ _ | gone _ | writer _ => exact .inl (.of_same rfl rfl rfl rfl)
  | slot => exact .inl (.refl r)

/-- What a connect that succeeded does comes after the link is up. -/
theorem connected_advances (r : Run) :
    Advances { r.linkUp now steps with pending := [] } (r.onLink now (.connected (.ok steps))) := by
  have hd : Advances _ (r.pending.foldl (Run.uplinkPending now) _) :=
    drain_advances r.pending { r.linkUp now steps with pending := [] }
  simp only [Run.onLink]
  split
  · exact hd.trans (close_advances _)
  · exact hd

theorem step_fresh (h : Fresh r) (hs : r.step e = some r') : Fresh r' := by
  rcases step_advances hs with ha | ⟨task, now, steps, hl, rfl⟩
  · exact h.advances ha
  · have hd := h.advances (connectDone_advances r)
    have hn : ∀ l, r.connectDone.link ≠ .connected l := by simp [Run.connectDone, hl]
    exact (linkUp_fresh hd hn).advances (connected_advances _)

theorem step_spawned (hm : .spawnLink l g ∈ r.out) (hs : r.step e = some r') :
    .spawnLink l g ∈ r'.out := by
  rw [← mem_spawned] at hm ⊢
  rcases step_advances hs with ha | ⟨task, now, steps, hl, rfl⟩
  · exact ha.spawned ▸ hm
  · rw [(connected_advances _).spawned]
    have hd := (connectDone_advances r).spawned ▸ hm
    rw [mem_spawned] at hd ⊢
    exact List.mem_append_left _ hd

theorem start_fresh (bid : String) (c : Connector) (s : TncSettings) :
    Fresh (Run.start bid c s now) := by
  have hn : Fresh (Run.new bid c s now) := by
    refine ⟨?_, ?_, ?_, List.nodup_nil⟩
    · intro l g hm
      cases hm
    · intro l g hm
      cases hm
    · intro l hl
      cases hl
  simp only [Run.start]
  split
  · exact hn.advances (startConnect_advances _)
  · exact hn

def deliver (f : Frame) (s : Session) : Session := { s with tx := (s.tx.trySend f).getD s.tx }

theorem deliver_queue (f : Frame) (s : Session) :
    (deliver f s).tx.queue = s.tx.queue ∨ (deliver f s).tx.queue = s.tx.queue ++ [f] := by
  unfold deliver
  cases ht : s.tx.trySend f with
  | none => exact .inl rfl
  | some tx => exact .inr (Chan.trySend_some ht).1

theorem offer_spec (hl : r.sessions.lookup sid = some s) :
    (Run.offer f r sid).link = r.link ∧
      (Run.offer f r sid).out = r.out ++ [.offer r.link sid f] ∧
      (Run.offer f r sid).sessions.lookup sid = some (deliver f s) ∧
      ∀ other, other ≠ sid →
      (Run.offer f r sid).sessions.lookup other = r.sessions.lookup other := by
  have hm : sid ∈ r.sessions := AList.lookup_isSome.mp (by rw [hl]; rfl)
  simp only [Run.offer, hl, deliver]
  cases ht : s.tx.trySend f with
  | none => exact ⟨rfl, rfl, hl, fun _ _ => rfl⟩
  | some tx =>
    exact ⟨rfl, rfl, lookup_replace_self _ hm, fun _ hn => lookup_replace_ne hn _⟩

/-- Every session in the list is offered the frame once, in the link state the
offering began in. -/
theorem offers_spec (f : Frame) (ids : List SessionId) (hn : ids.Nodup)
    (hm : ∀ sid ∈ ids, (r.sessions.lookup sid).isSome = true) :
    (ids.foldl (Run.offer f) r).out = r.out ++ ids.map (fun sid => .offer r.link sid f) ∧
      ∀ sid, (ids.foldl (Run.offer f) r).sessions.lookup sid =
        if sid ∈ ids then (r.sessions.lookup sid).map (deliver f) else r.sessions.lookup sid := by
  induction ids generalizing r with
  | nil => exact ⟨by simp, fun sid => by simp⟩
  | cons id ids ih =>
    obtain ⟨hid, hn⟩ := List.nodup_cons.mp hn
    obtain ⟨s, hs⟩ := Option.isSome_iff_exists.mp (hm id (List.mem_cons_self ..))
    obtain ⟨hl, ho, hself, hother⟩ := offer_spec (f := f) hs
    obtain ⟨hout, hlook⟩ := ih (r := Run.offer f r id) hn (by
      intro sid hmem
      rw [hother sid (fun he => hid (he ▸ hmem))]
      exact hm sid (List.mem_cons_of_mem _ hmem))
    refine ⟨?_, fun sid => ?_⟩
    · rw [List.foldl_cons, hout, ho, hl, List.map_cons, List.append_assoc, List.singleton_append]
    · rw [List.foldl_cons, hlook sid]
      by_cases he : sid = id
      · subst he
        rw [if_neg hid, if_pos (List.mem_cons_self ..), hself, hs]
        rfl
      · rw [hother sid he]
        simp [he]

theorem onTnc_frame (f : Frame) :
    (r.onTnc now (.frame r.generation f)).out =
        r.out ++ r.sessions.keys.map (fun sid => .offer r.link sid f) ∧
      ∀ sid, (r.onTnc now (.frame r.generation f)).sessions.lookup sid =
        (r.sessions.lookup sid).map (deliver f) := by
  have hm : ∀ sid ∈ r.sessions.keys, (r.sessions.lookup sid).isSome = true :=
    fun sid hk => AList.lookup_isSome.mpr hk
  obtain ⟨ho, hl⟩ := offers_spec (r := { r with counters :=
    { r.counters with framesDown := r.counters.framesDown + 1 } }) f r.sessions.keys
    r.sessions.keys_nodup hm
  simp only [Run.onTnc, ne_eq, not_true_eq_false, if_false]
  refine ⟨ho, fun sid => ?_⟩
  rw [hl sid]
  split
  · rfl
  · rename_i hk
    have hnone : r.sessions.lookup sid = none := by
      rw [← Option.isNone_iff_eq_none, ← Option.isSome_eq_false_iff, ← Bool.not_eq_true,
        AList.lookup_isSome]
      exact hk
    show r.sessions.lookup sid = _
    rw [hnone]
    rfl

inductive SessionChange (r r' : Run) : Event → Prop where
  | same : r'.sessions = r.sessions → SessionChange r r' e
  | opened : r'.sessions = r.sessions.insert sid ⟨tx, kick, seq, since⟩ →
      SessionChange r r' (.app n (.sessionOpened sid tx kick))
  | closed : r'.sessions = r.sessions.erase sid → SessionChange r r' (.app n (.sessionClosed sid))
  | takes : r.sessions.lookup sid = some s → s.tx.recv = some (f, tx) →
      r'.sessions = r.sessions.replace sid { s with tx := tx } →
      SessionChange r r' (.sessionTakes sid)
  | gone : r.sessions.lookup sid = some s →
      r'.sessions = r.sessions.replace sid { s with tx := s.tx.close } →
      SessionChange r r' (.sessionGone sid)

theorem letGo_sessions (r : Run) : (r.letGo now).sessions = r.sessions := by
  unfold Run.letGo
  split
  · exact (close_keeps r).sessions
  · rfl

theorem opened_sessions (r : Run) : (r.onApp now (.sessionOpened sid tx kick)).sessions =
    r.sessions.insert sid ⟨tx, kick, r.nextSeq + 1, now.system⟩ := by
  simp only [Run.onApp]
  split
  · exact (startConnect_keeps _).sessions
  · rfl

theorem closed_sessions (r : Run) :
    (r.onApp now (.sessionClosed sid)).sessions = r.sessions.erase sid := by
  simp only [Run.onApp]
  split
  · exact letGo_sessions _
  · rfl

theorem frame_sessions (r : Run) : (r.onApp now (.frame sid f)).sessions = r.sessions := by
  simp only [Run.onApp]
  split
  · rfl
  · split
    · rfl
    · exact (uplink_keeps r).sessions

theorem onApp_sessions (ev : AppEvent) (r : Run) :
    SessionChange r (r.onApp now ev) (.app now ev) := by
  cases ev with
  | sessionOpened sid tx kick => exact .opened (opened_sessions r)
  | sessionClosed sid => exact .closed (closed_sessions r)
  | frame sid f => exact .same (frame_sessions r)

theorem onCmd_sessions (cmd : BridgeCmd) (r : Run) : (r.onCmd now cmd).sessions = r.sessions := by
  cases cmd with
  | settings new =>
    simp only [Run.onCmd, Run.applySettings]
    split
    · rfl
    · split
      · split
        · exact (startConnect_keeps _).sessions
        · rfl
      · split
        · exact letGo_sessions _
        · rfl
      · rfl
  | connector c =>
    have hk : Keeps r (r.close now) := close_keeps r
    simp only [Run.onCmd]
    split
    · exact (startConnect_keeps _).sessions.trans hk.sessions
    · exact hk.sessions
  | hold hold =>
    simp only [Run.onCmd]
    split
    · split
      · exact (startConnect_keeps _).sessions
      · rfl
    · split
      · exact (close_keeps _).sessions
      · rfl
  | kick sid =>
    simp only [Run.onCmd]
    split <;> rfl
  | snapshot => rfl

theorem onLink_sessions (ev : LinkEvent) (r : Run) : (r.onLink now ev).sessions = r.sessions := by
  cases ev with
  | connected res =>
    cases res with
    | ok steps =>
      have hd : Keeps { r.linkUp now steps with pending := [] }
          (r.pending.foldl (Run.uplinkPending now) { r.linkUp now steps with pending := [] }) :=
        (drain_spec r.pending rfl).2
      simp only [Run.onLink]
      split
      · exact (close_keeps _).sessions.trans hd.sessions
      · exact hd.sessions
    | error e =>
      simp only [Run.onLink]
      split
      · rfl
      · split <;> rfl
  | backoffOver =>
    simp only [Run.onLink]
    split
    · exact (startConnect_keeps _).sessions
    · rfl

theorem connectDone_sessions (r : Run) : r.connectDone.sessions = r.sessions := by
  unfold Run.connectDone
  split <;> rfl

theorem onClosed_sessions (r : Run) : (r.onTnc now (.closed g err)).sessions = r.sessions := by
  simp only [Run.onTnc]
  split
  · split
    · rfl
    · split <;> rfl
  · rfl

theorem step_sessions (hs : r.step e = some r') (hn : ∀ now g f, e ≠ .tnc now (.frame g f)) :
    SessionChange r r' e := by
  cases step_turn hs with
  | app _ => exact onApp_sessions _ r
  | tnc =>
    rename_i n ev
    cases ev with
    | frame g f => exact absurd rfl (hn n g f)
    | closed g err => exact .same (onClosed_sessions r)
  | cmd => exact .same (onCmd_sessions _ r)
  | connected _ => exact .same ((onLink_sessions _ _).trans (connectDone_sessions r))
  | backoffOver _ => exact .same (onLink_sessions _ r)
  | idle _ =>
    refine .same ?_
    simp only [Run.onIdle]
    split
    · exact (close_keeps _).sessions
    · rfl
  | takes hl hr => exact .takes hl hr rfl
  | gone hl => exact .gone hl rfl
  | writer _ => exact .same rfl
  | slot => exact .same rfl

/-- How a session's queue of frames can differ after a step that is no frame
from the TNC: by what the session took from it, or by being a new one. -/
theorem SessionChange.queue (h : SessionChange r r' e) (hx : r.sessions.lookup sid = some x)
    (hy : r'.sessions.lookup sid = some y) :
    y.tx.queue = x.tx.queue ∨
      (e = .sessionTakes sid ∧ ∃ f, x.tx.queue = f :: y.tx.queue) ∨
      ∃ n tx kick, e = .app n (.sessionOpened sid tx kick) ∧ y.tx = tx := by
  cases h with
  | same hs =>
    rw [hs, hx] at hy
    cases hy
    exact .inl rfl
  | @opened sid' tx kick _ _ n hs =>
    by_cases he : sid = sid'
    · subst he
      rw [hs, AList.lookup_insert] at hy
      cases hy
      exact .inr (.inr ⟨n, tx, kick, rfl, rfl⟩)
    · rw [hs, AList.lookup_insert_ne he, hx] at hy
      cases hy
      exact .inl rfl
  | @closed sid' _ hs =>
    by_cases he : sid = sid'
    · subst he
      rw [hs, AList.lookup_erase] at hy
      cases hy
    · rw [hs, AList.lookup_erase_ne he, hx] at hy
      cases hy
      exact .inl rfl
  | @takes sid' s f tx hl hr hs =>
    by_cases he : sid = sid'
    · subst he
      rw [hs, lookup_replace_self _ (AList.lookup_isSome.mp (by rw [hl]; rfl))] at hy
      cases hy
      cases hl.symm.trans hx
      refine .inr (.inl ⟨rfl, f, ?_⟩)
      unfold Chan.recv at hr
      split at hr
      · cases hr
      · rename_i hq
        cases hr
        exact hq
    · rw [hs, lookup_replace_ne he, hx] at hy
      cases hy
      exact .inl rfl
  | @gone sid' s hl hs =>
    left
    by_cases he : sid = sid'
    · subst he
      rw [hs, lookup_replace_self _ (AList.lookup_isSome.mp (by rw [hl]; rfl))] at hy
      cases hy
      cases hl.symm.trans hx
      rfl
    · rw [hs, lookup_replace_ne he, hx] at hy
      cases hy
      rfl

def stamp : TncEvent → Nat
  | .frame g _ => g
  | .closed g _ => g

/-- Every queued message is from a task of the link it is kept with. -/
structure Tagged (s : Links) : Prop where
  fresh : Fresh s.run
  origin : ∀ l ev, (l, ev) ∈ s.queue → .spawnLink l (stamp ev) ∈ s.run.out

variable {s s' : Links}

theorem turn_step (hs : s.step (.turn e) = some s') :
    s.run.step e = some s'.run ∧ s'.queue = s.queue ∧ ∀ n ev, e ≠ .tnc n ev := by
  cases e with
  | tnc n ev => cases hs
  | _ =>
    simp only [Links.step, Option.map_eq_some_iff] at hs
    obtain ⟨run, hr, rfl⟩ := hs
    exact ⟨hr, rfl, fun _ _ he => by cases he⟩

theorem takes_step (hs : s.step (.takes n) = some s') :
    ∃ l ev, s.queue = (l, ev) :: s'.queue ∧ s'.run = s.run.onTnc n ev := by
  simp only [Links.step] at hs
  split at hs
  · cases hs
  · rename_i l ev rest hq
    cases hs
    exact ⟨l, ev, hq, rfl⟩

theorem send_step (hs : s.send l g ev = some s') :
    s'.run = s.run ∧ s'.queue = s.queue ++ [(l, ev)] ∧ .spawnLink l g ∈ s.run.out := by
  unfold Links.send at hs
  split at hs
  · rename_i hc
    cases hs
    exact ⟨rfl, rfl, hc.1⟩
  · cases hs

theorem send_tagged (ev : TncEvent) (h : Tagged s) (hs : s.send l (stamp ev) ev = some s') :
    Tagged s' := by
  obtain ⟨hr, hq, hm⟩ := send_step hs
  refine ⟨hr ▸ h.fresh, ?_⟩
  intro l' ev' hmem
  rw [hr]
  rcases List.mem_append.mp (hq ▸ hmem) with hmem | hmem
  · exact h.origin l' ev' hmem
  · cases List.mem_singleton.mp hmem
    exact hm

theorem step_tagged (h : Tagged s) (hs : s.step e = some s') : Tagged s' := by
  cases e with
  | reads l g f => exact send_tagged (.frame g f) h hs
  | fails l g err => exact send_tagged (.closed g err) h hs
  | takes n =>
    obtain ⟨l, ev, hq, hr⟩ := takes_step hs
    have hstep : s.run.step (.tnc n ev) = some s'.run := by
      rw [hr]
      rfl
    refine ⟨step_fresh h.fresh hstep, fun l' ev' hm => ?_⟩
    exact step_spawned (h.origin l' ev' (hq ▸ List.mem_cons_of_mem _ hm)) hstep
  | turn e =>
    obtain ⟨hr, hq, _⟩ := turn_step hs
    exact ⟨step_fresh h.fresh hr, fun l ev hm => step_spawned (h.origin l ev (hq ▸ hm)) hr⟩

theorem reachable_tagged (h : Runs Links.step ⟨Run.start bid c st now, []⟩ es s) : Tagged s := by
  refine h.invariant ⟨start_fresh bid c st, ?_⟩ (fun _ _ _ hi _ hs => step_tagged hi hs)
  intro l ev hm
  cases hm

/-- A message is of the bridge's generation exactly when its link is the one
connected now. -/
theorem Tagged.stamp_iff (h : Tagged s) (hm : (l, ev) ∈ s.queue) :
    stamp ev = s.run.generation ↔ s.run.link = .connected l := by
  have hs := mem_spawned.mpr (h.origin l ev hm)
  refine ⟨h.fresh.current l _ hs, fun hl => ?_⟩
  exact congrArg Prod.snd
    (List.inj_on_of_nodup_map h.fresh.distinct hs (h.fresh.live l hl) rfl)

/-- A frame of the connected link is offered to every registered session once;
one of any other link is ignored. -/
theorem frame_taken (h : Tagged s) (hq : s.queue = (l, .frame g f) :: rest)
    (hs : s.step (.takes n) = some s') :
    (s.run.link = .connected l →
      s'.run.out = s.run.out ++ s.run.sessions.keys.map (fun sid => .offer (.connected l) sid f) ∧
      ∀ sid, s'.run.sessions.lookup sid = (s.run.sessions.lookup sid).map (deliver f)) ∧
    (s.run.link ≠ .connected l → s'.run = s.run) := by
  obtain ⟨l', ev, hq', hr⟩ := takes_step hs
  cases hq.symm.trans hq'
  have hi := h.stamp_iff (l := l) (hq ▸ List.mem_cons_self ..)
  refine ⟨fun hl => ?_, fun hl => ?_⟩
  · have hg : g = s.run.generation := hi.mpr hl
    subst hg
    rw [hr, ← hl]
    exact onTnc_frame f
  · have hg : g ≠ s.run.generation := fun hg => hl (hi.mp hg)
    rw [hr]
    simp only [Run.onTnc, ne_eq, hg, not_false_eq_true, if_true]

theorem closed_taken (h : Tagged s) (hq : s.queue = (l, .closed g err) :: rest)
    (hs : s.step (.takes n) = some s') (hl : s.run.link ≠ .connected l) : s'.run = s.run := by
  obtain ⟨l', ev, hq', hr⟩ := takes_step hs
  cases hq.symm.trans hq'
  have hi := h.stamp_iff (l := l) (hq ▸ List.mem_cons_self ..)
  have hg : g ≠ s.run.generation := fun hg => hl (hi.mp hg)
  rw [hr]
  simp only [Run.onTnc]
  split
  · simp only [ne_eq, hg, not_false_eq_true, if_true]
  · rfl

/-- How one step can change the frames queued for a session. -/
theorem queue_changes (h : Tagged s) (hs : s.step e = some s')
    (hx : s.run.sessions.lookup sid = some x) (hy : s'.run.sessions.lookup sid = some y) :
    y.tx.queue = x.tx.queue ∨
      (e = .turn (.sessionTakes sid) ∧ ∃ f, x.tx.queue = f :: y.tx.queue) ∨
      (∃ n tx kick, e = .turn (.app n (.sessionOpened sid tx kick)) ∧ y.tx = tx) ∨
      ∃ n l g f rest, e = .takes n ∧ s.queue = (l, .frame g f) :: rest ∧
        s.run.link = .connected l ∧ y.tx.queue = x.tx.queue ++ [f] := by
  cases e with
  | reads l g f =>
    rw [(send_step hs).1, hx] at hy
    cases hy
    exact .inl rfl
  | fails l g err =>
    rw [(send_step hs).1, hx] at hy
    cases hy
    exact .inl rfl
  | turn e =>
    obtain ⟨hr, _, hn⟩ := turn_step hs
    rcases (step_sessions hr (fun n g f => hn n _)).queue hx hy with
      hc | ⟨rfl, hc⟩ | ⟨n, tx, kick, rfl, hc⟩
    · exact .inl hc
    · exact .inr (.inl ⟨rfl, hc⟩)
    · exact .inr (.inr (.inl ⟨n, tx, kick, rfl, hc⟩))
  | takes n =>
    obtain ⟨l, ev, hq, hr⟩ := takes_step hs
    cases ev with
    | closed g err =>
      rw [hr, onClosed_sessions, hx] at hy
      cases hy
      exact .inl rfl
    | frame g f =>
      obtain ⟨hup, hstale⟩ := frame_taken h hq hs
      by_cases hl : s.run.link = .connected l
      · rw [(hup hl).2 sid, hx] at hy
        cases hy
        rcases deliver_queue f x with hc | hc
        · exact .inl hc
        · exact .inr (.inr (.inr ⟨n, l, g, f, _, rfl, hq, hl, hc⟩))
      · rw [hstale hl, hx] at hy
        cases hy
        exact .inl rfl

/-- Whatever is still queued of earlier links, only frames of the connected
link reach the sessions, each session is offered such a frame once, and a
report that an earlier link closed changes nothing. Links are told apart by
their number, which no two of them share. -/
theorem earlier_links_isolated (h : Runs Links.step ⟨Run.start bid c st now, []⟩ es s)
    (hs : s.step e = some s') :
    ((spawned s.run.out).map Prod.fst).Nodup ∧
    (∀ sid x y, s.run.sessions.lookup sid = some x → s'.run.sessions.lookup sid = some y →
      y.tx.queue = x.tx.queue ∨
      (e = .turn (.sessionTakes sid) ∧ ∃ f, x.tx.queue = f :: y.tx.queue) ∨
      (∃ n tx kick, e = .turn (.app n (.sessionOpened sid tx kick)) ∧ y.tx = tx) ∨
      ∃ n l g f rest, e = .takes n ∧ s.queue = (l, .frame g f) :: rest ∧
        s.run.link = .connected l ∧ y.tx.queue = x.tx.queue ++ [f]) ∧
    (∀ n l g f rest, e = .takes n → s.queue = (l, .frame g f) :: rest →
      (s.run.link = .connected l →
        s'.run.out = s.run.out ++ s.run.sessions.keys.map (fun sid => .offer (.connected l) sid f) ∧
        s.run.sessions.keys.Nodup ∧
        ∀ sid, s'.run.sessions.lookup sid = (s.run.sessions.lookup sid).map (deliver f)) ∧
      (s.run.link ≠ .connected l → s'.run = s.run)) ∧
    (∀ n l g err rest, e = .takes n → s.queue = (l, .closed g err) :: rest →
      s.run.link ≠ .connected l → s'.run = s.run) := by
  have ht := reachable_tagged h
  refine ⟨ht.fresh.distinct, fun sid x y => queue_changes ht hs, ?_, ?_⟩
  · rintro n l g f rest rfl hq
    obtain ⟨hup, hstale⟩ := frame_taken ht hq hs
    exact ⟨fun hl => ⟨(hup hl).1, s.run.sessions.keys_nodup, (hup hl).2⟩, hstale⟩
  · rintro n l g err rest rfl hq hl
    exact closed_taken ht hq hs hl

/-- Two links in a row: what the first one left in the queue is ignored while
the second is connected. -/
def replacedLink : List LinksEvent :=
  [.turn (.app ⟨0, 0⟩ (.sessionOpened (sampleSession 4001) (.empty 4) 1)),
    .turn (.link ⟨1, 1⟩ (.connected (.ok []))), .reads 1 1 [0, 0x41],
    .turn (.cmd ⟨2, 2⟩ (.connector (.tcp "tnc.local" 8002))),
    .turn (.link ⟨3, 3⟩ (.connected (.ok [])))]

theorem earlier_links_isolated_replaced :
    ∃ s s', Runs Links.step ⟨sampleRun .onDemand, []⟩ replacedLink s ∧
      s.step (.takes ⟨4, 4⟩) = some s' ∧ s.queue = [(1, .frame 1 [0, 0x41])] ∧
      s.run.link = .connected 2 ∧ s'.run = s.run := by
  have h : Runs Links.step ⟨sampleRun .onDemand, []⟩ replacedLink _ :=
    .next (.next (.next (.next (.next .start trivial rfl) trivial rfl) trivial rfl) trivial rfl)
      trivial rfl
  refine ⟨_, _, h, rfl, rfl, rfl, ?_⟩
  exact ((earlier_links_isolated h rfl).2.2.1 ⟨4, 4⟩ 1 1 [0, 0x41] [] rfl rfl).2 (by decide)

end KissTncBridge.Proofs.StaleLinks
