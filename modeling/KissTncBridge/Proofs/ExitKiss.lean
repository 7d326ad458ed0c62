import Mathlib
import KissTncBridge.Bridge.Main
import KissTncBridge.Proofs.FrameFlow

namespace KissTncBridge.Proofs.ExitKiss
open Bridge Conf Lib BridgeSteps FrameFlow

variable {r r' r'' : Run} {now : Now}

def messages (l : Nat) (out : List Out) : List WriterMsg :=
  out.filterMap (fun o => match o with
    | .toWriter k msg => if k = l then some msg else none
    | _ => none)

/-- The way out of KISS mode of each link, as its connect handed it over. -/
def opened : MainEvent → List (List (List UInt8))
  | .turn (.link _ (.connected (.ok steps))) => [steps]
  | _ => []

/-- The links come up one after the other, and the first of them is link 1. -/
def ownSteps (es : List MainEvent) (l : Nat) : Option (List (List UInt8)) :=
  (es.flatMap opened)[l - 1]?

/-- A link that came up, with the fresh frames that waited handed over. -/
def linkedUp (r : Run) (now : Now) (steps : List (List UInt8)) : Run :=
  r.pending.foldl (Run.uplinkPending now) { r.connectDone.linkUp now steps with pending := [] }

/-- The bridge as a step finds it when it closes the link on purpose, if it does:
a timeout, the last session, a hold, a new connector, a new policy, nobody left
once the link is up, or the end of the task. -/
def closesIn (r : Run) : MainEvent → Option Run
  | .turn (.cmd now (.settings new)) =>
    if abandons r (.cmd now (.settings new)) then some { r with settings := new } else none
  | .turn (.link now (.connected (.ok steps))) =>
    if !r.wantsLink ∧ r.settings.idleTimeout = 0 then some (linkedUp r now steps) else none
  | .turn (.link _ _) => none
  | .turn e => if abandons r e then some r else none
  | .shutdown _ | .appsGone _ => some r

def WriterTakes (r : Run) : Prop :=
  ∃ tx, r.writerTx = some tx ∧ tx.alive = true ∧ tx.queue.length < tx.cap

/-- A step closes this link on purpose, while leaving KISS mode is asked for and
the writer can be told. -/
def ClosedOnPurpose (l : Nat) (r : Run) (e : MainEvent) : Prop :=
  ∃ r₁, closesIn r e = some r₁ ∧ r₁.link = .connected l ∧ r₁.settings.exitKissOnDisconnect = true ∧
    WriterTakes r₁

def Lost (l : Nat) (r : Run) : MainEvent → Prop
  | .turn (.tnc _ (.closed generation _)) => r.link = .connected l ∧ generation = r.generation
  | _ => False

/-- What the writer of the link that is up has not taken yet is the end of what it
was handed. -/
def Fed (r : Run) : Prop :=
  ∀ l, r.link = .connected l → ∃ tx, r.writerTx = some tx ∧ tx.queue <:+ messages l r.out

structure Wires (r r' : Run) : Prop where
  link : ∀ l, r'.link = .connected l ↔ r.link = .connected l
  steps : r'.exitKiss = r.exitKiss
  connects : r'.counters.tncConnects = r.counters.tncConnects
  frames : ∀ l, ∃ fs : List Frame, messages l r'.out = messages l r.out ++ fs.map .frame ∧
    (fs ≠ [] → r.link = .connected l)
  fed : Fed r → Fed r'

theorem messages_append (l : Nat) (a b : List Out) :
    messages l (a ++ b) = messages l a ++ messages l b :=
  List.filterMap_append

namespace Wires

theorem of_same (hl : ∀ l, r'.link = .connected l ↔ r.link = .connected l)
    (he : r'.exitKiss = r.exitKiss)
    (hc : r'.counters.tncConnects = r.counters.tncConnects) (hw : r'.writerTx = r.writerTx)
    (ho : ∀ l, messages l r'.out = messages l r.out) : Wires r r' := by
  refine ⟨hl, he, hc, fun l => ⟨[], by simp [ho l], fun h => absurd rfl h⟩, fun hf l h => ?_⟩
  rw [hw, ho l]
  exact hf l ((hl l).mp h)

theorem aside (hl : r'.link = r.link) (he : r'.exitKiss = r.exitKiss)
    (hc : r'.counters.tncConnects = r.counters.tncConnects)
    (hw : r'.writerTx = r.writerTx) (ho : r'.out = r.out) : Wires r r' :=
  of_same (fun _ => by rw [hl]) he hc hw (fun _ => by rw [ho])

theorem refl (r : Run) : Wires r r := aside rfl rfl rfl rfl rfl

theorem trans (h : Wires r r') (h' : Wires r' r'') : Wires r r'' := by
  refine ⟨fun l => (h'.link l).trans (h.link l), h'.steps.trans h.steps,
    h'.connects.trans h.connects, fun l => ?_, fun hf => h'.fed (h.fed hf)⟩
  obtain ⟨fs, ho, hl⟩ := h.frames l
  obtain ⟨fs', ho', hl'⟩ := h'.frames l
  refine ⟨fs ++ fs', by rw [ho', ho, List.map_append, List.append_assoc], fun hne => ?_⟩
  by_cases hfs : fs = []
  · subst hfs
    exact (h.link l).mp (hl' hne)
  · exact hl hfs

theorem startConnect (hn : ∀ l, r.link ≠ .connected l) : Wires r (r.startConnect now) := by
  refine of_same (fun l => ?_) ?_ ?_ ?_ (fun l => ?_)
  · simp [hn l]
  all_goals
    simp only [Run.startConnect]
    split <;> simp [Run.setState, messages]

theorem idle_or (h : r.link = .idle) : ∀ l, r.link ≠ .connected l := by
  intro l hl
  rw [h] at hl
  cases hl

theorem queuePending (r : Run) : Wires r (r.queuePending now f src) := by
  simp only [Run.queuePending]
  split <;> exact aside rfl rfl rfl rfl rfl

theorem uplink (r : Run) : Wires r (r.uplink now f src) := by
  cases hl : r.link with
  | connected k =>
    simp only [Run.uplink, hl]
    split
    · rename_i tx hsend
      refine ⟨fun l => by rw [hl], rfl, rfl, fun l => ?_, fun hf l h => ?_⟩
      · by_cases hk : k = l
        · exact ⟨[f], by simp [messages, hk], fun _ => by rw [hl, hk]⟩
        · exact ⟨[], by simp [messages, hk], fun h => absurd rfl h⟩
      · obtain rfl : k = l := TncLink.connected.inj h
        obtain ⟨tx', htx, done, hq⟩ := hf k hl
        rw [htx, Option.bind_some] at hsend
        refine ⟨tx, rfl, done, ?_⟩
        rw [(Chan.trySend_some hsend).1, ← List.append_assoc, hq]
        simp [messages]
    · exact aside rfl rfl rfl rfl rfl
  | idle =>
    simp only [Run.uplink, hl]
    split
    · exact aside rfl rfl rfl rfl rfl
    · refine (queuePending r).trans (startConnect (idle_or ?_))
      rw [queuePending_link, hl]
  | connecting task | backoff d =>
    simp only [Run.uplink, hl]
    exact queuePending r

theorem uplinkPending (r : Run) (p : Nat × Frame × Option SessionId) :
    Wires r (Run.uplinkPending now r p) := by
  unfold Run.uplinkPending
  split
  · exact aside rfl rfl rfl rfl rfl
  · exact uplink r

theorem drain (ps : List (Nat × Frame × Option SessionId)) (r : Run) :
    Wires r (ps.foldl (Run.uplinkPending now) r) := by
  induction ps generalizing r with
  | nil => exact refl r
  | cons p ps ih => exact (uplinkPending r p).trans (ih _)

theorem offers (ids : List SessionId) (r : Run) : Wires r (ids.foldl (Run.offer f) r) := by
  induction ids generalizing r with
  | nil => exact refl r
  | cons sid ids ih =>
    refine Wires.trans ?_ (ih _)
    unfold Run.offer
    split
    · exact refl r
    · dsimp only
      split <;> exact of_same (fun _ => Iff.rfl) rfl rfl rfl
        (fun _ => by simp [messages, Run.dropFrame])

end Wires

/-- What holds of the writers: the links that came up with their ways out of KISS
mode, those that were told to take theirs, and those that were lost. -/
structure Talked (ways : List (List (List UInt8))) (exited lost : Nat → Prop) (r : Run) : Prop where
  count : ways.length = r.counters.tncConnects
  current : ∀ l, r.link = .connected l → l = r.counters.tncConnects ∧ 1 ≤ l ∧
    ways[l - 1]? = some r.exitKiss ∧ ∃ fs : List Frame, messages l r.out = fs.map .frame
  beyond : ∀ l, r.counters.tncConnects < l → messages l r.out = []
  form : ∀ l, ∃ (fs : List Frame) (exit : List WriterMsg),
    messages l r.out = fs.map .frame ++ exit ∧
    (exit = [] ∨ ∃ steps, ways[l - 1]? = some steps ∧ exit = [.exitKiss steps])
  exits : ∀ l, (∃ steps, .exitKiss steps ∈ messages l r.out) ↔
    (∃ steps, ways[l - 1]? = some steps ∧ steps ≠ []) ∧ exited l
  past : ∀ l, exited l → 1 ≤ l ∧ l ≤ r.counters.tncConnects ∧ r.link ≠ .connected l
  gone : ∀ l, lost l → l ≤ r.counters.tncConnects ∧ r.link ≠ .connected l ∧
    ∀ steps, .exitKiss steps ∉ messages l r.out
  fed : Fed r

namespace Talked

theorem not_exit_frames (fs : List Frame) (steps : List (List UInt8)) :
    WriterMsg.exitKiss steps ∉ fs.map WriterMsg.frame := by
  intro h
  obtain ⟨f, -, hf⟩ := List.mem_map.mp h
  cases hf

theorem on (h : Talked ways exited lost r) (hw : Wires r r') : Talked ways exited lost r' := by
  have hexit : ∀ l steps, .exitKiss steps ∈ messages l r'.out ↔
      .exitKiss steps ∈ messages l r.out := by
    intro l steps
    obtain ⟨fs, ho, -⟩ := hw.frames l
    simp [ho, not_exit_frames]
  refine ⟨hw.connects ▸ h.count, ?_, ?_, ?_, ?_, ?_, ?_, hw.fed h.fed⟩
  · intro l hl
    obtain ⟨hc, h1, hs, fs, hf⟩ := h.current l ((hw.link l).mp hl)
    obtain ⟨fs', ho, -⟩ := hw.frames l
    exact ⟨hw.connects ▸ hc, h1, hw.steps ▸ hs, fs ++ fs', by rw [ho, hf, List.map_append]⟩
  · intro l hl
    rw [hw.connects] at hl
    obtain ⟨fs, ho, hc⟩ := hw.frames l
    by_cases hfs : fs = []
    · rw [ho, hfs, h.beyond l hl]
      rfl
    · have hk := (h.current l (hc hfs)).1
      omega
  · intro l
    obtain ⟨fs', ho, hc⟩ := hw.frames l
    by_cases hfs : fs' = []
    · obtain ⟨fs, exit, hm, he⟩ := h.form l
      exact ⟨fs, exit, by rw [ho, hfs, hm, List.map_nil, List.append_nil], he⟩
    · obtain ⟨-, -, -, fs, hf⟩ := h.current l (hc hfs)
      exact ⟨fs ++ fs', [], by rw [ho, hf, List.map_append, List.append_nil], .inl rfl⟩
  · intro l
    simp only [hexit]
    exact h.exits l
  · intro l hl
    obtain ⟨h1, hc, hn⟩ := h.past l hl
    exact ⟨h1, hw.connects ▸ hc, fun hk => hn ((hw.link l).mp hk)⟩
  · intro l hl
    obtain ⟨hc, hn, hx⟩ := h.gone l hl
    exact ⟨hw.connects ▸ hc, fun hk => hn ((hw.link l).mp hk),
      fun steps hm => hx steps ((hexit l steps).mp hm)⟩

/-- The same steps end the same links. -/
theorem same (h : Talked ways exited lost r) (hx : ∀ l, exited' l ↔ exited l)
    (hg : ∀ l, lost' l ↔ lost l) : Talked ways exited' lost' r := by
  have hx : exited' = exited := funext (fun l => propext (hx l))
  have hg : lost' = lost := funext (fun l => propext (hg l))
  subst hx hg
  exact h

/-- A link comes up. -/
theorem opens (h : Talked ways exited lost r) (steps : List (List UInt8)) :
    Talked (ways ++ [steps]) exited lost { r.linkUp now steps with pending := [] } := by
  have hm : ∀ l, messages l (r.linkUp now steps).out = messages l r.out := by
    intro l
    simp [messages, Run.linkUp, Run.setState]
  have hold : ∀ l, 1 ≤ l → l ≤ r.counters.tncConnects →
      (ways ++ [steps])[l - 1]? = ways[l - 1]? := by
    intro l h1 hl
    rw [List.getElem?_append_left]
    have hc := h.count
    omega
  have hnew := h.beyond r.nextLink (Nat.lt_succ_self _)
  refine ⟨?_, ?_, ?_, ?_, ?_, ?_, ?_, ?_⟩
  · rw [List.length_append, h.count]
    rfl
  · intro l hl
    obtain rfl : r.nextLink = l := TncLink.connected.inj hl
    refine ⟨rfl, Nat.le_add_left 1 _, ?_, [], (hm _).trans hnew⟩
    rw [Run.nextLink, Nat.add_sub_cancel, ← h.count, List.getElem?_concat_length]
    rfl
  · intro l hl
    exact (hm l).trans (h.beyond l (Nat.lt_of_succ_lt hl))
  · intro l
    obtain ⟨fs, exit, ho, he⟩ := h.form l
    refine ⟨fs, exit, (hm l).trans ho, he.imp_right ?_⟩
    rintro ⟨steps', hs, hx⟩
    refine ⟨steps', ?_, hx⟩
    rw [List.getElem?_append_left (List.getElem?_eq_some_iff.mp hs).1]
    exact hs
  · intro l
    show (∃ _, _ ∈ messages l (r.linkUp now steps).out) ↔ _
    rw [hm l, h.exits l]
    constructor
    · rintro ⟨⟨steps', hs, hne⟩, hx⟩
      obtain ⟨h1, hl, -⟩ := h.past l hx
      exact ⟨⟨steps', (hold l h1 hl).trans hs, hne⟩, hx⟩
    · rintro ⟨⟨steps', hs, hne⟩, hx⟩
      obtain ⟨h1, hl, -⟩ := h.past l hx
      exact ⟨⟨steps', (hold l h1 hl).symm.trans hs, hne⟩, hx⟩
  · intro l hx
    obtain ⟨h1, hl, -⟩ := h.past l hx
    refine ⟨h1, Nat.le_succ_of_le hl, fun hk => ?_⟩
    have hk : r.nextLink = l := TncLink.connected.inj hk
    rw [Run.nextLink] at hk
    omega
  · intro l hg
    obtain ⟨hl, -, hx⟩ := h.gone l hg
    refine ⟨Nat.le_succ_of_le hl, fun hk => ?_, fun steps' hs => hx steps' (hm l ▸ hs)⟩
    have hk : r.nextLink = l := TncLink.connected.inj hk
    rw [Run.nextLink] at hk
    omega
  · intro l _
    exact ⟨_, rfl, List.nil_suffix⟩

/-- The link is gone, and no writer is told anything. -/
theorem ends (h : Talked ways exited lost r) (hn : ∀ l, r'.link ≠ .connected l)
    (hc : r'.counters.tncConnects = r.counters.tncConnects)
    (hm : ∀ l, messages l r'.out = messages l r.out) : Talked ways exited lost r' := by
  refine ⟨hc ▸ h.count, fun l hl => absurd hl (hn l),
    fun l hl => (hm l).trans (h.beyond l (hc ▸ hl)), fun l => ?_, fun l => ?_, fun l hx => ?_,
      fun l hg => ?_, fun l hl => absurd hl (hn l)⟩
  · rw [hm l]
    exact h.form l
  · rw [hm l]
    exact h.exits l
  · obtain ⟨h1, hl, -⟩ := h.past l hx
    exact ⟨h1, hc ▸ hl, hn l⟩
  · obtain ⟨hl, -, hx⟩ := h.gone l hg
    exact ⟨hc ▸ hl, hn l, hm l ▸ hx⟩

/-- A link that is up and goes was never told to leave KISS mode. -/
theorem loses (h : Talked ways exited lost r) (hl : r.link = .connected l)
    (hn : ∀ k, r'.link ≠ .connected k) (hc : r'.counters.tncConnects = r.counters.tncConnects)
    (hm : ∀ k, messages k r'.out = messages k r.out) :
    Talked ways exited (fun k => lost k ∨ k = l) r' := by
  have he := h.ends hn hc hm
  refine ⟨he.count, he.current, he.beyond, he.form, he.exits, he.past, fun k hk => ?_, he.fed⟩
  rcases hk with hk | rfl
  · exact he.gone k hk
  · obtain ⟨hk, -, -, fs, hf⟩ := h.current k hl
    refine ⟨by omega, hn k, fun steps hs => ?_⟩
    rw [hm k, hf] at hs
    exact not_exit_frames fs steps hs

end Talked

def Tells (r : Run) : Prop := r.settings.exitKissOnDisconnect = true ∧ r.exitKiss ≠ [] ∧
    WriterTakes r

theorem release_tells (hl : r.link = .connected l) (ht : Tells r) :
    r.release.out = r.out ++ [.toWriter l (.exitKiss r.exitKiss)] := by
  obtain ⟨hs, hne, tx, htx, halive, hroom⟩ := ht
  have hsend : (tx.trySend (.exitKiss r.exitKiss)).isSome = true := by
    rw [Chan.trySend, if_pos ⟨halive, hroom⟩]
    rfl
  have hne : r.exitKiss.isEmpty = false := by simpa using hne
  simp [Run.release, hl, htx, hs, hne, hsend]

theorem release_quiet (hq : ∀ l, r.link = .connected l → ¬ Tells r) (k : Nat) :
    messages k r.release.out = messages k r.out := by
  cases hl : r.link with
  | connected l =>
    cases htx : r.writerTx with
    | none => simp [Run.release, hl, htx]
    | some tx =>
      have hsent : (r.settings.exitKissOnDisconnect && !r.exitKiss.isEmpty &&
          (tx.trySend (.exitKiss r.exitKiss)).isSome) = false := by
        rw [← Bool.not_eq_true]
        intro ht
        simp only [Bool.and_eq_true, Bool.not_eq_true', List.isEmpty_eq_false_iff] at ht
        refine hq l hl ⟨ht.1.1, ht.1.2, tx, htx, ?_⟩
        by_contra hn
        rw [Chan.trySend, if_neg hn] at ht
        cases ht.2
      simp [Run.release, hl, htx, hsent]
  | connecting task => simp [Run.release, hl, messages]
  | backoff d => simp [Run.release, hl]
  | idle => simp [Run.release, hl]

theorem close_connects (r : Run) : (r.close now).counters.tncConnects = r.counters.tncConnects := by
  show r.release.counters.tncConnects = _
  unfold Run.release
  split <;> rfl

theorem close_not (r : Run) : ∀ k, (r.close n).link ≠ .connected k := by
  intro k hk
  cases hk

/-- Closing on purpose tells the writer of the link that is up, and no other. -/
theorem Talked.close (h : Talked ways exited lost r) :
    Talked ways (fun k => exited k ∨ r.link = .connected k ∧ r.settings.exitKissOnDisconnect =
      true ∧ WriterTakes r) lost (r.close now) := by
  by_cases ht : ∃ l, r.link = .connected l ∧ Tells r
  · obtain ⟨l, hl, ht⟩ := ht
    obtain ⟨hlast, h1, hway, fs, hfs⟩ := h.current l hl
    have hm : ∀ k, messages k (r.close now).out =
        messages k r.out ++ if l = k then [.exitKiss r.exitKiss] else [] := by
      intro k
      show messages k r.release.out = _
      rw [release_tells hl ht, messages_append]
      by_cases hk : l = k <;> simp [messages, hk]
    have hother : ∀ k, k ≠ l → messages k (r.close now).out = messages k r.out := by
      intro k hk
      rw [hm k, if_neg (Ne.symm hk), List.append_nil]
    have hself : messages l (r.close now).out = fs.map .frame ++ [.exitKiss r.exitKiss] := by
      rw [hm l, if_pos rfl, hfs]
    refine ⟨close_connects r ▸ h.count, fun k hk => absurd hk (close_not r k), ?_, ?_, ?_, ?_, ?_,
      fun k hk => absurd hk (close_not r k)⟩
    · intro k hk
      rw [close_connects] at hk
      rw [hother k (by omega)]
      exact h.beyond k hk
    · intro k
      by_cases hk : k = l
      · subst hk
        exact ⟨fs, _, hself, .inr ⟨_, hway, rfl⟩⟩
      · rw [hother k hk]
        exact h.form k
    · intro k
      by_cases hk : k = l
      · subst hk
        constructor
        · intro _
          exact ⟨⟨_, hway, ht.2.1⟩, .inr ⟨hl, ht.1, ht.2.2⟩⟩
        · intro _
          exact ⟨r.exitKiss, by simp [hself]⟩
      · rw [hother k hk, h.exits k]
        have hn : r.link ≠ .connected k := fun he => hk (TncLink.connected.inj (he.symm.trans hl))
        simp [hn]
    · intro k hk
      rw [close_connects]
      rcases hk with hk | ⟨hk, -⟩
      · obtain ⟨h1, hle, -⟩ := h.past k hk
        exact ⟨h1, hle, close_not r k⟩
      · obtain ⟨hc, h1, -⟩ := h.current k hk
        exact ⟨h1, by omega, close_not r k⟩
    · intro k hk
      obtain ⟨hle, hn, hx⟩ := h.gone k hk
      have hkl : k ≠ l := fun he => hn (he ▸ hl)
      rw [close_connects, hother k hkl]
      exact ⟨hle, close_not r k, hx⟩
  · have hquiet := release_quiet (fun l hl hx => ht ⟨l, hl, hx⟩)
    have he := h.ends (close_not (n := now) r) (close_connects r) hquiet
    refine ⟨he.count, he.current, he.beyond, he.form, fun k => ?_, fun k hk => ?_, he.gone, he.fed⟩
    · rw [he.exits k]
      constructor
      · intro ⟨hw, hx⟩
        exact ⟨hw, .inl hx⟩
      · intro ⟨⟨steps, hw, hne⟩, hx⟩
        refine ⟨⟨steps, hw, hne⟩, hx.resolve_right (fun ⟨hl, hs, htakes⟩ => ?_)⟩
        obtain ⟨-, -, hway, -⟩ := h.current k hl
        rw [hway] at hw
        cases hw
        exact ht ⟨k, hl, hs, hne, htakes⟩
    · rcases hk with hk | ⟨hk, -⟩
      · exact he.past k hk
      · obtain ⟨hc, h1, -⟩ := h.current k hk
        rw [close_connects]
        exact ⟨h1, by omega, close_not r k⟩

abbrev Adds (ways : List (List (List UInt8))) (exited lost : Nat → Prop) (r : Run) (e : MainEvent)
    (r' : Run) : Prop :=
  Talked (ways ++ opened e) (fun l => exited l ∨ ClosedOnPurpose l r e)
    (fun l => lost l ∨ Lost l r e) r'

theorem not_purpose (hc : closesIn r e = none) (l : Nat) : ¬ ClosedOnPurpose l r e := by
  intro ⟨_, h, _⟩
  rw [hc] at h
  cases h

/-- A step that neither opens, closes nor loses the link. -/
theorem Talked.stays (h : Talked ways exited lost r) (hw : Wires r r') (ho : opened e = [])
    (hc : closesIn r e = none) (hl : ∀ l, ¬ Lost l r e) : Adds ways exited lost r e r' := by
  have hon := h.on hw
  rw [← List.append_nil ways, ← ho] at hon
  exact hon.same (fun l => or_iff_left (not_purpose hc l)) (fun l => or_iff_left (hl l))

theorem purpose_iff (hc : closesIn r e = some r₁) (hl : r₂.link = r₁.link)
    (hs : r₂.settings = r₁.settings)
    (ht : r₂.writerTx = r₁.writerTx) (l : Nat) : ClosedOnPurpose l r e ↔
      r₂.link = .connected l ∧ r₂.settings.exitKissOnDisconnect = true ∧ WriterTakes r₂ := by
  simp only [ClosedOnPurpose, hc, hl, hs, WriterTakes, ht, Option.some.injEq]
  constructor
  · intro ⟨_, he, h⟩
    exact he ▸ h
  · intro h
    exact ⟨r₁, rfl, h⟩

/-- A step that closes the link, in a state that is the expected one as far as the
writer is concerned. -/
theorem Talked.closes (h : Talked ways exited lost r) (hc : closesIn r e = some r₁)
    (hw : Wires r r₂)
    (hl : r₂.link = r₁.link) (hs : r₂.settings = r₁.settings) (ht : r₂.writerTx = r₁.writerTx)
    (hw' : Wires (r₂.close n) r') (ho : opened e = []) (hlost : ∀ l, ¬ Lost l r e) :
    Adds ways exited lost r e r' := by
  have hon := ((h.on hw).close).on hw'
  rw [← List.append_nil ways, ← ho] at hon
  exact hon.same (fun l => or_congr Iff.rfl (purpose_iff hc hl hs ht l))
    (fun l => or_iff_left (hlost l))

theorem not_lost_app (l : Nat) : ¬ Lost l r (.turn (.app now ev)) := fun h => h

theorem wires_letGo (hz : r.settings.idleTimeout ≠ 0) : Wires r (r.letGo now) := by
  rw [Run.letGo, if_neg hz]
  exact .aside rfl rfl rfl rfl rfl

theorem onApp_adds (h : Talked ways exited lost r) (ev : AppEvent) :
    Adds ways exited lost r (.turn (.app now ev)) (r.onApp now ev) := by
  cases ev with
  | sessionOpened sid tx kick =>
    refine h.stays ?_ rfl rfl not_lost_app
    simp only [Run.onApp]
    split
    · rename_i hi
      refine Wires.trans ?_ (Wires.startConnect (Wires.idle_or hi.1))
      exact .aside rfl rfl rfl rfl rfl
    · exact .aside rfl rfl rfl rfl rfl
  | sessionClosed sid =>
    have hq : Wires r { r with sessions := r.sessions.erase sid }.countSessions :=
      .aside rfl rfl rfl rfl rfl
    by_cases ha : abandons r (.app now (.sessionClosed sid)) = true
    · have hc : closesIn r (.turn (.app now (.sessionClosed sid))) = some r := if_pos ha
      refine h.closes (n := now) hc hq rfl rfl rfl ?_ rfl not_lost_app
      simp only [abandons, Bool.and_eq_true, beq_iff_eq] at ha
      have hz : { r with sessions := r.sessions.erase sid }.countSessions.settings.idleTimeout =
        0 := ha.2
      simp only [Run.onApp]
      split
      · rw [Run.letGo, if_pos hz]
        exact .refl _
      · rename_i hn
        exact absurd ha.1 hn
    · refine h.stays ?_ rfl (if_neg ha) not_lost_app
      simp only [Run.onApp]
      split
      · rename_i hc
        refine hq.trans (wires_letGo (fun hz => ha ?_))
        simp only [abandons, Bool.and_eq_true, beq_iff_eq]
        exact ⟨hc, hz⟩
      · exact hq
  | frame sid f =>
    refine h.stays ?_ rfl rfl not_lost_app
    simp only [Run.onApp]
    split
    · exact .aside rfl rfl rfl rfl rfl
    · split
      · exact .aside rfl rfl rfl rfl rfl
      · exact .uplink r

theorem not_lost_cmd (l : Nat) : ¬ Lost l r (.turn (.cmd now c)) := fun h => h

theorem applySettings_adds (h : Talked ways exited lost r) (new : TncSettings) :
    Adds ways exited lost r (.turn (.cmd now (.settings new))) (r.applySettings now new) := by
  have hset : Wires r { r with settings := new } := .aside rfl rfl rfl rfl rfl
  by_cases ha : abandons r (.cmd now (.settings new)) = true
  · have hc : closesIn r (.turn (.cmd now (.settings new))) = some { r with settings := new } :=
      if_pos ha
    refine h.closes (n := now) hc hset rfl rfl rfl ?_ rfl not_lost_cmd
    simp only [abandons, Bool.and_eq_true, beq_iff_eq] at ha
    obtain ⟨⟨⟨ho, hn⟩, hs⟩, hz⟩ := ha
    have hne : r.settings ≠ new := by
      intro he
      rw [he, hn] at ho
      cases ho
    simp only [Run.applySettings, if_neg hne, ho, hn, if_pos hs, Run.letGo, if_pos hz]
    exact .refl _
  · refine h.stays ?_ rfl (if_neg ha) not_lost_cmd
    simp only [Run.applySettings]
    split
    · exact hset
    · split
      · split
        · rename_i hi
          refine Wires.trans ?_ (Wires.startConnect (Wires.idle_or hi))
          exact .aside rfl rfl rfl rfl rfl
        · exact .aside rfl rfl rfl rfl rfl
      · rename_i ho hn
        split
        · rename_i hs
          refine hset.trans (wires_letGo (fun hz => ha ?_))
          simp only [abandons, Bool.and_eq_true, beq_iff_eq]
          exact ⟨⟨⟨ho, hn⟩, hs⟩, hz⟩
        · exact hset
      · exact hset

theorem onCmd_adds (h : Talked ways exited lost r) (cmd : BridgeCmd) :
    Adds ways exited lost r (.turn (.cmd now cmd)) (r.onCmd now cmd) := by
  cases cmd with
  | settings new => exact applySettings_adds h new
  | connector c =>
    have hc : closesIn r (.turn (.cmd now (.connector c))) = some r := rfl
    refine h.closes (n := now) hc (.refl r) rfl rfl rfl ?_ rfl not_lost_cmd
    have hset : Wires (r.close now) { r.close now with connector := c, attempt := 0 } :=
      .aside rfl rfl rfl rfl rfl
    simp only [Run.onCmd]
    split
    · exact hset.trans (.startConnect (Wires.idle_or rfl))
    · exact hset
  | hold hold =>
    have hh : Wires r { r with held := hold, idleTimer := none } := .aside rfl rfl rfl rfl rfl
    by_cases ha : abandons r (.cmd now (.hold hold)) = true
    · refine h.closes (n := now) (if_pos ha) hh rfl rfl rfl ?_ rfl not_lost_cmd
      simp only [abandons, Bool.and_eq_true, Bool.or_eq_true, Bool.not_eq_true', beq_iff_eq] at ha
      have hn : { r with held := hold, idleTimer := none }.wantsLink = false := ha.1
      simp only [Run.onCmd, hn, Bool.false_eq_true, if_false, if_pos ha.2]
      exact .refl _
    · refine h.stays ?_ rfl (if_neg ha) not_lost_cmd
      simp only [Run.onCmd]
      split
      · split
        · rename_i hi
          exact hh.trans (.startConnect (Wires.idle_or hi))
        · exact hh
      · rename_i hn
        split
        · rename_i ho
          refine absurd ?_ ha
          simp only [abandons, Bool.and_eq_true, Bool.or_eq_true, Bool.not_eq_true', beq_iff_eq]
          exact ⟨Bool.eq_false_iff.mpr hn, ho⟩
        · exact .aside rfl rfl rfl rfl rfl
  | kick sid =>
    refine h.stays ?_ rfl rfl not_lost_cmd
    simp only [Run.onCmd]
    split
    · exact .of_same (fun _ => Iff.rfl) rfl rfl rfl (fun _ => by simp [messages])
    · exact .refl r
  | snapshot =>
    refine h.stays ?_ rfl rfl not_lost_cmd
    exact .of_same (fun _ => Iff.rfl) rfl rfl rfl (fun _ => by simp [Run.onCmd, messages])

theorem onTnc_adds (h : Talked ways exited lost r) (ev : TncEvent) :
    Adds ways exited lost r (.turn (.tnc now ev)) (r.onTnc now ev) := by
  cases ev with
  | frame g f =>
    refine h.stays ?_ rfl rfl (fun l hl => hl)
    simp only [Run.onTnc]
    split
    · exact .refl r
    · refine Wires.trans ?_ (Wires.offers _ _)
      exact .aside rfl rfl rfl rfl rfl
  | closed g err =>
    by_cases hl : ∃ l, Lost l r (.turn (.tnc now (.closed g err)))
    · obtain ⟨l, hl, hg⟩ := hl
      have hlost := h.loses hl (?_ : ∀ k, (r.onTnc now (.closed g err)).link ≠ .connected k) ?_ ?_
      · have hc : closesIn r (.turn (.tnc now (.closed g err))) = none := rfl
        show Talked (ways ++ []) _ _ _
        rw [List.append_nil]
        refine hlost.same (fun k => or_iff_left (not_purpose hc k)) (fun k => or_congr Iff.rfl ?_)
        constructor
        · intro hk
          exact TncLink.connected.inj (hk.1.symm.trans hl)
        · intro hk
          exact ⟨hk ▸ hl, hg⟩
      · intro k
        simp only [Run.onTnc, hl, hg, ne_eq, not_true_eq_false, if_false]
        split <;> simp [Run.startBackoff, Run.setState]
      · simp only [Run.onTnc, hl, hg, ne_eq, not_true_eq_false, if_false]
        split <;> rfl
      · intro k
        simp only [Run.onTnc, hl, hg, ne_eq, not_true_eq_false, if_false]
        split <;> rfl
    · refine h.stays ?_ rfl rfl (fun l hk => hl ⟨l, hk⟩)
      simp only [Run.onTnc]
      split
      · rename_i l hk
        split
        · exact .refl r
        · rename_i hg
          exact absurd ⟨l, hk, not_not.mp hg⟩ hl
      · exact .refl r

theorem connectDone_wires (r : Run) : Wires r r.connectDone := by
  unfold Run.connectDone
  split
  · exact .of_same (fun _ => Iff.rfl) rfl rfl rfl (fun _ => by simp [messages])
  · exact .refl r

theorem connectDone_pending (r : Run) : r.connectDone.pending = r.pending := by
  unfold Run.connectDone
  split <;> rfl

theorem connectDone_keeps (r : Run) : Keeps r r.connectDone := by
  unfold Run.connectDone
  split <;> exact ⟨rfl, rfl, rfl, rfl⟩

/-- Whether the link is wanted does not change while it comes up. -/
theorem linkedUp_keeps (r : Run) : Keeps r (linkedUp r now steps) := by
  have hup : Keeps r.connectDone { r.connectDone.linkUp now steps with pending := [] } :=
    ⟨rfl, rfl, rfl, rfl⟩
  exact ((connectDone_keeps r).trans hup).trans (drain_spec r.pending rfl).2

theorem connected_adds (h : Talked ways exited lost r) (steps : List (List UInt8)) :
    Adds ways exited lost r (.turn (.link now (.connected (.ok steps))))
      (r.connectDone.onLink now (.connected (.ok steps))) := by
  have hk : Keeps r (linkedUp r now steps) := linkedUp_keeps r
  have hup : Talked (ways ++ [steps]) exited lost (linkedUp r now steps) :=
    ((h.on (connectDone_wires r)).opens steps).on (.drain r.pending _)
  have hon : r.connectDone.onLink now (.connected (.ok steps)) =
      if !r.wantsLink ∧ r.settings.idleTimeout = 0 then (linkedUp r now steps).close now
          else linkedUp r now steps := by
    rw [← hk.wants, ← hk.settings]
    simp only [Run.onLink, connectDone_pending]
    rfl
  rw [hon]
  split
  · rename_i hc
    have hcl : closesIn r (.turn (.link now (.connected (.ok steps)))) =
      some (linkedUp r now steps) := if_pos hc
    exact hup.close.same (fun l => or_congr Iff.rfl (purpose_iff hcl rfl rfl rfl l))
      (fun l => or_iff_left (fun hl => hl))
  · rename_i hc
    have hcl : closesIn r (.turn (.link now (.connected (.ok steps)))) = none := if_neg hc
    exact hup.same (fun l => or_iff_left (not_purpose hcl l)) (fun l => or_iff_left (fun hl => hl))

/-- A connect that fails, or a wait that is over, has no link to talk to. -/
theorem waited_wires (hl : r.link.isWaiting = true) (hn : ∀ l, r'.link ≠ .connected l)
    (he : r'.exitKiss = r.exitKiss)
    (hc : r'.counters.tncConnects = r.counters.tncConnects) (hw : r'.writerTx = r.writerTx)
    (ho : ∀ l, messages l r'.out = messages l r.out) : Wires r r' := by
  refine .of_same (fun l => ?_) he hc hw ho
  constructor
  · intro h
    exact absurd h (hn l)
  · intro h
    rw [h] at hl
    cases hl

theorem failed_wires (hl : r.link.isWaiting = true) (e : Error) :
    Wires r (r.onLink now (.connected (.error e))) := by
  simp only [Run.onLink]
  split
  · exact waited_wires hl (fun l hk => by cases hk) rfl rfl rfl (fun _ => rfl)
  · cases e <;> exact waited_wires hl (fun l hk => by cases hk) rfl rfl rfl (fun _ => rfl)

theorem backoffOver_wires (hl : r.link.isWaiting = true) : Wires r (r.onLink now .backoffOver) := by
  simp only [Run.onLink]
  split
  · refine Wires.trans ?_ (Wires.startConnect (Wires.idle_or rfl))
    exact waited_wires hl (fun l hk => by cases hk) rfl rfl rfl (fun _ => rfl)
  · exact waited_wires hl (fun l hk => by cases hk) rfl rfl rfl (fun _ => rfl)

/-- The writer takes a message, or goes. -/
theorem writer_wires (hw : r'.link = r.link) (he : r'.exitKiss = r.exitKiss)
    (hc : r'.counters.tncConnects = r.counters.tncConnects) (ho : r'.out = r.out)
    (hq : ∀ tx, r.writerTx = some tx → ∃ tx', r'.writerTx = some tx' ∧ tx'.queue <:+ tx.queue) :
    Wires r r' := by
  refine ⟨fun l =>
    by rw [hw], he, hc, fun l => ⟨[], by simp [ho], fun h => absurd rfl h⟩, fun hf l hl => ?_⟩
  obtain ⟨tx, htx, hs⟩ := hf l (hw ▸ hl)
  obtain ⟨tx', htx', hs'⟩ := hq tx htx
  exact ⟨tx', htx', ho ▸ hs'.trans hs⟩

theorem writerTakes_wires (hs : r.step .writerTakes = some r') : Wires r r' := by
  simp only [Run.step, Option.bind_eq_bind, Option.bind_eq_some_iff] at hs
  obtain ⟨tx, htx, ⟨msg, tx'⟩, hr, hs⟩ := hs
  cases hs
  refine writer_wires rfl rfl rfl rfl (fun t ht => ⟨tx', rfl, ?_⟩)
  obtain rfl : tx = t := Option.some.inj (htx.symm.trans ht)
  unfold Chan.recv at hr
  split at hr
  · cases hr
  · rename_i hq
    cases hr
    rw [hq]
    exact List.suffix_cons _ _

theorem writerGone_wires (hs : r.step .writerGone = some r') : Wires r r' := by
  simp only [Run.step, Option.bind_eq_bind, Option.bind_eq_some_iff] at hs
  obtain ⟨tx, htx, hs⟩ := hs
  cases hs
  refine writer_wires rfl rfl rfl rfl (fun t ht => ⟨tx.close, rfl, ?_⟩)
  obtain rfl : tx = t := Option.some.inj (htx.symm.trans ht)
  exact List.suffix_refl _

theorem turn_adds (h : Talked ways exited lost r) (hs : r.step e = some r') :
    Adds ways exited lost r (.turn e) r' := by
  cases step_turn hs with
  | app _ => exact onApp_adds h _
  | tnc => exact onTnc_adds h _
  | cmd => exact onCmd_adds h _
  | @connected task n res hl =>
    have hw : r.connectDone.link.isWaiting = true := by
      simp [Run.connectDone, hl, TncLink.isWaiting]
    cases res with
    | ok steps => exact connected_adds h steps
    | error err =>
      exact h.stays ((connectDone_wires r).trans (failed_wires hw err)) rfl rfl (fun l hk => hk)
  | backoffOver hl =>
    have hw : r.link.isWaiting = true := by
      rw [hl]
      rfl
    exact h.stays (backoffOver_wires hw) rfl rfl (fun l hk => hk)
  | @idle n _ =>
    have hi : Wires r { r with idleTimer := none } := .aside rfl rfl rfl rfl rfl
    by_cases hn : r.wantsLink = true
    · refine h.stays ?_ rfl (if_neg (by simp [abandons, hn])) (fun l hk => hk)
      have hn' : { r with idleTimer := none }.wantsLink = true := hn
      simp only [Run.onIdle, hn', Bool.not_true, Bool.false_eq_true, if_false]
      exact hi
    · refine h.closes (n := n) (if_pos (by simp [abandons, hn])) hi rfl rfl rfl ?_ rfl
        (fun l hk => hk)
      have hn' : { r with idleTimer := none }.wantsLink = false := Bool.eq_false_iff.mpr hn
      simp only [Run.onIdle, hn', Bool.not_false, if_true]
      exact .refl _
  | takes _ _ | gone _ => exact h.stays (.aside rfl rfl rfl rfl rfl) rfl rfl (fun l hk => hk)
  | writer _ he =>
    cases e with
    | writerTakes => exact h.stays (writerTakes_wires hs) rfl rfl (fun l hk => hk)
    | writerGone => exact h.stays (writerGone_wires hs) rfl rfl (fun l hk => hk)
    | writerSlot =>
      simp only [Run.step] at hs
      split at hs
      · cases hs
      · rw [← Option.some.inj hs]
        exact h.stays (.refl r) rfl rfl (fun l hk => hk)
    | _ => cases he
  | slot he =>
    cases e with
    | writerTakes | writerGone | writerSlot => exact h.stays (.refl r) rfl rfl (fun l hk => hk)
    | _ => cases he

theorem step_adds {m m' : Main} (h : Talked ways exited lost m.run) (hs : m.step e = some m') :
    Adds ways exited lost m.run e m'.run := by
  have hend : ∀ now, closesIn m.run e = some m.run → opened e = [] → (∀ l, ¬ Lost l m.run e) →
      Adds ways exited lost m.run e (m.run.disconnect now) := by
    intro now hc ho hl
    exact h.closes hc (.refl _) rfl rfl rfl (.refl _) ho hl
  simp only [Main.step] at hs
  split at hs
  · cases hs
  · split at hs
    · obtain ⟨run, hr, rfl⟩ := Option.map_eq_some_iff.mp hs
      exact turn_adds h hr
    · cases hs
      exact hend _ rfl rfl (fun l hl => hl)
    · split at hs
      · cases hs
        exact hend _ rfl rfl (fun l hl => hl)
      · cases hs

theorem start_talked (bid : String) (c : Connector) (s : TncSettings) (now : Now) :
    Talked [] (fun _ => False) (fun _ => False) (Run.start bid c s now) := by
  have hnew : Talked [] (fun _ => False) (fun _ => False) (Run.new bid c s now) := by
    refine ⟨rfl, fun l hl => ?_, fun l _ => rfl, fun l => ⟨[], [], rfl, .inl rfl⟩, fun l => ?_,
      fun l hl => False.elim hl, fun l hl => False.elim hl, fun l hl => ?_⟩
    · cases hl
    · simp [Run.new, messages]
    · cases hl
  simp only [Run.start]
  split
  · exact hnew.on (.startConnect (Wires.idle_or rfl))
  · exact hnew

/-- Along a whole run, the links are told what they are by the steps it took. -/
theorem run_talked (h : Runs Main.step (Main.start bid c s now) es m) :
    Talked (es.flatMap opened)
      (fun l => Meets Main.step (fun m => ClosedOnPurpose l m.run) (Main.start bid c s now) es)
      (fun l => Meets Main.step (fun m => Lost l m.run) (Main.start bid c s now) es) m.run := by
  induction h with
  | start =>
    exact (start_talked bid c s now).same (fun _ => iff_false_intro not_meets_nil)
      (fun _ => iff_false_intro not_meets_nil)
  | next hr _ hs ih =>
    have hadds := step_adds ih hs
    rw [List.flatMap_append, List.flatMap_singleton]
    exact hadds.same (fun _ => meets_next hr) (fun _ => meets_next hr)

/-- A link's writer is told to leave KISS mode at most once and last, with the
steps its own connect handed over; this happens exactly if the link is closed on
purpose while that is asked for, there are steps and the writer can be told, and
never to a link that was lost. -/
theorem exit_kiss_discipline (h : Runs Main.step (Main.start bid c s now) es m) (l : Nat) :
    (∃ (frames : List Frame) (exit : List WriterMsg),
      messages l m.run.out = frames.map .frame ++ exit ∧
      (exit = [] ∨ ∃ steps, ownSteps es l = some steps ∧ exit = [.exitKiss steps])) ∧
    ((∃ steps, .exitKiss steps ∈ messages l m.run.out) ↔
      (∃ steps, ownSteps es l = some steps ∧ steps ≠ []) ∧
        Meets Main.step (fun m => ClosedOnPurpose l m.run) (Main.start bid c s now) es) ∧
    (Meets Main.step (fun m => Lost l m.run) (Main.start bid c s now) es →
      ∀ steps, .exitKiss steps ∉ messages l m.run.out) ∧
    (m.run.link = .connected l →
      ∃ tx, m.run.writerTx = some tx ∧ tx.queue <:+ messages l m.run.out) := by
  have ht := run_talked h
  exact ⟨ht.form l, ht.exits l, fun hl => (ht.gone l hl).2.2, ht.fed l⟩

/-- The only session sends a frame and leaves, and the link is let go of at once. -/
def sampleVisit : List MainEvent :=
  [.turn (.app ⟨0, 0⟩ (.sessionOpened (sampleSession 40001) (.empty 64) 0)),
   .turn (.link ⟨1, 1⟩ (.connected (.ok [[0xC0, 0xFF, 0xC0]]))),
   .turn (.app ⟨2, 2⟩ (.frame (sampleSession 40001) [0x00, 0x41])),
   .turn (.app ⟨3, 3⟩ (.sessionClosed (sampleSession 40001)))]

theorem exit_kiss_discipline_visit :
    ∃ m, Runs Main.step ⟨sampleRun .onDemand, false⟩ sampleVisit m ∧
      messages 1 m.run.out = [.frame [0x00, 0x41], .exitKiss [[0xC0, 0xFF, 0xC0]]] ∧
      ownSteps sampleVisit 1 = some [[0xC0, 0xFF, 0xC0]] ∧
      Meets Main.step (fun m => ClosedOnPurpose 1 m.run) ⟨sampleRun .onDemand, false⟩
        sampleVisit := by
  have h : Runs Main.step ⟨sampleRun .onDemand, false⟩ sampleVisit _ := runs_of_foldlM rfl
  refine ⟨_, h, rfl, rfl, ((exit_kiss_discipline h 1).2.1.mp ⟨[[0xC0, 0xFF, 0xC0]], ?_⟩).2⟩
  exact List.mem_cons_of_mem (WriterMsg.frame [0x00, 0x41]) (List.mem_singleton_self _)

end KissTncBridge.Proofs.ExitKiss
