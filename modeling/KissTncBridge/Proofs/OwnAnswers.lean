import KissTncBridge.Tui.Loop

namespace KissTncBridge.Proofs.OwnAnswers
open Tui Lib

variable {σ : Type} {app app' : App σ} {t u : Loop σ} {c : Conn} {pending : Nat → Option Then}
    {action : Action} {id : Nat}

def pendingOf (conn : Option Conn) : Nat → Option Then := conn.elim (fun _ => none) Conn.pending

def NoScans (pending : Nat → Option Then) : Prop := ∀ id k, pending id ≠ some (.scan k)

def NoPairs (pending : Nat → Option Then) : Prop := ∀ id k, pending id ≠ some (.pair k)

/-- An answer to a scan's request changes nothing but that scan and what follows from
it, and one to a pairing's nothing but that pairing. -/
def AnswersOwn (app : App σ) (andThen : Then) : Prop :=
  ∀ res : Except String (Value σ),
    let app' := (app.onAnswer andThen res).1
    match andThen with
    | .scan k => app'.scan ≠ app.scan ∨ app'.pairing ≠ app.pairing →
        ∃ s, app.scan = some s ∧ s.number = k
    | .pair k =>
      app'.scan = app.scan ∧ (app'.pairing ≠ app.pairing → ∃ p, app.pairing = some p ∧ p.number = k)
    | .other => app'.scan = app.scan ∧ app'.pairing = app.pairing

/-- A view starts a scan only when no scan's answer is outstanding. -/
def Calm (t : Loop σ) : Woke σ → Prop
  | .key none _ (.scan _ _) => t.app.scan = none → t.app.pairing = none → NoScans (pendingOf t.conn)
  | _ => True

/-- What is outstanding belongs to the scan or the pairing that is shown, and a scan and
a pairing are never shown together. -/
structure Own (app : App σ) (pending : Nat → Option Then) : Prop where
  scan : ∀ id k, pending id = some (.scan k) → ∀ s, app.scan = some s →
    s.number = k ∧ s.isOver = false
  pair : ∀ id k, pending id = some (.pair k) → ∃ p, app.pairing = some p ∧ p.number = k ∧
    p.ended = none
  scan_one : ∀ id id' k k', pending id = some (.scan k) → pending id' = some (.scan k') → id = id'
  pair_one : ∀ id id' k k', pending id = some (.pair k) → pending id' = some (.pair k') → id = id'
  apart : app.scan = none ∨ app.pairing = none

theorem Own.idle (ha : app.scan = none ∨ app.pairing = none) : Own app (fun _ => none) where
  scan := nofun
  pair := nofun
  scan_one := nofun
  pair_one := nofun
  apart := ha

/-- Without a pairing no pairing's answer is outstanding. -/
theorem Own.noPairs (ho : Own app pending)
    (hp : ∀ p, app.pairing = some p → p.ended.isSome = true) : NoPairs pending := by
  intro id k hk
  obtain ⟨p, hpair, -, hended⟩ := ho.pair id k hk
  have hsome := hp p hpair
  rw [hended] at hsome
  cases hsome

theorem Own.noScans {s : Scan} (ho : Own app pending) (hs : app.scan = some s)
    (hover : s.isOver = true) : NoScans pending := by
  intro id k hk
  have hfalse := (ho.scan id k hk s hs).2
  rw [hover] at hfalse
  cases hfalse

/-- The boxes change, but neither starts anew nor ends. -/
theorem Own.keep (ho : Own app pending)
    (hs : ∀ s', app'.scan = some s' → ∃ s, app.scan = some s ∧ s'.number = s.number ∧
      s'.isOver = s.isOver)
    (hp : ∀ p, app.pairing = some p → ∃ p', app'.pairing = some p' ∧ p'.number = p.number ∧
      p'.ended = p.ended) (ha : app'.scan = none ∨ app'.pairing = none) : Own app' pending := by
  refine ⟨fun id k hk s' hs' => ?_, fun id k hk => ?_, ho.scan_one, ho.pair_one, ha⟩
  · obtain ⟨s, hscan, hnumber, hover⟩ := hs s' hs'
    rw [hnumber, hover]
    exact ho.scan id k hk s hscan
  · obtain ⟨p, hpair, hnumber, hended⟩ := ho.pair id k hk
    obtain ⟨p', hpair', hnumber', hended'⟩ := hp p hpair
    exact ⟨p', hpair', hnumber'.trans hnumber, hended'.trans hended⟩

/-- What is to be sent next was just started, and nothing of its kind is outstanding. -/
def Fits (app : App σ) (pending : Nat → Option Then) : Action → Prop
  | .request ⟨_, .scan k⟩ =>
      NoScans pending ∧ ∃ s, app.scan = some s ∧ s.number = k ∧ s.isOver = false
  | .request ⟨_, .pair k⟩ => NoPairs pending ∧ ∃ p, app.pairing = some p ∧ p.number = k ∧
      p.ended = none
  | _ => True

theorem sent_scan {s' : Scan} {andThen : Then} (hs : (app.sent id andThen).scan = some s') :
    ∃ s, app.scan = some s ∧ s'.number = s.number ∧ s'.isOver = s.isOver := by
  cases andThen with
  | scan k =>
    obtain ⟨s, hscan, rfl⟩ := Option.map_eq_some_iff.mp hs
    exact ⟨s, hscan, rfl, rfl⟩
  | pair k => exact ⟨s', hs, rfl, rfl⟩
  | other => exact ⟨s', hs, rfl, rfl⟩

theorem sent_pairing {p : Tui.Pairing} {x : Then} (hp : app.pairing = some p) :
    ∃ p', (app.sent id x).pairing = some p' ∧ p'.number = p.number ∧ p'.ended = p.ended := by
  cases x with
  | scan k => exact ⟨p, hp, rfl, rfl⟩
  | pair k => exact ⟨_, Option.map_eq_some_iff.mpr ⟨p, hp, rfl⟩, rfl, rfl⟩
  | other => exact ⟨p, hp, rfl, rfl⟩

theorem sent_apart {andThen : Then} (ha : app.scan = none ∨ app.pairing = none) :
    (app.sent id andThen).scan = none ∨ (app.sent id andThen).pairing = none := by
  cases andThen with
  | scan k => exact ha.imp_left (fun h => by rw [App.sent, h]; rfl)
  | pair k => exact ha.imp_right (fun h => by rw [App.sent, h]; rfl)
  | other => exact ha

theorem lost_apart (why : String) (ha : app.scan = none ∨ app.pairing = none) :
    (app.lost why).scan = none ∨ (app.lost why).pairing = none := by
  refine ha.imp (fun h => ?_) (fun h => ?_)
  · rw [App.lost, h]
    rfl
  · rw [App.lost, h]
    rfl

theorem update_some {id id' : Nat} {x : Option Then} {andThen : Then}
    (h : Function.update pending id x id' = some andThen) :
    id' = id ∧ x = some andThen ∨ pending id' = some andThen := by
  by_cases hid : id' = id
  · subst hid
    rw [Function.update_self] at h
    exact .inl ⟨rfl, h⟩
  · rw [Function.update_of_ne hid] at h
    exact .inr h

theorem update_single {f : Nat → Then} {andThen : Then}
    (hone : ∀ i j k l, pending i = some (f k) → pending j = some (f l) → i = j)
    (hnew : ∀ k, andThen = f k → ∀ i l, pending i ≠ some (f l)) (i j k l : Nat)
    (hi : Function.update pending id (some andThen) i = some (f k))
    (hj : Function.update pending id (some andThen) j = some (f l)) : i = j := by
  rcases update_some hi with ⟨hid, heq⟩ | hbefore
  · rcases update_some hj with ⟨hid', -⟩ | hafter
    · exact hid.trans hid'.symm
    · exact absurd hafter (hnew k (Option.some.inj heq) j l)
  · rcases update_some hj with ⟨-, heq⟩ | hafter
    · exact absurd hbefore (hnew l (Option.some.inj heq) i k)
    · exact hone i j k l hbefore hafter

/-- A request that fits is sent, and then waits for its answer. -/
theorem Own.add (ho : Own app pending) {command : Command} {andThen : Then}
    (hf : Fits app pending (.request ⟨command, andThen⟩)) :
    Own (app.sent id andThen) (Function.update pending id (some andThen)) := by
  have hsent : Own (app.sent id andThen) pending :=
    ho.keep (fun s' hs' => sent_scan hs') (fun p hp => sent_pairing hp) (sent_apart ho.apart)
  refine ⟨fun id' k hk => ?_, fun id' k hk => ?_, fun i j k l hi hj => ?_, fun i j k l hi hj => ?_,
    hsent.apart⟩
  · rcases update_some hk with ⟨-, heq⟩ | hk
    · obtain rfl := Option.some.inj heq
      obtain ⟨-, s, hs, hnumber, hover⟩ := hf
      intro s' hs'
      obtain ⟨s₀, hs₀, hnumber', hover'⟩ := sent_scan hs'
      obtain rfl := Option.some.inj (hs.symm.trans hs₀)
      exact ⟨hnumber'.trans hnumber, hover'.trans hover⟩
    · exact hsent.scan id' k hk
  · rcases update_some hk with ⟨-, heq⟩ | hk
    · obtain rfl := Option.some.inj heq
      obtain ⟨-, p, hp, hnumber, hended⟩ := hf
      obtain ⟨p', hp', hnumber', hended'⟩ := sent_pairing (x := .pair k) hp
      exact ⟨p', hp', hnumber'.trans hnumber, hended'.trans hended⟩
    · exact hsent.pair id' k hk
  · refine update_single ho.scan_one (fun k hk => ?_) i j k l hi hj
    subst hk
    exact hf.1
  · refine update_single ho.pair_one (fun k hk => ?_) i j k l hi hj
    subst hk
    exact hf.1

structure Steps (pending : Nat → Option Then) (r : App σ × Action) : Prop where
  own : Own r.1 pending
  fits : Fits r.1 pending r.2

theorem Steps.none (ho : Own app pending) : Steps pending (app, .none) := ⟨ho, trivial⟩

theorem stop_fits (s : Scan) : Fits app pending s.stop := by
  unfold Scan.stop
  split <;> exact trivial

/-- Pairing starts where a scan was shown. -/
theorem Own.startPairing {s : Scan} {command : Command} (ho : Own app pending)
    (hs : app.scan = some s) : Steps pending ({ app with scan := none }.startPairing command) := by
  have hnone : app.pairing = .none := by
    rcases ho.apart with hscan | hpair
    · rw [hs] at hscan
      cases hscan
    · exact hpair
  have hpairs : NoPairs pending := ho.noPairs (fun p hp => by rw [hnone] at hp; cases hp)
  refine ⟨⟨(fun _ _ _ _ hscan => nomatch hscan), fun id k hk => absurd hk (hpairs id k),
    ho.scan_one, ho.pair_one, .inl rfl⟩, ?_⟩
  exact ⟨hpairs, _, rfl, rfl, rfl⟩

/-- A scan starts where no scan's answer is outstanding. -/
theorem Own.begin {s : Scan} (ho : Own app pending) (hn : NoScans pending) (hp : app.pairing = none)
    (hs : s.isOver = false) : Steps pending (app.begin s) := by
  refine ⟨⟨fun id k hk => absurd hk (hn id k), ho.pair, ho.scan_one, ho.pair_one, .inr hp⟩, ?_⟩
  exact ⟨hn, s, rfl, rfl, hs⟩

/-- The scan's box changes, and is still about the same scan, or closes. -/
theorem Own.setScan (ho : Own app pending) {scan : Option Scan}
    (hs : ∀ s', scan = some s' → ∃ s, app.scan = some s ∧ s'.number = s.number ∧
      s'.isOver = s.isOver) : Own { app with scan := scan } pending := by
  refine ho.keep hs (fun p hp => ⟨p, hp, rfl, rfl⟩) ?_
  cases scan with
  | none => exact .inl rfl
  | some s' =>
    obtain ⟨s, hscan, -⟩ := hs s' rfl
    refine .inr (ho.apart.resolve_left ?_)
    rw [hscan]
    exact Option.some_ne_none s

theorem Own.edit {s s' : Scan} (ho : Own app pending) (hs : app.scan = some s)
    (hnumber : s'.number = s.number)
    (hover : s'.isOver = s.isOver) : Own { app with scan := some s' } pending := by
  refine ho.setScan (fun s₁ hs₁ => ?_)
  obtain rfl := Option.some.inj hs₁
  exact ⟨s, hs, hnumber, hover⟩

theorem Own.close (ho : Own app pending) : Own { app with scan := none } pending :=
  ho.setScan (fun _ h => nomatch h)

theorem found_steps (ho : Own app pending) (request : Nat) (device : BtDevice) :
    Steps pending (app.found request device) := by
  unfold App.found
  split
  · exact .none ho
  · rename_i s hs
    dsimp only
    split
    · exact .none ho
    · split
      · exact ⟨ho.edit hs rfl rfl, stop_fits _⟩
      · exact .none (ho.edit hs rfl rfl)

theorem scanKey_steps (ho : Own app pending) (k : Key) : Steps pending (app.scanKey k) := by
  unfold App.scanKey
  split
  · exact .none ho
  · rename_i s hs
    have hp : app.pairing = none := by
      refine ho.apart.resolve_left ?_
      rw [hs]
      exact Option.some_ne_none s
    split
    · split
      · exact .none (ho.edit hs rfl rfl)
      · exact .none ho
    · split
      · exact .none (ho.edit hs rfl rfl)
      · exact .none ho
    · split
      · exact .none ho
      · split
        · exact .none ho
        · split
          · exact ho.startPairing hs
          · split
            · exact ⟨ho.edit hs rfl rfl, stop_fits s⟩
            · exact .none ho
    · refine ⟨ho.close, ?_⟩
      split
      · exact trivial
      · exact stop_fits s
    · split
      · exact ⟨ho.close, trivial⟩
      · split
        · rename_i hover
          exact ho.begin (ho.noScans hs hover.2) hp rfl
        · exact .none ho
    · exact .none ho

/-- The pairing's box changes, and is still about the same pairing. -/
theorem Own.setPairing {p p' : Tui.Pairing} (ho : Own app pending) (hp : app.pairing = some p)
    (hnumber : p'.number = p.number) (hended : p'.ended = p.ended) :
    Own { app with pairing := some p' } pending := by
  refine ho.keep (fun s' hs' => ⟨s', hs', rfl, rfl⟩) (fun p₁ hp₁ => ?_)
    (.inl (ho.apart.resolve_right ?_))
  · obtain rfl := Option.some.inj (hp.symm.trans hp₁)
    exact ⟨p', rfl, hnumber, hended⟩
  · rw [hp]
    exact Option.some_ne_none p

theorem pairingStep_own (ho : Own app pending) (request : Nat)
    (step : KissTncBridge.Pairing.PairingStep) : Own (app.pairingStep request step) pending := by
  unfold App.pairingStep
  split
  · exact ho
  · rename_i p hp
    split
    · exact ho
    · split
      · exact ho
      · exact ho.setPairing hp rfl rfl

theorem answerKey_steps {p : Tui.Pairing} (ho : Own app pending) (hp : app.pairing = some p)
    (id : Nat) (ask : Ask) (k : Key) : Steps pending (app.answerKey p id ask k) := by
  have hreply : ∀ p' : Tui.Pairing, p'.number = p.number → p'.ended = p.ended →
    ∀ accept pin passkey, Steps pending (app.reply p' id accept pin passkey) :=
    fun p' hnumber hended _ _ _ => ⟨ho.setPairing hp hnumber hended, trivial⟩
  have htyped : ∀ typed, Steps pending
      (({ app with pairing := some { p with typed := typed } } : App σ), Action.none) :=
    fun _ => .none (ho.setPairing hp rfl rfl)
  have hconfirm : ∀ k : Key,
    Steps pending (if k = .char 'y' ∨ k = .enter then app.reply p id (some true) none none
      else if k = .char 'n' ∨ k = .esc then app.reply p id (some false) none none
          else (app, .none)) := by
    intro k
    split
    · exact hreply p rfl rfl _ _ _
    · split
      · exact hreply p rfl rfl _ _ _
      · exact .none ho
  cases ask with
  | confirm passkey => exact hconfirm k
  | authorize => exact hconfirm k
  | pin =>
    cases k with
    | esc => exact hreply p rfl rfl _ _ _
    | enter => exact hreply { p with typed := "" } rfl rfl _ _ _
    | backspace => exact htyped _
    | char c => exact htyped _
    | up | down | other => exact .none ho
  | passkey =>
    cases k with
    | esc => exact hreply p rfl rfl _ _ _
    | enter =>
      unfold App.answerKey
      dsimp only
      split
      · split
        · exact hreply { p with typed := "" } rfl rfl _ _ _
        · exact .none ho
      · exact .none ho
    | backspace => exact htyped _
    | char c =>
      unfold App.answerKey
      dsimp only
      split
      · exact htyped _
      · exact .none ho
    | up | down | other => exact .none ho

theorem pairingKey_steps (ho : Own app pending) (k : Key) : Steps pending (app.pairingKey k) := by
  unfold App.pairingKey
  split
  · exact .none ho
  · rename_i p hp
    split
    · rename_i hended
      have hpairs : NoPairs pending := by
        refine ho.noPairs (fun p' hp' => ?_)
        obtain rfl := Option.some.inj (hp.symm.trans hp')
        exact hended
      split
      · exact .none ⟨ho.scan, fun id k hk => absurd hk (hpairs id k), ho.scan_one,
          ho.pair_one, .inr rfl⟩
      · exact .none ho
    · split
      · split
        · exact .none (ho.setPairing hp rfl rfl)
        · exact .none ho
      · split
        · exact .none ho
        · exact answerKey_steps ho hp _ _ k

theorem asked_steps (ho : Own app pending) (asked : Asked) : Steps pending (app, asked.action) := by
  refine ⟨ho, ?_⟩
  cases asked <;> exact trivial

theorem key_steps (ho : Own app pending) (front : Option Asked) (k : Key) (view : ViewKey)
    (hcalm : ∀ adapter target, front = none → view = .scan adapter target → app.scan = none →
      app.pairing = none → NoScans pending) : Steps pending (app.key front k view) := by
  unfold App.key
  split
  · exact asked_steps ho _
  · split
    · exact pairingKey_steps ho k
    · split
      · exact scanKey_steps ho k
      · rename_i hscan
        split
        · exact asked_steps ho _
        · unfold App.startScan
          split
          · exact .none ho
          · rename_i hpair
            have hpair : app.pairing = none := by simpa using hpair
            exact ho.begin (hcalm _ _ rfl rfl (by simpa using hscan) hpair) hpair rfl

theorem Own.fewer {rest : Nat → Option Then} (ho : Own app pending)
    (hr : ∀ i x, rest i = some x → pending i = some x) : Own app rest where
  scan := fun id k hk => ho.scan id k (hr id _ hk)
  pair := fun id k hk => ho.pair id k (hr id _ hk)
  scan_one := fun i j k l hi hj => ho.scan_one i j k l (hr i _ hi) (hr j _ hj)
  pair_one := fun i j k l hi hj => ho.pair_one i j k l (hr i _ hi) (hr j _ hj)
  apart := ho.apart

theorem removed {x : Then} (h : Function.update pending id none i = some x) :
    i ≠ id ∧ pending i = some x := by
  by_cases hi : i = id
  · subst hi
    rw [Function.update_self] at h
    cases h
  · rw [Function.update_of_ne hi] at h
    exact ⟨hi, h⟩

theorem paired_own {res : Except String (Value σ)} (ho : Own app pending) (hn : NoPairs pending) :
    Own (app.paired res) pending := by
  unfold App.paired
  split
  · exact ho
  · rename_i p hp
    have hscan : app.scan = none := by
      refine ho.apart.resolve_right ?_
      rw [hp]
      exact Option.some_ne_none p
    split
    · exact ⟨ho.scan, fun id k hk => absurd hk (hn id k), ho.scan_one, ho.pair_one, .inl hscan⟩
    · exact ⟨ho.scan, fun id k hk => absurd hk (hn id k), ho.scan_one, ho.pair_one, .inl hscan⟩

theorem scanned_steps {res : Except String (Value σ)} (ho : Own app pending)
    (hn : NoScans pending) : Steps pending (app.scanned res) := by
  unfold App.scanned
  split
  · exact .none ho
  · rename_i s hs
    have hp : app.pairing = none := by
      refine ho.apart.resolve_left ?_
      rw [hs]
      exact Option.some_ne_none s
    have hover : ∀ s', Own { app with scan := some s' } pending :=
      fun _ => ⟨fun id k hk => absurd hk (hn id k), ho.pair, ho.scan_one, ho.pair_one, .inr hp⟩
    dsimp only
    split
    · exact ho.startPairing hs
    · exact ho.startPairing hs
    · exact .none (hover _)
    · exact .none (hover _)

/-- An answer is taken in by the scan or the pairing it belongs to. -/
theorem onAnswer_steps {andThen : Then} (ho : Own app pending) (hp : pending id = some andThen)
    (res : Except String (Value σ)) :
    Steps (Function.update pending id none) (app.onAnswer andThen res) := by
  have hrest : Own app (Function.update pending id none) := ho.fewer (fun i x hx => (removed hx).2)
  cases andThen with
  | pair k =>
    refine .none (paired_own hrest (fun i l hl => ?_))
    obtain ⟨hne, hl⟩ := removed hl
    exact hne (ho.pair_one i id l k hl hp)
  | scan k =>
    refine scanned_steps hrest (fun i l hl => ?_)
    obtain ⟨hne, hl⟩ := removed hl
    exact hne (ho.scan_one i id l k hl hp)
  | other => exact .none hrest

def Inv (t : Loop σ) : Prop := Own t.app (pendingOf t.conn)

theorem failed_inv (ha : app.scan = none ∨ app.pairing = none) : Inv (Loop.settle (.error app)) :=
  .idle (lost_apart _ ha)

theorem act_inv {conn : Option Conn} (hs : Steps (pendingOf conn) (app, action)) :
    Inv (Loop.settle (Loop.act app conn action)) := by
  cases action with
  | none => exact hs.own
  | run => exact hs.own
  | request req =>
    cases conn with
    | none => exact .idle (lost_apart _ hs.own.apart)
    | some c =>
      unfold Loop.act
      dsimp only
      split
      · exact failed_inv hs.own.apart
      · exact hs.own.add hs.fits

theorem refresh_pending {c' : Conn} (hr : c.refresh = some c') : c'.pending = c.pending := by
  unfold Conn.refresh at hr
  split at hr
  · obtain rfl := Option.some.inj hr
    rfl
  · obtain ⟨sent, -, rfl⟩ := Option.map_eq_some_iff.mp hr
    rfl

theorem statusAnswer_own (ho : Own app pending) (res : Except String (Value σ)) :
    Own (app.statusAnswer res) pending := by
  unfold App.statusAnswer
  split
  · exact ⟨ho.scan, ho.pair, ho.scan_one, ho.pair_one, ho.apart⟩
  · exact ho

theorem answered_inv {r : Response σ} (ho : Own app c.pending) :
    Inv (Loop.settle (Loop.answered app c r)) := by
  unfold Loop.answered
  split
  · have hstatus := statusAnswer_own ho r.result
    dsimp only
    split
    · split
      · rename_i hr
        have hpending := refresh_pending hr
        rw [Inv, Loop.settle, pendingOf, Option.elim_some, hpending]
        exact hstatus
      · exact failed_inv hstatus.apart
    · exact hstatus
  · split
    · exact ho
    · rename_i id andThen hid
      obtain ⟨i, -, hi⟩ := Option.bind_eq_some_iff.mp hid
      obtain ⟨x, hx, hpair⟩ := Option.map_eq_some_iff.mp hi
      obtain ⟨rfl, rfl⟩ := Prod.mk.inj hpair
      have hsteps := onAnswer_steps ho hx r.result
      dsimp only
      split
      · exact failed_inv hsteps.own.apart
      · rename_i hr
        refine act_inv ?_
        rw [pendingOf, Option.elim_some, refresh_pending hr]
        exact hsteps

/-- A new connection waits for nothing of a scan or a pairing. -/
theorem open_inv (writes : Nat) (ha : app.scan = none ∨ app.pairing = none) :
    Inv (⟨app, Conn.open writes⟩ : Loop σ) := by
  cases hc : Conn.open writes with
  | none => exact .idle ha
  | some c =>
    obtain ⟨⟨models, requests⟩, -, hr⟩ := Option.bind_eq_some_iff.mp hc
    have honly : ∀ i x, c.pending i = some x → x = .other := by
      intro i x hx
      rw [refresh_pending hr] at hx
      rcases update_some hx with ⟨-, heq⟩ | hx
      · exact (Option.some.inj heq).symm
      · cases hx
    exact ⟨(fun i k hk => nomatch honly i _ hk), (fun i k hk => nomatch honly i _ hk),
      (fun i j k l hk _ => nomatch honly i _ hk), (fun i j k l hk _ => nomatch honly i _ hk), ha⟩

theorem step_inv {e : Woke σ} (hi : Inv t) (hc : Calm t e) (hs : t.step e = some u) : Inv u := by
  cases e with
  | key front k view =>
    have hsteps := key_steps hi front k view
      (fun adapter target hf hv hscan hpair => by subst hf hv; exact hc hscan hpair)
    unfold Loop.step at hs
    dsimp only at hs
    split at hs
    · obtain rfl := Option.some.inj hs
      exact .idle hsteps.own.apart
    · obtain rfl := Option.some.inj hs
      exact act_inv hsteps
  | response r =>
    obtain ⟨c, hconn, rfl⟩ := Option.map_eq_some_iff.mp hs
    refine answered_inv ?_
    rw [Inv, hconn] at hi
    exact hi
  | found request device =>
    obtain ⟨c, hconn, rfl⟩ := Option.map_eq_some_iff.mp hs
    refine act_inv ?_
    rw [Inv, hconn] at hi
    exact found_steps hi request device
  | pairing request step =>
    obtain ⟨c, hconn, rfl⟩ := Option.map_eq_some_iff.mp hs
    rw [Inv, hconn] at hi
    exact pairingStep_own hi request step
  | event e =>
    obtain ⟨c, hconn, rfl⟩ := Option.map_eq_some_iff.mp hs
    split
    · split
      · rename_i hr
        rw [Inv, pendingOf, Option.elim_some, refresh_pending hr]
        rw [Inv, hconn] at hi
        exact hi
      · exact failed_inv hi.apart
    · exact hi
  | closed =>
    obtain ⟨c, -, rfl⟩ := Option.map_eq_some_iff.mp hs
    exact failed_inv hi.apart
  | retry writes =>
    obtain ⟨-, hs⟩ := Option.ite_none_left_eq_some.mp hs
    obtain rfl := Option.some.inj hs
    exact open_inv writes hi.apart

/-- Where a view starts a scan only once every scan's answer has come, every answer that
is outstanding changes nothing but the scan or the pairing it belongs to. -/
theorem answers_own {es : List (Woke σ)} (h : Reach Loop.step Calm {} es t) (hc : t.conn = some c)
    {i : Nat} {andThen : Then} (hp : c.pending i = some andThen) : AnswersOwn t.app andThen := by
  have hi : Inv t := h.invariant (.idle (.inl rfl)) (fun _ _ _ hi hc hs => step_inv hi hc hs)
  have ho : Own t.app c.pending := by
    rw [Inv, hc] at hi
    exact hi
  intro res
  cases andThen with
  | scan k =>
    intro app' hchanged
    rcases hs : t.app.scan with _ | s
    · have hsame : app' = t.app := by
        simp only [app', App.onAnswer, App.scanned, hs]
      rw [hsame] at hchanged
      exact hchanged.elim (absurd rfl) (absurd rfl)
    · exact ⟨s, rfl, (ho.scan i k hp s hs).1⟩
  | pair k =>
    refine ⟨?_, fun _ => ?_⟩
    · simp only [App.onAnswer, App.paired]
      split
      · rfl
      · split <;> rfl
    · obtain ⟨p, hpair, hnumber, -⟩ := ho.pair i k hp
      exact ⟨p, hpair, hnumber⟩
  | other => exact ⟨rfl, rfl⟩

def pressN : Woke Unit := .key none (.char 'n') (.scan none none)

theorem answers_own_first :
    ∃ t : Loop Unit, Reach Loop.step Calm {} [.retry 9, pressN] t ∧ AnswersOwn t.app (.scan 0) := by
  have hscan : Reach Loop.step Calm ({} : Loop Unit) ([] ++ [.retry 9] ++ [pressN]) _ :=
    .next (.next .start trivial rfl) (fun _ _ id k hk => by
      simp [pendingOf, Conn.open, Client.send, Conn.refresh, Conn.add, Function.update] at hk) rfl
  exact ⟨_, hscan, answers_own (i := 3) hscan rfl rfl⟩

/-- A scan is closed with Esc and another started before the first one's answer: that
answer then ends the second. -/
theorem late_answer_ends_next :
    ∃ (es : List (Woke Unit)) (t : Loop Unit) (c : Conn), Runs Loop.step {} es t ∧
    t.conn = some c ∧ c.pending 3 = some (.scan 0) ∧ ¬ AnswersOwn t.app (.scan 0) := by
  have hrun : Runs Loop.step ({} : Loop Unit)
      ([] ++ [.retry 9] ++ [pressN] ++ [.key none .esc (.asks .none)] ++ [pressN]) _ :=
    .next (.next (.next (.next .start trivial rfl) trivial rfl) trivial rfl) trivial rfl
  refine ⟨_, _, _, hrun, rfl, rfl, fun hown => ?_⟩
  obtain ⟨s, hs, hnumber⟩ :=
    hown (.ok (.devices [])) (.inl fun h => nomatch congrArg (Option.map Scan.isOver) h)
  obtain rfl := Option.some.inj hs
  exact absurd hnumber (by decide)

end KissTncBridge.Proofs.OwnAnswers
