import KissTncBridge.Control.Events
import Mathlib.Data.Nat.ModEq

namespace KissTncBridge.Proofs.ActivityEvents
open Control Lib

variable {s t : Coalescer} {es : List CoalesceEvent} {e : CoalesceEvent} {k : ActivityKey}

/-- The clock does not go back, and the timer goes through every slot once. -/
def Timely (s : Coalescer) (e : CoalesceEvent) : Prop :=
  s.clock ≤ e.now ∧
    match e with
    | .raw .. => True
    | .tick _ order => order.Nodup ∧ ∀ key, key ∈ order ↔ (s.slots key).isSome = true

def bytesOf (k : ActivityKey) : CoalesceEvent → Nat
  | .raw _ key bytes => if key = k then bytes.toNat else 0
  | .tick .. => 0

def reported (es : List CoalesceEvent) (k : ActivityKey) : Nat := (es.map (bytesOf k)).sum

def eventsOf (s : Coalescer) (k : ActivityKey) : List Activity := s.out.filter (fun a => a.key == k)

def sent (s : Coalescer) (k : ActivityKey) : Nat :=
  ((eventsOf s k).map (fun a => a.bytes.toNat)).sum

def waiting (s : Coalescer) (k : ActivityKey) : Nat :=
  ((s.slots k).map (fun slot => slot.pending.toNat)).getD 0

/-- Where every element gives at most something of its own, one of them is found in
what they all give. -/
theorem filter_filterMap_own [BEq κ] [LawfulBEq κ] {key : α → κ} {g : κ → Option α}
    (hg : ∀ x a, g x = some a → key a = x) {l : List κ} (hn : l.Nodup) (k : κ) :
    (l.filterMap g).filter (fun a => key a == k) = if k ∈ l then (g k).toList else [] := by
  induction l with
  | nil => rfl
  | cons x l ih =>
    obtain ⟨hx, hn⟩ := List.nodup_cons.mp hn
    rw [List.filterMap_cons]
    by_cases hk : x = k
    · subst hk
      have hrest := ih hn
      rw [if_neg hx] at hrest
      rw [if_pos (List.mem_cons_self ..)]
      cases hgx : g x with
      | none => exact hrest
      | some a =>
        rw [List.filter_cons_of_pos (by simp [hg x a hgx]), hrest]
        rfl
    · have hmem : k ∈ x :: l ↔ k ∈ l := by simp [Ne.symm hk]
      simp only [hmem]
      cases hgx : g x with
      | none => exact ih hn
      | some a =>
        rw [List.filter_cons_of_neg (by simp [hg x a hgx, hk])]
        exact ih hn

theorem past_interval {a n : Int} (h : a + FORGET_AFTER ≤ n) : a + ACTIVITY_INTERVAL ≤ n := by
  unfold FORGET_AFTER at h
  unfold ACTIVITY_INTERVAL
  omega

theorem past_last {a l n d : Int} (h : a ≤ l) (hd : d ≤ n - l) : a + d ≤ n := by omega

theorem before_interval {a n : Int} (h : a + ACTIVITY_INTERVAL ≤ n) : a ≤ n := by
  unfold ACTIVITY_INTERVAL at h
  omega

structure Good (s : Coalescer) (es : List CoalesceEvent) (k : ActivityKey) : Prop where
  le : sent s k + waiting s k ≤ reported es k
  mod : sent s k + waiting s k ≡ reported es k [MOD UInt64.size]
  recent : ∀ slot, s.slots k = some slot → slot.last ≤ s.clock ∧ ∀ a ∈ eventsOf s k,
    a.time ≤ slot.last
  quiet : s.slots k = none → ∀ a ∈ eventsOf s k, a.time + FORGET_AFTER ≤ s.clock
  spaced : (eventsOf s k).Pairwise (fun a b => a.time + ACTIVITY_INTERVAL ≤ b.time)

theorem good_start (k : ActivityKey) : Good {} [] k where
  le := Nat.le_refl _
  mod := Nat.ModEq.refl _
  recent := fun _ h => nomatch h
  quiet := fun _ _ h => nomatch h
  spaced := .nil

theorem reported_next (es : List CoalesceEvent) (e : CoalesceEvent) (k : ActivityKey) :
    reported (es ++ [e]) k = reported es k + bytesOf k e := by
  simp [reported]

/-- Adding to a counter of 64 bits. -/
theorem add_counted (p b : UInt64) :
    (p + b).toNat ≤ p.toNat + b.toNat ∧ (p + b).toNat ≡ p.toNat + b.toNat [MOD UInt64.size] := by
  rw [UInt64.toNat_add]
  exact ⟨Nat.mod_le _ _, Nat.mod_modEq _ _⟩

/-- What a step does for one object and direction, where `b` bytes are reported. -/
inductive Effect (s t : Coalescer) (k : ActivityKey) (now : Instant) (b : Nat) : Prop where
  | same (slots : t.slots k = s.slots k) (events : eventsOf t k = eventsOf s k) (none : b = 0)
  | sends (p : UInt64) (slots : t.slots k = some ⟨now, 0⟩)
      (events : eventsOf t k = eventsOf s k ++ [⟨now, k, p⟩])
    (le : p.toNat ≤ waiting s k + b) (mod : p.toNat ≡ waiting s k + b [MOD UInt64.size])
    (due : ∀ slot, s.slots k = some slot → ACTIVITY_INTERVAL ≤ now - slot.last)
  | adds (slot : Slot) (p : UInt64) (before : s.slots k = some slot)
      (slots : t.slots k = some { slot with pending := p })
    (events : eventsOf t k = eventsOf s k) (le : p.toNat ≤ waiting s k + b)
    (mod : p.toNat ≡ waiting s k + b [MOD UInt64.size])
  | forgets (slot : Slot) (before : s.slots k = some slot) (slots : t.slots k = none)
    (events : eventsOf t k = eventsOf s k) (none : b = 0) (empty : slot.pending = 0)
    (old : FORGET_AFTER ≤ now - slot.last)

theorem eventsOf_append (out out' : List Activity) (k : ActivityKey) :
    (out ++ out').filter (fun a => a.key == k) = out.filter (fun a => a.key == k) ++
      out'.filter (fun a => a.key == k) :=
  List.filter_append ..

theorem raw_effect {now : Instant} {key : ActivityKey} {bytes : UInt64}
    (h : s.step (.raw now key bytes) = some t)
    (k : ActivityKey) : t.clock = now ∧ Effect s t k now (bytesOf k (.raw now key bytes)) := by
  unfold Coalescer.step at h
  dsimp only at h
  by_cases hk : key = k
  · subst hk
    have hbytes : bytesOf key (.raw now key bytes) = bytes.toNat := if_pos rfl
    rw [hbytes]
    cases hs : s.slots key with
    | none =>
      have hempty : waiting s key = 0 := by rw [waiting, hs, Option.map_none, Option.getD_none]
      have hdue : ACTIVITY_INTERVAL ≤ now - (now - ACTIVITY_INTERVAL) := by omega
      rw [hs, Option.getD_none, if_pos hdue] at h
      obtain rfl := Option.some.inj h
      refine ⟨rfl, .sends (0 + bytes) (Function.update_self ..) ?_ ?_ ?_ (fun slot hslot => ?_)⟩
      · rw [eventsOf, eventsOf_append]
        simp [eventsOf]
      · rw [hempty, UInt64.zero_add, Nat.zero_add]
      · rw [hempty, UInt64.zero_add, Nat.zero_add]
      · rw [hs] at hslot
        cases hslot
    | some slot =>
      have hwait : waiting s key = slot.pending.toNat := by
        rw [waiting, hs, Option.map_some, Option.getD_some]
      obtain ⟨hle, hmod⟩ := add_counted slot.pending bytes
      rw [← hwait] at hle hmod
      rw [hs, Option.getD_some] at h
      split at h
      · rename_i hdue
        obtain rfl := Option.some.inj h
        refine ⟨rfl, .sends _ (Function.update_self ..) ?_ hle hmod (fun slot' hslot => ?_)⟩
        · rw [eventsOf, eventsOf_append]
          simp [eventsOf]
        · obtain rfl := Option.some.inj (hs.symm.trans hslot)
          exact hdue
      · obtain rfl := Option.some.inj h
        exact ⟨rfl, .adds slot _ hs (Function.update_self ..) rfl hle hmod⟩
  · have hbytes : bytesOf k (.raw now key bytes) = 0 := if_neg hk
    rw [hbytes]
    split at h
    · obtain rfl := Option.some.inj h
      refine ⟨rfl, .same (Function.update_of_ne (Ne.symm hk) ..) ?_ rfl⟩
      rw [eventsOf, eventsOf_append]
      simp [eventsOf, hk]
    · obtain rfl := Option.some.inj h
      exact ⟨rfl, .same (Function.update_of_ne (Ne.symm hk) ..) rfl rfl⟩

theorem tick_effect {now : Instant} {order : List ActivityKey} (ht : Timely s (.tick now order))
    (h : s.step (.tick now order) = some t) (k : ActivityKey) :
    t.clock = now ∧ Effect s t k now 0 := by
  obtain ⟨-, hnodup, horder⟩ := ht
  have ht := Option.some.inj h
  have hslots : t.slots k = (s.slots k).bind (fun slot => slot.afterTick now) := by rw [← ht]
  have hown : ∀ x a, (s.slots x).bind
    (fun slot => if slot.due now then some (⟨now, x, slot.pending⟩ : Activity) else none) =
      some a → a.key = x := by
    intro x a ha
    obtain ⟨slot, -, hslot⟩ := Option.bind_eq_some_iff.mp ha
    split at hslot
    · obtain rfl := Option.some.inj hslot
      rfl
    · cases hslot
  have hevents : eventsOf t k = eventsOf s k ++ if k ∈ order then ((s.slots k).bind (fun slot =>
      if slot.due now then some (⟨now, k, slot.pending⟩ : Activity) else none)).toList else [] := by
    rw [← filter_filterMap_own hown hnodup k, eventsOf, ← ht]
    exact eventsOf_append ..
  refine ⟨by rw [← ht], ?_⟩
  cases hs : s.slots k with
  | none =>
    have hmem : k ∉ order := by
      rw [horder, hs]
      decide
    rw [if_neg hmem, List.append_nil] at hevents
    rw [hs, Option.bind_none] at hslots
    exact .same (hslots.trans hs.symm) hevents rfl
  | some slot =>
    have hwait : waiting s k = slot.pending.toNat := by
      rw [waiting, hs, Option.map_some, Option.getD_some]
    have hmem : k ∈ order := by
      rw [horder, hs]
      rfl
    rw [if_pos hmem, hs, Option.bind_some] at hevents
    rw [hs, Option.bind_some, Slot.afterTick] at hslots
    by_cases hdue : slot.due now = true
    · have hfresh : now - now < FORGET_AFTER := by
        rw [Int.sub_self]
        decide
      rw [if_pos hdue] at hevents
      rw [if_pos hdue, if_pos (.inr hfresh)] at hslots
      refine .sends slot.pending hslots hevents ?_ ?_ (fun slot' hslot => ?_)
      · rw [hwait, Nat.add_zero]
      · rw [hwait, Nat.add_zero]
      · obtain rfl := Option.some.inj (hs.symm.trans hslot)
        rw [Slot.due, Bool.and_eq_true] at hdue
        exact of_decide_eq_true hdue.2
    · rw [if_neg hdue, Option.toList_none, List.append_nil] at hevents
      rw [if_neg hdue] at hslots
      by_cases hkeep : 0 < slot.pending ∨ now - slot.last < FORGET_AFTER
      · rw [if_pos hkeep] at hslots
        exact .same (hslots.trans hs.symm) hevents rfl
      · rw [if_neg hkeep] at hslots
        have hempty : slot.pending = 0 := by
          by_contra hp
          exact hkeep (.inl (UInt64.pos_iff_ne_zero.mpr hp))
        exact .forgets slot hs hslots hevents rfl hempty (Int.not_lt.mp (fun hl => hkeep (.inr hl)))

theorem step_effect (ht : Timely s e) (h : s.step e = some t) (k : ActivityKey) :
    t.clock = e.now ∧ Effect s t k e.now (bytesOf k e) := by
  cases e with
  | raw now key bytes => exact raw_effect h k
  | tick now order => exact tick_effect ht h k

/-- One step keeps the accounts of an object and a direction. -/
theorem Good.next (hg : Good s es k) (ht : Timely s e) (h : s.step e = some t) :
    Good t (es ++ [e]) k := by
  obtain ⟨hclock, heffect⟩ := step_effect ht h k
  have hnow := ht.1
  rw [← hclock] at hnow heffect
  cases heffect with
  | same slots events none =>
    have hsent : sent t k = sent s k := by rw [sent, sent, events]
    have hwait : waiting t k = waiting s k := by rw [waiting, waiting, slots]
    refine ⟨?_, ?_, fun slot hslot => ?_, fun hn a ha => ?_, events ▸ hg.spaced⟩
    · rw [hsent, hwait, reported_next, none]
      exact hg.le
    · rw [hsent, hwait, reported_next, none]
      exact hg.mod
    · obtain ⟨hlast, hall⟩ := hg.recent slot (slots ▸ hslot)
      exact ⟨Int.le_trans hlast hnow, events ▸ hall⟩
    · exact Int.le_trans (hg.quiet (slots ▸ hn) a (events ▸ ha)) hnow
  | sends p slots events le mod due =>
    have hsent : sent t k = sent s k + p.toNat := by
      rw [sent, sent, events]
      simp
    have hwait : waiting t k = 0 := by
      rw [waiting, slots]
      rfl
    have hbefore : ∀ a ∈ eventsOf s k, a.time + ACTIVITY_INTERVAL ≤ t.clock := by
      intro a ha
      cases hs : s.slots k with
      | none => exact past_interval (Int.le_trans (hg.quiet hs a ha) hnow)
      | some slot => exact past_last ((hg.recent slot hs).2 a ha) (due slot hs)
    refine ⟨?_, ?_, fun slot hslot => ?_, fun hn => ?_, ?_⟩
    · have hle := hg.le
      rw [hsent, hwait, reported_next]
      omega
    · rw [hsent, hwait, reported_next, Nat.add_zero]
      refine (Nat.ModEq.add_left _ mod).trans ?_
      rw [← Nat.add_assoc]
      exact hg.mod.add_right _
    · obtain rfl := Option.some.inj (slots.symm.trans hslot)
      refine ⟨Int.le_refl _, fun a ha => ?_⟩
      rw [events] at ha
      rcases List.mem_append.mp ha with ha | ha
      · exact before_interval (hbefore a ha)
      · obtain rfl := List.mem_singleton.mp ha
        exact Int.le_refl _
    · rw [slots] at hn
      cases hn
    · rw [events]
      refine List.pairwise_append.mpr ⟨hg.spaced, List.pairwise_singleton .., fun a ha b hb => ?_⟩
      obtain rfl := List.mem_singleton.mp hb
      exact hbefore a ha
  | adds slot p before slots events le mod =>
    have hsent : sent t k = sent s k := by rw [sent, sent, events]
    have hwait : waiting t k = p.toNat := by
      rw [waiting, slots]
      rfl
    refine ⟨?_, ?_, fun slot' hslot => ?_, fun hn => ?_, events ▸ hg.spaced⟩
    · have hle := hg.le
      rw [hsent, hwait, reported_next]
      omega
    · rw [hsent, hwait, reported_next]
      refine (Nat.ModEq.add_left _ mod).trans ?_
      rw [← Nat.add_assoc]
      exact hg.mod.add_right _
    · obtain rfl := Option.some.inj (slots.symm.trans hslot)
      obtain ⟨hlast, hall⟩ := hg.recent slot before
      exact ⟨Int.le_trans hlast hnow, events ▸ hall⟩
    · rw [slots] at hn
      cases hn
  | forgets slot before slots events none empty old =>
    have hsent : sent t k = sent s k := by rw [sent, sent, events]
    have hwas : waiting s k = 0 := by
      rw [waiting, before, Option.map_some, Option.getD_some, empty]
      rfl
    have hwait : waiting t k = 0 := by
      rw [waiting, slots]
      rfl
    refine ⟨?_, ?_, fun slot' hslot => ?_, fun _ a ha => ?_, events ▸ hg.spaced⟩
    · have hle := hg.le
      rw [hwas] at hle
      rw [hsent, hwait, reported_next, none, Nat.add_zero (reported es k)]
      exact hle
    · have hmod := hg.mod
      rw [hwas] at hmod
      rw [hsent, hwait, reported_next, none, Nat.add_zero (reported es k)]
      exact hmod
    · rw [slots] at hslot
      cases hslot
    · exact past_last ((hg.recent slot before).2 a (events ▸ ha)) old

theorem good_run (h : Reach Coalescer.step Timely {} es s) (k : ActivityKey) : Good s es k := by
  induction h with
  | start => exact good_start k
  | next _ hok hstep ih => exact ih.next hok hstep

/-- In every run, for each object and direction: the bytes in its events and those
still pending are the bytes reported, in the 64 bits of the counters and exactly
where these hold the total; a slot that expires has nothing pending; and its events
are an interval apart. -/
theorem activity_conserved (h : Reach Coalescer.step Timely {} es s) (k : ActivityKey) :
    sent s k + waiting s k ≡ reported es k [MOD UInt64.size] ∧
      (reported es k < UInt64.size → sent s k + waiting s k = reported es k) ∧
      (∀ e t slot, Timely s e → s.step e = some t → s.slots k = some slot → t.slots k = none →
        slot.pending = 0) ∧
      (eventsOf s k).Pairwise (fun a b => a.time + ACTIVITY_INTERVAL ≤ b.time) := by
  have hg := good_run h k
  refine ⟨hg.mod, fun hfits => ?_, fun e t slot ht hstep hslot hgone => ?_, hg.spaced⟩
  · have hle := hg.le
    have hmod := hg.mod
    rw [Nat.ModEq, Nat.mod_eq_of_lt (by omega), Nat.mod_eq_of_lt hfits] at hmod
    exact hmod
  · obtain ⟨-, heffect⟩ := step_effect ht hstep k
    cases heffect with
    | same slots events none =>
      rw [slots, hslot] at hgone
      cases hgone
    | sends p slots events le mod due =>
      rw [slots] at hgone
      cases hgone
    | adds slot' p before slots events le mod =>
      rw [slots] at hgone
      cases hgone
    | forgets slot' before slots events none empty old =>
      obtain rfl := Option.some.inj (before.symm.trans hslot)
      exact empty

def radio : ActivityKey := ("ktbr0/radio", .rx)

/-- Two reports in one interval and a timer: the first goes out at once, the second
with the timer. -/
def burst : List CoalesceEvent :=
  [] ++ [.raw 0 radio 10] ++ [.raw 1000000 radio 90] ++ [.tick 100000000 [radio]]

theorem only_updated (k x : ActivityKey) (a b : Slot) :
    x ∈ [k] ↔ (Function.update (Function.update (fun _ => none) k (some a)) k (some b) x).isSome =
      true := by
  by_cases hx : x = k
  · simp [hx]
  · simp [hx]

theorem burst_conserved :
    ∃ s, Reach Coalescer.step Timely {} burst s ∧ sent s radio + waiting s radio = 100 := by
  have hone : Reach Coalescer.step Timely {} ([] ++ [.raw 0 radio 10]) _ :=
    .next .start ⟨by decide, trivial⟩ rfl
  have htwo : Reach Coalescer.step Timely {}
      ([] ++ [.raw 0 radio 10] ++ [.raw 1000000 radio 90]) _ :=
    .next hone ⟨by decide, trivial⟩ rfl
  have hthree : Reach Coalescer.step Timely {} burst _ :=
    .next htwo ⟨by decide, by simp, fun key => only_updated radio key _ _⟩ rfl
  exact ⟨_, hthree, (activity_conserved hthree radio).2.1 (by decide)⟩

end KissTncBridge.Proofs.ActivityEvents
