import KissTncBridge.Lib.Lists
import KissTncBridge.Proofs.PlanFacts

namespace KissTncBridge.Proofs.PlanKicks
open Conf Bridge Reconcile Lib PlanFacts

variable {rt : Runtime} {net : IpNetLib} {sessions : List SessionView}

def byAge (sessions : List SessionView) : List SessionView :=
  sessions.mergeSort (fun a b => a.seq ≤ b.seq)

/-- A reload of a `tcp-server` port that leaves its listener open: the limits
before and after, and what else it may change. -/
structure InPlace where
  id : String
  role : Role
  listen : Listen
  oldMax : Option UInt32
  newMax : Option UInt32
  oldAllow : List IpNet
  newAllow : List IpNet
  oldAnnounce : Bool
  newAnnounce : Bool

namespace InPlace

def old (c : InPlace) : Port :=
  ⟨c.id, c.role, .tcpServer c.listen c.oldMax c.oldAllow c.oldAnnounce⟩

def new (c : InPlace) : Port :=
  ⟨c.id, c.role, .tcpServer c.listen c.newMax c.newAllow c.newAnnounce⟩

def stays (net : IpNetLib) (c : InPlace) (s : SessionView) : Bool :=
  c.oldAllow == c.newAllow || !s.id.peer.ip.any (fun ip => !allowed net c.newAllow ip)

def limit (c : InPlace) : Option Nat :=
  if c.oldMax = c.newMax then none else c.newMax.map UInt32.toNat

end InPlace

def within : Option Nat → List α → List α
  | some n, l => l.take n
  | none, l => l

def beyond : Option Nat → List α → List α
  | some n, l => l.drop n
  | none, _ => []

theorem newestBeyond_eq (sessions : List SessionView) (n : Nat) :
    newestBeyond sessions n = ((byAge sessions).drop n).map SessionView.id := by
  unfold newestBeyond
  split
  · rename_i h
    rw [List.drop_of_length_le (by rwa [byAge, List.length_mergeSort])]
    rfl
  · rfl

@[simp] theorem note_kick (d : Diff) : (d.note c what).kick = d.kick := by
  unfold Diff.note
  split <;> rfl

theorem inPlace_kick (net : IpNetLib) (rt : Runtime) (bid : String) (c : InPlace) :
    (compareKind net rt bid c.old c.new).kick =
      ((rt.sessions bid c.id).filter (fun s => !c.stays net s)).map SessionView.id ++
        (beyond c.limit (byAge (rt.sessions bid c.id))).map SessionView.id := by
  have hfirst : (if (c.oldAllow != c.newAllow) = true then
      ((rt.sessions bid c.id).filter
        (fun s => s.id.peer.ip.any (fun ip => !allowed net c.newAllow ip))).map
        SessionView.id else []) =
      ((rt.sessions bid c.id).filter (fun s => !c.stays net s)).map SessionView.id := by
    by_cases ha : c.oldAllow = c.newAllow
    · simp [InPlace.stays, ha]
    · have hb : (c.oldAllow == c.newAllow) = false := beq_eq_false_iff_ne.mpr ha
      simp [InPlace.stays, ha, hb]
  have hsecond : (c.newMax.elim [] (fun max =>
      if (c.oldMax != c.newMax) = true then newestBeyond (rt.sessions bid c.id) max.toNat
      else [])) =
      (beyond c.limit (byAge (rt.sessions bid c.id))).map SessionView.id := by
    by_cases hm : c.oldMax = c.newMax
    · simp only [InPlace.limit, hm, if_true, beyond, bne_self_eq_false,
        Bool.false_eq_true, if_false]
      cases c.newMax <;> rfl
    · cases hn : c.newMax with
      | none => simp [InPlace.limit, hn, beyond]
      | some max =>
        rw [hn] at hm
        simp [InPlace.limit, hn, hm, beyond, newestBeyond_eq]
  rw [← hfirst, ← hsecond]
  simp only [compareKind, InPlace.old, InPlace.new, ne_eq, not_true, if_false, note_kick]
  cases c.newMax <;> rfl

theorem disconnects_eq (net : IpNetLib) (rt : Runtime) (bid : String) (c : InPlace) :
    (comparePort net rt bid c.old c.new).disconnects =
      ((compareKind net rt bid c.old c.new).kick.mergeSort
        (fun a b => a.peer.text ≤ b.peer.text)).destutter (· ≠ ·) := by
  have hrestart : (compareKind net rt bid c.old c.new).restart = false := by
    rw [compareKind_restart]
    simp [InPlace.old, InPlace.new, sameLink]
  have hrole : c.old.role = c.new.role := rfl
  simp only [comparePort, hrole, ne_eq, not_true, if_false, hrestart, Bool.false_eq_true]

/-- The plan disconnects the sessions that the new list rejects and those
beyond the new limit among all of them. -/
theorem mem_disconnects (net : IpNetLib) (rt : Runtime) (bid : String) (c : InPlace) :
    sid ∈ (comparePort net rt bid c.old c.new).disconnects ↔
      (∃ s ∈ rt.sessions bid c.id, s.id = sid ∧ c.stays net s = false) ∨
        ∃ s ∈ beyond c.limit (byAge (rt.sessions bid c.id)), s.id = sid := by
  rw [disconnects_eq, mem_destutter_ne, List.mem_mergeSort, inPlace_kick, List.mem_append,
    List.mem_map, List.mem_map]
  simp only [List.mem_filter, Bool.not_eq_true']
  constructor
  · rintro (⟨s, ⟨hm, hs⟩, hid⟩ | h)
    · exact .inl ⟨s, hm, hid, hs⟩
    · exact .inr h
  · rintro (⟨s, hm, hid, hs⟩ | h)
    · exact .inl ⟨s, ⟨hm, hs⟩, hid⟩
    · exact .inr h

/-- The plan disconnects exactly the sessions that the new list rejects and,
of the others, the newest beyond the new limit; so the oldest of the others
stay, as many as the limit lets. -/
structure Exact (net : IpNetLib) (c : InPlace) (sessions : List SessionView)
    (gone : List SessionId) : Prop where
  disconnected : ∀ sid, sid ∈ gone ↔ (∃ s ∈ sessions, s.id = sid ∧ c.stays net s = false) ∨
    ∃ s ∈ beyond c.limit ((byAge sessions).filter (c.stays net)), s.id = sid
  survivors : (byAge sessions).filter (fun s => decide (s.id ∉ gone)) =
    within c.limit ((byAge sessions).filter (c.stays net))

/-- With a new limit and a new allow list, no session the list rejects is among
the oldest within the limit, or none it allows is beyond it. -/
def Apart (net : IpNetLib) (c : InPlace) (sessions : List SessionView) : Prop :=
  ∀ n, c.limit = some n → (∀ s ∈ (byAge sessions).take n, c.stays net s = true) ∨
    ∀ s ∈ (byAge sessions).drop n, c.stays net s = false

theorem mem_byAge : s ∈ byAge sessions ↔ s ∈ sessions := List.mem_mergeSort

theorem byAge_nodup (hd : (sessions.map SessionView.id).Nodup) :
    ((byAge sessions).map SessionView.id).Nodup :=
  ((List.mergeSort_perm ..).map _).nodup_iff.mpr hd

/-- Filtering out what lies beyond a limit, by a key that tells all apart. -/
theorem filter_not_beyond {key : α → κ} [DecidableEq κ] {l : List α} (hd : (l.map key).Nodup)
    (limit : Option Nat) (p q : α → Bool)
    (hq : ∀ a ∈ l, q a = true ↔ p a = true ∧ ∀ b ∈ beyond limit l, key b ≠ key a) :
    l.filter q = (within limit l).filter p := by
  cases limit with
  | none =>
    refine List.filter_congr (fun a ha => ?_)
    rw [Bool.eq_iff_iff, hq a ha]
    simp [beyond]
  | some n =>
    have hsplit : l = l.take n ++ l.drop n := (List.take_append_drop n l).symm
    have hdis : ∀ a ∈ l.take n, ∀ b ∈ l.drop n, key b ≠ key a := by
      rw [hsplit, List.map_append, List.nodup_append] at hd
      intro a ha b hb he
      exact hd.2.2 _ (List.mem_map_of_mem ha) _ (List.mem_map_of_mem hb) he.symm
    have htake : (l.take n).filter q = (l.take n).filter p := by
      refine List.filter_congr (fun a ha => ?_)
      rw [Bool.eq_iff_iff, hq a (List.mem_of_mem_take ha)]
      exact and_iff_left (hdis a ha)
    have hdrop : (l.drop n).filter q = [] := by
      refine List.filter_eq_nil_iff.mpr (fun a ha hqa => ?_)
      exact ((hq a (List.mem_of_mem_drop ha)).mp hqa).2 a ha rfl
    conv_lhs => rw [hsplit]
    rw [List.filter_append, htake, hdrop, List.append_nil]
    rfl

theorem within_append_beyond (limit : Option Nat) (l : List α) :
    within limit l ++ beyond limit l = l := by
  cases limit with
  | none => exact List.append_nil l
  | some n => exact List.take_append_drop n l

/-- What an in-place change lets stay: the allowed ones among the oldest. -/
theorem survivors_eq (net : IpNetLib) (rt : Runtime) (bid : String) (c : InPlace)
    (hd : ((rt.sessions bid c.id).map SessionView.id).Nodup) :
    (byAge (rt.sessions bid c.id)).filter
        (fun s => decide (s.id ∉ (comparePort net rt bid c.old c.new).disconnects)) =
      (within c.limit (byAge (rt.sessions bid c.id))).filter (c.stays net) := by
  refine filter_not_beyond (byAge_nodup hd) c.limit (c.stays net) _ (fun s hs => ?_)
  rw [decide_eq_true_iff, mem_disconnects, not_or]
  have hself : (¬∃ s' ∈ rt.sessions bid c.id, s'.id = s.id ∧ c.stays net s' = false) ↔
      c.stays net s = true := by
    constructor
    · intro h
      by_contra hno
      exact h ⟨s, mem_byAge.mp hs, rfl, by simpa using hno⟩
    · rintro h ⟨s', hs', hid, hno⟩
      obtain rfl : s' = s := List.inj_on_of_nodup_map hd hs' (mem_byAge.mp hs) hid
      rw [h] at hno
      cases hno
  rw [hself]
  simp only [not_exists, not_and, ne_eq]

/-- The plan is exact unless the new list rejects one of the oldest sessions and
allows one of those beyond the new limit. -/
theorem disconnects_exact_iff {c : InPlace}
    (hd : ((rt.sessions bid c.id).map SessionView.id).Nodup) :
    Exact net c (rt.sessions bid c.id) (comparePort net rt bid c.old c.new).disconnects ↔
      Apart net c (rt.sessions bid c.id) := by
  have hsurv := survivors_eq net rt bid c hd
  have hwithin : (within c.limit (byAge (rt.sessions bid c.id))).filter (c.stays net) =
      within c.limit ((byAge (rt.sessions bid c.id)).filter (c.stays net)) ↔
      Apart net c (rt.sessions bid c.id) := by
    unfold Apart
    cases hl : c.limit with
    | none => simp [within]
    | some n =>
      simp only [within, Option.some.injEq, forall_eq']
      exact filter_take_iff ..
  rw [← hwithin, ← hsurv]
  refine ⟨fun h => h.survivors, fun h => ⟨fun sid => ?_, h⟩⟩
  have hparts : within c.limit ((byAge (rt.sessions bid c.id)).filter (c.stays net)) ++
      beyond c.limit ((byAge (rt.sessions bid c.id)).filter (c.stays net)) =
      (byAge (rt.sessions bid c.id)).filter (c.stays net) := within_append_beyond ..
  have hkept : ∀ s ∈ byAge (rt.sessions bid c.id),
    s.id ∉ (comparePort net rt bid c.old c.new).disconnects ↔
      s ∈ within c.limit ((byAge (rt.sessions bid c.id)).filter (c.stays net)) := by
    intro s hs
    rw [← h, List.mem_filter, decide_eq_true_iff]
    exact (and_iff_right hs).symm
  have hdisjoint : ∀ s ∈ within c.limit ((byAge (rt.sessions bid c.id)).filter (c.stays net)),
      s ∉ beyond c.limit ((byAge (rt.sessions bid c.id)).filter (c.stays net)) := by
    have hnodup := (byAge_nodup hd).of_map.filter (c.stays net)
    rw [← hparts, List.nodup_append] at hnodup
    exact fun s hs hs' => hnodup.2.2 s hs s hs' rfl
  constructor
  · intro hmem
    rcases (mem_disconnects net rt bid c).mp hmem with hrej | ⟨s, hs, rfl⟩
    · exact .inl hrej
    · have hall : s ∈ byAge (rt.sessions bid c.id) := by
        rw [← within_append_beyond c.limit (byAge (rt.sessions bid c.id))]
        exact List.mem_append_right _ hs
      cases hst : c.stays net s with
      | false => exact .inl ⟨s, mem_byAge.mp hall, rfl, hst⟩
      | true =>
        have hin : s ∈ (byAge (rt.sessions bid c.id)).filter (c.stays net) :=
          List.mem_filter.mpr ⟨hall, hst⟩
        rw [← hparts] at hin
        rcases List.mem_append.mp hin with hw | hb
        · exact absurd hmem ((hkept s hall).mpr hw)
        · exact .inr ⟨s, hb, rfl⟩
  · rintro (hrej | ⟨s, hs, rfl⟩)
    · exact (mem_disconnects net rt bid c).mpr (.inl hrej)
    · by_contra hno
      have hin : s ∈ (byAge (rt.sessions bid c.id)).filter (c.stays net) := by
        rw [← hparts]
        exact List.mem_append_right _ hs
      exact hdisjoint s ((hkept s (List.mem_filter.mp hin).1).mp hno) hs

/-- A network holds the IPv4 addresses that begin as its own does. -/
def prefixNet : IpNetLib where
  parse _ := none
  contains n ip := match n.addr, ip with
    | .v4 a, .v4 b => a >>> (32 - n.bits) == b >>> (32 - n.bits)
    | _, _ => false

def client (host seq : Nat) : SessionView := ⟨⟨"lan", .tcp (.v4 (BitVec.ofNat 32 host) 50000)⟩, seq⟩

/-- An old session from `192.168.5.9` and a newer one from `192.168.4.2`. -/
def stranger : SessionView := client 0xc0a80509 1

def friend : SessionView := client 0xc0a80402 2

def lanRuntime (sessions : List SessionView) : Runtime :=
  ⟨(∅ : Std.TreeMap String BridgeView).insert "ktbr0" ⟨false, sessions⟩, none⟩

def tightened : InPlace where
  id := "lan"
  role := .app
  listen := .interface "wlan0" 8001
  oldMax := none
  newMax := some 1
  oldAllow := []
  newAllow := [⟨.v4 0xc0a80400#32, 24⟩]
  oldAnnounce := true
  newAnnounce := true

theorem byAge_of_sorted (h : sessions.Pairwise (fun a b => a.seq ≤ b.seq)) :
    byAge sessions = sessions := by
  refine List.mergeSort_of_pairwise (h.imp ?_)
  intro a b hab
  exact decide_eq_true hab

/-- The friend is the only session that is allowed, and is disconnected with
the stranger. -/
theorem friend_disconnected :
    ¬ Exact prefixNet tightened ((lanRuntime [stranger, friend]).sessions "ktbr0" "lan")
      (comparePort prefixNet (lanRuntime [stranger, friend]) "ktbr0" tightened.old
        tightened.new).disconnects := by
  intro h
  have hsessions : (lanRuntime [stranger, friend]).sessions "ktbr0" "lan" = [stranger, friend] := by
    decide +kernel
  have hage : byAge [stranger, friend] = [stranger, friend] := byAge_of_sorted (by decide)
  have hleft :=
    survivors_eq prefixNet (lanRuntime [stranger, friend]) "ktbr0" tightened (by decide +kernel)
  have hright := h.survivors
  rw [show tightened.id = "lan" from rfl, hright, hsessions, hage] at hleft
  revert hleft
  decide

/-- Two friends, the newer of which is beyond the limit, and a stranger that is
newer still. -/
theorem disconnects_exact_iff_friends :
    Exact prefixNet tightened
      ((lanRuntime [friend, client 0xc0a80403 3, client 0xc0a80509 4]).sessions "ktbr0" "lan")
      (comparePort prefixNet (lanRuntime [friend, client 0xc0a80403 3, client 0xc0a80509 4]) "ktbr0"
        tightened.old tightened.new).disconnects := by
  refine (disconnects_exact_iff (by decide +kernel)).mpr (fun n hn => .inl ?_)
  have hsessions :
    (lanRuntime [friend, client 0xc0a80403 3, client 0xc0a80509 4]).sessions "ktbr0" "lan" =
      [friend, client 0xc0a80403 3, client 0xc0a80509 4] := by
    decide +kernel
  have hage : byAge [friend, client 0xc0a80403 3, client 0xc0a80509 4] =
      [friend, client 0xc0a80403 3, client 0xc0a80509 4] := byAge_of_sorted (by decide)
  cases hn
  rw [show tightened.id = "lan" from rfl, hsessions, hage]
  decide

end KissTncBridge.Proofs.PlanKicks
