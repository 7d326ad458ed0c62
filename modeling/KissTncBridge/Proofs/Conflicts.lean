import Mathlib.Data.List.Forall2
import KissTncBridge.Proofs.ValidConfig
import KissTncBridge.Supervisor.Change

namespace KissTncBridge.Proofs.Conflicts
open Conf Supervisor ValidConfig

/-- Two ports that cannot both be open: the same TNC, fighting listen
sockets, or the same BLE adapter. -/
def Clash (p q : Port) : Prop :=
  (∃ t, p.tncId = some t ∧ q.tncId = some t) ∨
    match p.kind, q.kind with
    | .tcpServer la _ _ _, .tcpServer lb _ _ _ => la.conflictsWith lb = true
    | .bleServer aa _, .bleServer ab _ => aa = ab
    | _, _ => False

theorem conflictsWith_comm (a b : Listen) : a.conflictsWith b = b.conflictsWith a := by
  have hport : (a.port ≠ b.port) = (b.port ≠ a.port) := by rw [ne_comm]
  simp only [Listen.conflictsWith, hport]
  split
  · rfl
  · cases a with
    | addr x =>
      cases b with
      | addr y => grind
      | interface => rfl
    | interface x =>
      cases b with
      | addr => rfl
      | interface y => grind

theorem Clash.symm (h : Clash p q) : Clash q p := by
  rcases h with ⟨t, hp, hq⟩ | h
  · exact .inl ⟨t, hq, hp⟩
  · refine .inr ?_
    split at h
    · rename_i la _ _ _ lb _ _ _ hp hq
      rw [hp, hq]
      exact (conflictsWith_comm lb la).trans h
    · rename_i hp hq
      rw [hp, hq]
      exact h.symm
    · cases h

theorem portConflicts_nil (a b : Conf.Bridge) : portConflicts a b p q = [] ↔ ¬Clash p q := by
  rw [portConflicts, List.append_eq_nil_iff, Clash, not_or]
  refine and_congr ?_ ?_
  · cases p.tncId <;> cases q.tncId <;> simp [eq_comm]
  · split <;> simp_all

def Compatible (a b : Conf.Bridge) : Prop := bridgeConflicts a b = []

theorem compatible_iff (a b : Conf.Bridge) :
    Compatible a b ↔ a.publicName ≠ b.publicName ∧ ∀ p ∈ a.ports, ∀ q ∈ b.ports, ¬Clash p q := by
  simp [Compatible, bridgeConflicts, portConflicts_nil]

theorem conflicts_nil (l : List Conf.Bridge) : conflicts l = [] ↔ l.Pairwise Compatible := by
  induction l with
  | nil => simp [conflicts]
  | cons a rest ih => simp [conflicts, ih, Compatible]

def Complete (b : Conf.Bridge) : Prop := b.tncPorts.length = 1 ∧ b.appPorts.length ≠ 0

def withEnabled (on : Conf.Bridge → Bool) (cfg : Config) : Config :=
  { cfg with bridges := cfg.bridges.map (fun b => { b with enabled := on b }) }

def running (cfg : Config) : List Conf.Bridge := cfg.bridges.filter (·.enabled)

def off (b : Conf.Bridge) : Conf.Bridge := { b with enabled := false }

def allOff (cfg : Config) : Config := withEnabled (fun _ => false) cfg

theorem seenBefore_off [DecidableEq κ] (key : Conf.Bridge → Option κ)
    (hk : ∀ b, key (off b) = key b) (seen : List Conf.Bridge) (b : Conf.Bridge) :
    seenBefore key (seen.map off) (off b) = (seenBefore key seen b).map off := by
  simp only [seenBefore, hk]
  split
  · rfl
  · rw [List.find?_map]
    simp only [Function.comp_def, hk]

theorem if_cons_nil {c : Prop} [Decidable c] {a : α} {l : List α} :
    (if c then a :: l else []) = [] ↔ ¬c := by
  split <;> simp_all

theorem bridgeErrors_iff (seen : List Conf.Bridge) (b : Conf.Bridge) :
    bridgeErrors seen b = [] ↔
      ((seenBefore (fun x => some x.id) seen b = none ∧
        seenBefore (fun x => some x.name) seen b = none) ∧
        walk (portErrors b) [] b.ports = []) ∧ (b.enabled = true → Complete b) := by
  have hcomplete : (¬(b.enabled = true ∧ b.tncPorts.length ≠ 1) ∧
      ¬(b.enabled = true ∧ b.appPorts.length = 0)) ↔ (b.enabled = true → Complete b) := by
    rw [Complete]
    tauto
  simp only [bridgeErrors, List.append_eq_nil_iff, if_cons_nil]
  rw [and_assoc, hcomplete]
  refine and_congr_left (fun _ => and_congr_left (fun _ => and_congr ?_ ?_))
  · cases seenBefore (fun x => some x.id) seen b with
    | none => exact ⟨fun _ => rfl, fun _ => rfl⟩
    | some => exact ⟨fun h => absurd h (List.cons_ne_nil _ _), fun h => by cases h⟩
  · cases seenBefore (fun x => some x.name) seen b with
    | none => exact ⟨fun _ => rfl, fun _ => rfl⟩
    | some => exact ⟨fun h => absurd h (List.cons_ne_nil _ _), fun h => by cases h⟩

theorem bridgeErrors_off (seen : List Conf.Bridge) (b : Conf.Bridge) :
    bridgeErrors seen b = [] ↔
      bridgeErrors (seen.map off) (off b) = [] ∧ (b.enabled = true → Complete b) := by
  have hid := seenBefore_off (fun x => some x.id) (fun _ => rfl) seen b
  have hname := seenBefore_off (fun x => some x.name) (fun _ => rfl) seen b
  have hports : walk (portErrors (off b)) [] (off b).ports = walk (portErrors b) [] b.ports := rfl
  have hflag : ((off b).enabled = true → Complete (off b)) ↔ True := by simp [off]
  rw [bridgeErrors_iff, bridgeErrors_iff (seen.map off), hid, hname, hports, hflag, and_true,
    Option.map_eq_none_iff, Option.map_eq_none_iff]

theorem walk_bridgeErrors (seen l : List Conf.Bridge) :
    walk bridgeErrors seen l = [] ↔
      walk bridgeErrors (seen.map off) (l.map off) = [] ∧ ∀ b ∈ l, b.enabled = true →
      Complete b := by
  induction l generalizing seen with
  | nil => simp [walk]
  | cons b l ih =>
    simp only [walk, List.map_cons, List.append_eq_nil_iff, List.forall_mem_cons, ih (b :: seen),
      bridgeErrors_off seen b]
    tauto

/-- Validation asks three kinds of question: what holds whatever is enabled,
what each enabled bridge needs, and what each pair of them needs. -/
theorem valid_iff (cfg : Config) :
    Valid cfg ↔
      Valid (allOff cfg) ∧ (∀ b ∈ running cfg, Complete b) ∧ (running cfg).Pairwise Compatible := by
  have hnone : (cfg.bridges.map off).filter (·.enabled) = [] := by
    simp [List.filter_eq_nil_iff, off]
  have hbridges := walk_bridgeErrors [] cfg.bridges
  have hall : (allOff cfg).bridges = cfg.bridges.map off := rfl
  have hoff : Valid (allOff cfg) ↔ (walk adapterErrors [] cfg.adapters = [] ∧
      walk tncErrors [] cfg.tncs = []) ∧ walk bridgeErrors [] (cfg.bridges.map off) = [] := by
    simp only [Valid, validate, hall, hnone, List.append_eq_nil_iff, conflicts, and_true]
    rfl
  rw [hoff]
  simp only [Valid, validate, List.append_eq_nil_iff, conflicts_nil, hbridges, running,
    List.mem_filter, and_imp, List.map_nil]
  tauto

theorem mem_running : b ∈ running cfg ↔ b ∈ cfg.bridges ∧ b.enabled = true := by
  rw [running, List.mem_filter]

/-- No two ports of enabled bridges clash, whichever bridges they are in. -/
def Unshared (cfg : Config) : Prop :=
  ∀ a ∈ cfg.bridges, ∀ b ∈ cfg.bridges, a.enabled = true → b.enabled = true →
    ∀ p ∈ a.ports, ∀ q ∈ b.ports, (a.id, p.id) ≠ (b.id, q.id) → ¬Clash p q

theorem Valid.apart (h : Valid cfg) (ha : a ∈ running cfg) (hb : b ∈ running cfg) (hne : a ≠ b)
    (hp : p ∈ a.ports) (hq : q ∈ b.ports) : ¬Clash p q := by
  have hpair : (running cfg).Pairwise (fun a b => ∀ p ∈ a.ports, ∀ q ∈ b.ports, ¬Clash p q) :=
    ((valid_iff cfg).mp h).2.2.imp (fun hc => ((compatible_iff _ _).mp hc).2)
  have hsymm : Std.Symm (fun a b : Conf.Bridge => ∀ p ∈ a.ports, ∀ q ∈ b.ports, ¬Clash p q) :=
    ⟨fun _ _ h p hp q hq hc => h q hq p hp hc.symm⟩
  exact hpair.forall ha hb hne p hp q hq

/-- Validation compares each enabled bridge with the others only: an accepted
config has no clash exactly when no enabled bridge clashes with itself. -/
theorem unshared_iff_within (h : Valid cfg) :
    Unshared cfg ↔
      ∀ b ∈ cfg.bridges, b.enabled = true → b.ports.Pairwise (fun p q => ¬Clash p q) := by
  constructor
  · intro hu b hb he
    have hids : b.ports.Pairwise (fun p q => p.id ≠ q.id) := List.pairwise_map.mp (h.port_ids hb)
    refine hids.imp_of_mem (fun {p q} hp hq hne => hu b hb b hb he he p hp q hq ?_)
    exact fun he => hne (Prod.mk.inj he).2
  · intro hw a ha b hb hea heb p hp q hq hne
    by_cases hab : a = b
    · subst hab
      have hsymm : Std.Symm (fun p q : Port => ¬Clash p q) := ⟨fun _ _ h hc => h hc.symm⟩
      exact (hw a ha hea).forall hp hq (fun he => hne (by rw [he]))
    · exact Valid.apart h (mem_running.mpr ⟨ha, hea⟩) (mem_running.mpr ⟨hb, heb⟩) hab hp hq

def houseRadio : Port := ⟨"radio", .tnc, .tcpClient "tnc.local" 8001 .onDemand 0⟩

def houseApps (pid : String) (port : UInt16) : Port :=
  ⟨pid, .app, .tcpServer (.addr (.v4 0x7f000001#32 port)) none [] false⟩

def house (bid : String) (ports : List Port) : Conf.Bridge :=
  ⟨bid, bid, bid, true, none, .pass, ports, .dynamic⟩

def houseConfig (bridges : List Conf.Bridge) : Config :=
  ⟨⟨"info", .default⟩, ⟨"kiss"⟩, [], [], bridges⟩

theorem unshared_iff_within_house :
    Unshared (houseConfig [house "ktbr0" [houseRadio, houseApps "apps" 8001]]) := by
  refine (unshared_iff_within (by decide +kernel)).mpr ?_
  intro b hb _
  obtain rfl := List.mem_singleton.mp hb
  simp [house, houseRadio, houseApps, Clash, Port.tncId]

def houseTwice : Conf.Bridge :=
  house "ktbr0" [houseRadio, houseApps "apps" 8001, houseApps "more" 8001]

theorem valid_with_shared_socket :
    Valid (houseConfig [houseTwice]) ∧ ¬Unshared (houseConfig [houseTwice]) := by
  refine ⟨by decide +kernel, fun h => ?_⟩
  refine h houseTwice (by decide +kernel) houseTwice (by decide +kernel) rfl rfl
    (houseApps "apps" 8001) (by decide +kernel) (houseApps "more" 8001) (by decide +kernel)
    (by decide +kernel) (.inr ?_)
  change Listen.conflictsWith (.addr (.v4 0x7f000001#32 8001))
    (.addr (.v4 0x7f000001#32 8001)) = true
  decide +kernel

theorem running_withEnabled (on : Conf.Bridge → Bool) (cfg : Config) :
    running (withEnabled on cfg) =
      (cfg.bridges.filter on).map (fun b => { b with enabled := on b }) := by
  simp [running, withEnabled, List.filter_map, Function.comp_def]

theorem allOff_withEnabled (on : Conf.Bridge → Bool) (cfg : Config) :
    allOff (withEnabled on cfg) = allOff cfg := by
  simp [allOff, withEnabled, Function.comp_def]

/-- Neither kind of question looks at the flags themselves. -/
theorem valid_withEnabled (on : Conf.Bridge → Bool) (cfg : Config) :
    Valid (withEnabled on cfg) ↔
      Valid (allOff cfg) ∧ (∀ b ∈ cfg.bridges, on b = true → Complete b) ∧
        cfg.bridges.Pairwise (fun a b => on a = true → on b = true → Compatible a b) := by
  rw [valid_iff, allOff_withEnabled, running_withEnabled, List.pairwise_map, List.pairwise_filter]
  simp only [List.forall_mem_map, List.mem_filter, and_imp]
  rfl

def LeftOn (cfg cfg' : Config) : Prop :=
  ∃ bs, cfg' = { cfg with bridges := bs } ∧
    List.Forall₂ (fun b b' => b' = b ∨ b' = { b with enabled := false }) cfg.bridges bs

theorem leftOn_off (h : LeftOn cfg cfg') : allOff cfg' = allOff cfg := by
  obtain ⟨bs, rfl, hall⟩ := h
  have hmap : bs.map off = cfg.bridges.map off := by
    generalize cfg.bridges = l at hall
    induction hall with
    | nil => rfl
    | cons hb _ ih =>
      rw [List.map_cons, List.map_cons, ih]
      rcases hb with rfl | rfl <;> rfl
  exact congrArg (fun l => { cfg with bridges := l }) hmap

theorem leftOn_running (h : LeftOn cfg cfg') : (running cfg').Sublist (running cfg) := by
  obtain ⟨bs, rfl, hall⟩ := h
  change (bs.filter (·.enabled)).Sublist (cfg.bridges.filter (·.enabled))
  generalize cfg.bridges = l at hall
  induction hall with
  | nil => exact .slnil
  | @cons b b' l l' hb _ ih =>
    rcases hb with rfl | rfl
    · cases hen : b'.enabled
      · simpa [hen] using ih
      · simpa [hen] using ih
    · cases hen : b.enabled
      · simpa [hen] using ih
      · simpa [hen] using ih.cons b

theorem Valid.leftOn (h : Valid cfg) (hl : LeftOn cfg cfg') : Valid cfg' := by
  obtain ⟨hoff, hone, htwo⟩ := (valid_iff cfg).mp h
  have hsub := leftOn_running hl
  exact (valid_iff cfg').mpr ⟨leftOn_off hl ▸ hoff, fun b hb => hone b (hsub.subset hb),
    htwo.sublist hsub⟩

/-- Any of the enabled bridges can be the ones left. -/
theorem exists_leftOn {k l : List Conf.Bridge} (hs : k.Sublist l) (hk : ∀ b ∈ k, b.enabled = true) :
    ∃ bs, List.Forall₂ (fun b b' => b' = b ∨ b' = { b with enabled := false }) l bs ∧
      bs.filter (·.enabled) = k := by
  induction hs with
  | slnil => exact ⟨[], .nil, rfl⟩
  | cons b _ ih =>
    obtain ⟨bs, hall, hf⟩ := ih hk
    exact ⟨off b :: bs, .cons (.inr rfl) hall, by simpa [off] using hf⟩
  | cons_cons b _ ih =>
    obtain ⟨hb, hk⟩ := List.forall_mem_cons.mp hk
    obtain ⟨bs, hall, hf⟩ := ih hk
    exact ⟨b :: bs, .cons (.inl rfl) hall, by simpa [hb] using hf⟩

/-- The bridges left on decide the errors by themselves. -/
theorem invalid_left {k : List Conf.Bridge} (hs : k.Sublist (running cfg)) (hlen : k.length ≤ 2)
    (hk : Valid (allOff cfg) → (∀ b ∈ k, Complete b) → ¬k.Pairwise Compatible) :
    ∃ cfg', LeftOn cfg cfg' ∧ (cfg'.bridges.filter (·.enabled)).length ≤ 2 ∧ ¬Valid cfg' := by
  obtain ⟨bs, hall, hf⟩ := exists_leftOn (hs.trans List.filter_sublist)
    (fun b hb => (mem_running.mp (hs.subset hb)).2)
  have hleft : LeftOn cfg { cfg with bridges := bs } := ⟨bs, rfl, hall⟩
  refine ⟨{ cfg with bridges := bs }, hleft, hf ▸ hlen, fun hv => ?_⟩
  obtain ⟨hoff, hone, htwo⟩ := (valid_iff _).mp hv
  have hrun : running { cfg with bridges := bs } = k := hf
  rw [leftOn_off hleft] at hoff
  rw [hrun] at hone htwo
  exact hk hoff hone htwo

theorem invalid_iff_left (cfg : Config) :
    ¬Valid cfg ↔
      ∃ cfg', LeftOn cfg cfg' ∧ (cfg'.bridges.filter (·.enabled)).length ≤ 2 ∧ ¬Valid cfg' := by
  refine ⟨fun h => ?_, fun ⟨cfg', hl, _, hn⟩ h => hn (Valid.leftOn h hl)⟩
  rw [valid_iff] at h
  by_cases hoff : Valid (allOff cfg)
  · by_cases hone : ∀ b ∈ running cfg, Complete b
    · have htwo : ¬(running cfg).Pairwise Compatible := fun htwo => h ⟨hoff, hone, htwo⟩
      rw [List.pairwise_iff_forall_sublist] at htwo
      push Not at htwo
      obtain ⟨a, b, hs, hc⟩ := htwo
      exact invalid_left hs (le_refl 2) (fun _ _ hp => hc (List.pairwise_pair.mp hp))
    · push Not at hone
      obtain ⟨b, hb, hc⟩ := hone
      exact invalid_left (List.singleton_sublist.mpr hb) (by simp)
        (fun _ hone => absurd (hone b (List.mem_singleton_self b)) hc)
  · exact invalid_left (List.nil_sublist _) (by simp) (fun h => absurd h hoff)

def only (cfg : Config) (bid : String) : Config := withEnabled (fun x => x.id == bid) cfg

def pairOf (cfg : Config) (bid other : String) : Config :=
  withEnabled (fun x => x.id == bid || x.id == other) cfg

def switched (cfg : Config) (bid : String) : Config :=
  withEnabled (fun x => x.id == bid || x.enabled && !(conflicting cfg bid).contains x.id) cfg

theorem mem_conflicting : other ∈ conflicting cfg bid ↔
    (∃ b ∈ cfg.bridges, b.enabled = true ∧ b.id = other) ∧ other ≠ bid ∧
    ¬Valid (pairOf cfg bid other) := by
  simp only [conflicting, List.mem_map, List.mem_filter, Bool.and_eq_true, bne_iff_ne,
    Bool.not_eq_true', List.isEmpty_eq_false_iff]
  constructor
  · rintro ⟨b, ⟨⟨hb, he, hne⟩, hv⟩, rfl⟩
    exact ⟨⟨b, hb, he, rfl⟩, hne, hv⟩
  · rintro ⟨⟨b, hb, he, rfl⟩, hne, hv⟩
    exact ⟨b, ⟨⟨hb, he, hne⟩, hv⟩, rfl⟩

theorem pair_compatible {l : List Conf.Bridge} {on : Conf.Bridge → Bool}
    (h : l.Pairwise (fun a b => on a = true → on b = true → Compatible a b)) (hs : [a, b].Sublist l)
    (ha : on a = true) (hb : on b = true) : Compatible a b :=
  List.pairwise_iff_forall_sublist.mp h hs ha hb

/-- A bridge that is not in the way can run beside `bid`. -/
theorem pair_valid (hx : x ∈ cfg.bridges) (he : x.enabled = true) (hne : x.id ≠ bid)
    (hc : x.id ∉ conflicting cfg bid) : Valid (pairOf cfg bid x.id) := by
  by_contra hv
  exact hc (mem_conflicting.mpr ⟨⟨x, hx, he, rfl⟩, hne, hv⟩)

theorem switched_valid (hv : Valid cfg) (ho : Valid (only cfg bid)) : Valid (switched cfg bid) := by
  obtain ⟨hoff, hone, htwo⟩ := (valid_iff cfg).mp hv
  obtain ⟨-, hself, hselves⟩ := (valid_withEnabled _ cfg).mp ho
  have hbeside :
      cfg.bridges.Pairwise (fun a b => a.enabled = true → b.enabled = true → Compatible a b) :=
    List.pairwise_filter.mp htwo
  have hpair : ∀ x ∈ cfg.bridges, x.enabled = true → x.id ≠ bid → x.id ∉ conflicting cfg bid →
      cfg.bridges.Pairwise (fun a b => (a.id == bid || a.id == x.id) = true →
        (b.id == bid || b.id == x.id) = true → Compatible a b) :=
    fun x hx he hne hc => ((valid_withEnabled _ cfg).mp (pair_valid hx he hne hc)).2.2
  have hon : ∀ x : Conf.Bridge,
    (x.id == bid || x.enabled && !(conflicting cfg bid).contains x.id) = true →
      x.id = bid ∨ x.enabled = true ∧ x.id ≠ bid ∧ x.id ∉ conflicting cfg bid := by
    intro x hx
    by_cases hb : x.id = bid
    · exact .inl hb
    · exact .inr (by simpa [hb] using hx)
  refine (valid_withEnabled _ cfg).mpr ⟨hoff, fun b hb h => ?_, ?_⟩
  · rcases hon b h with hid | ⟨he, -, -⟩
    · exact hself b hb (by simp [hid])
    · exact hone b (mem_running.mpr ⟨hb, he⟩)
  · refine List.pairwise_iff_forall_sublist.mpr (fun {a b} hs hoa hob => ?_)
    have ha : a ∈ cfg.bridges := hs.subset (by simp)
    have hb : b ∈ cfg.bridges := hs.subset (by simp)
    rcases hon a hoa with hia | ⟨hea, hna, hca⟩
    · rcases hon b hob with hib | ⟨heb, hnb, hcb⟩
      · exact pair_compatible hselves hs (by simp [hia]) (by simp [hib])
      · exact pair_compatible (hpair b hb heb hnb hcb) hs (by simp [hia]) (by simp)
    · rcases hon b hob with hib | ⟨heb, -, -⟩
      · exact pair_compatible (hpair a ha hea hna hca) hs (by simp) (by simp [hib])
      · exact pair_compatible hbeside hs hea heb

/-- A switch works whenever the bridge could run alone, and disables only
bridges that cannot run beside it, because no error needs three bridges. -/
theorem switch_disables_least (cfg : Config) (bid : String) (host : Option Host) :
    (Valid cfg → (validate (only cfg bid) host).errors = [] →
      (validate (switched cfg bid) host).errors = [] ∧
        ∀ other ∈ conflicting cfg bid, (validate (pairOf cfg bid other) host).errors ≠ []) ∧
      ((validate cfg host).errors ≠ [] ↔
        ∃ cfg', LeftOn cfg cfg' ∧ (cfg'.bridges.filter (·.enabled)).length ≤ 2 ∧
          (validate cfg' host).errors ≠ []) :=
  ⟨fun hv ho => ⟨switched_valid hv ho, fun _ hc => (mem_conflicting.mp hc).2.2⟩,
    invalid_iff_left cfg⟩

def houseThree : Config :=
  houseConfig [house "ktbr0" [houseRadio, houseApps "apps" 8001],
    off (house "ktbr1" [houseRadio, houseApps "apps" 8001]),
    house "ktbr2" [houseRadio, houseApps "apps" 8002]]

theorem switch_disables_least_house :
    conflicting houseThree "ktbr1" = ["ktbr0"] ∧
    (validate (switched houseThree "ktbr1") none).errors = [] ∧
      (validate (pairOf houseThree "ktbr1" "ktbr0") none).errors ≠ [] := by
  have hc : conflicting houseThree "ktbr1" = ["ktbr0"] := by decide +kernel
  obtain ⟨hv, hpair⟩ :=
    (switch_disables_least houseThree "ktbr1" none).1 (by decide +kernel) (by decide +kernel)
  exact ⟨hc, hv, hpair "ktbr0" (by rw [hc]; exact List.mem_singleton_self _)⟩

end KissTncBridge.Proofs.Conflicts
