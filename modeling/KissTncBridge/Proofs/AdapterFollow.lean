import KissTncBridge.Lib.Lists
import KissTncBridge.Lib.Runs
import KissTncBridge.Proofs.ActSteps
import KissTncBridge.Proofs.BleSlots

namespace KissTncBridge.Proofs.AdapterFollow
open Lib Conf Bridge Reconcile Supervisor Daemon Ble ApplyFrame PlanFacts ValidConfig ApplyPorts
open ApplyEffects ActSteps BleSlots

/-- The adapter a selector means among the adapters present. -/
def Denotes (a : Adapters) : AdapterSel → String → Prop
  | .default, n => n ∈ a.names ∧ ∀ m ∈ a.names, n ≤ m
  | .hci h, n => n = h ∧ h ∈ a.names
  | .mac m, n => ∃ p, a.present n = some p ∧ p.mac = m

theorem mem_sorted (a : Adapters) : n ∈ a.sorted ↔ n ∈ a.names :=
  (List.perm_insertionSort _ a.names).mem_iff

theorem sorted_head (h : Adapters.sorted a = n :: rest) : ∀ m ∈ a.names, n ≤ m := by
  intro m hm
  have : IsTrans String (fun m n => m ≤ n) := ⟨fun _ _ _ => String.le_trans⟩
  have : Std.Total (fun m n : String => m ≤ n) := ⟨String.le_total⟩
  have hs : a.sorted.Pairwise (fun m n => m ≤ n) := List.pairwise_insertionSort _ a.names
  rw [h] at hs
  have hm := (mem_sorted a).mpr hm
  rw [h] at hm
  rcases List.mem_cons.mp hm with rfl | hm
  · exact String.le_refl _
  · exact (List.pairwise_cons.mp hs).1 m hm

theorem want_denotes (a : Adapters) (h : a.want sel = some n) : Denotes a sel n := by
  cases sel with
  | default =>
    obtain ⟨rest, hs⟩ := List.head?_eq_some_iff.mp h
    refine ⟨(mem_sorted a).mp ?_, sorted_head hs⟩
    rw [hs]
    exact List.mem_cons_self ..
  | hci h' =>
    have he : n = h' := by simpa using List.find?_some h
    exact ⟨he, he ▸ (mem_sorted a).mp (List.mem_of_find?_eq_some h)⟩
  | mac m =>
    have hp := List.find?_some h
    obtain ⟨p, hp, hm⟩ := (Option.any_eq_true _ _).mp hp
    exact ⟨p, hp, by simpa using hm⟩

def sig (s : BleSlot) : String × String × AdapterSel := (s.bridgeId, s.portId, s.adapter)

theorem stopSlot_sig (a : Adapters) (s : BleSlot) : sig (stopSlot a s) = sig s := by
  unfold stopSlot
  split
  · rfl
  · split <;> rfl

theorem startSlot_sig (h : startSlot a s task = some (s', task')) : sig s' = sig s := by
  unfold startSlot at h
  repeat' split at h
  all_goals cases h
  all_goals rfl

/-- After it is looked at, a port that runs is on the adapter its slot wants. -/
theorem startSlot_on (h : startSlot a (stopSlot a s) task = some (s', task'))
    (hr : s'.running = some r) : a.want s.adapter = some r.adapter := by
  have hsel : (stopSlot a s).adapter = s.adapter := congrArg (fun x => x.2.2) (stopSlot_sig a s)
  unfold startSlot at h
  split at h
  · cases h
    unfold stopSlot at hr
    split at hr
    · rename_i hn
      rw [hn] at hr
      cases hr
    · rename_i r' hr'
      split at hr
      · cases hr
      · rename_i hc
        rw [not_or, not_not] at hc
        rw [hr'] at hr
        cases hr
        exact hc.1
  · rename_i hn
    rw [Bool.not_eq_true, Option.isSome_eq_false_iff, Option.isNone_iff_eq_none] at hn
    split at h
    · rename_i name hw
      split at h
      · cases h
      · split at h
        · cases h
          cases hr
          rw [← hsel]
          exact hw
        · cases h
          rw [show _ = none from hn] at hr
          cases hr
    · cases h
      rw [show _ = none from hn] at hr
      cases hr

theorem reconcileSlots_spec (h : reconcileSlots a slots task = some (slots', task')) :
    slots'.map sig = slots.map sig ∧
      ∀ s ∈ slots', ∀ r, s.running = some r → a.want s.adapter = some r.adapter := by
  induction slots generalizing task slots' with
  | nil =>
    cases h
    exact ⟨rfl, fun _ hs => absurd hs List.not_mem_nil⟩
  | cons s rest ih =>
    obtain ⟨⟨s', t₁⟩, h₁, h⟩ := Option.bind_eq_some_iff.mp h
    obtain ⟨⟨rest', t₂⟩, h₂, h⟩ := Option.bind_eq_some_iff.mp h
    cases h
    obtain ⟨hsig, hon⟩ := ih h₂
    have hs : sig s' = sig s := (startSlot_sig h₁).trans (stopSlot_sig a s)
    refine ⟨by rw [List.map_cons, List.map_cons, hsig, hs], fun x hx r hr => ?_⟩
    rcases List.mem_cons.mp hx with rfl | hx
    · have hsel : x.adapter = s.adapter := congrArg (fun y => y.2.2) hs
      rw [hsel]
      exact startSlot_on h₁ hr
    · exact hon x hx r hr

/-- Reconciling keeps the slots, and leaves every port that runs on an adapter
that its slot's selector means. -/
theorem reconcile_spec {m m' : Manager} (h : m.reconcile a = some m') :
    m'.slots.map sig = m.slots.map sig ∧
      ∀ s ∈ m'.slots, ∀ r, s.running = some r → Denotes a s.adapter r.adapter := by
  obtain ⟨⟨slots, task⟩, hr, rfl⟩ := Option.map_eq_some_iff.mp h
  obtain ⟨hsig, hon⟩ := reconcileSlots_spec hr
  exact ⟨hsig, fun s hs r hrun => want_denotes a (hon s hs r hrun)⟩

theorem map_sig {slots : List BleSlot} {f : BleSlot → BleSlot} (hf : ∀ s, sig (f s) = sig s) :
    (slots.map f).map sig = slots.map sig := by
  rw [List.map_map]
  exact List.map_congr_left (fun s _ => hf s)

theorem onEvent_sig (m : Manager) (e : Ble.Event) :
    (m.onEvent e).slots.map sig = m.slots.map sig := by
  cases e with
  | added n => exact map_sig (fun s => by split <;> rfl)
  | removed n => rfl
  | powered n on =>
    cases on with
    | true => exact map_sig (fun s => by split <;> rfl)
    | false => exact map_sig (fun s => by split <;> rfl)
  | tick => rfl

theorem report_sig (m : Manager) (task : Nat) (state : BleState) :
    (m.report task state).slots.map sig = m.slots.map sig := map_sig (fun _ => rfl)

def onCmdSig (l : List (String × String × AdapterSel)) : Cmd → List (String × String × AdapterSel)
  | .add slot => l ++ [sig slot]
  | .remove bridge port => l.eraseP (fun s => s.1 == bridge && s.2.1 == port)

theorem onCmd_sig (m : Manager) (c : Cmd) :
    (m.onCmd c).slots.map sig = onCmdSig (m.slots.map sig) c := by
  cases c with
  | add slot => simp [Manager.onCmd, onCmdSig]
  | remove bridge port =>
    simp only [Manager.onCmd, onCmdSig, List.eraseP_map]
    rfl

def selsAt (bid pid : String) (l : List (String × String × AdapterSel)) : List AdapterSel :=
  (l.filter (fun s => s.1 == bid && s.2.1 == pid)).map (fun s => s.2.2)

theorem mem_selsAt {sel : AdapterSel} : sel ∈ selsAt bid pid l ↔ (bid, pid, sel) ∈ l := by
  unfold selsAt
  simp only [List.mem_map, List.mem_filter, Bool.and_eq_true, beq_iff_eq, Prod.exists]
  constructor
  · rintro ⟨b, p, a, ⟨hm, rfl, rfl⟩, rfl⟩
    exact hm
  · intro hm
    exact ⟨bid, pid, sel, ⟨hm, rfl, rfl⟩, rfl⟩

theorem selsAt_add (l : List (String × String × AdapterSel)) (b p : String) (sel : AdapterSel) :
    selsAt bid pid (l ++ [(b, p, sel)]) =
      if b = bid ∧ p = pid then selsAt bid pid l ++ [sel] else selsAt bid pid l := by
  unfold selsAt
  rw [List.filter_append, List.map_append]
  split
  · rename_i h
    simp [h]
  · rename_i h
    simp [h]

theorem selsAt_remove (l : List (String × String × AdapterSel)) (b p : String) :
    selsAt bid pid (l.eraseP (fun s => s.1 == b && s.2.1 == p)) =
      if b = bid ∧ p = pid then (selsAt bid pid l).tail else selsAt bid pid l := by
  unfold selsAt
  split
  · rename_i h
    obtain ⟨rfl, rfl⟩ := h
    rw [filter_eraseP_self, List.map_tail]
  · rename_i h
    rw [filter_eraseP_disjoint]
    intro s hs
    simp only [Bool.and_eq_true, beq_iff_eq] at hs
    obtain ⟨rfl, rfl⟩ := hs
    simpa using h

/-- The slots of a port are those that its starts and stops leave. -/
theorem selsAt_cmds (bid pid : String) (log : List Effect) :
    selsAt bid pid ((log.filterMap bleCmd).foldl onCmdSig []) = slotsAt bid pid log := by
  induction log using List.reverseRecOn with
  | nil => rfl
  | append_singleton log e ih =>
    rw [slotsAt_append, ← ih, List.filterMap_append, List.foldl_append]
    cases e with
    | startPort b p rp =>
      cases rp with
      | ble sel m => exact selsAt_add _ b p sel
      | _ => rfl
    | stopPort b p rp =>
      cases rp with
      | ble sel m => exact selsAt_remove _ b p
      | _ => rfl
    | _ => rfl

variable {Doc : Type} {env : Env Doc} {d d' : Daemon Doc}

theorem view_of_core (h : core d' = core d) (bid pid : String) :
    view bid pid d' = view bid pid d := by
  refine view_of_log (log_of_core h) ?_
  unfold entry
  rw [bridges_of_core h]

theorem view_adjustName (d : Daemon Doc) (b c n : String) :
    view bid pid (d.adjustName env b c n) = view bid pid d :=
  (view_modifyName b n).trans (view_of_core (core_updateState d _) bid pid)

theorem view_retryPublicName (d : Daemon Doc) (b : String) :
    view bid pid (d.retryPublicName env b) = view bid pid d := by
  have hst : ∀ f, view bid pid (d.updateState env f).2 = view bid pid d :=
    fun f => view_of_core (core_updateState d f) bid pid
  unfold Daemon.retryPublicName
  dsimp only
  split
  · exact hst _
  · rename_i nb _
    split
    · exact view_announceBridge.trans ((view_modifyName b nb.publicName).trans (hst _))
    · exact (view_modifyName b nb.publicName).trans (hst _)

def AllTracked (d : Daemon Doc) : Prop :=
  Valid d.cfg ∧ ∀ bid pid, Tracked d.cfg bid pid (view bid pid d)

theorem respelled_of_core (hc : core d' = core d)
    (h : Respelled adapters d' new ob nb op np oa na) :
    Respelled adapters d new ob nb op np oa na := by
  obtain ⟨hold, hnew, hsame, hrun, hmeant, hspelled⟩ := h
  rw [cfg_of_core hc] at hold
  rw [port_of_core hc] at hrun
  exact ⟨hold, hnew, hsame, hrun, hmeant, hspelled⟩

theorem moves_tracked (h : AllTracked d) (hm : Moves env d d')
    (hk : ∀ ob nb op np oa na, ¬ Respelled env.adapters d d'.cfg ob nb op np oa na) :
    AllTracked d' := by
  obtain ⟨d₁, snapshot, new, h₁, hn, hc⟩ := hm
  have hcfg : d'.cfg = new := cfg_of_core hc
  rw [hcfg] at hk
  refine ⟨hcfg ▸ hn, fun bid pid => ?_⟩
  rw [hcfg, view_of_core hc]
  refine tracked_apply ?_ hn (fun bid pid => ?_) (fun ob nb op np oa na hr => ?_) bid pid
  · rw [cfg_of_core h₁]
    exact h.1
  · rw [cfg_of_core h₁, view_of_core h₁]
    exact h.2 bid pid
  · exact hk ob nb op np oa na (respelled_of_core h₁ hr)

theorem act_tracked (h : AllTracked d) (ha : d.act a = some d')
    (hk : ∀ ob nb op np oa na, ¬ Respelled (actEnv a).adapters d d'.cfg ob nb op np oa na) :
    AllTracked d' := by
  have hsame : d'.cfg = d.cfg → (∀ bid pid, view bid pid d' = view bid pid d) → AllTracked d' := by
    intro hc hv
    refine ⟨hc ▸ h.1, fun bid pid => ?_⟩
    rw [hc, hv]
    exact h.2 bid pid
  rcases act_cases ha with hc | hm | ⟨env, b, c, n, _, rfl⟩ | ⟨env, b, _, rfl⟩
  · exact hsame (cfg_of_core hc) (view_of_core hc)
  · exact moves_tracked h hm hk
  · exact hsame (cfg_adjustName ..) (fun _ _ => view_adjustName ..)
  · exact hsame (cfg_retryPublicName ..) (fun _ _ => view_retryPublicName ..)

theorem start_tracked {disk : Disk} (h : start env disk = some (.ok d)) : AllTracked d := by
  obtain ⟨d₀, hcfg, hv, hb, hl, _, hm⟩ := start_moves h
  have h₀ : AllTracked d₀ := by
    refine ⟨hv, fun bid pid => ?_⟩
    have he : entry bid pid d₀ = none := by
      unfold entry
      rw [hb, Std.TreeMap.getElem?_emptyc]
      rfl
    have hview : view bid pid d₀ = (none, []) := by
      unfold view
      rw [he, hl]
      rfl
    rw [hview]
    exact tracked_off _
  refine moves_tracked h₀ hm (fun ob nb op np oa na hr => ?_)
  have hob := hr.old.1.1
  rw [hcfg] at hob
  cases hob

/-- The manager's slots are those of the commands it has taken. -/
structure Kept (h : Host Doc) : Prop where
  tracked : AllTracked h.daemon
  taken : ∃ done, h.daemon.log.filterMap bleCmd = done ++ h.queue ∧
    h.manager.slots.map sig = done.foldl onCmdSig []

theorem kept_started {disk : Disk} (h : start env disk = some (.ok d)) : Kept (Host.started d) :=
  ⟨start_tracked h, [], rfl, rfl⟩

/-- Each reload and each change leaves every running `ble-server` port that it
does not restart with the selector it has. -/
def Plain (h : Host Doc) : Step Doc → Prop
  | .act a => ∀ d, h.daemon.act a = some d →
      ∀ ob nb op np oa na, ¬ Respelled (actEnv a).adapters h.daemon d.cfg ob nb op np oa na
  | _ => True

theorem kept_step {h h' : Host Doc} (hk : Kept h) (hp : Plain h e) (hs : h.step e = some h') :
    Kept h' := by
  obtain ⟨done, hcmds, hslots⟩ := hk.taken
  cases e with
  | act a =>
    obtain ⟨d, ha, hd⟩ := Option.bind_eq_some_iff.mp hs
    cases hd
    obtain ⟨es, hl, _⟩ := act_emits ha
    refine ⟨act_tracked hk.tracked ha (hp d ha), done, ?_, hslots⟩
    dsimp only
    rw [hl, List.filterMap_append, hcmds, List.drop_left, List.append_assoc]
  | cmd adapters =>
    unfold Host.step at hs
    cases hq : h.queue with
    | nil => simp [hq] at hs
    | cons c queue =>
      rw [hq] at hs hcmds
      obtain ⟨m, hr, hd⟩ := Option.bind_eq_some_iff.mp hs
      cases hd
      refine ⟨hk.tracked, done ++ [c], by rw [hcmds, List.append_assoc]; rfl, ?_⟩
      rw [(reconcile_spec hr).1, onCmd_sig, hslots, List.foldl_append]
      rfl
  | event e adapters =>
    obtain ⟨m, hr, hd⟩ := Option.bind_eq_some_iff.mp hs
    cases hd
    exact ⟨hk.tracked, done, hcmds, by rw [(reconcile_spec hr).1, onEvent_sig, hslots]⟩
  | report task state =>
    cases hs
    exact ⟨hk.tracked, done, hcmds, by rw [report_sig, hslots]⟩

theorem kept_run {h h' : Host Doc} (hk : Kept h) (hr : Reach Host.step Plain h es h') : Kept h' :=
  hr.invariant hk (fun _ _ _ hk hp hs => kept_step hk hp hs)

def looksAt : Step Doc → Option Adapters
  | .cmd adapters | .event _ adapters => some adapters
  | _ => none

theorem mem_adds {q : List Cmd} (hq : ∀ b p, .remove b p ∉ q) (hx : x ∈ l) :
    x ∈ q.foldl onCmdSig l := by
  induction q generalizing l with
  | nil => exact hx
  | cons c q ih =>
    refine ih (fun b p hm => hq b p (List.mem_cons_of_mem _ hm)) ?_
    cases c with
    | add slot => exact List.mem_append_left _ hx
    | remove b p => exact absurd (List.mem_cons_self ..) (hq b p)

/-- The port of a slot is in the config in effect with the slot's selector, unless
the daemon is about to stop it. -/
theorem slot_configured {h : Host Doc} (hk : Kept h) (hq : ∀ b p, .remove b p ∉ h.queue)
    (hs : s ∈ h.manager.slots) : ∃ b p m, Enabled h.daemon.cfg b ∧ b.id = s.bridgeId ∧ p ∈ b.ports ∧
      p.id = s.portId ∧ p.kind = .bleServer s.adapter m := by
  obtain ⟨done, hcmds, hslots⟩ := hk.taken
  have hm : sig s ∈ done.foldl onCmdSig [] := hslots ▸ List.mem_map_of_mem hs
  have hm := mem_adds hq hm
  rw [← List.foldl_append, ← hcmds] at hm
  have hm := mem_selsAt.mpr hm
  rw [selsAt_cmds] at hm
  have ht := hk.tracked.2 s.bridgeId s.portId
  have hsl : slotsAt s.bridgeId s.portId h.daemon.log =
      sels (view s.bridgeId s.portId h.daemon).1 :=
    ht.slots
  rw [hsl] at hm
  have hj : (view s.bridgeId s.portId h.daemon).1.join = some (.ble s.adapter) := by
    unfold sels at hm
    split at hm
    · rename_i sel hv
      rw [hv, List.mem_singleton.mp hm]
      rfl
    · cases hm
  obtain ⟨b, p, hb, hid, hp, hpid, hkind⟩ := ht.port _ hj
  obtain ⟨m, hm⟩ := hkind _ rfl
  exact ⟨b, p, m, hb, hid, hp, hpid, hm⟩

/-- In every run whose reloads and changes respell no running port's selector,
once the adapter manager has reconciled, each `ble-server` port that runs is on
the adapter that the selector in the config in effect means among the adapters
present. While a stop is on its way the daemon is still moving to that config. -/
theorem ble_port_follows {env : Env Doc} {disk : Disk} {d : Daemon Doc} {h h' : Host Doc}
    (hstart : start env disk = some (.ok d))
    (hr : Reach Host.step Plain (Host.started d) es h) (hp : Plain h e)
    (hs : h.step e = some h') (ha : looksAt e = some a) (hq : ∀ b p, .remove b p ∉ h'.queue) :
    ∀ s ∈ h'.manager.slots, ∀ r, s.running = some r → ∃ b p sel m, Enabled h'.daemon.cfg b ∧
      b.id = s.bridgeId ∧ p ∈ b.ports ∧ p.id = s.portId ∧ p.kind = .bleServer sel m ∧
      Denotes a sel r.adapter := by
  intro s hm r hrun
  have hk := kept_run (kept_started hstart) (hr.next hp hs)
  obtain ⟨b, p, m, hb, hid, hpm, hpid, hkind⟩ := slot_configured hk hq hm
  refine ⟨b, p, s.adapter, m, hb, hid, hpm, hpid, hkind, ?_⟩
  cases e with
  | act a => cases ha
  | report task state => cases ha
  | cmd adapters =>
    cases ha
    unfold Host.step at hs
    cases hq : h.queue with
    | nil => simp [hq] at hs
    | cons c queue =>
      rw [hq] at hs
      obtain ⟨m, hrec, hd⟩ := Option.bind_eq_some_iff.mp hs
      cases hd
      exact (reconcile_spec hrec).2 s hm r hrun
  | event e adapters =>
    cases ha
    obtain ⟨m, hrec, hd⟩ := Option.bind_eq_some_iff.mp hs
    cases hd
    exact (reconcile_spec hrec).2 s hm r hrun

/-- A bridge with a port for phones, on the adapter `line` names. -/
def phoneText (line : String) : String :=
  "[[bridge]]\nid = \"ktbr0\"\nname = \"Phones\"\n\n" ++
  "[[bridge.port]]\ntype = \"tcp-client\"\naddress = \"tnc.local:8001\"\n\n" ++
  "[[bridge.port]]\ntype = \"ble-server\"\n" ++ line

def phoneFile (adapter : Option String) : ConfigFile :=
  { bridge := [⟨some "ktbr0", "Phones", none, none, none,
      [⟨none, none, .tcpClient "tnc.local:8001" none none⟩, ⟨none, none, .bleServer adapter none⟩]⟩]
        }

def pinned : String := "adapter = \"00:1A:7D:DA:71:13\"\n"

def dongle : Mac := ⟨0x001A7DDA7113⟩

def phoneToml : TomlLib String where
  parseFile t :=
    if t = "" then .ok {}
    else if t = phoneText "" then .ok (phoneFile none)
    else if t = phoneText pinned then .ok (phoneFile (some "00:1A:7D:DA:71:13"))
    else .error "another file"
  parseState t := if t = "" then .ok .empty else .error "another state"
  stateText _ := .error "another state"
  parseDoc t := .ok t
  docText t := t
  insertEnabled _ _ _ := none

def phonePath : String := "/etc/kiss-tnc-bridge/kiss-tnc-bridge.toml"

def phoneEnv (line : String) (adapters : List (String × Mac)) : Env String where
  net := ⟨fun _ => none, fun _ _ => false⟩
  toml := phoneToml
  host := ⟨fun _ => true, fun _ => true⟩
  adapters := adapters
  btSession := fun _ _ => .ok ()
  addBle := fun _ _ => .ok ()
  startAnnouncer := true
  statics := ⟨phonePath, .ok (phoneText line), "/etc/kiss-tnc-bridge/conf.d", none, false⟩
  stateDir := "/var/lib/kiss-tnc-bridge"
  readDynamic := .ok ()
  readState := .ok ()
  writeDynamic := .ok ()
  writeState := .ok ()

def phoneConfig (sel : AdapterSel) : Config where
  global := ⟨"info", .default⟩
  control := ⟨"kiss-tnc-bridge"⟩
  adapters := []
  tncs := []
  bridges := [⟨"ktbr0", "Phones", "Phones", true, none, .pass,
    [⟨"tcp-client0", .tnc, .tcpClient "tnc.local" 8001 .onDemand 0⟩,
      ⟨"ble-server0", .app, .bleServer sel 1⟩], .static phonePath⟩]

def alone : Adapters := ⟨["hci0"], fun _ => some ⟨dongle, true⟩, ["hci0"], .refl _⟩

/-- Another adapter has become `hci0`, and the dongle `hci1`. -/
def moved : Adapters :=
  ⟨["hci0", "hci1"], fun n => some ⟨if n = "hci0" then ⟨0x0025B4001122⟩ else dongle, true⟩,
    ["hci0", "hci1"], .refl _⟩

def pin (adapters : List (String × Mac)) : Step String :=
  .act (.reload (phoneEnv pinned adapters) (fun _ => some ⟨.idle, 0, none, []⟩) false)

def phoneRun (es : List (Step String)) : Option (Host String) :=
  match start (phoneEnv "" []) ⟨none, none⟩ with
  | some (.ok d) => es.foldlM Host.step (Host.started d)
  | _ => none

theorem phoneRun_runs (h : phoneRun es = some h') :
    ∃ d, start (phoneEnv "" []) ⟨none, none⟩ = some (.ok d) ∧
      es.foldlM Host.step (Host.started d) = some h' := by
  unfold phoneRun at h
  split at h
  · rename_i d hd
    exact ⟨d, hd, h⟩
  · cases h

/-- The port of `phoneConfig` with its selector. -/
theorem phone_port (hb : Enabled (phoneConfig sel) b) (hp : p ∈ b.ports)
    (hk : p.kind = .bleServer sel' m) : sel' = sel := by
  obtain ⟨hb, -⟩ := hb
  cases List.mem_singleton.mp hb
  simp only [List.mem_cons, List.not_mem_nil, or_false] at hp
  rcases hp with rfl | rfl
  · cases hk
  · cases hk
    rfl

/-- The same reload while no adapter is known: the port is stopped and started
with its new selector. -/
theorem ble_port_follows_pinned : ∃ (d : Daemon String) (h h' : Host String),
    start (phoneEnv "" []) ⟨none, none⟩ = some (.ok d) ∧
    Reach Host.step Plain (Host.started d) [.cmd alone, pin [], .cmd alone] h ∧
    h.step (.cmd moved) = some h' ∧
    h'.manager.slots.map BleSlot.running = [some ⟨"hci1", .starting, 1⟩] ∧
    ∀ s ∈ h'.manager.slots, ∀ r, s.running = some r → ∃ b p sel m, Enabled h'.daemon.cfg b ∧
      b.id = s.bridgeId ∧ p ∈ b.ports ∧ p.id = s.portId ∧ p.kind = .bleServer sel m ∧
      Denotes moved sel r.adapter := by
  have heval : (phoneRun [.cmd alone, pin [], .cmd alone, .cmd moved]).map
      (fun h => (h.queue, h.manager.slots.map BleSlot.running)) =
      some ([], [some ⟨"hci1", .starting, 1⟩]) := by
    decide +kernel
  have hfirst : (phoneRun [.cmd alone]).map (fun h => h.daemon.cfg) =
      some (phoneConfig .default) := by
    decide +kernel
  obtain ⟨h', hrun, hsees⟩ := Option.map_eq_some_iff.mp heval
  simp only [Prod.mk.injEq] at hsees
  obtain ⟨hqueue, hslots⟩ := hsees
  obtain ⟨d, hd, hsteps⟩ := phoneRun_runs hrun
  have hruns : Runs Host.step (Host.started d)
      ([.cmd alone, pin [], .cmd alone] ++ [.cmd moved]) h' := runs_of_foldlM hsteps
  obtain ⟨h₃, hr₃, -, hs₄⟩ := hruns.last
  have hr₃ : Runs Host.step (Host.started d) ([.cmd alone, pin []] ++ [.cmd alone]) h₃ := hr₃
  obtain ⟨h₂, hr₂, -, hs₃⟩ := hr₃.last
  have hr₂ : Runs Host.step (Host.started d) ([.cmd alone] ++ [pin []]) h₂ := hr₂
  obtain ⟨h₁, hr₁, -, hs₂⟩ := hr₂.last
  have hr₁ : Runs Host.step (Host.started d) ([] ++ [.cmd alone]) h₁ := hr₁
  obtain ⟨h₀, hr₀, -, hs₁⟩ := hr₁.last
  have hstart : Runs Host.step (Host.started d) [] (Host.started d) := .start
  obtain rfl := hr₀.unique hstart
  have hcfg : h₁.daemon.cfg = phoneConfig .default := by
    obtain ⟨g, hg, hgc⟩ := Option.map_eq_some_iff.mp hfirst
    obtain ⟨d', hd', hsteps'⟩ := phoneRun_runs hg
    rw [hd] at hd'
    cases hd'
    rw [hr₁.unique (runs_of_foldlM hsteps'), hgc]
  have hplain : Plain h₁ (pin []) := by
    intro d' _ ob nb op np oa na hr
    obtain ⟨hob, hop, m, hk⟩ := hr.old
    rw [hcfg] at hob
    cases phone_port hob hop hk
    obtain ⟨mac, hmac, -⟩ := hr.meant
    cases hmac
  have hreach : Reach Host.step Plain (Host.started d) [.cmd alone, pin [], .cmd alone] h₃ :=
    ((Reach.start.next trivial hs₁).next hplain hs₂).next trivial hs₃
  have hlast : Plain h₃ (.cmd moved) := trivial
  refine ⟨d, h₃, h', hd, hreach, hs₄, hslots, ?_⟩
  exact ble_port_follows hd hreach hlast hs₄ rfl (fun b p hm => by simp [hqueue] at hm)

/-- The port is pinned to the dongle while the dongle is the default adapter, so
it keeps its slot; when another adapter becomes the default one, the port
follows it. -/
theorem ble_port_strays : ∃ (d : Daemon String) (h h' : Host String),
    start (phoneEnv "" []) ⟨none, none⟩ = some (.ok d) ∧
    Runs Host.step (Host.started d) [.cmd alone, pin [("hci0", dongle)]] h ∧
    h.step (.event .tick moved) = some h' ∧ h'.queue = [] ∧
    h'.daemon.cfg = phoneConfig (.mac dongle) ∧
    ∃ s ∈ h'.manager.slots, ∃ r, s.running = some r ∧ ¬ ∃ b p sel m, Enabled h'.daemon.cfg b ∧
      b.id = s.bridgeId ∧ p ∈ b.ports ∧ p.id = s.portId ∧ p.kind = .bleServer sel m ∧
      Denotes moved sel r.adapter := by
  have heval : (phoneRun [.cmd alone, pin [("hci0", dongle)], .event .tick moved]).map
      (fun h => (h.daemon.cfg, h.queue, h.manager.slots.map BleSlot.running)) =
      some (phoneConfig (.mac dongle), [], [some ⟨"hci0", .starting, 0⟩]) := by
    decide +kernel
  obtain ⟨h', hrun, hsees⟩ := Option.map_eq_some_iff.mp heval
  simp only [Prod.mk.injEq] at hsees
  obtain ⟨hcfg, hqueue, hslots⟩ := hsees
  obtain ⟨d, hd, hsteps⟩ := phoneRun_runs hrun
  have hruns : Runs Host.step (Host.started d)
      ([.cmd alone, pin [("hci0", dongle)]] ++ [.event .tick moved]) h' := runs_of_foldlM hsteps
  obtain ⟨h, hr, -, hs⟩ := hruns.last
  obtain ⟨s, hm, hrunning⟩ : ∃ s ∈ h'.manager.slots, s.running = some ⟨"hci0", .starting, 0⟩ := by
    have hm : some ⟨"hci0", .starting, 0⟩ ∈ h'.manager.slots.map BleSlot.running := by
      rw [hslots]
      exact List.mem_singleton_self _
    exact List.mem_map.mp hm
  refine ⟨d, h, h', hd, hr, hs, hqueue, hcfg, s, hm, _, hrunning, ?_⟩
  rintro ⟨b, p, sel, m, hb, -, hp, -, hk, hden⟩
  rw [hcfg] at hb
  cases phone_port hb hp hk
  obtain ⟨present, hpresent, hmac⟩ := hden
  cases hpresent
  exact absurd hmac (by decide)

end KissTncBridge.Proofs.AdapterFollow
