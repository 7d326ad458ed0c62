import KissTncBridge.Proofs.PortNames
import KissTncBridge.Proofs.Renaming

namespace KissTncBridge.Proofs.RenamedPorts
open Conf Control DocumentReads Lib References Renaming Supervisor

variable {sc : Scope} {kind : Kind} {oid target : String} {named : Bool}

def renamedScope (sc : Scope) (oid target : String) (named : Bool) : Kind → Scope
  | .adapter => { sc with adapters := sc.adapters.map (renameAdapter oid target) }
  | .tnc => { sc with tncs := sc.tncs.map (renameTnc oid target named) }
  | .bridge => sc

/-- The object that is renamed, and a new id that is free. -/
inductive Renames (sc : Scope) (oid target : String) : Kind → Prop where
  | adapter : (∀ a ∈ sc.adapters, a.id ≠ target) → AdapterValue.parse oid = .id oid →
      AdapterValue.parse target = .id target →
      sc.adapters.reverse.find? (fun a => a.id == oid) = some a → Renames sc oid target .adapter
  | tnc : (∀ t ∈ sc.tncs, t.id ≠ target) → Renames sc oid target .tnc

/-- The adapter that a port's selector stands for. -/
def adapterFor (sc : Scope) : PortDefKind → AdapterSel
  | .bleServer (some value) _ => (resolveAdapterValue sc.adapters value .dynamic "").1
  | _ => sc.globalSel

/-- Whether a port that is written means the object that is renamed: it refers to it, or
its selector means the same adapter. -/
def Means (sc : Scope) (kind : Kind) (oid : String) (k : PortDefKind) : Prop :=
  refersTo kind k = some oid ∨
    kind = .adapter ∧ adapterFor sc k = (resolveAdapterValue sc.adapters oid .dynamic "").1

def renameKindOf (kind : Kind) (oid target : String) (k : PortKind) : PortKind :=
  if kind = .tnc then renameKind oid target k else k

theorem adapterValue_fst (adapters : List Adapter) (value : String) (source : Source)
    (object object' : String) : (resolveAdapterValue adapters value source object).1 =
      (resolveAdapterValue adapters value source object').1 := by
  unfold resolveAdapterValue
  split
  · rfl
  · rfl
  · split <;> rfl

theorem find_tnc {tncs : List Tnc} (hfree : ∀ t ∈ tncs, t.id ≠ target) (x : String) :
    (tncs.map (renameTnc oid target named)).find? (fun t => t.id == x) =
      if x = target then (tncs.find? (fun t => t.id == oid)).map (renameTnc oid target named)
      else if x = oid then none else tncs.find? (fun t => t.id == x) := by
  refine find_renamed (fun t ht => ?_) (fun t ht => ?_) hfree x
  · rw [renameTnc, if_pos ht]
  · rw [renameTnc, if_neg ht]

/-- A port's settings and adapter, where its adapter is renamed. -/
theorem kind_adapter {w : Bool} {object : String} {k : PortDefKind}
    (hr : Renames sc oid target .adapter) (hne : oid ≠ target)
    (hw : w = true → takes .adapter k = true) (h : (resolveKind sc .dynamic object k).2 = [])
    (h' : (resolveKind (renamedScope sc oid target named .adapter) .dynamic object
      (if w then retarget target .adapter k else k)).2 = []) :
    (resolveKind (renamedScope sc oid target named .adapter) .dynamic object
      (if w then retarget target .adapter k else k)).1 = (resolveKind sc .dynamic object k).1 ↔
        (w = true → Means sc .adapter oid k) := by
  obtain ⟨hfree, hp, hp', ha⟩ := hr
  rename_i a
  cases k with
  | bleServer adapter n =>
    cases w with
    | false =>
      refine iff_of_true ?_ (fun hw => absurd hw Bool.false_ne_true)
      rw [if_neg Bool.false_ne_true] at h' ⊢
      cases adapter with
      | none => rfl
      | some value =>
        simp only [resolveKind, renamedScope, List.append_eq_nil_iff] at h h' ⊢
        by_cases hv : value = oid
        · subst hv
          exact absurd h'.1 (adapterValue_dangling hfree hne hp)
        · rw [adapterValue_other hfree hv h.1]
    | true =>
      have hnew : (resolveAdapterValue (sc.adapters.map (renameAdapter oid target)) target .dynamic
          object).1 = .mac a.mac := adapterValue_target hfree hp' ha
      have hold : (resolveAdapterValue sc.adapters oid .dynamic "").1 = .mac a.mac :=
        adapterValue_oid hp ha
      rw [if_pos rfl, retarget]
      simp only [resolveKind, renamedScope, hnew, Option.some.injEq, PortKind.bleServer.injEq,
        and_true, forall_const, Means, refersTo, adapterFor, hold, true_and]
      cases adapter with
      | none => simp [eq_comm]
      | some value =>
        simp only [Option.some.injEq]
        rw [adapterValue_fst sc.adapters value .dynamic object ""]
        constructor
        · exact fun he => .inr he.symm
        · rintro (rfl | he)
          · exact hold.symm
          · exact he.symm
  | tcpClient | tcpServer | sppClient | bleClient | serial =>
    cases w with
    | true => exact absurd (hw rfl) Bool.false_ne_true
    | false => exact iff_of_true rfl (fun hw => absurd hw Bool.false_ne_true)

theorem tncPort_ok {pick : Tnc → Option α} {mk : Tnc → α → Duration → PortKind}
    (h : (resolveTncPort sc source object sect tnc idle pick mk).2 = []) :
    ∃ t x, sc.tncs.find? (fun t => t.id == tnc) = some t ∧ pick t = some x ∧
      (resolveTncPort sc source object sect tnc idle pick mk).1 =
        some (mk t x (resolveIdleTimeout idle source object).1) := by
  unfold resolveTncPort at h ⊢
  dsimp only at h ⊢
  cases hf : sc.tncs.find? (fun t => t.id == tnc) with
  | none => simp [hf] at h
  | some t =>
    cases hx : pick t with
    | none => simp [hf, hx] at h
    | some x => exact ⟨t, x, rfl, hx, by simp [hx]⟩

theorem renameTnc_id (oid target : String) (named : Bool) (t : Tnc) :
    (renameTnc oid target named t).id = if t.id = oid then target else t.id := by
  unfold renameTnc
  split <;> rfl

/-- A port that uses a TNC, where a TNC is renamed. -/
theorem tncPort_renamed {pick : Tnc → Option α} {mk : Tnc → α → Duration → PortKind}
    {ren : PortKind → PortKind} {w : Bool} (hfree : ∀ t ∈ sc.tncs, t.id ≠ target)
    (hne : oid ≠ target) (hpick : ∀ t, pick (renameTnc oid target named t) = pick t)
    (hren : ∀ t x i, ren (mk t x i) = mk (renameTnc oid target named t) x i)
    (hmk : ∀ {t x i t' x' i'}, mk t x i = mk t' x' i' → t.id = t'.id)
    (h : (resolveTncPort sc .dynamic object sect tnc idle pick mk).2 = [])
    (h' : (resolveTncPort (renamedScope sc oid target named .tnc) .dynamic object sect
      (if w then target else tnc) idle pick mk).2 = []) :
    (resolveTncPort (renamedScope sc oid target named .tnc) .dynamic object sect
      (if w then target else tnc) idle pick mk).1 =
        (resolveTncPort sc .dynamic object sect tnc idle pick mk).1.map ren ↔
      (w = true → tnc = oid) := by
  obtain ⟨t, x, hf, hx, hres⟩ := tncPort_ok h
  obtain ⟨t', x', hf', hx', hres'⟩ := tncPort_ok h'
  have hid : t.id = tnc := by simpa using List.find?_some hf
  have htarget : tnc ≠ target := fun he => hfree t (List.mem_of_find?_eq_some hf) (hid.trans he)
  have hid' : t'.id = if w then target else tnc := by simpa using List.find?_some hf'
  rw [hres, hres', Option.map_some, Option.some.injEq, hren]
  have hfound : (sc.tncs.map (renameTnc oid target named)).find?
      (fun t => t.id == if w then target else tnc) = some t' := hf'
  rw [find_tnc hfree] at hfound
  constructor
  · intro he hw
    have hids := hmk he
    rw [hid', if_pos hw, renameTnc_id, hid] at hids
    by_contra hn
    rw [if_neg hn] at hids
    exact htarget hids.symm
  · intro hw
    have ht : t' = renameTnc oid target named t := by
      cases w with
      | true =>
        obtain rfl := hw rfl
        rw [if_pos rfl, if_pos rfl, hf, Option.map_some] at hfound
        exact (Option.some.inj hfound).symm
      | false =>
        rw [if_neg Bool.false_ne_true, if_neg htarget] at hfound
        by_cases ho : tnc = oid
        · rw [if_pos ho] at hfound
          cases hfound
        · rw [if_neg ho, hf] at hfound
          obtain rfl := Option.some.inj hfound
          rw [renameTnc, if_neg (fun he => ho (hid.symm.trans he))]
    subst ht
    rw [hpick] at hx'
    obtain rfl := Option.some.inj (hx'.symm.trans hx)
    rfl

/-- A port's settings and TNC, where a TNC is renamed. -/
theorem kind_tnc {w : Bool} {object : String} {k : PortDefKind}
    (hr : Renames sc oid target .tnc) (hne : oid ≠ target)
    (hw : w = true → takes .tnc k = true) (h : (resolveKind sc .dynamic object k).2 = [])
    (h' : (resolveKind (renamedScope sc oid target named .tnc) .dynamic object
      (if w then retarget target .tnc k else k)).2 = []) :
    (resolveKind (renamedScope sc oid target named .tnc) .dynamic object
      (if w then retarget target .tnc k else k)).1 =
        (resolveKind sc .dynamic object k).1.map (renameKind oid target) ↔
        (w = true → Means sc .tnc oid k) := by
  have hfree : ∀ t ∈ sc.tncs, t.id ≠ target := by
    cases hr
    assumption
  have hmeans : ∀ tnc, refersTo .tnc k = some tnc → (Means sc .tnc oid k ↔ tnc = oid) := by
    intro tnc ht
    simp [Means, ht]
  have hname : ∀ t, (renameTnc oid target named t).model = t.model := by
    intro t
    unfold renameTnc
    split <;> rfl
  cases k with
  | sppClient tnc c i e =>
    have hk : (if w then retarget target .tnc (.sppClient tnc c i e) else .sppClient tnc c i e) =
        .sppClient (if w then target else tnc) c i e := by cases w <;> rfl
    rw [hk] at h' ⊢
    rw [hmeans tnc rfl]
    refine tncPort_renamed hfree hne (fun t => ?_) (fun t x j => ?_)
      (fun he => (PortKind.sppClient.inj he).1) h h'
    · unfold renameTnc
      split <;> rfl
    · rw [renameKind, renameTnc_id, hname]
  | bleClient tnc c i e =>
    have hk : (if w then retarget target .tnc (.bleClient tnc c i e) else .bleClient tnc c i e) =
        .bleClient (if w then target else tnc) c i e := by cases w <;> rfl
    rw [hk] at h' ⊢
    rw [hmeans tnc rfl]
    refine tncPort_renamed hfree hne (fun t => ?_) (fun t x j => ?_)
      (fun he => (PortKind.bleClient.inj he).1) h h'
    · unfold renameTnc
      split <;> rfl
    · rw [renameKind, renameTnc_id, hname]
  | serial tnc c i e =>
    have hk : (if w then retarget target .tnc (.serial tnc c i e) else .serial tnc c i e) =
        .serial (if w then target else tnc) c i e := by cases w <;> rfl
    rw [hk] at h' ⊢
    rw [hmeans tnc rfl]
    refine tncPort_renamed hfree hne (fun t => ?_) (fun t x j => ?_)
      (fun he => (PortKind.serial.inj he).1) h h'
    · unfold renameTnc
      split <;> rfl
    · rw [renameKind, renameTnc_id, hname]
  | tcpClient | tcpServer | bleServer =>
    cases w with
    | true => exact absurd (hw rfl) Bool.false_ne_true
    | false => exact iff_of_true rfl (fun hw => absurd hw Bool.false_ne_true)

/-- A port's settings after a rename, where the port is written if `w`. -/
theorem kind_renamed {w : Bool} {object : String} {k : PortDefKind}
    (hr : Renames sc oid target kind) (hne : oid ≠ target)
    (hw : w = true → takes kind k = true) (h : (resolveKind sc .dynamic object k).2 = [])
    (h' : (resolveKind (renamedScope sc oid target named kind) .dynamic object
      (if w then retarget target kind k else k)).2 = []) :
    (resolveKind (renamedScope sc oid target named kind) .dynamic object
      (if w then retarget target kind k else k)).1 =
        (resolveKind sc .dynamic object k).1.map (renameKindOf kind oid target) ↔
        (w = true → Means sc kind oid k) := by
  cases kind with
  | bridge => cases hr
  | adapter =>
    have hsame : renameKindOf .adapter oid target = id := rfl
    rw [hsame, Option.map_id]
    exact kind_adapter hr hne hw h h'
  | tnc => exact kind_tnc hr hne hw h h'

/-- A port whose reference is written, if `w`. -/
def writePort (kind : Kind) (target : String) (w : Bool) (p : PortDef) : PortDef :=
  if w then { p with kind := retarget target kind p.kind } else p

theorem writePort_kind (kind : Kind) (target : String) (w : Bool) (p : PortDef) :
    (writePort kind target w p).kind = if w then retarget target kind p.kind else p.kind := by
  cases w <;> rfl

theorem writePort_typeName (kind : Kind) (target : String) (w : Bool) (p : PortDef) :
    (writePort kind target w p).typeName = p.typeName := by
  cases w with
  | false => rfl
  | true =>
    unfold writePort PortDef.typeName
    cases hk : p.kind <;> cases kind <;> rfl

theorem writePort_defaultRole (kind : Kind) (target : String) (w : Bool) (p : PortDef) :
    (writePort kind target w p).defaultRole = p.defaultRole := by
  cases w with
  | false => rfl
  | true =>
    unfold writePort PortDef.defaultRole
    cases hk : p.kind <;> cases kind <;> rfl

theorem writePort_id (kind : Kind) (target : String) (w : Bool) (p : PortDef) :
    (writePort kind target w p).id = p.id ∧ (writePort kind target w p).role = p.role := by
  cases w <;> exact ⟨rfl, rfl⟩

theorem portId_congr {before before' : List PortDef} {p p' : PortDef}
    (hb : before'.map PortDef.typeName = before.map PortDef.typeName)
    (hid : p'.id = p.id) (ht : p'.typeName = p.typeName) : portId before' p' = portId before p := by
  have hcount : ∀ ps : List PortDef, (ps.filter (fun q => q.typeName == p.typeName)).length =
      ((ps.map PortDef.typeName).filter (fun s => s == p.typeName)).length := by
    intro ps
    rw [List.filter_map, List.length_map]
    rfl
  rw [portId, portId, hid, ht, hcount, hcount, hb]

def renamePort (kind : Kind) (oid target : String) (p : Port) : Port :=
  { p with kind := renameKindOf kind oid target p.kind }

/-- One port of a bridge after a rename. -/
theorem port_renamed {w : Bool} {before before' : List PortDef} {p : PortDef}
    (hr : Renames sc oid target kind) (hne : oid ≠ target)
    (hb : before'.map PortDef.typeName = before.map PortDef.typeName)
    (hw : w = true → takes kind p.kind = true)
    (h : (resolvePort sc .dynamic object before p).2 = [])
    (h' : (resolvePort (renamedScope sc oid target named kind) .dynamic object before'
      (writePort kind target w p)).2 = []) :
    (resolvePort (renamedScope sc oid target named kind) .dynamic object before'
      (writePort kind target w p)).1 =
        (resolvePort sc .dynamic object before p).1.map (renamePort kind oid target) ↔
      (w = true → Means sc kind oid p.kind) := by
  obtain ⟨hid, hrole⟩ := writePort_id kind target w p
  have hpid := portId_congr hb hid (writePort_typeName kind target w p)
  have hk := (List.append_eq_nil_iff.mp h).2
  have hk' := (List.append_eq_nil_iff.mp h').2
  simp only [hpid, writePort_kind] at hk'
  rw [← kind_renamed hr hne hw hk hk']
  unfold resolvePort
  simp only [hpid, writePort_kind, hrole, writePort_defaultRole, Option.map_map]
  constructor
  · intro he
    have hkinds := congrArg (Option.map Port.kind) he
    simpa [Option.map_map, Function.comp_def, renamePort] using hkinds
  · intro he
    rw [he, Option.map_map]
    rfl

theorem port_some (h : (resolvePort sc source object before p).2 = []) :
    ∃ q, (resolvePort sc source object before p).1 = some q := by
  have hk := PortNames.resolveKind_isSome (List.append_eq_nil_iff.mp h).2
    (object ++ " port " ++ portId before p)
  obtain ⟨k, hk⟩ := Option.isSome_iff_exists.mp hk
  exact ⟨_, congrArg (Option.map _) hk⟩

/-- The ports of a bridge after a rename, where those at which `w` holds are written. -/
theorem ports_renamed {w : Nat → Bool} {before before' ps : List PortDef}
    (hr : Renames sc oid target kind) (hne : oid ≠ target)
    (hb : before'.map PortDef.typeName = before.map PortDef.typeName)
    (hw : ∀ i p, ps[i]? = some p → w i = true → takes kind p.kind = true)
    (h : (resolvePorts sc .dynamic object before ps).flatMap Prod.snd = [])
    (h' : (resolvePorts (renamedScope sc oid target named kind) .dynamic object before'
      (ps.mapIdx (fun i p => writePort kind target (w i) p))).flatMap Prod.snd = []) :
    (resolvePorts (renamedScope sc oid target named kind) .dynamic object before'
      (ps.mapIdx (fun i p => writePort kind target (w i) p))).filterMap Prod.fst =
        ((resolvePorts sc .dynamic object before ps).filterMap Prod.fst).map
          (renamePort kind oid target) ↔
      ∀ i p, ps[i]? = some p → w i = true → Means sc kind oid p.kind := by
  induction ps generalizing before before' w with
  | nil => exact iff_of_true rfl (fun i p hp => by simp at hp)
  | cons p ps ih =>
    rw [List.mapIdx_cons] at h' ⊢
    simp only [resolvePorts, List.flatMap_cons, List.append_eq_nil_iff] at h h'
    have hbefore : (before' ++ [writePort kind target (w 0) p]).map PortDef.typeName =
        (before ++ [p]).map PortDef.typeName := by
      rw [List.map_append, List.map_append, hb, List.map_singleton, List.map_singleton,
        writePort_typeName]
    have hhead := port_renamed hr hne hb (hw 0 p rfl) h.1 h'.1
    have htail := ih (w := fun i => w (i + 1)) hbefore (fun i q hq => hw (i + 1) q hq) h.2 h'.2
    obtain ⟨q, hq⟩ := port_some h.1
    obtain ⟨q', hq'⟩ := port_some h'.1
    rw [hq, hq', Option.map_some, Option.some.injEq] at hhead
    rw [resolvePorts, resolvePorts, List.filterMap_cons_some hq', List.filterMap_cons_some hq,
      List.map_cons, List.cons.injEq, hhead, htail]
    constructor
    · rintro ⟨h0, hs⟩ i r hi
      cases i with
      | zero =>
        cases hi
        exact h0
      | succ i => exact hs i r hi
    · exact fun hall => ⟨hall 0 p rfl, fun i r hi => hall (i + 1) r hi⟩

def renameBridge (kind : Kind) (oid target : String) (b : Conf.Bridge) : Conf.Bridge :=
  { b with ports := b.ports.map (renamePort kind oid target) }

/-- A bridge after a rename, where the ports at which `w` holds are written. -/
theorem bridge_renamed {w : Nat → Bool} {d : BridgeDef} (hr : Renames sc oid target kind)
    (hne : oid ≠ target)
    (hw : ∀ i p, d.ports[i]? = some p → w i = true → takes kind p.kind = true)
    (h : (resolveBridge sc .dynamic d).2 = [])
    (h' : (resolveBridge (renamedScope sc oid target named kind) .dynamic
      { d with ports := d.ports.mapIdx (fun i p => writePort kind target (w i) p) }).2 = []) :
    (resolveBridge (renamedScope sc oid target named kind) .dynamic
      { d with ports := d.ports.mapIdx (fun i p => writePort kind target (w i) p) }).1 =
        (resolveBridge sc .dynamic d).1.map (renameBridge kind oid target) ↔
      ∀ i p, d.ports[i]? = some p → w i = true → Means sc kind oid p.kind := by
  unfold resolveBridge at h h' ⊢
  cases hid : d.id with
  | none => simp [hid] at h
  | some bid =>
    simp only [hid, List.append_eq_nil_iff] at h h'
    rw [← ports_renamed hr hne rfl hw h.2 h'.2]
    simp only [Option.map_some, Option.some.injEq, renameBridge]
    constructor
    · exact fun he => congrArg Conf.Bridge.ports he
    · intro he
      rw [he]

end KissTncBridge.Proofs.RenamedPorts
