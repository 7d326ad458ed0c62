import Std.Data.String.ToNat
import KissTncBridge.Control.Edit
import KissTncBridge.Lib.Lists
import KissTncBridge.Proofs.DocumentReads

namespace KissTncBridge.Proofs.PortNames
open Conf Control DocumentReads Lib Toml TomlReads

theorem digits_of_toString (n : Nat) : ∀ c ∈ (toString n).toList, c.isDigit = true := by
  intro c hc
  rw [Nat.toString_eq_repr, Nat.repr] at hc
  rw [String.toList_ofList] at hc
  exact Nat.isDigit_of_mem_toDigits (by decide) (by decide) hc

def stem (s : String) : List Char := s.toList.reverse.dropWhile Char.isDigit

theorem stem_numbered {what : String}
    (h : ∀ c ∈ what.toList.getLast?, c.isDigit = false) (n : Nat) :
    stem (what ++ toString n) = what.toList.reverse := by
  rw [stem, String.toList_append, List.reverse_append, List.dropWhile_append_of_pos]
  · cases hr : what.toList.reverse with
    | nil => rfl
    | cons c l =>
      have hl : what.toList.getLast? = some c := by rw [List.getLast?_eq_head?_reverse, hr]; rfl
      rw [List.dropWhile_cons_of_neg (by simp [h c (by simp [hl])])]
  · intro c hc
    exact digits_of_toString n c (List.mem_reverse.mp hc)

theorem numbered_inj {what : String} {m n : Nat} (h : what ++ toString m = what ++ toString n) :
    m = n :=
  Nat.repr_injective ((String.append_right_inj _).mp h)

theorem typeName_mem (p : PortDef) :
    p.typeName ∈
      ["tcp-client", "tcp-server", "ble-server", "spp-client", "ble-client", "serial"] := by
  unfold PortDef.typeName
  cases p.kind <;> simp

theorem typeName_stem (p : PortDef) (n : Nat) :
    stem (p.typeName ++ toString n) = p.typeName.toList.reverse := by
  have hlast :
    ∀ s ∈ ["tcp-client", "tcp-server", "ble-server", "spp-client", "ble-client", "serial"],
      s.toList.getLast?.all (fun c => !c.isDigit) = true := by
    decide
  refine stem_numbered (fun c hc => ?_) n
  have hall := hlast _ (typeName_mem p)
  rw [Option.mem_def.mp hc] at hall
  simpa using hall

theorem typeName_numbered_inj {p q : PortDef} {m n : Nat}
    (h : p.typeName ++ toString m = q.typeName ++ toString n) :
    p.typeName = q.typeName ∧ m = n := by
  have hs := congrArg stem h
  rw [typeName_stem, typeName_stem] at hs
  have ht : p.typeName = q.typeName := String.toList_injective (List.reverse_injective hs)
  rw [ht] at h
  exact ⟨ht, numbered_inj h⟩

theorem lowestFree_spec (taken : List String) (what : String) :
    ∃ n : Nat, lowestFree taken what = what ++ toString n ∧ what ++ toString n ∉ taken ∧
      ∀ k < n, what ++ toString k ∈ taken := by
  obtain ⟨n, hfind, hn, hk⟩ := find_fresh (f := fun n : Nat => what ++ toString n)
    (fun _ _ h => numbered_inj h) taken
  exact ⟨n, by rw [lowestFree, hfind]; rfl, hn, hk⟩

/-- The lowest free name is the `n`-th exactly when that is free and the ones
below are not. -/
theorem lowestFree_iff (taken : List String) (what : String) (n : Nat) :
    lowestFree taken what = what ++ toString n ↔
      what ++ toString n ∉ taken ∧ ∀ k < n, what ++ toString k ∈ taken := by
  obtain ⟨m, hm, hfree, hbelow⟩ := lowestFree_spec taken what
  rw [hm]
  constructor
  · intro h
    obtain rfl := numbered_inj h
    exact ⟨hfree, hbelow⟩
  · rintro ⟨hn, hk⟩
    rcases lt_trichotomy m n with hlt | rfl | hlt
    · exact absurd (hk m hlt) hfree
    · rfl
    · exact absurd (hbelow n hlt) hn

def count (type : String) (ps : List PortDef) : Nat :=
  (ps.filter (fun q => q.typeName == type)).length

/-- The id a port has without one of its own, behind the ports before it. -/
def defaultId (before : List PortDef) (p : PortDef) : String :=
  p.typeName ++ toString (count p.typeName before)

theorem portId_eq (before : List PortDef) (p : PortDef) :
    portId before p = p.id.getD (defaultId before p) :=
  rfl

def portIds : List PortDef → List PortDef → List String
  | _, [] => []
  | before, p :: rest => portId before p :: portIds (before ++ [p]) rest

def named (taken : List String) : List PortDef → List PortDef
  | [] => []
  | p :: rest =>
    if p.id.isNone then
      { p with id := some (lowestFree taken p.typeName) } ::
        named (taken ++ [lowestFree taken p.typeName]) rest
    else p :: named taken rest

def explicitIds (ps : List PortDef) : List String := ps.filterMap PortDef.id

theorem count_append (type : String) (a b : List PortDef) :
    count type (a ++ b) = count type a + count type b := by
  simp [count]

theorem count_cons_self (p : PortDef) (ps : List PortDef) :
    count p.typeName (p :: ps) = count p.typeName ps + 1 := by
  simp [count]

/-- The ports of a type are numbered without gaps. -/
theorem exists_of_lt_count {type : String} {ps : List PortDef} (h : k < count type ps) :
    ∃ a q b, ps = a ++ q :: b ∧ q.typeName = type ∧ count type a = k := by
  induction ps generalizing k with
  | nil => simp [count] at h
  | cons p ps ih =>
    by_cases hp : p.typeName = type
    · subst hp
      cases k with
      | zero => exact ⟨[], p, ps, rfl, rfl, rfl⟩
      | succ k =>
        rw [count_cons_self] at h
        obtain ⟨a, q, b, rfl, hq, hk⟩ := ih (Nat.lt_of_succ_lt_succ h)
        exact ⟨p :: a, q, b, rfl, hq, by rw [count_cons_self, hk]⟩
    · have hc : ∀ l, count type (p :: l) = count type l := fun l => by simp [count, hp]
      rw [hc] at h
      obtain ⟨a, q, b, rfl, hq, hk⟩ := ih h
      exact ⟨p :: a, q, b, rfl, hq, by rw [hc, hk]⟩

def assigned (ps : List PortDef) (s : String) : Prop :=
  ∃ a q b, ps = a ++ q :: b ∧ q.id = none ∧ s = defaultId a q

/-- What a port without an id needs for `name_ports` to give it its default id:
that no port has that id already, and that each port of its type before it
that has an id of its own leaves no lower default id unused. -/
def Fits (explicit : List String) (before : List PortDef) (p : PortDef) : Prop :=
  p.id = none → defaultId before p ∉ explicit ∧
    ∀ a q b, before = a ++ q :: b → q.id ≠ none → q.typeName = p.typeName → defaultId a q ∈ explicit

/-- The `k`-th port of a type is one port. -/
theorem split_unique {type : String} (h : a ++ q :: b = a' ++ q' :: b') (hq : q.typeName = type)
    (hq' : q'.typeName = type) (hc : count type a = count type a') : q = q' := by
  induction a generalizing a' with
  | nil =>
    cases a' with
    | nil => exact (List.cons.inj h).1
    | cons p a' =>
      obtain ⟨rfl, -⟩ := List.cons.inj h
      rw [← hq, count_cons_self] at hc
      simp [count] at hc
  | cons p a ih =>
    cases a' with
    | nil =>
      obtain ⟨rfl, -⟩ := List.cons.inj h
      rw [← hq', count_cons_self] at hc
      simp [count] at hc
    | cons p' a' =>
      obtain ⟨rfl, ht⟩ := List.cons.inj h
      refine ih ht ?_
      have hcons : ∀ l, count type (p :: l) = count type [p] + count type l :=
        fun l => count_append type [p] l
      rw [hcons a, hcons a'] at hc
      exact Nat.add_left_cancel hc

/-- Where the names so far are the defaults, the next one is iff it fits. -/
theorem lowestFree_default {names : List String}
    (hnames : ∀ s, s ∈ names ↔ s ∈ explicit ∨ assigned before s) (hp : p.id = none) :
    lowestFree names p.typeName = defaultId before p ↔ Fits explicit before p := by
  rw [defaultId, lowestFree_iff, Fits, ← defaultId]
  refine ⟨fun ⟨hfree, hbelow⟩ _ => ⟨fun hm => hfree ((hnames _).mpr (.inl hm)), ?_⟩, fun h => ?_⟩
  · intro a q b hb hq ht
    have hlt : count p.typeName a < count p.typeName before := by
      rw [hb, count_append, ← ht, count_cons_self]
      omega
    have hd : p.typeName ++ toString (count p.typeName a) = defaultId a q := by rw [defaultId, ht]
    have hin := (hnames _).mp (hbelow _ hlt)
    rw [hd] at hin
    rcases hin with hm | ⟨a', q', b', hb', hq', he⟩
    · exact hm
    · obtain ⟨ht', hn⟩ := typeName_numbered_inj he
      rw [← ht'] at hn
      exact absurd (split_unique (hb.symm.trans hb') rfl ht'.symm hn ▸ hq') hq
  · obtain ⟨hfree, hbelow⟩ := h hp
    refine ⟨fun hm => ?_, fun k hk => (hnames _).mpr ?_⟩
    · rcases (hnames _).mp hm with hm | ⟨a, q, b, hb, -, he⟩
      · exact hfree hm
      · obtain ⟨ht, hn⟩ := typeName_numbered_inj he
        rw [hb, count_append, ht, count_cons_self] at hn
        omega
    · obtain ⟨a, q, b, hb, hq, hc⟩ := exists_of_lt_count hk
      have hd : p.typeName ++ toString k = defaultId a q := by rw [defaultId, hq, hc]
      rw [hd]
      by_cases hid : q.id = none
      · exact .inr ⟨a, q, b, hb, hid, rfl⟩
      · exact .inl (hbelow a q b hb hid hq)

theorem assigned_snoc :
    assigned (before ++ [p]) s ↔ assigned before s ∨ p.id = none ∧ s = defaultId before p := by
  constructor
  · rintro ⟨a, q, b, hb, hq, rfl⟩
    rcases List.eq_nil_or_concat b with rfl | ⟨b, r, rfl⟩
    · obtain ⟨rfl, hpq⟩ := List.append_inj' hb rfl
      obtain ⟨rfl, -⟩ := List.cons.inj hpq
      exact .inr ⟨hq, rfl⟩
    · rw [List.concat_eq_append, ← List.cons_append, ← List.append_assoc] at hb
      obtain ⟨rfl, -⟩ := List.append_inj' hb rfl
      exact .inl ⟨a, q, b, rfl, hq, rfl⟩
  · rintro (⟨a, q, b, rfl, hq, rfl⟩ | ⟨hp, rfl⟩)
    · exact ⟨a, q, b ++ [p], by simp, hq, rfl⟩
    · exact ⟨before, p, [], rfl, hp, rfl⟩

/-- From ports whose names are the defaults on, the names stay the defaults
iff each port fits. -/
theorem named_ids_iff {names : List String}
    (hnames : ∀ s, s ∈ names ↔ s ∈ explicit ∨ assigned before s) (ps : List PortDef) :
    (named names ps).map PortDef.id = (portIds before ps).map some ↔
      ∀ a p b, ps = a ++ p :: b → Fits explicit (before ++ a) p := by
  induction ps generalizing names before with
  | nil => simp [named, portIds]
  | cons p ps ih =>
    have hsplit : (∀ a q b, p :: ps = a ++ q :: b → Fits explicit (before ++ a) q) ↔
        Fits explicit before p ∧ ∀ a q b, ps = a ++ q :: b →
            Fits explicit (before ++ [p] ++ a) q := by
      constructor
      · intro h
        refine ⟨by simpa using h [] p ps rfl, fun a q b hps => ?_⟩
        simpa using h (p :: a) q b (by rw [hps]; rfl)
      · rintro ⟨hp, h⟩ a q b hps
        cases a with
        | nil =>
          obtain ⟨rfl, -⟩ := List.cons.inj hps
          simpa using hp
        | cons r a =>
          obtain ⟨rfl, ht⟩ := List.cons.inj hps
          simpa using h a q b ht
    rw [hsplit, named, portIds, portId_eq]
    cases hid : p.id with
    | some s =>
      have hfit : Fits explicit before p := fun hn => by rw [hid] at hn; cases hn
      have hnames' : ∀ s, s ∈ names ↔ s ∈ explicit ∨ assigned (before ++ [p]) s := by
        intro s
        rw [hnames, assigned_snoc, hid]
        simp
      simp only [Option.isNone_some, Bool.false_eq_true, if_false, List.map_cons, hid,
        Option.getD_some, List.cons.injEq, true_and, hfit, ih hnames']
    | none =>
      simp only [Option.isNone_none, if_true, List.map_cons, Option.getD_none, List.cons.injEq,
        Option.some.injEq, lowestFree_default hnames hid]
      refine and_congr_right (fun hfit => ?_)
      have hname := (lowestFree_default hnames hid).mpr hfit
      refine ih ?_
      intro s
      rw [List.mem_append, hnames, assigned_snoc, hname, List.mem_singleton, or_assoc]
      simp [hid]

theorem port_id_of_read (h : readPort (Table.plain t) = some p) :
    (Entries.get "id" t).isNone = p.id.isNone ∧ str t "id" = p.id := by
  obtain ⟨-, -, -, -, -, hid, -⟩ := readPort_iff.mp h
  rw [opt, get_plain] at hid
  rw [str]
  cases hg : Entries.get "id" t with
  | none =>
    rw [hg] at hid
    obtain hid := Option.some.inj hid
    rw [← hid]
    exact ⟨rfl, rfl⟩
  | some i =>
    rw [hg, Option.map_some] at hid
    obtain ⟨s, hs, hid⟩ := Option.map_eq_some_iff.mp hid
    rw [← hid, ← hs, asStr_plain]
    rw [asStr_plain] at hs
    exact ⟨by rw [hs]; rfl, rfl⟩

/-- Naming the tables names the ports they are read as. -/
theorem nameEach_reads {names : List String} {ts : List Table} {ps : List PortDef}
    (h : ts.map (fun t => readPort (Table.plain t)) = ps.map some) :
    (nameEach names ts).map (fun t => readPort (Table.plain t)) = (named names ps).map some := by
  induction ts generalizing names ps with
  | nil => cases ps <;> simp_all [nameEach, named]
  | cons t ts ih =>
    cases ps with
    | nil => simp at h
    | cons p ps =>
      obtain ⟨hp, hps⟩ := List.cons.inj h
      obtain ⟨hnone, -⟩ := port_id_of_read hp
      have htype : str t "type" = some p.typeName := by rw [str_plain, readPort_type hp]
      rw [nameEach, named, hnone, htype, Option.getD_some]
      split
      · rw [List.map_cons, List.map_cons, ih hps, Table.plain, plain_insert]
        exact congrArg₂ List.cons (readPort_insert_id hp _) rfl
      · rw [List.map_cons, List.map_cons, ih hps]
        exact congrArg₂ List.cons hp rfl

theorem explicit_reads {ts : List Table} {ps : List PortDef}
    (h : ts.map (fun t => readPort (Table.plain t)) = ps.map some) :
    ts.filterMap (fun t => str t "id") = explicitIds ps := by
  induction ts generalizing ps with
  | nil => cases ps <;> simp_all [explicitIds]
  | cons t ts ih =>
    cases ps with
    | nil => simp at h
    | cons p ps =>
      obtain ⟨hp, hps⟩ := List.cons.inj h
      rw [explicitIds, List.filterMap_cons, List.filterMap_cons, (port_id_of_read hp).2, ih hps]
      rfl

theorem ports_of_read (hports : Entries.get "port" t = some (.arrayOfTables ts))
    (hd : readBridge (Table.plain t) = some d) :
    ts.map (fun t => readPort (Table.plain t)) = d.ports.map some := by
  obtain ⟨-, -, -, -, -, -, hp⟩ := readBridge_iff.mp hd
  rw [defaulted, get_plain, hports, Option.map_some, Item.plain, plainTables_eq] at hp
  have hps := mapM_some_iff.mp hp
  rwa [List.map_map] at hps

/-- What a bridge table says once its ports are named. -/
theorem namePorts_reads (hports : Entries.get "port" t = some (.arrayOfTables ts))
    (hd : readBridge (Table.plain t) = some d) :
    readBridge (Table.plain (namePorts t)) =
      some { d with ports := named (explicitIds d.ports) d.ports } := by
  have hps := ports_of_read hports hd
  obtain ⟨hk, hid, hname, hen, hpub, happ, -⟩ := readBridge_iff.mp hd
  have hnamed : namePorts t =
      Entries.insert "port" (.arrayOfTables (nameEach (explicitIds d.ports) ts)) t := by
    rw [← explicit_reads hps, namePorts, hports]
    rfl
  rw [hnamed, Table.plain, plain_insert]
  refine readBridge_iff.mpr ⟨?_, ?_, ?_, ?_, ?_, ?_, ?_⟩
  · rwa [known_insert (by decide)]
  · rwa [opt_insert_ne (by decide)]
  · rwa [req_insert_ne (by decide)]
  · rwa [opt_insert_ne (by decide)]
  · rwa [opt_insert_ne (by decide)]
  · rwa [opt_insert_ne (by decide)]
  · rw [defaulted_insert_self, Item.plain, plainTables_eq]
    refine mapM_some_iff.mpr ?_
    rw [List.map_map]
    exact nameEach_reads hps

/-- A port is left out only with an error, whatever it is called. -/
theorem resolveTncPort_isSome {pick : Tnc → Option α} {mk : Tnc → α → Duration → PortKind}
    (h : (resolveTncPort sc source object sect tnc idle pick mk).2 = []) (object' : String) :
    (resolveTncPort sc source object' sect tnc idle pick mk).1.isSome = true := by
  simp only [resolveTncPort] at h ⊢
  cases hf : (sc.tncs.find? (fun t => t.id == tnc)).map (fun t => (t, pick t)) with
  | none => simp [hf] at h
  | some tx =>
    obtain ⟨t, x⟩ := tx
    cases x with
    | none => simp [hf] at h
    | some x => rfl

theorem resolveKind_isSome (h : (resolveKind sc source object kind).2 = []) (object' : String) :
    (resolveKind sc source object' kind).1.isSome = true := by
  cases kind with
  | tcpClient => rfl
  | tcpServer => rfl
  | bleServer => rfl
  | sppClient => exact resolveTncPort_isSome h object'
  | bleClient => exact resolveTncPort_isSome h object'
  | serial => exact resolveTncPort_isSome h object'

theorem resolvePorts_kinds (h : (resolvePorts sc source object before ps).flatMap Prod.snd = []) :
    ∀ p ∈ ps, ∀ object', (resolveKind sc source object' p.kind).1.isSome = true := by
  induction ps generalizing before with
  | nil => intro p hp; cases hp
  | cons q ps ih =>
    rw [resolvePorts, List.flatMap_cons, List.append_eq_nil_iff] at h
    intro p hp
    rcases List.mem_cons.mp hp with rfl | hp
    · exact resolveKind_isSome (List.append_eq_nil_iff.mp h.1).2
    · exact ih h.2 p hp

theorem resolvePorts_ids {ps : List PortDef}
    (h : ∀ p ∈ ps, ∀ object', (resolveKind sc source object' p.kind).1.isSome = true) :
    ((resolvePorts sc source object before ps).filterMap Prod.fst).map Port.id =
      portIds before ps := by
  induction ps generalizing before with
  | nil => rfl
  | cons p ps ih =>
    obtain ⟨kind, hkind⟩ := Option.isSome_iff_exists.mp
      (h p (List.mem_cons_self ..) (object ++ " port " ++ portId before p))
    have hport : (resolvePort sc source object before p).1 =
        some ⟨portId before p, p.role.getD p.defaultRole, kind⟩ := congrArg (Option.map _) hkind
    rw [resolvePorts, List.filterMap_cons, hport, portIds,
      ← ih (fun q hq => h q (List.mem_cons_of_mem _ hq))]
    rfl

theorem named_kinds (names : List String) (ps : List PortDef) :
    (named names ps).map PortDef.kind = ps.map PortDef.kind := by
  induction ps generalizing names with
  | nil => rfl
  | cons p ps ih =>
    rw [named]
    split <;> simp [ih]

/-- Ports that all have an id get that one. -/
theorem portIds_of_named {ps : List PortDef} (h : ∀ p ∈ ps, p.id ≠ none) (before : List PortDef) :
    (portIds before ps).map some = ps.map PortDef.id := by
  induction ps generalizing before with
  | nil => rfl
  | cons p ps ih =>
    obtain ⟨s, hs⟩ := Option.ne_none_iff_exists'.mp (h p (List.mem_cons_self ..))
    rw [portIds, List.map_cons, List.map_cons, ih (fun q hq => h q (List.mem_cons_of_mem _ hq)),
      portId_eq, hs]
    rfl

theorem named_all (names : List String) (ps : List PortDef) :
    ∀ p ∈ named names ps, p.id ≠ none := by
  induction ps generalizing names with
  | nil => intro p hp; cases hp
  | cons q ps ih =>
    rw [named]
    split
    · intro p hp
      rcases List.mem_cons.mp hp with rfl | hp
      · simp
      · exact ih _ p hp
    · rename_i hq
      intro p hp
      rcases List.mem_cons.mp hp with rfl | hp
      · simpa using hq
      · exact ih _ p hp

/-- Explicit ids leave every port without one its default id: none of them is
such a default, and a port with an id of its own in front of one of its type
without leaves its own default id to no other. -/
def KeepsDefaults (ps : List PortDef) : Prop :=
  ∀ a p b, ps = a ++ p :: b → Fits (explicitIds ps) a p

/-- The ids of a bridge's ports, where none of them is left out. -/
theorem resolveBridge_ids (hid : d.id = some bid)
    (hk : ∀ p ∈ d.ports, ∀ object, (resolveKind sc source object p.kind).1.isSome = true) :
    ∃ b problems, resolveBridge sc source d = (some b, problems) ∧
    b.ports.map Port.id = portIds [] d.ports := by
  rw [resolveBridge, hid]
  exact ⟨_, _, rfl, resolvePorts_ids hk⟩

theorem resolveBridge_kinds (h : resolveBridge sc source d = (some b, [])) :
    (∃ bid, d.id = some bid) ∧
      ∀ p ∈ d.ports, ∀ object, (resolveKind sc source object p.kind).1.isSome = true := by
  cases hid : d.id with
  | none => simp [resolveBridge, hid] at h
  | some bid =>
    rw [resolveBridge, hid] at h
    obtain ⟨-, hnil⟩ := Prod.mk.inj h
    exact ⟨⟨bid, rfl⟩, resolvePorts_kinds (List.append_eq_nil_iff.mp hnil).2⟩

/-- Naming a bridge's ports changes none of their ids exactly when the explicit
ids among them keep the defaults. -/
theorem naming_keeps_ids_iff (hports : Entries.get "port" t = some (.arrayOfTables ts))
    (hd : readBridge (Table.plain t) = some d) (hb : resolveBridge sc source d = (some b, [])) :
    (∃ d' b' problems, readBridge (Table.plain (namePorts t)) = some d' ∧
      resolveBridge sc source d' = (some b', problems) ∧
        b'.ports.map Port.id = b.ports.map Port.id) ↔ KeepsDefaults d.ports := by
  obtain ⟨⟨bid, hid⟩, hk⟩ := resolveBridge_kinds hb
  have hd' := namePorts_reads hports hd
  have hk' : ∀ p ∈ named (explicitIds d.ports) d.ports, ∀ object,
      (resolveKind sc source object p.kind).1.isSome = true := by
    intro p hp
    have hm : p.kind ∈ d.ports.map PortDef.kind := by
      rw [← named_kinds (explicitIds d.ports)]
      exact List.mem_map_of_mem hp
    obtain ⟨q, hq, he⟩ := List.mem_map.mp hm
    exact he ▸ hk q hq
  obtain ⟨b₁, ps₁, hb₁, hids⟩ := resolveBridge_ids hid hk
  obtain ⟨b₂, ps₂, hb₂, hids'⟩ := resolveBridge_ids
    (d := { d with ports := named (explicitIds d.ports) d.ports }) hid hk'
  obtain rfl : b₁ = b := Option.some.inj (Prod.mk.inj (hb₁.symm.trans hb)).1
  have hkeep : (named (explicitIds d.ports) d.ports).map PortDef.id =
    (portIds [] d.ports).map some ↔ KeepsDefaults d.ports := by
    refine named_ids_iff ?_ d.ports
    intro s
    simp [assigned]
  rw [← hkeep, ← portIds_of_named (named_all _ _) [], ← hids, ← hids',
    (List.map_injective_iff.mpr (fun _ _ h => Option.some.inj h)).eq_iff]
  constructor
  · rintro ⟨d', b', problems, h₁, h₂, h₃⟩
    obtain rfl := Option.some.inj (h₁.symm.trans hd')
    obtain rfl : b₂ = b' := Option.some.inj (Prod.mk.inj (hb₂.symm.trans h₂)).1
    exact h₃
  · intro h
    exact ⟨_, b₂, ps₂, hd', hb₂, h⟩

def relayScope : Scope := ⟨⟨fun _ => none, fun _ _ => false⟩, [], .default, []⟩

def relayRadio : Table := [("type", value "tcp-client"), ("address", value "192.168.4.1:8001")]

def relayLan (names : Table) (listen : String) : Table :=
  names ++ [("type", value "tcp-server"), ("listen", value listen)]

def relayTable (ports : List Table) : Table :=
  [("id", value "ktbr1"), ("name", value "Relay"), ("port", .arrayOfTables ports)]

def relayDef : BridgeDef :=
  ⟨some "ktbr1", "Relay", none, none, none,
    [⟨none, none, .tcpClient "192.168.4.1:8001" none none⟩,
      ⟨none, none, .tcpServer "8001" none none none⟩]⟩

def relayBridge : Conf.Bridge :=
  ⟨"ktbr1", "Relay", "Relay", true, none, .pass,
    [⟨"tcp-client0", .tnc, .tcpClient "192.168.4.1" 8001 .onDemand 0⟩,
      ⟨"tcp-server0", .app, .tcpServer (.addr (.v4 localhost 8001)) none [] false⟩], .dynamic⟩

def relayNamed : BridgeDef :=
  { relayDef with ports :=
      [⟨some "tcp-client0", none, .tcpClient "192.168.4.1:8001" none none⟩,
        ⟨some "tcp-server0", none, .tcpServer "8001" none none none⟩] }

theorem naming_keeps_ids_iff_relay :
    resolveBridge relayScope .dynamic relayDef = (some relayBridge, []) ∧
    KeepsDefaults relayDef.ports := by
  have hd : readBridge (Table.plain (relayTable [relayRadio, relayLan [] "8001"])) =
      some relayDef := by
    decide +kernel
  have hb : resolveBridge relayScope .dynamic relayDef = (some relayBridge, []) := by decide +kernel
  exact ⟨hb, (naming_keeps_ids_iff rfl hd hb).mp
    ⟨relayNamed, relayBridge, [], by decide +kernel, by decide +kernel, rfl⟩⟩

def resolvedIds (t : Table) : Option (List String) := do
  let d ← readBridge t.plain
  match resolveBridge relayScope .dynamic d with
  | (some b, []) => some (b.ports.map Port.id)
  | _ => none

/-- The second `tcp-server` has the default id `tcp-server1`, which the first
one's own id leaves room below. -/
theorem naming_renames_port :
    resolvedIds (relayTable [relayRadio, relayLan [("id", value "lan")] "8001",
      relayLan [] "8002"]) = some ["tcp-client0", "lan", "tcp-server1"] ∧
      resolvedIds (namePorts
        (relayTable [relayRadio, relayLan [("id", value "lan")] "8001", relayLan [] "8002"])) =
        some ["tcp-client0", "lan", "tcp-server0"] := by
  decide +kernel

end KissTncBridge.Proofs.PortNames
