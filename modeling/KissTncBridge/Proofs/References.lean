import KissTncBridge.Lib.Lists
import KissTncBridge.Proofs.EditSteps

namespace KissTncBridge.Proofs.References
open Conf Control DocumentReads Lib Supervisor Toml TomlReads

variable {doc doc' : Table} {kind : Kind} {target : String}

/-- The kind of object a reference stands in. -/
def pathKind : RefPath → Kind
  | .port .. => .bridge
  | .tncSection .. => .tnc

def pathId : RefPath → String
  | .port bridge .. => bridge
  | .tncSection tnc _ => tnc

def pathWrite (target : String) : RefPath → Table → Table
  | .port _ i k => fun b =>
    match (Entries.get "port" b).bind Item.asArrayOfTables with
    | some ports => setPorts (ports.modify i (Entries.insert k (value target))) b
    | none => b
  | .tncSection _ sect => fun t =>
    match Entries.get sect t with
    | some (.table es) =>
      Entries.insert sect (.table (Entries.insert "adapter" (value target) es)) t
    | some (.value (.table es)) =>
      Entries.insert sect (.value (.table (Entries.insert "adapter" (.string target) es))) t
    | _ => t

theorem setReference_eq (doc : Table) (path : RefPath) (target : String) :
    setReference doc path target = Doc.modify doc (pathKind path) (pathId path)
      (pathWrite target path) := by
  cases path <;> rfl

/-- A table says the same but for what it has under `ks`. -/
structure Alike (ks : List String) (t t' : Table) : Prop where
  gets : ∀ k, k ∉ ks → Entries.get k t' = Entries.get k t
  known : ∀ names, known names (plainEntries t') = known names (plainEntries t)

namespace Alike

variable {ks : List String} {t t' t'' : Table}

theorem refl (ks : List String) (t : Table) : Alike ks t t := ⟨fun _ _ => rfl, fun _ => rfl⟩

theorem trans (h : Alike ks t t') (h' : Alike ks t' t'') : Alike ks t t'' :=
  ⟨fun k hk => (h'.gets k hk).trans (h.gets k hk),
    fun names => (h'.known names).trans (h.known names)⟩

theorem str (h : Alike ks t t') (hk : k ∉ ks) : str t' k = str t k := by
  rw [Control.str, Control.str, h.gets k hk]

theorem get (h : Alike ks t t') (hk : k ∉ ks) :
    Entries.get k (plainEntries t') = Entries.get k (plainEntries t) := by
  rw [get_plain, get_plain, h.gets k hk]

theorem opt {α : Type} {read : Val → Option α} (h : Alike ks t t') (hk : k ∉ ks) :
    opt (plainEntries t') k read = opt (plainEntries t) k read := by
  rw [Toml.opt, Toml.opt, h.get hk]

theorem req {α : Type} {read : Val → Option α} (h : Alike ks t t') (hk : k ∉ ks) :
    req (plainEntries t') k read = req (plainEntries t) k read := by
  rw [Toml.req, Toml.req, h.get hk]

/-- What is there already can be replaced. -/
theorem insert {i j : Item} (hg : Entries.get k t = some i) (hk : k ∈ ks) :
    Alike ks t (Entries.insert k j t) := by
  refine ⟨fun k' hk' => Entries.get_insert_ne ?_ j t, fun names => ?_⟩
  · intro he
    exact hk' (he ▸ hk)
  induction t with
  | nil => cases hg
  | cons e es ih =>
    rw [Entries.get] at hg
    rw [Entries.insert]
    split at hg
    · rename_i he
      rw [if_pos he]
      simp [Toml.known, plainEntries, he]
    · rename_i he
      rw [if_neg he]
      have hes := ih hg
      simp only [Toml.known, plainEntries, List.all_cons] at hes ⊢
      rw [hes]

end Alike

/-- Only the key that a reference stands under is written. -/
def pathKey : RefPath → String
  | .port .. => "port"
  | .tncSection _ sect => sect

theorem pathWrite_alike (target : String) (path : RefPath) (t : Table) :
    Alike [pathKey path] t (pathWrite target path t) := by
  cases path with
  | port bridge i k =>
    simp only [pathWrite]
    split
    · rename_i ports hp
      obtain ⟨item, hg, -⟩ := Option.bind_eq_some_iff.mp hp
      exact .insert hg (List.mem_singleton.mpr rfl)
    · exact .refl _ t
  | tncSection tnc sect =>
    simp only [pathWrite]
    split
    · rename_i hg
      exact .insert hg (List.mem_singleton.mpr rfl)
    · rename_i hg
      exact .insert hg (List.mem_singleton.mpr rfl)
    · exact .refl _ t

def firstWith (ts : List Table) (oid : String) : Option Nat :=
  ts.findIdx? (fun t => str t "id" == some oid)

def modifyFirst (ts : List Table) (oid : String) (g : Table → Table) : List Table :=
  match firstWith ts oid with
  | some i => ts.modify i g
  | none => ts

theorem getElem?_modifyFirst (ts : List Table) (oid : String) (g : Table → Table) (j : Nat) :
    (modifyFirst ts oid g)[j]? =
      ts[j]?.map (fun t => if firstWith ts oid = some j then g t else t) := by
  rw [modifyFirst]
  cases hi : firstWith ts oid with
  | none => simp
  | some i =>
    rw [List.getElem?_modify, Option.map_eq_map]
    congr 1
    funext t
    simp

theorem firstWith_congr {ts ts' : List Table}
    (h : ts'.map (fun t => str t "id") = ts.map (fun t => str t "id"))
    (oid : String) : firstWith ts' oid = firstWith ts oid := by
  have hfind : (ts'.map (fun t => str t "id")).findIdx? (· == some oid) =
      (ts.map (fun t => str t "id")).findIdx? (· == some oid) := by rw [h]
  rwa [List.findIdx?_map, List.findIdx?_map] at hfind

theorem firstWith_modifyFirst (ts : List Table) (oid : String) {g : Table → Table}
    (hg : ∀ t, str (g t) "id" = str t "id") (x : String) :
    firstWith (modifyFirst ts oid g) x = firstWith ts x := by
  apply firstWith_congr
  apply List.ext_getElem?
  intro j
  rw [List.getElem?_map, List.getElem?_map, getElem?_modifyFirst, Option.map_map]
  congr 1
  funext t
  simp only [Function.comp]
  split
  · exact hg t
  · rfl

theorem array_modify (doc : Table) (kind : Kind) (oid : String) (g : Table → Table) :
    Doc.array (Doc.modify doc kind oid g) kind =
      (Doc.array doc kind).map (fun ts => modifyFirst ts oid g) := by
  cases ha : Doc.array doc kind with
  | none =>
    rw [Doc.modify, ha]
    exact ha
  | some ts =>
    have hi : Doc.indexOf doc kind oid = firstWith ts oid := by
      rw [Doc.indexOf, ha]
      rfl
    rw [Doc.modify, ha, hi]
    cases hf : firstWith ts oid with
    | none =>
      dsimp only
      rw [ha, Option.map_some, modifyFirst, hf]
    | some i =>
      dsimp only
      rw [Doc.array, Entries.get_insert_self, Option.map_some, modifyFirst, hf]
      rfl

theorem get_modify_ne {k : Kind} (h : k ≠ kind) (doc : Table) (oid : String) (g : Table → Table) :
    Entries.get (key k) (Doc.modify doc kind oid g) = Entries.get (key k) doc := by
  rw [Doc.modify]
  split
  · exact Entries.get_insert_ne (fun he => h (key_injective he)) _ _
  · rfl

theorem array_modify_ne {k : Kind} (h : k ≠ kind) (doc : Table) (oid : String) (g : Table → Table) :
    Doc.array (Doc.modify doc kind oid g) k = Doc.array doc k := by
  rw [Doc.array, Doc.array, get_modify_ne h]

/-- The references that are written in the `j`th of the tables. -/
def aimed (kind : Kind) (ts : List Table) (paths : List RefPath) (j : Nat) : List RefPath :=
  paths.filter (fun p => pathKind p = kind ∧ firstWith ts (pathId p) = some j)

def writeAll (target : String) (paths : List RefPath) (t : Table) : Table :=
  paths.foldl (fun t p => pathWrite target p t) t

def setAll (target : String) (paths : List RefPath) (doc : Table) : Table :=
  paths.foldl (fun doc p => setReference doc p target) doc

/-- A reference does not stand under the id. -/
def Proper (path : RefPath) : Prop := pathKey path ≠ "id"

/-- Each table gets what is written in it, in order. -/
theorem array_setAll (paths : List RefPath) (hp : ∀ p ∈ paths, Proper p) (doc : Table)
    (kind : Kind) : Doc.array (setAll target paths doc) kind =
      (Doc.array doc kind).map
        (fun ts => ts.mapIdx (fun j t => writeAll target (aimed kind ts paths j) t)) := by
  induction paths generalizing doc with
  | nil =>
    simp [setAll, aimed, writeAll, mapIdx_self]
  | cons p paths ih =>
    have hrest := ih (fun q hq => hp q (List.mem_cons_of_mem p hq)) (setReference doc p target)
    have hkeep : ∀ t, str (pathWrite target p t) "id" = str t "id" :=
      fun t => (pathWrite_alike target p t).str
        (fun hm => hp p (List.mem_cons_self ..) (List.mem_singleton.mp hm).symm)
    refine hrest.trans ?_
    rw [setReference_eq]
    by_cases hk : pathKind p = kind
    · subst hk
      rw [array_modify, Option.map_map]
      congr 1
      funext ts
      apply List.ext_getElem?
      intro j
      simp only [Function.comp, List.getElem?_mapIdx, getElem?_modifyFirst, Option.map_map]
      congr 1
      funext t
      simp only [aimed, firstWith_modifyFirst ts _ hkeep, List.filter_cons, true_and, Function.comp]
      by_cases hj : firstWith ts (pathId p) = some j
      · simp [hj, writeAll]
      · simp [hj]
    · rw [array_modify_ne (Ne.symm hk)]
      congr 1
      funext ts
      simp [aimed, hk]

theorem get_setAll_ne (paths : List RefPath) (hp : ∀ p ∈ paths, pathKind p ≠ kind) (doc : Table) :
    Entries.get (key kind) (setAll target paths doc) = Entries.get (key kind) doc := by
  induction paths generalizing doc with
  | nil => rfl
  | cons p paths ih =>
    refine (ih (fun q hq => hp q (List.mem_cons_of_mem p hq)) (setReference doc p target)).trans ?_
    rw [setReference_eq]
    exact get_modify_ne (Ne.symm (hp p (List.mem_cons_self ..))) doc _ _

/-- Without tables of a kind nothing is written under its key. -/
theorem get_setAll_none (h : Doc.array doc kind = none) (paths : List RefPath) :
    Entries.get (key kind) (setAll target paths doc) = Entries.get (key kind) doc := by
  induction paths generalizing doc with
  | nil => rfl
  | cons p paths ih =>
    have hstep : Entries.get (key kind) (setReference doc p target) =
        Entries.get (key kind) doc := by
      rw [setReference_eq]
      by_cases hk : pathKind p = kind
      · rw [Doc.modify, hk, h]
      · exact get_modify_ne (Ne.symm hk) doc _ _
    have hnone : Doc.array (setReference doc p target) kind = none := by
      rw [Doc.array, hstep]
      exact h
    exact (ih hnone).trans hstep

/-- The key that ports refer to an object of a kind by. -/
def refKey : Kind → String
  | .tnc => "tnc"
  | .adapter => "adapter"
  | .bridge => ""

/-- What a port refers to by it. -/
def refersTo : Kind → PortDefKind → Option String
  | .tnc, .sppClient tnc .. | .tnc, .bleClient tnc .. | .tnc, .serial tnc .. => some tnc
  | .adapter, .bleServer adapter _ => adapter
  | _, _ => none

def retarget (target : String) : Kind → PortDefKind → PortDefKind
  | .tnc, .sppClient _ c i e => .sppClient target c i e
  | .tnc, .bleClient _ c i e => .bleClient target c i e
  | .tnc, .serial _ c i e => .serial target c i e
  | .adapter, .bleServer _ n => .bleServer (some target) n
  | _, k => k

/-- Whether ports of the type can have such a reference. -/
def takes : Kind → PortDefKind → Bool
  | .tnc, .sppClient .. | .tnc, .bleClient .. | .tnc, .serial .. => true
  | .adapter, .bleServer .. => true
  | _, _ => false

theorem get_of_known {ks : List String} {es : List (String × Val)} (h : known ks es = true)
    (hk : k ∉ ks) : Entries.get k es = none := by
  induction es with
  | nil => rfl
  | cons e es ih =>
    simp only [known, List.all_cons, Bool.and_eq_true, List.contains_iff_mem] at h
    have hne : e.1 ≠ k := by
      intro he
      exact hk (he ▸ h.1)
    rw [Entries.get, if_neg hne]
    exact ih h.2

theorem known_of_insert {ks : List String} {es : List (String × Val)}
    (h : known ks (Entries.insert k v es) = true) : k ∈ ks := by
  by_cases hk : k ∈ ks
  · exact hk
  · have hg := get_of_known h hk
    rw [Entries.get_insert_self] at hg
    cases hg

theorem req_none {read : Val → Option α} (h : Entries.get k es = none) : req es k read = none := by
  rw [req, h]
  rfl

theorem readPort_refers (hk : kind ≠ .bridge) (h : readPort (.table es) = some p) :
    req es (refKey kind) Val.asStr = refersTo kind p.kind := by
  obtain ⟨name, type, -, ht, hknown, -, -, hread⟩ := readPort_iff.mp h
  simp only [portTypes, Entries.get] at ht
  cases kind with
  | bridge => exact absurd rfl hk
  | tnc =>
    split_ifs at ht <;> obtain rfl := Option.some.inj ht <;>
      simp only [tncPortType, bind, Option.bind_eq_some_iff, Option.some.injEq] at hread
    · obtain ⟨_, -, _, -, _, -, hr⟩ := hread
      rw [← hr]
      exact req_none (get_of_known hknown (by decide))
    · obtain ⟨_, -, _, -, _, -, _, -, hr⟩ := hread
      rw [← hr]
      exact req_none (get_of_known hknown (by decide))
    · obtain ⟨_, -, _, -, hr⟩ := hread
      rw [← hr]
      exact req_none (get_of_known hknown (by decide))
    all_goals
      obtain ⟨tnc, htnc, _, -, _, -, _, -, hr⟩ := hread
      rw [← hr]
      exact htnc
  | adapter =>
    split_ifs at ht <;> obtain rfl := Option.some.inj ht <;>
      simp only [tncPortType, bind, Option.bind_eq_some_iff, Option.some.injEq] at hread
    · obtain ⟨_, -, _, -, _, -, hr⟩ := hread
      rw [← hr]
      exact req_none (get_of_known hknown (by decide))
    · obtain ⟨_, -, _, -, _, -, _, -, hr⟩ := hread
      rw [← hr]
      exact req_none (get_of_known hknown (by decide))
    · obtain ⟨adapter, ha, _, -, hr⟩ := hread
      rw [← hr]
      exact req_of_opt ha
    all_goals
      obtain ⟨_, -, _, -, _, -, _, -, hr⟩ := hread
      rw [← hr]
      exact req_none (get_of_known hknown (by decide))

theorem readPort_retarget (hk : kind ≠ .bridge) (h : readPort (.table es) = some p)
    (h' : readPort (.table (Entries.insert (refKey kind) (.string target) es)) = some p') :
    takes kind p.kind = true ∧ p' = { p with kind := retarget target kind p.kind } := by
  obtain ⟨name, type, hn, ht, -, hid, hrole, hread⟩ := readPort_iff.mp h
  obtain ⟨name', type', hn', ht', hknown', hid', hrole', hread'⟩ := readPort_iff.mp h'
  have htype : "type" ≠ refKey kind := by cases kind <;> decide
  have hidne : "id" ≠ refKey kind := by cases kind <;> decide
  have hrolene : "role" ≠ refKey kind := by cases kind <;> decide
  rw [req_insert_ne htype, hn] at hn'
  obtain rfl := Option.some.inj hn'
  rw [ht] at ht'
  obtain rfl := Option.some.inj ht'
  rw [opt_insert_ne hidne, hid] at hid'
  rw [opt_insert_ne hrolene, hrole] at hrole'
  have hin := known_of_insert hknown'
  have hkind : takes kind p.kind = true ∧ p'.kind = retarget target kind p.kind := by
    simp only [portTypes, Entries.get] at ht
    cases kind with
    | bridge => exact absurd rfl hk
    | tnc =>
      split_ifs at ht <;> obtain rfl := Option.some.inj ht
      · exact absurd hin (by decide)
      · exact absurd hin (by decide)
      · exact absurd hin (by decide)
      all_goals
        simp only [tncPortType, refKey, bind, Option.bind_eq_some_iff, Option.some.injEq,
          req_insert_self, opt_insert_ne, ne_eq, String.reduceEq, not_false_eq_true, Val.asStr]
          at hread hread'
        obtain ⟨_, -, c, hc, i, hi, e, he, hr⟩ := hread
        obtain ⟨_, ht', c', hc', i', hi', e', he', hr'⟩ := hread'
        cases ht'
        cases hc.symm.trans hc'
        cases hi.symm.trans hi'
        cases he.symm.trans he'
        rw [← hr, ← hr']
        exact ⟨rfl, rfl⟩
    | adapter =>
      split_ifs at ht <;> obtain rfl := Option.some.inj ht
      · exact absurd hin (by decide)
      · exact absurd hin (by decide)
      · simp only [refKey, bind, Option.bind_eq_some_iff, Option.some.injEq, opt_insert_self,
          opt_insert_ne, ne_eq, String.reduceEq, not_false_eq_true, Val.asStr, Option.map_some]
          at hread hread'
        obtain ⟨_, -, n, hn, hr⟩ := hread
        obtain ⟨_, ha, n', hn', hr'⟩ := hread'
        cases ha
        cases hn.symm.trans hn'
        rw [← hr, ← hr']
        exact ⟨rfl, rfl⟩
      all_goals exact absurd hin (by decide)
  obtain ⟨htakes, hkind⟩ := hkind
  refine ⟨htakes, ?_⟩
  cases p
  cases p'
  simp only [Option.some.injEq] at hid' hrole' hkind ⊢
  rw [hid', hrole', hkind]

def portAt : RefPath → Option Nat
  | .port _ i _ => some i
  | .tncSection .. => none

def sectionOf : RefPath → Option String
  | .port .. => none
  | .tncSection _ sect => some sect

/-- A bridge's ports, if they are written as `[[bridge.port]]`. -/
def portTables (b : Table) : Option (List Table) := (Entries.get "port" b).bind Item.asArrayOfTables

def writesPort (paths : List RefPath) (i : Nat) : Bool := paths.any (fun q => portAt q == some i)

def writesSection (paths : List RefPath) (sect : String) : Bool :=
  paths.any (fun q => sectionOf q == some sect)

/-- What is written in a bridge: its ports' references, and nothing if they are
not tables. -/
theorem writeAll_bridge (hp : ∀ p ∈ paths, ∃ bid i, p = .port bid i k) (b : Table) :
    Alike ["port"] b (writeAll target paths b) ∧
    portTables (writeAll target paths b) = (portTables b).map (fun ps =>
      ps.mapIdx (fun i p => if writesPort paths i then Entries.insert k (value target) p else p)) ∧
    (portTables b = none → writeAll target paths b = b) := by
  induction paths generalizing b with
  | nil =>
    refine ⟨.refl _ b, ?_, fun _ => rfl⟩
    simp [writeAll, writesPort, mapIdx_self]
  | cons p paths ih =>
    obtain ⟨bid, i, rfl⟩ := hp p (List.mem_cons_self ..)
    obtain ⟨halike, hports, hnone⟩ :=
      ih (fun q hq => hp q (List.mem_cons_of_mem _ hq)) (pathWrite target (.port bid i k) b)
    have hstep : portTables (pathWrite target (.port bid i k) b) =
        (portTables b).map (fun ps => ps.modify i (Entries.insert k (value target))) := by
      simp only [pathWrite, portTables]
      split
      · rename_i ps hps
        rw [hps, setPorts, Entries.get_insert_self]
        rfl
      · rename_i hps
        rw [hps]
        rfl
    have hfirst : Alike ["port"] b (pathWrite target (.port bid i k) b) :=
      pathWrite_alike target (.port bid i k) b
    refine ⟨hfirst.trans halike, ?_, fun hb => ?_⟩
    · refine hports.trans ?_
      rw [hstep, Option.map_map]
      congr 1
      funext ps
      apply List.ext_getElem?
      intro j
      simp only [Function.comp, List.getElem?_mapIdx, List.getElem?_modify, Option.map_eq_map,
        Option.map_map]
      congr 1
      funext q
      by_cases hj : i = j
      · subst hj
        simp [writesPort, portAt]
      · simp [writesPort, portAt, hj]
    · have hsame : pathWrite target (.port bid i k) b = b := by
        rw [portTables] at hb
        simp only [pathWrite, hb]
      exact (hnone (by rw [hsame]; exact hb)).trans hsame

/-- Ports that are written as tables are read in their places. -/
theorem ports_read (hps : portTables b = some ps) (h : readBridge (Table.plain b) = some d) :
    ps.map (fun p => readPort (Table.plain p)) = d.ports.map some := by
  obtain ⟨item, hitem, hps⟩ := Option.bind_eq_some_iff.mp hps
  cases item with
  | value => cases hps
  | table => cases hps
  | arrayOfTables ps' =>
    obtain rfl := Option.some.inj hps
    exact PortNames.ports_of_read hitem h

theorem portsOf_eq (b : Table) : portsOf b = (portTables b).getD [] := rfl

section
variable {ps : List Table} {ds ds' : List PortDef} (hk : kind ≠ .bridge)
  (hold : ps.map (fun p => readPort (Table.plain p)) = ds.map some)
  (hnew : (ps.mapIdx (fun i p =>
      if writesPort paths i then Entries.insert (refKey kind) (value target) p else p)).map
    (fun p => readPort (Table.plain p)) = ds'.map some)
include hk hold hnew

/-- A port before and after references are written. -/
theorem port_written (hp : ds[i]? = some p) : ∃ p', ds'[i]? = some p' ∧
    ((writesPort paths i = false ∧ p' = p) ∨
      (writesPort paths i = true ∧ takes kind p.kind = true ∧
        p' = { p with kind := retarget target kind p.kind })) := by
  have ho := congrArg (·[i]?) hold
  have hn := congrArg (·[i]?) hnew
  simp only [List.getElem?_map, List.getElem?_mapIdx, Option.map_map, hp,
    Option.map_some] at ho hn
  obtain ⟨q, hq, hread⟩ := Option.map_eq_some_iff.mp ho
  rw [hq, Option.map_some] at hn
  obtain ⟨p', hp', hread'⟩ := Option.map_eq_some_iff.mp hn.symm
  refine ⟨p', hp', ?_⟩
  simp only [Function.comp] at hread'
  cases hw : writesPort paths i with
  | false =>
    rw [hw, if_neg Bool.false_ne_true, hread] at hread'
    exact .inl ⟨rfl, Option.some.inj hread'⟩
  | true =>
    rw [hw, if_pos rfl, Table.plain, plain_insert, value_plain] at hread'
    exact .inr ⟨rfl, readPort_retarget hk hread hread'.symm⟩

theorem ports_written : ds' = ds.mapIdx (fun i p =>
    if writesPort paths i then { p with kind := retarget target kind p.kind } else p) := by
  apply List.ext_getElem?
  intro i
  rw [List.getElem?_mapIdx]
  cases hp : ds[i]? with
  | none =>
    have ho := congrArg List.length hold
    have hn := congrArg List.length hnew
    rw [List.length_map, List.length_map] at ho
    rw [List.length_map, List.length_mapIdx, List.length_map, ho] at hn
    rw [Option.map_none, List.getElem?_eq_none_iff, ← hn, ← List.getElem?_eq_none_iff]
    exact hp
  | some p =>
    obtain ⟨p', hp', ⟨hw, rfl⟩ | ⟨hw, -, rfl⟩⟩ := port_written hk hold hnew hp
    · rw [hp', Option.map_some, hw, if_neg Bool.false_ne_true]
    · rw [hp', Option.map_some, hw, if_pos rfl]

end

/-- A bridge with references written is read as the bridge with its references
changed. -/
theorem readBridge_written (hk : kind ≠ .bridge)
    (hp : ∀ p ∈ paths, ∃ bid i, p = .port bid i (refKey kind))
    (h : readBridge (Table.plain b) = some d)
    (h' : readBridge (Table.plain (writeAll target paths b)) = some d') :
    d' = { d with ports := d.ports.mapIdx (fun i p =>
        if writesPort paths i && decide (i < (portsOf b).length) then
          { p with kind := retarget target kind p.kind }
        else p) } ∧
      ∀ i p, d.ports[i]? = some p → (writesPort paths i && decide (i < (portsOf b).length)) = true →
        takes kind p.kind = true := by
  obtain ⟨halike, hports, hnone⟩ := writeAll_bridge hp b
  rw [portsOf_eq]
  cases hps : portTables b with
  | none =>
    rw [hnone hps, h] at h'
    obtain rfl := Option.some.inj h'
    simp only [Option.getD_none, List.length_nil, Nat.not_lt_zero, decide_false, Bool.and_false,
      Bool.false_eq_true, if_false, mapIdx_self, false_implies, implies_true, and_self]
  | some ps =>
    rw [hps, Option.map_some] at hports
    have hold := ports_read hps h
    have hnew := ports_read hports h'
    have hlen : ps.length = d.ports.length := by simpa using congrArg List.length hold
    have hin : ∀ {i p}, d.ports[i]? = some p →
        (writesPort paths i && decide (i < ps.length)) = writesPort paths i := by
      intro i p hp
      have hlt : i < ps.length := hlen ▸ (List.getElem?_eq_some_iff.mp hp).1
      rw [decide_eq_true hlt, Bool.and_true]
    have hportsEq : d'.ports = d.ports.mapIdx (fun i p =>
        if writesPort paths i && decide (i < ps.length) then
          { p with kind := retarget target kind p.kind }
        else p) := by
      rw [ports_written hk hold hnew]
      apply List.ext_getElem?
      intro i
      rw [List.getElem?_mapIdx, List.getElem?_mapIdx]
      cases hp : d.ports[i]? with
      | none => rfl
      | some p => rw [Option.map_some, Option.map_some, hin hp]
    obtain ⟨-, h1, h2, h3, h4, h5, -⟩ := readBridge_iff.mp h
    obtain ⟨-, h1', h2', h3', h4', h5', -⟩ := readBridge_iff.mp h'
    rw [halike.opt (by decide)] at h1' h3' h4' h5'
    rw [halike.req (by decide)] at h2'
    rw [Option.getD_some]
    refine ⟨?_, fun i p hp hw => ?_⟩
    · cases d
      cases d'
      simp only [BridgeDef.mk.injEq] at hportsEq ⊢
      exact ⟨Option.some.inj (h1'.symm.trans h1), Option.some.inj (h2'.symm.trans h2),
        Option.some.inj (h3'.symm.trans h3), Option.some.inj (h4'.symm.trans h4),
        Option.some.inj (h5'.symm.trans h5), hportsEq⟩
    · rw [hin hp] at hw
      obtain ⟨-, -, ⟨hn, -⟩ | ⟨-, htakes, -⟩⟩ := port_written hk hold hnew hp
      · rw [hn] at hw
        cases hw
      · exact htakes

def retargetItem (target : String) : Item → Item
  | .table es => .table (Entries.insert "adapter" (value target) es)
  | .value (.table es) => .value (.table (Entries.insert "adapter" (.string target) es))
  | i => i

theorem retargetItem_twice (target : String) (i : Item) :
    retargetItem target (retargetItem target i) = retargetItem target i := by
  cases i with
  | table es => simp [retargetItem]
  | arrayOfTables ts => rfl
  | value v => cases v <;> simp [retargetItem]

theorem get_pathWrite_section (target tid sect s : String) (t : Table) :
    Entries.get s (pathWrite target (.tncSection tid sect) t) =
      (Entries.get s t).map (fun i => if sect = s then retargetItem target i else i) := by
  by_cases hs : sect = s
  · subst hs
    cases hg : Entries.get sect t with
    | none => simp [pathWrite, hg]
    | some i =>
      cases i with
      | table es => simp [pathWrite, hg, retargetItem]
      | arrayOfTables ts => simp [pathWrite, hg, retargetItem]
      | value v => cases v <;> simp [pathWrite, hg, retargetItem]
  · have halike := pathWrite_alike target (.tncSection tid sect) t
    rw [halike.gets s (fun hm => hs (List.mem_singleton.mp hm).symm)]
    simp [hs]

/-- What is written in a TNC: its sections' adapters. -/
theorem writeAll_tnc
    (hp : ∀ p ∈ paths, ∃ tid sect, p = .tncSection tid sect ∧ sect ∈ ["spp", "ble"]) (t : Table) :
    Alike ["spp", "ble"] t (writeAll target paths t) ∧
    ∀ s, Entries.get s (writeAll target paths t) =
      (Entries.get s t).map
        (fun i => if writesSection paths s then retargetItem target i else i) := by
  induction paths generalizing t with
  | nil =>
    refine ⟨.refl _ t, fun s => ?_⟩
    simp [writeAll, writesSection]
  | cons p paths ih =>
    obtain ⟨tid, sect, rfl, hsect⟩ := hp p (List.mem_cons_self ..)
    obtain ⟨halike, hgets⟩ :=
      ih (fun q hq => hp q (List.mem_cons_of_mem _ hq)) (pathWrite target (.tncSection tid sect) t)
    have hfirst : Alike [sect] t (pathWrite target (.tncSection tid sect) t) :=
      pathWrite_alike target (.tncSection tid sect) t
    have hwider : Alike ["spp", "ble"] t (pathWrite target (.tncSection tid sect) t) :=
      ⟨fun k hk => hfirst.gets k (fun hm => hk (List.mem_singleton.mp hm ▸ hsect)), hfirst.known⟩
    refine ⟨hwider.trans halike, fun s => (hgets s).trans ?_⟩
    rw [get_pathWrite_section, Option.map_map]
    congr 1
    funext i
    by_cases hs : sect = s
    · subst hs
      simp [writesSection, sectionOf, retargetItem_twice]
    · simp [hs, writesSection, sectionOf]

theorem readTnc_iff : readTnc (.table es) = some d ↔
    known ["id", "name", "model", "spp", "ble", "serial"] es = true ∧
    req es "id" Val.asStr = some d.id ∧
      opt es "name" Val.asStr = some d.name ∧ opt es "model" Val.asStr = some d.model ∧
      opt es "spp" readSpp = some d.spp ∧ opt es "ble" readBle = some d.ble ∧
      opt es "serial" readSerial = some d.serial := by
  simp only [readTnc, bind, Option.bind_eq_some_iff, fields_iff]
  constructor
  · rintro ⟨_, ⟨hk, rfl⟩, _, h1, _, h2, _, h3, _, h4, _, h5, _, h6, hd⟩
    obtain rfl := Option.some.inj hd
    exact ⟨hk, h1, h2, h3, h4, h5, h6⟩
  · rintro ⟨hk, h1, h2, h3, h4, h5, h6⟩
    exact ⟨_, ⟨hk, rfl⟩, _, h1, _, h2, _, h3, _, h4, _, h5, _, h6, rfl⟩

theorem readSpp_iff : readSpp (.table es) = some s ↔
    known ["address", "adapter", "channel"] es = true ∧
    req es "address" Val.asStr = some s.address ∧
      opt es "adapter" Val.asStr = some s.adapter ∧
      opt es "channel" Val.asUInt8 = some s.channel := by
  simp only [readSpp, bind, Option.bind_eq_some_iff, fields_iff]
  constructor
  · rintro ⟨_, ⟨hk, rfl⟩, _, h1, _, h2, _, h3, hd⟩
    obtain rfl := Option.some.inj hd
    exact ⟨hk, h1, h2, h3⟩
  · rintro ⟨hk, h1, h2, h3⟩
    exact ⟨_, ⟨hk, rfl⟩, _, h1, _, h2, _, h3, rfl⟩

theorem readBle_iff : readBle (.table es) = some s ↔
    known ["address", "adapter"] es = true ∧ req es "address" Val.asStr = some s.address ∧
      opt es "adapter" Val.asStr = some s.adapter := by
  simp only [readBle, bind, Option.bind_eq_some_iff, fields_iff]
  constructor
  · rintro ⟨_, ⟨hk, rfl⟩, _, h1, _, h2, hd⟩
    obtain rfl := Option.some.inj hd
    exact ⟨hk, h1, h2⟩
  · rintro ⟨hk, h1, h2⟩
    exact ⟨_, ⟨hk, rfl⟩, _, h1, _, h2, rfl⟩

/-- A section is a table, inline or not, and is changed as what it says. -/
theorem retargetItem_plain (target : String) (i : Item) :
    (∃ es, i.plain = .table es ∧
      (retargetItem target i).plain = .table (Entries.insert "adapter" (.string target) es) ∧
      Item.entry i "adapter" = req es "adapter" Val.asStr) ∨ ∀ es, i.plain ≠ .table es := by
  cases i with
  | table es =>
    left
    refine ⟨plainEntries es, by rw [Item.plain],
      by rw [retargetItem, Item.plain, plain_insert, value_plain], ?_⟩
    rw [Item.entry, str_plain]
  | arrayOfTables ts =>
    right
    intro es he
    rw [Item.plain] at he
    cases he
  | value v =>
    cases v with
    | table es => exact .inl ⟨es, by rw [Item.plain], by rw [retargetItem, Item.plain], rfl⟩
    | _ =>
      right
      intro es he
      rw [Item.plain] at he
      cases he

theorem readSpp_retarget (target : String) (h : readSpp i.plain = some s) :
    readSpp (retargetItem target i).plain = some { s with adapter := some target } ∧
    Item.entry i "adapter" = s.adapter := by
  rcases retargetItem_plain target i with ⟨es, hi, hr, he⟩ | hn
  · rw [hi] at h
    obtain ⟨hk, h1, h2, h3⟩ := readSpp_iff.mp h
    refine ⟨?_, he.trans (req_of_opt h2)⟩
    rw [hr, readSpp_iff, known_insert (by decide), req_insert_ne (by decide), opt_insert_self,
      opt_insert_ne (by decide)]
    exact ⟨hk, h1, rfl, h3⟩
  · cases hv : i.plain with
    | table es => exact absurd hv (hn es)
    | _ =>
      rw [hv] at h
      cases h

theorem readBle_retarget (target : String) (h : readBle i.plain = some s) :
    readBle (retargetItem target i).plain = some { s with adapter := some target } ∧
    Item.entry i "adapter" = s.adapter := by
  rcases retargetItem_plain target i with ⟨es, hi, hr, he⟩ | hn
  · rw [hi] at h
    obtain ⟨hk, h1, h2⟩ := readBle_iff.mp h
    refine ⟨?_, he.trans (req_of_opt h2)⟩
    rw [hr, readBle_iff, known_insert (by decide), req_insert_ne (by decide), opt_insert_self]
    exact ⟨hk, h1, rfl⟩
  · cases hv : i.plain with
    | table es => exact absurd hv (hn es)
    | _ =>
      rw [hv] at h
      cases h

/-- A section that may be written is read as one that may be changed. -/
theorem opt_written {read : Val → Option α} {set : α → α} {w : Bool}
    (hg : Entries.get sect t' =
      (Entries.get sect t).map (fun i => if w then retargetItem target i else i))
    (hr : ∀ i s, read i.plain = some s → read (retargetItem target i).plain = some (set s))
    (h : opt (plainEntries t) sect read = some o) (h' : opt (plainEntries t') sect read = some o') :
    o' = o.map (fun s => if w then set s else s) := by
  rw [opt, get_plain] at h h'
  rw [hg] at h'
  cases hi : Entries.get sect t with
  | none =>
    rw [hi] at h h'
    rw [← Option.some.inj h, ← Option.some.inj h']
    rfl
  | some i =>
    rw [hi, Option.map_some] at h h'
    obtain ⟨s, hread, rfl⟩ := Option.map_eq_some_iff.mp h
    obtain ⟨s', hread', rfl⟩ := Option.map_eq_some_iff.mp h'
    rw [Option.map_some]
    cases w with
    | false => exact (hread'.symm.trans hread).trans rfl
    | true => exact (hread'.symm.trans (hr i s hread)).trans rfl

/-- A TNC with references written is read as the TNC with its sections'
adapters changed. -/
theorem readTnc_written
    (hp : ∀ p ∈ paths, ∃ tid sect, p = .tncSection tid sect ∧ sect ∈ ["spp", "ble"])
    (h : readTnc (Table.plain t) = some d)
    (h' : readTnc (Table.plain (writeAll target paths t)) = some d') : d' = { d with
      spp := d.spp.map
        (fun s => if writesSection paths "spp" then { s with adapter := some target } else s)
      ble := d.ble.map
        (fun s => if writesSection paths "ble" then { s with adapter := some target } else s) } :=
  by
  obtain ⟨halike, hgets⟩ := writeAll_tnc hp t
  obtain ⟨-, h1, h2, h3, hspp, hble, h6⟩ := readTnc_iff.mp h
  obtain ⟨-, h1', h2', h3', hspp', hble', h6'⟩ := readTnc_iff.mp h'
  rw [halike.req (by decide)] at h1'
  rw [halike.opt (by decide)] at h2' h3' h6'
  have hs := opt_written (hgets "spp") (fun i s hi => (readSpp_retarget target hi).1) hspp hspp'
  have hb := opt_written (hgets "ble") (fun i s hi => (readBle_retarget target hi).1) hble hble'
  cases d
  cases d'
  simp only [TncDef.mk.injEq] at hs hb ⊢
  exact ⟨Option.some.inj (h1'.symm.trans h1), Option.some.inj (h2'.symm.trans h2),
    Option.some.inj (h3'.symm.trans h3), hs, hb, Option.some.inj (h6'.symm.trans h6)⟩

end KissTncBridge.Proofs.References
