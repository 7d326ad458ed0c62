import KissTncBridge.Ctl.Changes
import KissTncBridge.Lib.Lists
import KissTncBridge.Proofs.NonDisruptive
import KissTncBridge.Proofs.SetAside

namespace KissTncBridge.Proofs.ConcurrentEdits
open Conf Control Ctl Lib Supervisor Toml Daemon ChangeSteps DocumentReads SetAside
open Crates BuildFacts StaticConfig NonDisruptive PlanFacts ValidConfig Reconcile ApplyPorts

variable {doc : Table} {kind kind' : Kind} {oid oid' : String}

def named (oid : String) (t : Table) : Bool := str t "id" == some oid

theorem named_ne (h : oid' ≠ oid) {t : Table} (ht : named oid t = true) : named oid' t = false := by
  have hs : str t "id" = some oid := by simpa [named] using ht
  have hne : ¬ oid = oid' := fun he => h he.symm
  simp [named, hs, hne]

theorem indexOf_find (ha : Doc.array doc kind = some ts) :
    Doc.indexOf doc kind oid = ts.findIdx? (named oid) := by
  simp only [Doc.indexOf, ha, bind, Option.bind_some]
  rfl

theorem table_find (ha : Doc.array doc kind = some ts) :
    Doc.table doc kind oid = ts.find? (named oid) := by
  simp only [Doc.table, ha, indexOf_find ha, bind, Option.bind_some,
    List.find?_eq_bind_findIdx?_getElem?]

theorem table_none (ha : Doc.array doc kind = none) : Doc.table doc kind oid = none := by
  simp only [Doc.table, ha, bind, Option.bind_none]

theorem array_insert (ts : List Table) :
    Doc.array (Entries.insert (key kind) (.arrayOfTables ts) doc) kind = some ts := by
  rw [Doc.array, Entries.get_insert_self]
  rfl

theorem array_insert_ne (h : kind' ≠ kind) (i : Item) :
    Doc.array (Entries.insert (key kind) i doc) kind' = Doc.array doc kind' := by
  rw [Doc.array, Doc.array, Entries.get_insert_ne (fun he => h (key_injective he))]

theorem array_remove_ne (h : kind' ≠ kind) :
    Doc.array (Entries.remove (key kind) doc) kind' = Doc.array doc kind' := by
  rw [Doc.array, Doc.array, Entries.get_remove_ne (fun he => h (key_injective he))]

theorem table_congr (h : Doc.array doc' kind = Doc.array doc kind) :
    Doc.table doc' kind oid = Doc.table doc kind oid := by
  simp only [Doc.table, Doc.indexOf, h]

/-- Where an object's place is known, its array is. -/
theorem array_of_index (h : Doc.indexOf doc kind oid = some i) :
    ∃ ts, Doc.array doc kind = some ts ∧ ts.findIdx? (named oid) = some i := by
  simp only [Doc.indexOf, bind, Option.bind_eq_some_iff] at h
  exact h

theorem put_replaces (t : Table) (hi : Doc.indexOf doc kind oid = some i)
    (ha : Doc.array doc kind = some ts) :
    Doc.put doc kind oid t =
      Entries.insert (key kind) (.arrayOfTables (ts.modify i (fun _ => t))) doc := by
  simp only [Doc.put, hi, Doc.modify, ha]

/-- Putting an object leaves the others as they are. -/
theorem table_put_ne (t : Table) (hid : str t "id" = some oid) (h : kind' ≠ kind ∨ oid' ≠ oid) :
    Doc.table (Doc.put doc kind oid t) kind' oid' = Doc.table doc kind' oid' := by
  by_cases hk : kind' = kind
  · subst hk
    have ho : oid' ≠ oid := h.resolve_left (fun hn => hn rfl)
    have ht : named oid' t = false := named_ne ho (by simp [named, hid])
    cases hi : Doc.indexOf doc kind' oid with
    | some i =>
      obtain ⟨ts, ha, hf⟩ := array_of_index hi
      rw [put_replaces t hi ha, table_find (array_insert _), table_find ha]
      exact find?_modify_found hf (fun a hn => named_ne ho hn) (fun _ => ht)
    | none =>
      simp only [Doc.put, hi]
      split
      · rename_i hg
        have ha : Doc.array doc kind' = none := by rw [Doc.array, hg]; rfl
        rw [table_find (array_insert _), table_none ha]
        simp [ht]
      · rename_i ts hg
        have ha : Doc.array doc kind' = some ts := by rw [Doc.array, hg]; rfl
        rw [table_find (array_insert _), table_find ha, List.find?_append]
        simp [ht]
      · rfl
  · refine table_congr ?_
    cases hi : Doc.indexOf doc kind oid with
    | some i =>
      obtain ⟨ts, ha, hf⟩ := array_of_index hi
      rw [put_replaces t hi ha, array_insert_ne hk]
    | none =>
      simp only [Doc.put, hi]
      split
      · exact array_insert_ne hk _
      · exact array_insert_ne hk _
      · rfl

theorem table_remove_ne (h : kind' ≠ kind ∨ oid' ≠ oid) :
    Doc.table (Doc.remove doc kind oid) kind' oid' = Doc.table doc kind' oid' := by
  cases hi : Doc.indexOf doc kind oid with
  | none =>
    have hr : Doc.remove doc kind oid = doc := by
      unfold Doc.remove
      rw [hi]
      split
      · rename_i hn
        cases hn
      · rfl
    rw [hr]
  | some i =>
    obtain ⟨ts, ha, hf⟩ := array_of_index hi
    have hr : Doc.remove doc kind oid =
        if (ts.eraseIdx i).isEmpty then Entries.remove (key kind) doc
        else Entries.insert (key kind) (.arrayOfTables (ts.eraseIdx i)) doc := by
      simp only [Doc.remove, ha, hi]
    by_cases hk : kind' = kind
    · subst hk
      have ho : oid' ≠ oid := h.resolve_left (fun hn => hn rfl)
      have hfind : (ts.eraseIdx i).find? (named oid') = ts.find? (named oid') :=
        find?_eraseIdx_found hf (fun a hn => named_ne ho hn)
      rw [hr]
      split
      · rename_i he
        have hnone : Doc.array (Entries.remove (key kind') doc) kind' = none := by
          rw [Doc.array, Entries.get_remove_self]
          rfl
        rw [table_none hnone, table_find ha, ← hfind, List.isEmpty_iff.mp he]
        rfl
      · rw [table_find (array_insert _), table_find ha, hfind]
    · refine table_congr ?_
      rw [hr]
      split
      · exact array_remove_ne hk
      · exact array_insert_ne hk _

/-- An object that is there is replaced by what is put. -/
theorem table_put_self (t : Table) (hid : str t "id" = some oid)
    (h : (Doc.table doc kind oid).isSome = true) :
    Doc.table (Doc.put doc kind oid t) kind oid = some t := by
  cases hi : Doc.indexOf doc kind oid with
  | some i =>
    obtain ⟨ts, ha, hf⟩ := array_of_index hi
    rw [table_find ha] at h
    obtain ⟨old, hold⟩ := Option.isSome_iff_exists.mp h
    have ht : named oid t = true := by simp [named, hid]
    rw [put_replaces t hi ha, table_find (array_insert _), find?_modify_self hf (fun _ => ht), hold]
    rfl
  | none =>
    simp only [Doc.table, hi, bind, Option.bind_none, Option.bind_fun_none, Option.isSome_none,
      Bool.false_eq_true] at h

variable {toml : TomlLib Table} {scene : Scene} {d d' : Daemon Table} {w : World}

theorem putObject_ok (h : putObject toml doc w kind oid text rev = .ok (answer, doc')) :
    (objectRevision toml doc kind oid).getD "" = rev ∧
    ((Text.trim text).isEmpty = true ∧ doc' = Doc.remove doc kind oid ∨
      (Text.trim text).isEmpty = false ∧ ∃ t, parseObject toml kind text = .ok t ∧
        doc' = Doc.put doc kind oid (Entries.insert "id" (value oid) t)) := by
  unfold putObject at h
  split at h
  · cases h
  · split at h
    · cases h
    · rename_i hrev
      refine ⟨not_not.mp hrev, ?_⟩
      split at h
      · rename_i hblank
        cases h
        exact .inl ⟨hblank, rfl⟩
      · rename_i hblank
        split at h
        · cases h
        · rename_i t ht
          split at h
          · cases h
          · cases h
            exact .inr ⟨Bool.not_eq_true _ ▸ hblank, t, ht, rfl⟩

/-- A command that is refused without overrides to write changes nothing, and one that
succeeds leaves its document in the store and honours `non_disruptive`. -/
theorem change_ok {edit : Supervisor.Edit Table} (h : d.change env snapshot nd edit = (.ok r, d')) :
    ∃ e, edit d.store ⟨d.sources.statics, d.cfg⟩ = .ok e ∧ d'.store.doc = e.doc ∧
    (nd = true → r.plan.disruptive = false) := by
  rcases change_cases env d snapshot nd edit with
    ⟨_, hc⟩ | ⟨_, _, _, hc⟩ | ⟨e, cfg, report, store, saved, half, ha, hs, -, hc⟩
  · cases hc.symm.trans h
  · cases hc.symm.trans h
  · obtain ⟨hr, rfl⟩ := Prod.mk.inj (hc.symm.trans h)
    refine ⟨e, ha.edits, ?_, fun hnd => ?_⟩
    · rcases saveStore_cases hs with ⟨-, rfl, -⟩ | ⟨-, hdoc, -⟩
      · rfl
      · exact hdoc
    · have hallowed := ha.allowed
      rw [hnd, Bool.true_and] at hallowed
      rw [← Except.ok.inj hr]
      exact hallowed

theorem change_refused {edit : Supervisor.Edit Table}
    (h : d.change env snapshot nd edit = (.error err, d'))
    (ho : ∀ e, edit d.store ⟨d.sources.statics, d.cfg⟩ = .ok e → e.overrides = []) : d' = d := by
  rcases change_cases env d snapshot nd edit with
    ⟨_, hc⟩ | ⟨e, _, hh, -⟩ | ⟨_, _, _, _, _, _, _, _, _, hc⟩
  · exact (Prod.mk.inj (hc.symm.trans h)).2.symm
  · obtain ⟨cfg, report, ha⟩ := hh.accepted
    have hchanged := hh.unwritable.changed
    rw [ho e ha.edits, Overrides.applyTo, List.foldl_nil, StateFile.same_refl] at hchanged
    cases hchanged
  · cases hc.symm.trans h

def target (d : Daemon Table) (kind : Kind) (object : String) : String :=
  okOr (objectId d kind object) object

def putEdit (toml : TomlLib Table) (d : Daemon Table) (kind : Option Kind) (object : Option String)
    (text rev : String) : Supervisor.Edit Table :=
  ofDoc (fun store w => configPut toml store w kind
    (match kind, object with
      | some k, some o => some (target d k o)
      | _, o => o) text rev)

theorem put_edit {env : Env Table} (s : Surroundings) (kind : Option Kind) (object : Option String)
    (text rev : String) :
    (Command.configPut kind object text rev).edit env s d =
      .ok (putEdit env.toml d kind object text rev) := by
  cases kind with
  | none => rfl
  | some kind =>
    cases object with
    | none => cases kind <;> rfl
    | some o => cases kind <;> rfl

theorem ofDoc_overrides {f : DynamicStore Table → World → Except ApiError (Option String × Table)}
    {e : Edited Table} {st : DynamicStore Table} (h : ofDoc f st w = .ok e) : e.overrides = [] := by
  obtain ⟨r, -, rfl⟩ := EditSteps.map_ok h
  rfl

theorem revision_ne_empty (text : String) : Conf.revision text ≠ "" := by
  intro h
  unfold Conf.revision at h
  dsimp only at h
  have hnil := congrArg String.toList h
  rw [String.toList_ofList, String.toList_empty, List.append_eq_nil_iff] at hnil
  have hpos :=
    Nat.length_toDigits_pos (b := 16) (n := (text.toUTF8.data.toList.foldl (fun (h : UInt64) b =>
    (h ^^^ b.toUInt64) * 0x0100000001b3) 0xcbf29ce484222325).toNat)
  rw [hnil.2] at hpos
  exact absurd hpos (Nat.lt_irrefl 0)

/-- The text now of what someone is editing. -/
def current (toml : TomlLib Table) (d : Daemon Table) (e : Editing) : Option String :=
  match e.kind, e.object with
  | none, none => some (d.store.text toml)
  | some kind, some object => (Doc.one d.store.doc kind (target d kind object)).map toml.docText
  | _, _ => none

/-- The put of a text did what it says: it replaced all of `dynamic.toml`, or one object and
left the others as they were. -/
def Replaced (toml : TomlLib Table) (before after : Daemon Table) (e : Editing) (text : String) :
    Prop :=
  match e.kind, e.object with
  | none, none => replaceText toml text = .ok after.store.doc
  | some kind, some object =>
    (∀ kind' oid', kind' ≠ kind ∨ oid' ≠ target before kind object →
      Doc.table after.store.doc kind' oid' = Doc.table before.store.doc kind' oid') ∧
    ((Text.trim text).isEmpty = true ∧
      after.store.doc = Doc.remove before.store.doc kind (target before kind object) ∨
      ∃ t, parseObject toml kind text = .ok t ∧
        Doc.table after.store.doc kind (target before kind object) =
        some (Entries.insert "id" (value (target before kind object)) t))
  | _, _ => False

/-- A put that succeeds finds what it replaces under the revision it was got with. -/
theorem put_current (e : Editing) (hrev : e.revision = Conf.revision e.got)
    (h : command scene.env scene.surroundings d scene.snapshot nd (e.put text) = (.ok r, d')) :
    (current scene.env.toml d e).map Conf.revision = some (Conf.revision e.got) ∧
    Replaced scene.env.toml d d' e text := by
  obtain ⟨kind, object, got, revision⟩ := e
  dsimp only at hrev
  subst hrev
  rw [command, Editing.put, put_edit] at h
  obtain ⟨ed, hed, hdoc, -⟩ := change_ok h
  have hput := ofDoc_ok hed
  cases kind with
  | none =>
    cases object with
    | some o => cases hput
    | none =>
      unfold configPut at hput
      dsimp only at hput
      split at hput
      · cases hput
      · rename_i heq
        split at hput
        · cases hput
        · rename_i doc hreplace
          have hd := (Prod.mk.inj (Except.ok.inj hput)).2
          refine ⟨congrArg some (not_not.mp heq), ?_⟩
          show replaceText scene.env.toml text = .ok d'.store.doc
          rw [hreplace, hdoc, hd]
  | some kind =>
    cases object with
    | none => cases hput
    | some o =>
      obtain ⟨hcur, hdone⟩ := putObject_ok hput
      have hsome : (objectRevision scene.env.toml d.store.doc kind (target d kind o)) =
          some (Conf.revision got) := by
        cases hr : objectRevision scene.env.toml d.store.doc kind (target d kind o) with
        | none =>
          rw [hr] at hcur
          exact absurd hcur.symm (revision_ne_empty got)
        | some rev =>
          rw [hr] at hcur
          exact congrArg some hcur
      refine ⟨?_, ?_⟩
      · show ((Doc.one d.store.doc kind (target d kind o)).map scene.env.toml.docText).map
          Conf.revision = _
        rw [Option.map_map]
        exact hsome
      · have hthere : (Doc.table d.store.doc kind (target d kind o)).isSome = true := by
          obtain ⟨one, hone, -⟩ := Option.map_eq_some_iff.mp hsome
          obtain ⟨t, ht, -⟩ := Option.map_eq_some_iff.mp hone
          rw [ht]
          rfl
        rcases hdone with ⟨hblank, hd⟩ | ⟨-, t, ht, hd⟩
        · refine ⟨fun kind' oid' hne => ?_, .inl ⟨hblank, by rw [hdoc, hd]⟩⟩
          rw [hdoc, hd, table_remove_ne hne]
        · have hid : str (Entries.insert "id" (value (target d kind o)) t) "id" =
              some (target d kind o) := by
            rw [str, Entries.get_insert_self]
            rfl
          refine ⟨fun kind' oid' hne => ?_, .inr ⟨t, ht, ?_⟩⟩
          · rw [hdoc, hd, table_put_ne _ hid hne]
          · rw [hdoc, hd, table_put_self _ hid hthere]

theorem put_refused (e : Editing)
    (h : command scene.env scene.surroundings d scene.snapshot nd (e.put text) = (.error err, d')) :
    d' = d := by
  rw [command, Editing.put, put_edit] at h
  exact change_refused h (fun ed hed => ofDoc_overrides hed)

/-- What `config.get` gives comes with its revision. -/
theorem get_revision {env : Env Table} {kind : Option Kind} {object : Option String}
    (h : configGet env d kind object = .ok (text, rev)) : rev = Conf.revision text := by
  unfold configGet at h
  split at h
  · cases h
    rfl
  · split at h
    · cases h
    · split at h
      · cases h
      · split at h
        · cases h
        · cases h
          rfl
  · cases h

/-- A reload that may not disrupt has a plan that doesn't. -/
theorem reload_quiet (h : d.reload scene.env scene.snapshot true = some (r, d'))
    (ha : reloadAnswer r = .ok c) : c.plan.disruptive = false := by
  unfold Daemon.reload at h
  split at h
  · cases h
    cases ha
  · split at h
    · cases h
      cases ha
    · dsimp only at h
      split at h
      · cases h
        cases ha
      · rename_i hquiet
        obtain ⟨store, -, hr⟩ := Option.bind_eq_some_iff.mp h
        cases hr
        cases ha
        rw [Bool.true_and, Bool.not_eq_true] at hquiet
        exact hquiet

theorem serve_quiet {q : ConfigRequest} (h : scene.serve d true q = some (.ok r, d')) :
    r.plan.disruptive = false := by
  cases q with
  | change c =>
    have hc := Option.some.inj h
    rw [command] at hc
    split at hc
    · cases hc
    · obtain ⟨-, -, -, hquiet⟩ := change_ok hc
      exact hquiet rfl
  | reload =>
    obtain ⟨⟨x, d''⟩, hx, hr⟩ := Option.map_eq_some_iff.mp h
    obtain ⟨ha, -⟩ := Prod.mk.inj hr
    exact reload_quiet hx ha

variable {s t : Desk} {e : DeskStep}

/-- What a change with an edited text did. -/
structure PutWell (m : Sent) (e : Editing) : Prop where
  under : e.revision = Conf.revision e.got
  puts : ∃ text, m.request = .change (e.put text) ∧
    ((∃ err, m.result = .error err ∧ m.after = m.before) ∨
      ∃ r, m.result = .ok r ∧
        (current m.scene.env.toml m.before e).map Conf.revision = some (Conf.revision e.got) ∧
        Replaced m.scene.env.toml m.before m.after e text)

/-- A question was asked because the daemon refused the change as one that would disrupt,
of a user who can be asked. -/
structure Asked (log : List Sent) (q : Question) : Prop where
  able : q.options.nonDisruptive = false ∧ q.options.interactive = true
  refused : ∃ m ∈ log, m.request = q.request ∧ m.options = q.options ∧ m.source = q.source ∧
    ∃ err, m.result = .error err ∧ err.code = .reloadWouldDisrupt

/-- A change that disrupts was wanted: with `--yes`, or by the user when asked. -/
def Wanted (log : List Sent) (m : Sent) : Prop :=
  ∀ r, m.result = .ok r → r.plan.disruptive = true →
    m.options.yes = true ∨ m.asked = true ∧ Asked log ⟨m.options, m.source, m.request⟩

/-- A question about an edited text puts it back under the revision it was got with. -/
def Traced (q : Question) : Prop :=
  ∀ e, q.source = some e →
    e.revision = Conf.revision e.got ∧ ∃ text, q.request = .change (e.put text)

structure Fair (s : Desk) : Prop where
  editing : ∀ e ∈ s.editing, e.revision = Conf.revision e.got
  questions : ∀ q ∈ s.questions, Asked s.log q ∧ Traced q
  log : ∀ m ∈ s.log, (∀ e, m.source = some e → PutWell m e) ∧ Wanted s.log m

theorem Asked.more {log : List Sent} {q : Question} (h : Asked log q) (more : List Sent) :
    Asked (log ++ more) q := by
  obtain ⟨m, hm, hrest⟩ := h.refused
  exact ⟨h.able, m, List.mem_append_left _ hm, hrest⟩

theorem Wanted.more {log : List Sent} {m : Sent} (h : Wanted log m) (more : List Sent) :
    Wanted (log ++ more) m := by
  intro r hr hd
  rcases h r hr hd with hy | ⟨ha, hq⟩
  · exact .inl hy
  · exact .inr ⟨ha, hq.more more⟩

/-- What `send` logs. -/
theorem send_cases {s : Desk} {q : Question} (h : s.send scene q asked nd = some (res, t)) :
    ∃ d', scene.serve s.daemon nd q.request = some (res, d') ∧
      t = { s with
        daemon := d'
        log := s.log ++ [⟨q.options, q.source, q.request, asked, scene, s.daemon, res, d'⟩] } := by
  obtain ⟨⟨x, d'⟩, hx, hr⟩ := Option.map_eq_some_iff.mp h
  obtain ⟨rfl, rfl⟩ := Prod.mk.inj hr
  exact ⟨d', hx, rfl⟩

theorem served_putWell {q : Question} (hq : Traced q)
    (h : scene.serve d nd q.request = some (res, d')) (hs : q.source = some ed) :
    PutWell ⟨q.options, q.source, q.request, asked, scene, d, res, d'⟩ ed := by
  obtain ⟨hrev, text, htext⟩ := hq ed hs
  refine ⟨hrev, text, htext, ?_⟩
  rw [htext] at h
  have hc := Option.some.inj h
  cases res with
  | error err => exact .inl ⟨err, rfl, put_refused ed hc⟩
  | ok r => exact .inr ⟨r, rfl, put_current ed hrev hc⟩

/-- Without `non_disruptive` a request is sent only if the user wants it. -/
theorem served_wanted {q : Question} {log : List Sent}
    (h : scene.serve d nd q.request = some (res, d'))
    (hw : nd = true ∨ q.options.yes = true ∨ asked = true ∧ Asked log q) :
    Wanted log ⟨q.options, q.source, q.request, asked, scene, d, res, d'⟩ := by
  intro r hr hd
  rcases hw with rfl | hy | ha
  · have hok : res = .ok r := hr
    rw [hok] at h
    rw [serve_quiet h] at hd
    cases hd
  · exact .inl hy
  · exact .inr ha

/-- A fair desk with one more request sent. -/
theorem Fair.send {q : Question} (h : Fair s) (hs : s.send scene q asked nd = some (res, t))
    (hq : Traced q) (hw : nd = true ∨ q.options.yes = true ∨ asked = true ∧ Asked s.log q) :
    Fair t := by
  obtain ⟨d', hserve, rfl⟩ := send_cases hs
  refine ⟨h.editing, fun q' hq' => ?_, fun m hm => ?_⟩
  · obtain ⟨ha, hrest⟩ := h.questions q' hq'
    exact ⟨ha.more _, hrest⟩
  · rcases List.mem_append.mp hm with hm | hm
    · obtain ⟨hput, hwanted⟩ := h.log m hm
      exact ⟨hput, hwanted.more _⟩
    · obtain rfl := List.mem_singleton.mp hm
      exact ⟨fun e he => served_putWell hq hserve he, (served_wanted hserve hw).more _⟩

theorem Fair.changeValue {q : Question} (h : Fair s) (hq : Traced q)
    (hs : s.changeValue scene q = some t) : Fair t := by
  obtain ⟨⟨res, u⟩, hsend, rfl⟩ := Option.map_eq_some_iff.mp hs
  have hsent : Fair u := by
    refine h.send hsend hq ?_
    cases hy : q.options.yes with
    | true => exact .inr (.inl rfl)
    | false => exact .inl rfl
  cases res with
  | ok r => exact hsent
  | error err =>
    dsimp only
    split
    · rename_i hc
      -- the question that waits now is about what was just refused
      refine ⟨hsent.editing, fun q' hq' => ?_, hsent.log⟩
      rcases List.mem_append.mp hq' with hq' | hq'
      · exact hsent.questions q' hq'
      · obtain rfl := List.mem_singleton.mp hq'
        obtain ⟨d', -, rfl⟩ := send_cases hsend
        have hable : q'.options.nonDisruptive = false ∧ q'.options.interactive = true :=
          ⟨by simpa using hc.2.1, hc.2.2⟩
        have hlast := List.mem_append_right s.log (List.mem_singleton_self
          (⟨q'.options, q'.source, q'.request, false, scene, s.daemon, .error err, d'⟩ : Sent))
        exact ⟨⟨hable, _, hlast, rfl, rfl, rfl, err, rfl, hc.1⟩, hq⟩
    · exact hsent

theorem Fair.step (h : Fair s) (hs : s.step e = some t) : Fair t := by
  cases e with
  | get scene kind object =>
    dsimp only [Desk.step] at hs
    split at hs
    · rename_i text revision hget
      obtain rfl := Option.some.inj hs
      refine ⟨fun ed hed => ?_, h.questions, h.log⟩
      rcases List.mem_append.mp hed with hed | hed
      · exact h.editing ed hed
      · obtain rfl := List.mem_singleton.mp hed
        exact get_revision hget
    · obtain rfl := Option.some.inj hs
      exact h
  | put scene options i text =>
    obtain ⟨ed, hed, hchange⟩ := Option.bind_eq_some_iff.mp hs
    refine h.changeValue (fun e he => ?_) hchange
    obtain rfl := Option.some.inj he
    exact ⟨h.editing ed (List.mem_of_getElem? hed), text, rfl⟩
  | change scene options c =>
    refine h.changeValue (fun e he => ?_) hs
    cases he
  | reload scene options =>
    refine h.changeValue (fun e he => ?_) hs
    cases he
  | answer scene i yes =>
    obtain ⟨q, hq, hanswer⟩ := Option.bind_eq_some_iff.mp hs
    obtain ⟨hasked, hsource⟩ := h.questions q (List.mem_of_getElem? hq)
    have hrest : Fair { s with questions := s.questions.eraseIdx i } :=
      ⟨h.editing, fun q' hq' => h.questions q' (List.mem_of_mem_eraseIdx hq'), h.log⟩
    dsimp only at hanswer
    split at hanswer
    · obtain ⟨⟨res, u⟩, hsend, rfl⟩ := Option.map_eq_some_iff.mp hanswer
      exact hrest.send hsend hsource (.inr (.inr ⟨rfl, hasked⟩))
    · obtain rfl := Option.some.inj hanswer
      exact hrest
  | act a =>
    obtain ⟨d, -, rfl⟩ := Option.map_eq_some_iff.mp hs
    exact ⟨h.editing, h.questions, h.log⟩

theorem runs_fair (h : Runs Desk.step ⟨d, [], [], []⟩ es s) : Fair s :=
  h.invariant ⟨(fun _ h => nomatch h), (fun _ h => nomatch h), (fun _ h => nomatch h)⟩
    (fun _ _ _ hf _ hs => hf.step hs)

/-- A bridge that still runs, although no file has it any more. -/
def busyBridge : Conf.Bridge :=
  ⟨"ktbr9", "Busy", "Busy", true, none, .pass,
    [sampleRadio, ⟨"apps", .app, .tcpServer sampleListen none [] true⟩], .dynamic⟩

noncomputable def busyDaemon : Daemon Table :=
  { clubUnstarted with
    cfg := clubConfig [busyBridge]
    bridges := (∅ : Std.TreeMap String RunningBridge).insert "ktbr9" ⟨busyBridge, "Busy", ∅⟩ }

noncomputable def busyScene : Scene :=
  ⟨clubEnv, clubSurroundings, fun _ => some ⟨.connected, 0, none, []⟩⟩

theorem busy_disrupts :
    (busyDaemon.planFor clubEnv busyScene.snapshot (clubConfig [])).disruptive = true := by
  by_contra hne
  have hnil : (busyDaemon.planFor clubEnv busyScene.snapshot (clubConfig [])).disruptions = [] := by
    simpa [Plan.disruptive] using hne
  have hactive : (busyDaemon.runtime clubEnv busyScene.snapshot).tncActive "ktbr9" = true := by
    simp [Runtime.tncActive, Daemon.runtime, busyDaemon, busyScene]
  have hold : Valid (clubConfig [busyBridge]) := by decide
  have hnew : Valid (clubConfig []) := by decide
  have hm : Reconcile.stopBridge busyBridge (busyDaemon.runtime clubEnv busyScene.snapshot) ∈
      (busyDaemon.planFor clubEnv busyScene.snapshot (clubConfig [])).bridges := by
    refine (mem_plan hold hnew).mpr (.stopped ⟨by simp [clubConfig], rfl⟩ (fun nb hnb => ?_))
    obtain rfl := List.mem_singleton.mp hnb.1
    cases hnb.2
  have hidle := (disruptions_nil hnil hm).1
  have hactive' : (busyDaemon.runtime clubEnv busyScene.snapshot).tncActive busyBridge.id = true :=
    hactive
  rw [Reconcile.stopBridge, hactive', Bool.true_or] at hidle
  cases hidle

theorem club_text : clubStore.text clubEnv.toml = "" := by
  have hnone : clubEnv.toml.docText [] = "" := textOf_mem clubTexts_apart (List.mem_cons_self ..)
  rw [DynamicStore.text, clubStore, hnone]
  rfl

def busyEdit : Editing := ⟨none, none, "", Conf.revision ""⟩

theorem busy_edits : putEdit clubEnv.toml busyDaemon none none "" (Conf.revision "") clubStore
    ⟨clubSources.statics, busyDaemon.cfg⟩ = .ok ⟨none, [], []⟩ := by
  have hstrip : stripHeader "" = "" := stripHeader_of_head (by simp)
  have hparse : clubEnv.toml.parseDoc "" = .ok [] :=
    crates_parseDoc clubTexts_apart (List.mem_cons_self ..)
  have hdoc : replaceText clubEnv.toml "" = .ok [] := by simp only [replaceText, hstrip, hparse]
  simp only [putEdit, ofDoc, configPut, club_text, hdoc, ne_eq, not_true_eq_false, if_false]
  rfl

theorem busy_builds : ∃ report, build clubEnv.toml clubEnv.net (some clubEnv.host)
    (busyDaemon.editedSources clubEnv ⟨none, [], []⟩) = .ok (clubConfig [], report) := by
  refine (build_iff _ _ _ _).mpr ⟨{}, ?_, built_club rfl ⟨rfl, rfl⟩ rfl⟩
  have htext : (busyDaemon.editedStore ⟨none, [], []⟩).text clubEnv.toml = "" := club_text
  unfold Daemon.editedSources
  simp only [htext]
  exact .missing

theorem busy_refused : ∃ err, err.code = .reloadWouldDisrupt ∧
    command clubEnv clubSurroundings busyDaemon busyScene.snapshot true (busyEdit.put "") =
      (.error err, busyDaemon) := by
  obtain ⟨report, hb⟩ := busy_builds
  refine ⟨disruptError (busyDaemon.planFor clubEnv busyScene.snapshot (clubConfig [])), rfl, ?_⟩
  rw [command, Editing.put, put_edit]
  have hedit : putEdit clubEnv.toml busyDaemon busyEdit.kind busyEdit.object "" busyEdit.revision
    busyDaemon.store
      ⟨busyDaemon.sources.statics, busyDaemon.cfg⟩ = .ok ⟨none, [], []⟩ := busy_edits
  simp only [Daemon.change, Daemon.checkChange, hedit, hb, busy_disrupts, bind, Except.bind,
    Except.mapError, Bool.and_self, if_true]

theorem busy_done : ∃ r after, r.plan.disruptive = true ∧
    command clubEnv clubSurroundings busyDaemon busyScene.snapshot false (busyEdit.put "") =
      (.ok r, after) := by
  obtain ⟨report, hb⟩ := busy_builds
  have hedit : putEdit clubEnv.toml busyDaemon busyEdit.kind busyEdit.object "" busyEdit.revision
    busyDaemon.store
      ⟨busyDaemon.sources.statics, busyDaemon.cfg⟩ = .ok ⟨none, [], []⟩ := busy_edits
  have hsame : (busyDaemon.editedStore ⟨none, [], []⟩).text clubEnv.toml =
    busyDaemon.store.text clubEnv.toml := rfl
  refine ⟨⟨none, PlanResult.new (busyDaemon.planFor clubEnv busyScene.snapshot (clubConfig [])) true
    report.warnings⟩,
        { busyDaemon.apply clubEnv (busyDaemon.planFor clubEnv busyScene.snapshot (clubConfig []))
          (clubConfig []) with
      sources := busyDaemon.editedSources clubEnv ⟨none, [], []⟩
      store := busyDaemon.editedStore ⟨none, [], []⟩, bluezErrors := [] }, busy_disrupts, ?_⟩
  rw [command, Editing.put, put_edit]
  simp only [Daemon.change, Daemon.checkChange, hedit, hb, bind, Except.bind, Except.mapError,
    Bool.false_and, Bool.false_eq_true, if_false, Daemon.saveStore, hsame, if_true,
      Daemon.saveOverrides, List.isEmpty_nil]

def plainOptions : Options := ⟨false, false, true⟩

/-- Two `ktbctl`s put the text back, and the user of one says yes. -/
noncomputable def busySteps : List DeskStep :=
  [.get busyScene none none, .put busyScene plainOptions 0 "", .put busyScene plainOptions 0 "",
    .answer busyScene 0 true]

def busyRequest : ConfigRequest := .change (busyEdit.put "")

def busyQuestion : Question := ⟨plainOptions, some busyEdit, busyRequest⟩

noncomputable def busyRefusal (err : ApiError) : Sent :=
  ⟨plainOptions, some busyEdit, busyRequest, false, busyScene, busyDaemon, .error err, busyDaemon⟩

/-- The change is refused at first, and made when the user says yes. -/
theorem busy_runs : ∃ s, Runs Desk.step ⟨busyDaemon, [], [], []⟩ busySteps s ∧
    busyQuestion ∈ s.questions ∧ ∃ m ∈ s.log, m.source = some busyEdit ∧
      m.options = plainOptions ∧ ∃ r, m.result = .ok r ∧ r.plan.disruptive = true := by
  obtain ⟨err, hcode, hrefused⟩ := busy_refused
  obtain ⟨r, after, hd, hdone⟩ := busy_done
  have hget : Desk.step ⟨busyDaemon, [], [], []⟩ (.get busyScene none none) =
      some ⟨busyDaemon, [busyEdit], [], []⟩ := by
    have ht : busyDaemon.store.text busyScene.env.toml = "" := club_text
    simp only [Desk.step, configGet, ht, List.nil_append]
    rfl
  have hput : ∀ qs log, Desk.step ⟨busyDaemon, [busyEdit], qs, log⟩
      (.put busyScene plainOptions 0 "") =
      some ⟨busyDaemon, [busyEdit], qs ++ [busyQuestion], log ++ [busyRefusal err]⟩ := by
    intro qs log
    have hc : busyScene.serve busyDaemon true (.change (busyEdit.put "")) =
      some (.error err, busyDaemon) := congrArg some hrefused
    simp [Desk.step, Desk.changeValue, Desk.send, hc, hcode, plainOptions, busyQuestion,
      busyRefusal, busyRequest]
  have hanswer : Desk.step ⟨busyDaemon, [busyEdit], [busyQuestion, busyQuestion],
      [busyRefusal err, busyRefusal err]⟩ (.answer busyScene 0 true) =
      some ⟨after, [busyEdit], [busyQuestion], [busyRefusal err, busyRefusal err,
        ⟨plainOptions, some busyEdit, busyRequest, true, busyScene, busyDaemon, .ok r,
            after⟩]⟩ := by
    have hc : busyScene.serve busyDaemon false busyRequest = some (.ok r, after) :=
      congrArg some hdone
    simp [Desk.step, Desk.send, hc, busyQuestion]
  have hstart : Runs Desk.step ⟨busyDaemon, [], [], []⟩ [] ⟨busyDaemon, [], [], []⟩ := .start
  have hasks := (hstart.next trivial hget).next trivial (hput [] [])
  have hrun := (hasks.next trivial (hput _ _)).next trivial hanswer
  have hlast := List.mem_append_right [busyRefusal err, busyRefusal err] (List.mem_singleton_self
    (⟨plainOptions, some busyEdit, busyRequest, true, busyScene, busyDaemon, .ok r, after⟩ : Sent))
  exact ⟨_, hrun, List.mem_singleton_self _, _, hlast, rfl, rfl, r, rfl, hd⟩

/-- A text is put back only over a version with the revision of the one it was got from, and
then nothing else changes; a put that is refused changes nothing. This is so whatever
others do to the daemon meanwhile. -/
theorem no_lost_update (h : Runs Desk.step ⟨d, [], [], []⟩ es s) :
    ∀ m ∈ s.log, ∀ e, m.source = some e → PutWell m e :=
  fun m hm => ((runs_fair h).log m hm).1

/-- An edit that was put back over what it was got from. -/
theorem no_lost_update_busy : ∃ s, Runs Desk.step ⟨busyDaemon, [], [], []⟩ busySteps s ∧
    ∃ m ∈ s.log, m.source = some busyEdit ∧ (∃ r, m.result = .ok r) ∧ PutWell m busyEdit := by
  obtain ⟨s, hrun, -, m, hm, hs, -, r, hr, -⟩ := busy_runs
  exact ⟨s, hrun, m, hm, hs, ⟨r, hr⟩, no_lost_update hrun m hm busyEdit hs⟩

/-- No change made with `ktbctl` disrupts anything unless it was started with `--yes` or the
user said yes, and the user is asked only because the daemon had refused that change. -/
theorem no_disruption_unasked (h : Runs Desk.step ⟨d, [], [], []⟩ es s) :
    (∀ m ∈ s.log, ∀ r, m.result = .ok r → r.plan.disruptive = true →
      m.options.yes = true ∨ m.asked = true ∧ Asked s.log ⟨m.options, m.source, m.request⟩) ∧
    ∀ q ∈ s.questions, Asked s.log q :=
  ⟨fun m hm => ((runs_fair h).log m hm).2, fun q hq => ((runs_fair h).questions q hq).1⟩

/-- A change that disrupts, made without `--yes` when the user was asked, while another user
still thinks about it. -/
theorem no_disruption_unasked_busy : ∃ s, Runs Desk.step ⟨busyDaemon, [], [], []⟩ busySteps s ∧
    (∃ m ∈ s.log, m.asked = true ∧ Asked s.log ⟨m.options, m.source, m.request⟩) ∧
    ∃ q ∈ s.questions, Asked s.log q := by
  obtain ⟨s, hrun, hq, m, hm, -, ho, r, hr, hd⟩ := busy_runs
  obtain ⟨hlog, hquestions⟩ := no_disruption_unasked hrun
  refine ⟨s, hrun, ⟨m, hm, (hlog m hm r hr hd).resolve_left ?_⟩, _, hq, hquestions _ hq⟩
  rw [ho]
  decide

end KissTncBridge.Proofs.ConcurrentEdits
