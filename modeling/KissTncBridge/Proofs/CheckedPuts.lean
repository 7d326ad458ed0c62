import KissTncBridge.Proofs.Persistence
import KissTncBridge.Supervisor.Check

namespace KissTncBridge.Proofs.CheckedPuts
open Lib Conf Bridge Reconcile Supervisor Daemon BuildFacts ChangeSteps Persistence

/-- It is what `config.put` does. -/
theorem command_put (env : Env Toml.Table) (s : Control.Surroundings) (d : Daemon Toml.Table)
    (snapshot : String → Option Snapshot) (nonDisruptive : Bool) (text rev : String) :
    Control.command env s d snapshot nonDisruptive (.configPut none none text rev) =
      d.change env snapshot nonDisruptive (putText env.toml text rev) := by
  have hedit :
    Control.ofDoc (fun store w => Control.configPut env.toml store w none none text rev) =
      putText env.toml text rev := by
    funext store w
    unfold Control.ofDoc Control.configPut putText Control.replaceText
    dsimp only
    split
    · rfl
    · cases env.toml.parseDoc (stripHeader text) with
      | error e => rfl
      | ok doc => rfl
  show d.change env snapshot nonDisruptive _ = _
  rw [← hedit]

section
variable {Doc : Type} {toml : TomlLib Doc} {a b sources : Sources} {file : ConfigFile}
    {cfg : Config} {report : Report}

theorem gather_holding (hf : Holds toml (sources.dynamic.map DynamicFile.text) file)
    (ho : file.global = none ∧ file.control = none) (net : IpNetLib) :
    ∃ files, gather toml sources = .ok (files, (setAsideCollisions sources.statics file).2) ∧
      resolve net files = resolve net (gathered sources.statics file) := by
  unfold gather parseDynamic
  cases hd : sources.dynamic with
  | none =>
    rw [hd] at hf
    cases hf
    exact ⟨_, rfl, (resolve_gathered_empty net _).symm⟩
  | some dyn =>
    rw [hd] at hf
    have hp : toml.parseFile dyn.text = .ok file := holds_some.mp hf
    simp only [hp, ho, Option.isSome_none, Bool.false_eq_true, or_self, if_false]
    exact ⟨_, rfl, rfl⟩

/-- What is built depends on what `dynamic.toml` says, not on its text. -/
theorem build_same (ha : Holds toml (a.dynamic.map DynamicFile.text) file)
    (hb : Holds toml (b.dynamic.map DynamicFile.text) file)
    (ho : file.global = none ∧ file.control = none)
    (hs : b.statics = a.statics) (hst : b.state = a.state) (hn : b.notes = a.notes)
    (hl : b.legacyConfPresent = a.legacyConfPresent) (net : IpNetLib) (host : Option Host) :
    build toml net host b = build toml net host a := by
  obtain ⟨fa, hga, hra⟩ := gather_holding ha ho net
  obtain ⟨fb, hgb, hrb⟩ := gather_holding hb ho net
  unfold build
  rw [hga, hgb]
  simp only [bind, Except.bind]
  rw [hra, hrb, hs, hst, hn, hl]

theorem build_says (h : build toml net host sources = .ok (cfg, report)) :
    ∃ file, Holds toml (sources.dynamic.map DynamicFile.text) file ∧ file.global = none ∧
    file.control = none := by
  unfold build at h
  cases hg : gather toml sources with
  | error ps => simp [hg, bind, Except.bind] at h
  | ok g => exact gather_holds hg

end

variable {Doc : Type} {env : Env Doc} {d : Daemon Doc} {text : String}

/-- A document that is put says what its text did, behind the header or not. -/
theorem put_holds (hl : env.toml.Lawful) {e : Edited Doc}
    (hf : env.toml.parseFile (env.toml.docText e.doc) = .ok file) :
    Holds env.toml ((d.editedSources env e).dynamic.map DynamicFile.text) file := by
  have htext : env.toml.parseFile ((d.editedStore e).text env.toml) = .ok file := parse_text hl hf
  cases hdyn : (d.editedSources env e).dynamic with
  | none =>
    have hmissing : Holds env.toml ((d.editedSources env e).dynamic.map DynamicFile.text) {} := by
      rw [hdyn]
      exact .missing
    obtain rfl := Except.ok.inj (htext.symm.trans (edited_holds hl rfl d e hmissing))
    exact .missing
  | some dyn =>
    have heq : dyn.text = (d.editedStore e).text env.toml := by
      unfold editedSources at hdyn
      dsimp only at hdyn
      split at hdyn
      · rw [← Option.some.inj hdyn]
      · cases hdyn
    refine .parsed ?_
    rw [heq]
    exact htext

/-- A text that `config.check` finds valid is what `config.put` goes by: putting it has the
plan and the warnings that the check gave, is refused as disruptive exactly if the check
said so and disruption was not asked for, and fails otherwise only if the file can't be
saved. -/
theorem put_as_checked (hl : env.toml.Lawful) (hread : readAgain env d.disk = .ok d.sources)
    (hvalid : (d.check env snapshot (some text)).valid = true) (nonDisruptive : Bool) :
    ∃ plan warnings, (d.check env snapshot (some text)).plan = some plan ∧
      (d.check env snapshot (some text)).warnings = problems warnings ∧
      (d.check env snapshot (some text)).disruptive = plan.disruptive ∧
      (d.change env snapshot nonDisruptive
          (putText env.toml text (revision (d.store.text env.toml))) =
          (.error (disruptError plan), d) ∧ nonDisruptive = true ∧ plan.disruptive = true ∨
        (nonDisruptive = true → plan.disruptive = false) ∧
          ((∃ d', d.change env snapshot nonDisruptive
              (putText env.toml text (revision (d.store.text env.toml))) =
              (.ok ⟨none, PlanResult.new plan true warnings⟩, d')) ∨
            ∃ doc e, env.toml.parseDoc (stripHeader text) = .ok doc ∧
              d.saveStore env { d.store with doc := doc } = .error e ∧
              d.change env snapshot nonDisruptive
                (putText env.toml text (revision (d.store.text env.toml))) = (.error e, d))) := by
  unfold check at hvalid ⊢
  rw [hread] at hvalid ⊢
  dsimp only at hvalid ⊢
  cases hb : build env.toml env.net (some env.host) (standIn env d.sources (some text)) with
  | error ps => simp [hb, CheckResult.invalid] at hvalid
  | ok built =>
    obtain ⟨cfg, report⟩ := built
    obtain ⟨file, hholds, ho⟩ := build_says hb
    have hparse : env.toml.parseFile text = .ok file := holds_some.mp hholds
    obtain ⟨doc, hdoc, hf⟩ := hl.document _ _ (parse_stripHeader hl hparse)
    have hedit : ∀ w, putText env.toml text (revision (d.store.text env.toml)) d.store w =
        .ok ⟨none, doc, []⟩ := by
      intro w
      simp [putText, hdoc]
    have hbuild : build env.toml env.net (some env.host) (d.editedSources env ⟨none, doc, []⟩) =
        .ok (cfg, report) := by
      have hsame := build_same (b := d.editedSources env ⟨none, doc, []⟩) hholds
        (put_holds hl hf) ho rfl rfl rfl rfl env.net
        (some env.host)
      exact hsame.trans hb
    refine ⟨d.planFor env snapshot cfg, report.warnings, rfl, rfl, rfl, ?_⟩
    cases hd : nonDisruptive && (d.planFor env snapshot cfg).disruptive with
    | true =>
      obtain ⟨hnd, hdis⟩ := Bool.and_eq_true_iff.mp hd
      refine .inl ⟨?_, hnd, hdis⟩
      simp [change, checkChange, hedit, hbuild, hnd, hdis, bind, Except.bind, Except.mapError]
    | false =>
      have hacc : Accepted env d snapshot nonDisruptive
        (putText env.toml text (revision (d.store.text env.toml)))
          ⟨none, doc, []⟩ cfg report := ⟨hedit _, hbuild, hd⟩
      refine .inr ⟨fun hnd => by simpa [hnd] using hd, ?_⟩
      unfold change
      rw [checkChange_accepted hacc]
      dsimp only
      cases hs : d.saveStore env (d.editedStore ⟨none, doc, []⟩) with
      | error e => exact .inr ⟨doc, e, hdoc, hs, rfl⟩
      | ok saved => exact .inl ⟨_, rfl⟩

theorem field_off_valid :
    (validate (fieldConfig false none false) (some fieldEnv.host)).errors = [] := by
  decide +kernel

theorem field_stand : standIn fieldEnv (fieldSources true .empty) (some (fieldText false)) =
      fieldSources false .empty := by
  simp only [standIn, fieldSources]

theorem unstarted_reads :
    readAgain fieldEnv fieldUnstarted.disk = .ok (fieldSources true .empty) := by
  have hdisk : fieldUnstarted.disk = fieldDisk := by
    simp only [fieldUnstarted, unstarted]
  rw [hdisk]
  exact field_reads

theorem check_valid {cfg : Config} {report : Report} {sources : Sources}
    (hread : readAgain env d.disk = .ok sources)
    (hbuild : build env.toml env.net (some env.host) (standIn env sources dynamic) =
      .ok (cfg, report)) : (d.check env snapshot dynamic).valid = true := by
  unfold check
  rw [hread]
  dsimp only
  rw [hbuild]

theorem field_checks :
    (fieldUnstarted.check fieldEnv (fun _ => none) (some (fieldText false))).valid = true := by
  obtain ⟨report, hbuild⟩ :=
    build_field false .empty (by rw [applyOverrides_empty, field_off_valid])
  rw [← field_stand, ← field_toml] at hbuild
  exact check_valid unstarted_reads hbuild

theorem field_parses :
    fieldEnv.toml.parseDoc (stripHeader (fieldText false)) = .ok (.shack false) := by
  rw [field_toml, fieldText, stripHeader_append, sampleToml_parseDoc, SampleDoc.parse_iff]
  exact SampleDoc.strip_text _

theorem field_saves :
    Saves fieldEnv fieldUnstarted { fieldUnstarted.store with doc := .shack false } := by
  have hnew : ({ fieldUnstarted.store with doc := .shack false } : DynamicStore SampleDoc).text
      fieldEnv.toml = fieldText false := text_shack rfl
  have hold : fieldUnstarted.store.text fieldEnv.toml = fieldText true := text_shack rfl
  refine ⟨?_, rfl, rfl, rfl⟩
  rw [hnew, hold]
  exact fieldText_ne

/-- The text that disables the dynamic bridge is put with the plan that its check gave. -/
theorem put_as_checked_field : ∃ plan r d',
    (fieldUnstarted.check fieldEnv (fun _ => none) (some (fieldText false))).plan = some plan ∧
    fieldUnstarted.change fieldEnv (fun _ => none) false (putText fieldEnv.toml (fieldText false)
      (revision (fieldUnstarted.store.text fieldEnv.toml))) = (.ok r, d') ∧ r.plan.plan = plan := by
  have hsources : fieldUnstarted.sources = fieldSources true .empty := by
    simp only [fieldUnstarted, unstarted]
  have hread : readAgain fieldEnv fieldUnstarted.disk = .ok fieldUnstarted.sources := by
    rw [hsources]
    exact unstarted_reads
  obtain ⟨plan, warnings, hp, -, -, hput⟩ :=
    put_as_checked sampleToml_lawful hread field_checks false
  rcases hput with ⟨-, hnd, -⟩ | ⟨-, ⟨d', hd⟩ | ⟨doc, e, hdoc, he, -⟩⟩
  · cases hnd
  · exact ⟨plan, _, d', hp, hd, rfl⟩
  · obtain rfl := Except.ok.inj (field_parses.symm.trans hdoc)
    obtain ⟨store, hs⟩ := saveStore_saves field_saves
    cases hs.symm.trans he

end KissTncBridge.Proofs.CheckedPuts
