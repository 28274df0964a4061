import GemScribe.Command.ExportGem
import GemScribe.Proofs.Command.Directories
import GemScribe.Proofs.Text.Signs
import GemScribe.Proofs.Wiki.ReadBack

/-!
The export command does all of its work or shows nothing of it, unless a text has no bytes.

Until the text of the record is there the command only complains. Then the text is printed, or directories are made
and the file is written and announced. A text with a half is refused before anything of it is printed; a file has
been opened by then, and stays behind empty. The file stays too, with its text, when its path has a half and it
cannot be announced. The check against a schema stands aside: it adds lines to the log, and ends the command only
when the schema cannot be read or checked.
-/

namespace GemScribe

namespace Schema

variable {schema : Schema} {version : Datum} {e : Event}

theorem eq_invalidVersion_of_mem_findTable {name : Text} (h : e ∈ (findTable schema name version).events) :
    e = .invalidVersion version ∧ versionDigits version = [] := by
  rw [findTable] at h
  split at h
  · next hdigits => exact ⟨List.mem_singleton.mp h, List.isEmpty_iff.mp hdigits⟩
  · rcases Journal.mem_events_bind.mp h with h | ⟨n, -, h⟩
    · cases h
    · cases h

/-- Looking for missing tables notes nothing but that the version does not begin with a number. -/
theorem eq_invalidVersion_of_mem_missingTables : ∀ {names : List Text},
    e ∈ (missingTables schema version names).events → e = .invalidVersion version ∧ versionDigits version = []
  | [], h => absurd h List.not_mem_nil
  | name :: names, h => by
      rw [missingTables] at h
      rcases Journal.mem_events_bind.mp h with h | ⟨table, -, h⟩
      · exact eq_invalidVersion_of_mem_findTable h
      · rcases Journal.mem_events_bind.mp h with h | ⟨others, -, h⟩
        · exact eq_invalidVersion_of_mem_missingTables h
        · cases h

/-- The tables that are called missing are. -/
theorem findTable_of_mem_missingTables : ∀ {names missing : List Text},
    (missingTables schema version names).outcome = .ok missing → ∀ name ∈ missing,
      name ∈ names ∧ (findTable schema name version).outcome = .ok none
  | [], missing, h => by
      cases h
      simp
  | first :: names, missing, h => by
      rw [missingTables] at h
      obtain ⟨table, htable, h⟩ := Journal.outcome_bind_eq_ok.mp h
      obtain ⟨others, hothers, h⟩ := Journal.outcome_bind_eq_ok.mp h
      have ih := findTable_of_mem_missingTables hothers
      intro name hname
      cases h
      split at hname
      · next hnone =>
        rcases List.mem_cons.mp hname with rfl | hname
        · exact ⟨List.mem_cons_self, by rw [htable, Option.isNone_iff_eq_none.mp hnone]⟩
        · exact ⟨List.mem_cons_of_mem first (ih name hname).1, (ih name hname).2⟩
      · exact ⟨List.mem_cons_of_mem first (ih name hname).1, (ih name hname).2⟩

end Schema

namespace ExportGem

open Act

variable {files : Files} {argv : List Text} {env : Settings.Environment} {given : Arguments.Taken}
  {settings : Settings} {dataset : Dataset} {row : Row} {record : Skill} {text : Text}

/-! ### The stages -/

theorem confined_skillRow (dataset : Dataset) (skill : Arguments.Value) :
    (skillRow dataset skill).Confined Deed.IsComplaint := by
  rw [skillRow]
  split
  · exact confined_pure _
  · exact confined_refuse _

theorem confined_skillRecord (dataset : Dataset) (row : Row) (grammar : Text) (settings : Settings) :
    (skillRecord dataset row grammar settings).Confined Deed.IsComplaint := by
  rw [skillRecord]
  split
  · exact (confined_log _ _).bind fun _ _ => confined_refuse _
  · exact confined_ofJournal _ _

theorem confined_exported (files : Files) (settings : Settings) (dataset : Dataset)
    (skill grammar : Arguments.Value) :
    (exported files settings dataset skill grammar).Confined Deed.IsComplaint :=
  (confined_skillRow dataset skill).bind fun row _ =>
    (confined_ofCrash _).bind fun description _ =>
      (confined_skillRecord dataset row description settings).bind fun _ _ =>
        (confined_ofExcept _).bind fun _ _ => confined_pure _

theorem confined_checkGiven (files : Files) (level : LogLevel) (dataset : Dataset)
    (schema : Option Arguments.Value) : (checkGiven files level dataset schema).Confined Deed.IsComplaint := by
  cases schema with
  | none => exact confined_pure ()
  | some path => exact (confined_ofCrash _).bind fun _ _ => confined_ofJournal _ _

/-! ### What the stages give -/

theorem outcome_skillRow_eq_ok {skill : Arguments.Value} :
    (skillRow dataset skill).outcome = .ok row ↔ dataset.findActiveSkill (skillId skill) = some row := by
  rw [skillRow]
  cases dataset.findActiveSkill (skillId skill) with
  | none => constructor <;> rintro ⟨⟩
  | some found => exact ⟨fun h => congrArg some (Except.ok.inj h), fun h => congrArg Except.ok (Option.some.inj h)⟩

theorem outcome_skillRecord_eq_ok {description : Text} :
    (skillRecord dataset row description settings).outcome = .ok record ↔
      (Skill.ofTables dataset row description settings).outcome = .ok record := by
  rw [skillRecord]
  split
  · next h =>
    rw [h]
    constructor <;> rintro ⟨⟩
  · rw [ofJournal_eq]
    exact outcome_ofExcept_eq_ok

/-- A record and its text are exported when each stage gives what the next one needs. -/
theorem outcome_exported_eq_ok {skill grammar : Arguments.Value} :
    (exported files settings dataset skill grammar).outcome = .ok (record, text) ↔
      ∃ row description, dataset.findActiveSkill (skillId skill) = some row ∧
        files.readGiven grammar = .ok description ∧
        (Skill.ofTables dataset row description settings).outcome = .ok record ∧
        Wiki.render settings.separator record = .ok text := by
  simp only [exported, outcome_bind_eq_ok, outcome_skillRow_eq_ok, outcome_ofExcept_eq_ok,
    outcome_ofCrash_eq_ok, outcome_skillRecord_eq_ok, Fault.ofNumber_eq_ok]
  constructor
  · rintro ⟨row, hrow, description, hdescription, record', hrecord, text', htext, ⟨⟩⟩
    exact ⟨row, description, hrow, hdescription, hrecord, htext⟩
  · rintro ⟨row, description, hrow, hdescription, hrecord, htext⟩
    exact ⟨row, hrow, description, hdescription, record, hrecord, text, htext, rfl⟩

/-- What the stages of an export gave, one from the other. -/
structure Stages (files : Files) (env : Settings.Environment) (given : Arguments.Taken) where
  settings : Settings
  tables : Arguments.Value
  skill : Arguments.Value
  grammar : Arguments.Value
  dataset : Dataset
  row : Row
  description : Text
  record : Skill
  text : Text
  settings_eq : Settings.ofVariables env = .ok settings
  positionals_eq : given.positionals = [tables, skill, grammar]
  dataset_eq : readDataset files tables = .ok dataset
  row_eq : dataset.findActiveSkill (skillId skill) = some row
  description_eq : files.readGiven grammar = .ok description
  record_eq : (Skill.ofTables dataset row description settings).outcome = .ok record
  text_eq : Wiki.render settings.separator record = .ok text

theorem Stages.outcome_exported (stages : Stages files env given) :
    (exported files stages.settings stages.dataset stages.skill stages.grammar).outcome =
      .ok (stages.record, stages.text) :=
  outcome_exported_eq_ok.mpr ⟨stages.row, stages.description, stages.row_eq, stages.description_eq,
    stages.record_eq, stages.text_eq⟩

/-! ### Delivery -/

/-- The file under a path is opened, in directories that are made where they are missing; a new file has a name. -/
structure Opens (files : Files) (path : Text) (made : List Place) (name : Option Text) : Prop where
  directories : ∀ dir ∈ made, Files.OnTheWay files (Files.start path) (Files.steps path).dropLast made dir
  file : ∃ place, Files.follow files made path = .ok (.place place) ∧
    ((Files.entryAt files made place = .absent ∧ name = (Files.fromHome? place).map (Text.join ['/'])) ∨
      ((∃ old, Files.entryAt files made place = .file old) ∧ name = none))

/-- How the text of an export is delivered: the deeds that do it. -/
inductive Delivers (files : Files) (record : Skill) (text : Text) : Option Arguments.Value → List Deed → Prop
  | printed : Delivers files record text none [.print (text ++ ['\n'])]
  | written {path : Text} {made : List Place} {name : Option Text}
      (hopens : Opens files (Files.normalize path) made name) :
      Delivers files record text (some (some path))
        (made.map .makeDirectory ++ [.write ⟨Files.normalize path, text, name⟩,
          .print (announcement record (Files.normalize path))])

/-- How the delivery to a file is torn: the file is there, empty unless the text has bytes, and nothing is
printed. -/
inductive Tears (files : Files) (text : Text) : Option Arguments.Value → List Deed → Prop
  | written {path : Text} {made : List Place} {name : Option Text}
      (hopens : Opens files (Files.normalize path) made name) :
      Tears files text (some (some path))
        (made.map .makeDirectory ++ [.write ⟨Files.normalize path, writtenText text, name⟩])

/-- The file system accepts what is to be delivered: there is nothing to write, or directories and a file can be
made under the path. -/
inductive Accepts (files : Files) : Option Arguments.Value → Prop
  | printed : Accepts files none
  | written {path : Text} {made : List Place} {name : Option Text}
      (hmade : (makeParents files (Files.normalize path)).outcome = .ok made)
      (hspelling : Files.checkSpelling (Files.normalize path) = .ok ())
      (hname : files.newName made (Files.normalize path) = .ok name) : Accepts files (some (some path))

/-- What is to be delivered has bytes: the text, and the path that is announced. -/
structure Encodable (text : Text) (output : Option Arguments.Value) : Prop where
  text : Text.hasHalf text = false
  path : ∀ path, output = some (some path) → Text.hasHalf (Files.normalize path) = false

theorem opens_of_makeParents {path : Text} {made : List Place} {name : Option Text}
    (hmade : (makeParents files path).outcome = .ok made) (hname : files.newName made path = .ok name) :
    Opens files path made name ∧ (makeParents files path).deeds = made.map .makeDirectory := by
  obtain ⟨_, hspelling, hmade'⟩ := outcome_bind_eq_ok.mp hmade
  obtain ⟨_, hcheck, hmake⟩ := outcome_bind_eq_ok.mp hmade'
  obtain ⟨hway, hdeeds⟩ := makeDirectories_eq_ok hmake
  rw [List.reverse_reverse] at hway
  refine ⟨⟨hway, Files.newName_eq_ok hname⟩, ?_⟩
  rw [makeParents, bind_of_ok hspelling, bind_of_ok hcheck]
  exact hdeeds

theorem confined_makeParents (path : Text) : (makeParents files path).Confined Deed.IsPreparation :=
  (confined_ofCrash _).bind fun _ _ => (confined_ofExcept _).bind fun _ _ => confined_makeDirectories _

theorem hasHalf_announcement (record : Skill) (path : Text) :
    Text.hasHalf (announcement record path) = (Text.hasHalf record.name || Text.hasHalf path) := by
  have hspace : Sign.Separates ' ' := by decide
  have hbreak : Sign.Separates '\n' := by decide
  have hwords : announcement record path = "Wrote".toList ++ ' ' :: (record.name ++ ' ' ::
      ("parameters to".toList ++ ' ' :: (path ++ '\n' :: []))) := by
    unfold announcement
    simp only [List.append_assoc]
    rfl
  have hfirst : Text.hasHalf "Wrote".toList = false := Text.hasHalf_eq_false_of_not_mem (by decide)
  have hsecond : Text.hasHalf "parameters to".toList = false := Text.hasHalf_eq_false_of_not_mem (by decide)
  rw [hwords]
  simp only [Text.hasHalf_append_cons hspace, Text.hasHalf_append_cons hbreak, hfirst, hsecond]
  simp [Text.hasHalf, Text.signs]

/-- A path that the file system does not accept leaves nothing to be seen. -/
theorem stops_deliver {output : Option Arguments.Value} (h : ¬Accepts files output) (record : Skill)
    (text : Text) : (deliver files output record text).Stops Deed.IsPreparation := by
  rcases output with _ | _ | path
  · exact absurd .printed h
  · exact (confined_ofExcept _).bind_stops fun _ hpath => by cases hpath
  · rw [deliver, Arguments.Value.text, ofExcept_ok_bind]
    refine (confined_makeParents _).bind_stops fun made hmade => Stops.bind ?_ _
    refine (confined_ofCrash _).bind_stops fun _ hspelling => ?_
    refine (confined_ofExcept _).bind_stops fun name hname => ?_
    rw [outcome_ofCrash_eq_ok] at hspelling
    rw [outcome_ofExcept_eq_ok] at hname
    exact absurd (.written hmade hspelling hname) h

/-- What has bytes is delivered where the file system accepts it. -/
theorem deliver_of_encodable {output : Option Arguments.Value} (haccepts : Accepts files output)
    (h : Encodable text output) (hname : Text.hasHalf record.name = true → Text.hasHalf text = true) :
    ∃ deeds, Delivers files record text output deeds ∧ deliver files output record text = ⟨deeds, .ok ()⟩ := by
  rcases haccepts with _ | @⟨path, made, name, hmade, hspelling, hfile⟩
  · refine ⟨_, .printed, ?_⟩
    have hline : Text.hasHalf (text ++ ['\n']) = false := by
      rw [Text.hasHalf_append_cons (by decide), h.text]
      rfl
    rw [deliver, print_of_not_hasHalf hline]
    rfl
  · obtain ⟨hopens, hdeeds⟩ := opens_of_makeParents hmade hfile
    have hwords : Text.hasHalf (announcement record (Files.normalize path)) = false := by
      rw [hasHalf_announcement, h.path path rfl, Bool.or_false, Bool.eq_false_iff]
      intro hhalf
      exact Bool.false_ne_true (h.text.symm.trans (hname hhalf))
    refine ⟨_, .written hopens, ?_⟩
    rw [deliver, Arguments.Value.text, ofExcept_ok_bind, bind_of_ok hmade, hdeeds,
      writeFile_of_newName hspelling hfile, writtenText, h.text, print_of_not_hasHalf hwords]
    rfl

/-- What has no bytes is not printed, and on its way to a file it is torn. -/
theorem deliver_of_not_encodable {output : Option Arguments.Value} (haccepts : Accepts files output)
    (h : ¬Encodable text output) (record : Skill) :
    (deliver files output record text).outcome = .error (.crash (.coding .noBytes)) ∧
      (output = none ∧ (deliver files output record text).deeds = [] ∨
        Tears files text output (deliver files output record text).deeds) := by
  rcases haccepts with _ | @⟨path, made, name, hmade, hspelling, hfile⟩
  · have hline : Text.hasHalf (text ++ ['\n']) = true := by
      rw [Text.hasHalf_append_cons (by decide), Bool.or_eq_true, ← Bool.not_eq_false]
      exact .inl fun htext => h ⟨htext, by rintro path ⟨⟩⟩
    rw [deliver, print_of_hasHalf hline]
    exact ⟨rfl, .inl ⟨rfl, rfl⟩⟩
  · obtain ⟨hopens, hdeeds⟩ := opens_of_makeParents hmade hfile
    have htorn : deliver files (some (some path)) record text =
        ⟨made.map .makeDirectory ++ [.write ⟨Files.normalize path, writtenText text, name⟩],
          .error (.crash (.coding .noBytes))⟩ := by
      rw [deliver, Arguments.Value.text, ofExcept_ok_bind, bind_of_ok hmade, hdeeds,
        writeFile_of_newName hspelling hfile]
      cases htext : Text.hasHalf text with
      | true => rfl
      | false =>
        have hwords : Text.hasHalf (announcement record (Files.normalize path)) = true := by
          rw [hasHalf_announcement, Bool.or_eq_true, ← Bool.not_eq_false (Text.hasHalf (Files.normalize path))]
          refine .inr fun hpath => h ⟨htext, ?_⟩
          rintro _ ⟨⟩
          exact hpath
        rw [print_of_hasHalf hwords]
        rfl
    rw [htorn]
    exact ⟨rfl, .inr (.written hopens)⟩

/-! ### The schema -/

/-- The dataset that the arguments name. -/
def IsDataset (files : Files) (given : Arguments.Taken) (dataset : Dataset) : Prop :=
  ∃ tables rest, given.positionals = tables :: rest ∧ readDataset files tables = .ok dataset

theorem IsDataset.unique {dataset' : Dataset} (h : IsDataset files given dataset)
    (h' : IsDataset files given dataset') : dataset = dataset' := by
  obtain ⟨tables, rest, hgiven, hread⟩ := h
  obtain ⟨tables', rest', hgiven', hread'⟩ := h'
  obtain ⟨rfl, -⟩ := List.cons.inj (hgiven.symm.trans hgiven')
  exact Except.ok.inj (hread.symm.trans hread')

/-- Reading the schema, or checking the dataset against it, ends the command. -/
inductive SchemaFails (files : Files) (given : Arguments.Taken) (path : Arguments.Value) : Crash → Prop
  | read {dataset : Dataset} {cause : Crash} (hdataset : IsDataset files given dataset)
      (h : files.readJsonGiven path = .error cause) : SchemaFails files given path cause
  | check {dataset : Dataset} {d : Datum} {fault : Fault} (hdataset : IsDataset files given dataset)
      (hread : files.readJsonGiven path = .ok d) (h : (checkSchema dataset d).outcome = .error fault) :
      SchemaFails files given path (.fault fault)

/-- What the check of the dataset against a schema notes: a warning for a required table that the schema does not
have, and an error when the version of the dataset does not begin with a number. -/
def IsNotice (files : Files) (given : Arguments.Taken) (path : Arguments.Value) (e : Event) : Prop :=
  ∃ dataset, IsDataset files given dataset ∧
    ((e.level = .warning ∧ ∃ d schema table, files.readJsonGiven path = .ok d ∧ Schema.read d = .fits schema ∧
      table ∈ Dataset.requiredTables ∧ (schema.findTable table (.text dataset.gameVersion)).outcome = .ok none ∧
      e = .tableNotInSchema table dataset.gameVersion) ∨
    (e.level = .error ∧ Schema.versionDigits (.text dataset.gameVersion) = [] ∧
      e = .invalidVersion (.text dataset.gameVersion)))

variable {given' : Arguments.Taken} {path : Arguments.Value} {d : Datum}

theorem isNotice_of_mem_checkSchema {e : Event} (hdataset : IsDataset files given dataset)
    (hread : files.readJsonGiven path = .ok d) (h : e ∈ (checkSchema dataset d).events) :
    IsNotice files given path e := by
  refine ⟨dataset, hdataset, ?_⟩
  rw [checkSchema] at h
  rcases Journal.mem_events_bind.mp h with h | ⟨schema, hschema, h⟩
  · cases h
  rcases Journal.mem_events_bind.mp h with h | ⟨missing, hmissing, h⟩
  · obtain ⟨rfl, hdigits⟩ := Schema.eq_invalidVersion_of_mem_missingTables h
    exact .inr ⟨rfl, hdigits, rfl⟩
  · obtain ⟨table, htable, rfl⟩ := List.mem_map.mp h
    obtain ⟨hrequired, hnone⟩ := Schema.findTable_of_mem_missingTables hmissing table htable
    exact .inl ⟨rfl, d, schema, table, hread, Fault.ofReading_eq_ok.mp hschema, hrequired, hnone, rfl⟩

/-- The check against a schema fails, or it only adds its notices to the log. -/
theorem checkGiven_cases (level : LogLevel) (hdataset : IsDataset files given dataset) (path : Arguments.Value) :
    (∃ cause, SchemaFails files given path cause ∧
      (checkGiven files level dataset (some path)).outcome = .error (.crash cause)) ∨
    ((∀ cause, ¬SchemaFails files given path cause) ∧ ∃ added : List Event, (∀ e ∈ added, IsNotice files given path e) ∧
      checkGiven files level dataset (some path) = ⟨added.map fun e => .complain e.line, .ok ()⟩) := by
  rw [checkGiven]
  cases hread : files.readJsonGiven path with
  | error cause => exact .inl ⟨cause, .read hdataset hread, rfl⟩
  | ok d =>
    have hbind : (ofCrash (.ok d) >>= fun d => ofJournal level (checkSchema dataset d)) =
        ⟨(log level (checkSchema dataset d).events).deeds, (ofExcept (checkSchema dataset d).outcome).outcome⟩ :=
      ofJournal_eq level (checkSchema dataset d)
    rw [hbind]
    cases hcheck : (checkSchema dataset d).outcome with
    | error fault => exact .inl ⟨.fault fault, .check hdataset hread hcheck, rfl⟩
    | ok u =>
      refine .inr ⟨?_, _, ?_, rfl⟩
      · rintro cause (⟨-, hread'⟩ | ⟨hdataset', hread', hcheck'⟩)
        · cases hread.symm.trans hread'
        · obtain rfl := hdataset.unique hdataset'
          obtain rfl := Except.ok.inj (hread.symm.trans hread')
          cases hcheck.symm.trans hcheck'
      · intro e he
        exact isNotice_of_mem_checkSchema hdataset hread (List.mem_filter.mp he).1

theorem Stages.isDataset (stages : Stages files env given) : IsDataset files given stages.dataset :=
  ⟨stages.tables, [stages.skill, stages.grammar], stages.positionals_eq, stages.dataset_eq⟩

/-- The schema that is given, if any, can be read and checked. -/
def SchemaPasses (files : Files) (given : Arguments.Taken) : Prop :=
  ∀ path cause, given.value? "schema" = some path → ¬SchemaFails files given path cause

/-- Nothing but bytes can be missing: the schema passes, and the file system accepts what is delivered. -/
structure Ready (files : Files) (given : Arguments.Taken) : Prop where
  schema : SchemaPasses files given
  accepts : Accepts files (given.value? "output")

theorem outcome_checkGiven_eq_ok {level : LogLevel} (hdataset : IsDataset files given dataset) :
    (checkGiven files level dataset (given.value? "schema")).outcome = .ok () ↔ SchemaPasses files given := by
  rw [SchemaPasses]
  cases given.value? "schema" with
  | none =>
    constructor
    · rintro - path cause ⟨⟩
    · exact fun _ => rfl
  | some path =>
    rcases checkGiven_cases level hdataset path with ⟨cause, hfails, hcheck⟩ | ⟨hpasses, added, -, hcheck⟩
    · rw [hcheck]
      constructor
      · rintro ⟨⟩
      · exact fun h => absurd hfails (h path cause rfl)
    · rw [hcheck]
      constructor
      · rintro - _ cause ⟨⟩
        exact hpasses cause
      · exact fun _ => rfl

/-! ### The end of the command -/

theorem act_eq_withArguments (h : Arguments.read interface argv = .ok given)
    (hsettings : Settings.ofVariables env = .ok settings) :
    act files argv env = withArguments files settings given := by
  rw [act, command, hsettings, h]
  rfl

/-- When every stage gives what the next one needs and the schema passes, the command complains and then delivers. -/
theorem act_of_stages (h : Arguments.read interface argv = .ok given) (stages : Stages files env given)
    (hschema : SchemaPasses files given) : ∃ words : List Text,
    act files argv env = ⟨words.map .complain ++
      (deliver files (given.value? "output") stages.record stages.text).deeds,
      (deliver files (given.value? "output") stages.record stages.text).outcome⟩ := by
  obtain ⟨words, hwords⟩ := (confined_checkGiven files stages.settings.logLevel stages.dataset
    (given.value? "schema")).exists_complaints
  obtain ⟨words', hwords'⟩ :=
    (confined_exported files stages.settings stages.dataset stages.skill stages.grammar).exists_complaints
  refine ⟨words ++ words', ?_⟩
  rw [act_eq_withArguments h stages.settings_eq, withArguments, stages.positionals_eq]
  dsimp only
  rw [stages.dataset_eq, ofCrash_ok_bind, bind_of_ok ((outcome_checkGiven_eq_ok stages.isDataset).mpr hschema),
    bind_of_ok stages.outcome_exported, hwords, hwords', List.map_append, List.append_assoc]

/-- Otherwise it only complains. -/
theorem stops_act (h : Arguments.read interface argv = .ok given)
    (hstages : Stages files env given → ¬SchemaPasses files given) :
    (act files argv env).Stops Deed.IsComplaint := by
  rw [act, command, h]
  refine (confined_ofExcept _).bind_stops fun settings hsettings => ?_
  change (withArguments files settings given).Stops Deed.IsComplaint
  rw [withArguments]
  split
  · next tables skill grammar hgiven =>
    refine (confined_ofCrash _).bind_stops fun dataset hdataset => ?_
    refine (confined_checkGiven _ _ _ _).bind_stops fun _ hcheck => ?_
    refine (confined_exported _ _ _ _ _).bind_stops fun result hexported => ?_
    obtain ⟨record, text⟩ := result
    obtain ⟨row, description, hrow, hdescription, hrecord, htext⟩ := outcome_exported_eq_ok.mp hexported
    rw [outcome_ofExcept_eq_ok] at hsettings
    rw [outcome_ofCrash_eq_ok] at hdataset
    let stages : Stages files env given := ⟨settings, tables, skill, grammar, dataset, row, description, record, text,
      hsettings, hgiven, hdataset, hrow, hdescription, hrecord, htext⟩
    exact absurd ((outcome_checkGiven_eq_ok stages.isDataset).mp hcheck) (hstages stages)
  · exact stops_exit (by decide)

/-- A half in the name of a record is in its text. -/
theorem Stages.hasHalf_text (stages : Stages files env given) (h : Text.hasHalf stages.record.name = true) :
    Text.hasHalf stages.text = true :=
  Wiki.hasHalf_of_render stages.text_eq .name rfl h

theorem Tears.printed {output : Option Arguments.Value} {deeds : List Deed} (h : Tears files text output deeds) :
    deeds.flatMap Deed.printed = [] := by
  obtain ⟨-⟩ := h
  simp [Deed.printed]

theorem Tears.output_ne_none {output : Option Arguments.Value} {deeds : List Deed}
    (h : Tears files text output deeds) : output ≠ none := by
  obtain ⟨-⟩ := h
  exact Option.some_ne_none _

section

variable (h : Arguments.read interface argv = .ok given)
include h

theorem act_of_encodable (stages : Stages files env given) (hready : Ready files given)
    (hencodable : Encodable stages.text (given.value? "output")) :
    ∃ (words : List Text) (deeds : List Deed),
      Delivers files stages.record stages.text (given.value? "output") deeds ∧
        act files argv env = ⟨words.map .complain ++ deeds, .ok ()⟩ := by
  obtain ⟨words, hact⟩ := act_of_stages h stages hready.schema
  obtain ⟨deeds, hdelivers, hdeliver⟩ := deliver_of_encodable hready.accepts hencodable stages.hasHalf_text
  refine ⟨words, deeds, hdelivers, ?_⟩
  rw [hact, hdeliver]

theorem act_of_not_encodable (stages : Stages files env given) (hready : Ready files given)
    (hencodable : ¬Encodable stages.text (given.value? "output")) :
    ∃ (words : List Text) (deeds : List Deed),
      (given.value? "output" = none ∧ deeds = [] ∨ Tears files stages.text (given.value? "output") deeds) ∧
        act files argv env = ⟨words.map .complain ++ deeds, .error (.crash (.coding .noBytes))⟩ := by
  obtain ⟨words, hact⟩ := act_of_stages h stages hready.schema
  obtain ⟨houtcome, hdeeds⟩ := deliver_of_not_encodable hready.accepts hencodable stages.record
  refine ⟨words, _, hdeeds, ?_⟩
  rw [hact, houtcome]

theorem stops_act_of_not_ready (hready : Stages files env given → ¬Ready files given) :
    (act files argv env).Stops Deed.IsPreparation := by
  by_cases hschema : ∃ _ : Stages files env given, SchemaPasses files given
  · obtain ⟨stages, hschema⟩ := hschema
    have haccepts : ¬Accepts files (given.value? "output") := fun haccepts => hready stages ⟨hschema, haccepts⟩
    obtain ⟨words, hact⟩ := act_of_stages h stages hschema
    obtain ⟨⟨hdeeds, hexit⟩, hhalts⟩ := stops_deliver haccepts stages.record stages.text
    rw [hact]
    refine ⟨⟨fun deed hdeed => ?_, hexit⟩, hhalts⟩
    rcases List.mem_append.mp hdeed with hdeed | hdeed
    · obtain ⟨t, -, rfl⟩ := List.mem_map.mp hdeed
      exact ⟨rfl, rfl⟩
    · exact hdeeds deed hdeed
  · have hstops := stops_act h fun stages hpasses => hschema ⟨stages, hpasses⟩
    exact ⟨hstops.toConfined.mono fun _ => Deed.IsComplaint.isPreparation, hstops.halts⟩

/-- With status zero everything is there and has bytes. -/
theorem encodable_of_status_zero (hstatus : (act files argv env).status? = some 0) :
    ∃ stages : Stages files env given, Ready files given ∧ Encodable stages.text (given.value? "output") := by
  by_cases hready : ∃ _ : Stages files env given, Ready files given
  · obtain ⟨stages, hready⟩ := hready
    refine ⟨stages, hready, ?_⟩
    by_contra hencodable
    obtain ⟨words, deeds, -, hact⟩ := act_of_not_encodable h stages hready hencodable
    rw [hact] at hstatus
    cases hstatus
  · exact absurd hstatus (stops_act_of_not_ready h fun stages hnot => hready ⟨stages, hnot⟩).status?_ne_zero

/-- With another status nothing is printed, and a file is written only when it is torn. -/
theorem torn_of_written (hstatus : (act files argv env).status? ≠ some 0) :
    (act files argv env).printed = [] ∧ ((act files argv env).written = [] ∨ given.value? "output" ≠ none ∧
      ∃ stages : Stages files env given, Ready files given ∧ ¬Encodable stages.text (given.value? "output")) := by
  by_cases hready : ∃ _ : Stages files env given, Ready files given
  · obtain ⟨stages, hready⟩ := hready
    by_cases hencodable : Encodable stages.text (given.value? "output")
    · obtain ⟨words, deeds, -, hact⟩ := act_of_encodable h stages hready hencodable
      rw [hact] at hstatus
      exact absurd rfl hstatus
    · obtain ⟨words, deeds, hdeeds, hact⟩ := act_of_not_encodable h stages hready hencodable
      have hprinted : (words.map Deed.complain).flatMap Deed.printed = [] := by simp [Deed.printed]
      have hwritten : (words.map Deed.complain).flatMap Deed.written = [] := by simp [Deed.written]
      rw [hact, Act.printed, Act.written, List.flatMap_append, List.flatMap_append, hprinted, hwritten]
      rcases hdeeds with ⟨-, rfl⟩ | htears
      · exact ⟨rfl, .inl rfl⟩
      · exact ⟨htears.printed, .inr ⟨htears.output_ne_none, stages, hready, hencodable⟩⟩
  · have hstops := (stops_act_of_not_ready h fun stages hnot => hready ⟨stages, hnot⟩).toConfined
    exact ⟨hstops.printed, .inl hstops.written⟩

end

/-- A schema only adds its notices to the log, unless reading or checking it fails. -/
theorem withArguments_schema (settings : Settings) (hpositionals : given'.positionals = given.positionals)
    (houtput : given'.value? "output" = given.value? "output") (hnone : given.value? "schema" = none)
    (hpath : given'.value? "schema" = some path) :
    (∃ cause, SchemaFails files given path cause ∧
      (withArguments files settings given').outcome = .error (.crash cause)) ∨
    ((withArguments files settings given').outcome = (withArguments files settings given).outcome ∧
      ∃ added : List Event, (∀ e ∈ added, IsNotice files given path e) ∧
        (withArguments files settings given').deeds =
          added.map (fun e => .complain e.line) ++ (withArguments files settings given).deeds) := by
  rw [withArguments, withArguments, hpositionals, houtput, hnone, hpath]
  split
  · next tables skill grammar hgiven =>
    cases hdataset : readDataset files tables with
    | error cause => exact .inr ⟨rfl, [], fun _ h => absurd h List.not_mem_nil, rfl⟩
    | ok dataset =>
      have hisDataset : IsDataset files given dataset := ⟨tables, [skill, grammar], hgiven, hdataset⟩
      rw [ofCrash_ok_bind, ofCrash_ok_bind]
      rcases checkGiven_cases settings.logLevel hisDataset path with
        ⟨cause, hfails, hcheck⟩ | ⟨-, added, hadded, hcheck⟩
      · rw [bind_of_error hcheck]
        exact .inl ⟨cause, hfails, rfl⟩
      · rw [hcheck]
        exact .inr ⟨rfl, added, hadded, rfl⟩
  · exact .inr ⟨rfl, [], fun _ h => absurd h List.not_mem_nil, rfl⟩

/-! ### The command -/

/-- The command writes all or nothing, unless what it delivers to a file has no bytes. When it crashes, or ends with
any other status than zero, nothing is printed, and a file is written only in that case: then the file is there,
empty when it is the text that has no bytes. The command ends with status zero exactly when every stage gives what
the next one needs, the schema does not fail, the file system accepts what is delivered, and that has bytes; then the
text of the exported record is printed with a line end, or is written to the output file and to no other, in
directories that are made where they are missing. A schema changes neither the end nor what is printed and written,
unless reading or checking it fails: it adds warnings for missing tables and, when the version does not begin with a
number, errors that say so. -/
theorem act_writes_all_or_nothing (files : Files) (argv : List Text) (env : Settings.Environment)
    (given : Arguments.Taken) (h : Arguments.read interface argv = .ok given) :
    ((act files argv env).status? ≠ some 0 → (act files argv env).printed = [] ∧
      ((act files argv env).written = [] ∨ given.value? "output" ≠ none ∧
        ∃ stages : Stages files env given, Ready files given ∧ ¬Encodable stages.text (given.value? "output"))) ∧
    (∀ stages : Stages files env given, Ready files given → ¬Encodable stages.text (given.value? "output") →
      given.value? "output" ≠ none →
        (act files argv env).outcome = .error (.crash (.coding .noBytes)) ∧
          ∃ (words : List Text) (deeds : List Deed), Tears files stages.text (given.value? "output") deeds ∧
            (act files argv env).deeds = words.map .complain ++ deeds) ∧
    ((act files argv env).status? = some 0 ↔ ∃ stages : Stages files env given,
      Ready files given ∧ Encodable stages.text (given.value? "output")) ∧
    ((act files argv env).status? = some 0 →
      ∃ (stages : Stages files env given) (words : List Text) (deeds : List Deed),
        Delivers files stages.record stages.text (given.value? "output") deeds ∧
          (act files argv env).deeds = words.map .complain ++ deeds) ∧
    (∀ argv' given' path, Arguments.read interface argv' = .ok given' → given'.positionals = given.positionals →
      given'.value? "output" = given.value? "output" → given.value? "schema" = none →
      given'.value? "schema" = some path →
        (∃ cause, SchemaFails files given path cause ∧
          (act files argv' env).outcome = .error (.crash cause)) ∨
        ((act files argv' env).outcome = (act files argv env).outcome ∧
          ∃ added : List Event, (∀ e ∈ added, IsNotice files given path e) ∧
            (act files argv' env).deeds = added.map (fun e => .complain e.line) ++ (act files argv env).deeds)) := by
  refine ⟨torn_of_written h, ?_, ⟨encodable_of_status_zero h, ?_⟩, ?_, ?_⟩
  · intro stages hready hencodable houtput
    obtain ⟨words, deeds, hdeeds, hact⟩ := act_of_not_encodable h stages hready hencodable
    rw [hact]
    rcases hdeeds with ⟨hnone, -⟩ | htears
    · exact absurd hnone houtput
    · exact ⟨rfl, words, deeds, htears, rfl⟩
  · rintro ⟨stages, hready, hencodable⟩
    obtain ⟨words, deeds, -, hact⟩ := act_of_encodable h stages hready hencodable
    rw [hact]
    rfl
  · intro hstatus
    obtain ⟨stages, hready, hencodable⟩ := encodable_of_status_zero h hstatus
    obtain ⟨words, deeds, hdelivers, hact⟩ := act_of_encodable h stages hready hencodable
    exact ⟨stages, words, deeds, hdelivers, by rw [hact]⟩
  · intro argv' given' path h' hpositionals houtput hnone hpath
    rw [act, command, command, h, h']
    cases Settings.ofVariables env with
    | error fault => exact .inr ⟨rfl, [], fun _ h => absurd h List.not_mem_nil, rfl⟩
    | ok settings => exact withArguments_schema settings hpositionals houtput hnone hpath

/-! ### Small exports -/

/-- A dataset without a version that has a skill with a description and a granted effect for it, an empty schema and
no blocks. -/
def smallFiles (description : String) : Files := .ofTexts [
  ("t.json".toList,
    ("\x7b\"tables\": \x7b\"ActiveSkills\": [\x7b\"Id\": \"x\", \"Description\": \"" ++ description ++ "\"\x7d], " ++
      "\"GrantedEffects\": [\x7b\"ActiveSkill\": \x7b\"Id\": \"x\"\x7d\x7d]\x7d\x7d").toList),
  ("s.json".toList, "\x7b\x7d".toList), ("g.txt".toList, [])]

def smallArguments : List Text :=
  ["t.json", "x", "g.txt", "-o", "a/b.txt"].map String.toList

def smallArgumentsWithSchema : List Text :=
  smallArguments ++ ["--schema", "s.json"].map String.toList

/-- A small export ends with status zero, with the schema and without it. -/
theorem act_smallArguments :
    let files := smallFiles "A skill."
    let given : Arguments.Taken :=
      ⟨[some "t.json".toList, some "x".toList, some "g.txt".toList], [("output", some "a/b.txt".toList)], false⟩
    Arguments.read interface smallArguments = .ok given ∧
      (act files smallArguments []).status? = some 0 ∧
      (∃ (stages : Stages files [] given) (words : List Text) (deeds : List Deed),
        Delivers files stages.record stages.text (given.value? "output") deeds ∧
          (act files smallArguments []).deeds = words.map .complain ++ deeds) ∧
      (act files smallArgumentsWithSchema []).outcome = (act files smallArguments []).outcome := by
  intro files given
  have hread : Arguments.read interface smallArguments = .ok given := rfl
  have hread' : Arguments.read interface smallArgumentsWithSchema =
      .ok { given with values := given.values ++ [("schema", some "s.json".toList)] } := rfl
  have hstatus : (act files smallArguments []).status? = some 0 := by decide +kernel
  have hstatus' : (act files smallArgumentsWithSchema []).status? = some 0 := by decide +kernel
  obtain ⟨-, -, -, hall, hschema⟩ := act_writes_all_or_nothing files smallArguments [] given hread
  refine ⟨hread, hstatus, hall hstatus, ?_⟩
  rcases hschema _ _ _ hread' rfl rfl rfl rfl with ⟨cause, -, hcrash⟩ | ⟨houtcome, -⟩
  · rw [status?_of_crash hcrash] at hstatus'
    cases hstatus'
  · exact houtcome

/-- A description that is half a character leaves an empty file behind. -/
theorem act_halfDescription :
    (Arguments.read interface smallArguments).isOk = true ∧
      (act (smallFiles "\\ud800") smallArguments []).status? = none ∧
      (act (smallFiles "\\ud800") smallArguments []).printed = [] ∧
      (act (smallFiles "\\ud800") smallArguments []).written =
        [⟨"a/b.txt".toList, [], some "a/b.txt".toList⟩] := by
  decide +kernel

theorem head?_line_of_warning {e : Event} (h : e.level = .warning) : e.line.head? = some 'W' := by
  rw [Event.line, h]
  rfl

/-- Warnings in front of a warning do not begin with an error. -/
theorem head?_of_warnings {added : List Event} {rest : Text} (h : ∀ e ∈ added, e.level = .warning)
    (hrest : rest.head? = some 'W') : (added.flatMap Event.line ++ rest).head? = some 'W' := by
  cases added with
  | nil => exact hrest
  | cons e added =>
    rw [List.flatMap_cons, List.append_assoc, List.head?_append,
      head?_line_of_warning (h e List.mem_cons_self), Option.some_or]

/-- The version of the small dataset does not begin with a number, so a schema adds more than warnings. -/
theorem not_only_warnings_smallFiles :
    (act (smallFiles "") smallArgumentsWithSchema []).status? = some 0 ∧
      (act (smallFiles "") smallArguments []).status? = some 0 ∧
      ¬∃ added : List Event, (∀ e ∈ added, e.level = .warning) ∧
        (act (smallFiles "") smallArgumentsWithSchema []).complained =
          added.flatMap Event.line ++ (act (smallFiles "") smallArguments []).complained := by
  have hwith : (act (smallFiles "") smallArgumentsWithSchema []).status? = some 0 ∧
      (act (smallFiles "") smallArgumentsWithSchema []).complained.head? = some 'E' := by decide +kernel
  have hwithout : (act (smallFiles "") smallArguments []).status? = some 0 ∧
      (act (smallFiles "") smallArguments []).complained.head? = some 'W' := by decide +kernel
  refine ⟨hwith.1, hwithout.1, ?_⟩
  rintro ⟨added, hwarning, hadded⟩
  have hhead := congrArg List.head? hadded
  rw [head?_of_warnings hwarning hwithout.2, hwith.2] at hhead
  exact absurd (Option.some.inj hhead) (by decide)

end ExportGem

end GemScribe
