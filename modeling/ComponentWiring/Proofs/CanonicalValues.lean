import ComponentWiring.Outcome
import ComponentWiring.Pipeline
import ComponentWiring.Proofs.ReadStructures
import ComponentWiring.Proofs.SavedSettings
import ComponentWiring.Violation

/-! # Canonical values

Many values are read as one declaration or as one part of the settings: kinds have other names,
identities may have blanks around them, structures may stand as lists or with their fields in any
order, with some left out and others added. What was read is written as one of these values, the
canonical one, which is read as the same again.

* `Identity.Spells`, `Declaration.Spells`, `Settings.Spells`, … : the values that are read as
  something.
* `Data.Canonical`: a way to read and write that settles after one round.
* `canonical_values`: everything that is read and written by itself has such a way.
-/

namespace ComponentWiring
open Data
set_option autoImplicit false

/-! ## Identities, names and lists of identities -/

/-- A text with the name of the identity in it, and blanks around it. -/
def Identity.Spells (v : Value) (identity : Identity) : Prop :=
  ∃ name, v = .text name ∧ Text.trim name = identity.name

theorem Identity.ofName?_eq_some_iff {name : String} {identity : Identity} :
    ofName? name = some identity ↔ Text.trim name = identity.name := by
  constructor
  · exact fun h => (name_of_ofName? h).symm
  · intro h
    have hne : Text.trim name ≠ "" := h ▸ identity.name_ne
    rw [ofName?, dif_neg hne, Option.some.injEq]
    exact ext_name h

theorem Identity.accepts_read : Accepts Identity.read Identity.Spells := by
  intro v identity
  rw [Identity.read, bind_eq_ok_iff]
  refine exists_congr fun name => and_congr (accepts_string v name) ?_
  rw [← ofName?_eq_some_iff]
  split
  · next found hfound =>
    rw [hfound, Option.some.injEq]
    exact ⟨fun h => Except.ok.inj h, fun h => h ▸ rfl⟩
  · next hnone =>
    rw [hnone]
    exact iff_of_false nofun nofun

/-- The names of a kind, the one under which it is written first. -/
def Kind.names : Kind → List String
  | concrete => ["concrete", "class", "concrete-type"]
  | interface => ["interface"]
  | abstract => ["abstract", "abstract-type"]

def Kind.Spells : Value → Kind → Prop := Spells.name names

theorem Kind.accepts_read : Accepts (Kind.read .json) Kind.Spells := by
  refine accepts_choice (by decide) (fun kind name => ?_) _
  cases kind <;> simp [known, names, or_left_comm]

def Reason.Spells : Value → Reason → Prop := Spells.name fun reason => [reason.code]

theorem Reason.accepts_read : Accepts Reason.read Reason.Spells := by
  refine accepts_choice (by decide) (fun reason name => ?_) _
  cases reason <;> simp [code]

/-- The key of a record with a list of identities tells an order from a cycle. -/
def Outcome.Spells (v : Value) : Outcome → Prop
  | .ordered order => ∃ w, Spells.only "Ordered" w v ∧ Spells.list Identity.Spells w order
  | .cycle path => ∃ w, Spells.only "CycleDetected" w v ∧ Spells.list Identity.Spells w path

theorem Outcome.accepts_read : Accepts Outcome.read Outcome.Spells := by
  intro v outcome
  have hlist := accepts_list Identity.accepts_read
  rw [Outcome.read, tagged_eq_ok_iff (by decide)]
  constructor
  · rintro ⟨key, reader, content, hknown, honly, hread⟩
    rcases List.mem_pair.1 hknown with h | h <;> cases h
    all_goals
      obtain ⟨identities, hidentities, hmade⟩ := bind_eq_ok_iff.1 hread
      cases hmade
      exact ⟨content, honly, (hlist _ _).1 hidentities⟩
  · intro h
    cases outcome with
    | ordered order =>
      obtain ⟨content, honly, horder⟩ := h
      exact ⟨_, _, content, List.mem_pair.2 (.inl rfl), honly,
        bind_eq_ok_iff.2 ⟨order, (hlist _ _).2 horder, rfl⟩⟩
    | cycle path =>
      obtain ⟨content, honly, hpath⟩ := h
      exact ⟨_, _, content, List.mem_pair.2 (.inr rfl), honly,
        bind_eq_ok_iff.2 ⟨path, (hlist _ _).2 hpath, rfl⟩⟩

/-! ## Declarations -/

/-- What the rows of a location say. -/
structure Location.Told (rows : List (String × Value)) (location : Location) : Prop where
  file : Has rows "file" Spells.text location.file
  line : MayHave rows "line" (Spells.option Spells.count) none location.line

def Location.Spells : Value → Location → Prop := Spells.inRows ["file", "line"] [] Told

theorem Location.regular : Location.shape.Regular ["file", "line"] [] where
  fields_eq := rfl
  nodup := by decide
  apart := by simp [shape, Field.apart_of_put, -bind_pure_comp]
  closed_eq := rfl

theorem Location.accepts_read : Accepts Location.read Location.Spells := by
  refine regular.accepts fun rows _ => ?_
  simp only [shape, fills_nil,
    fills_cons_some accepts_path (fun file d => { d with file }) Draft.file (fun _ => rfl),
    fills_cons_put (accepts_optional accepts_count) (fun line d => { d with line }) Draft.line
      (fun _ => rfl)]
  constructor
  · rintro ⟨_, ⟨_, hfile, _, hline, rfl⟩, hfinish⟩
    obtain ⟨file, hfound, hmade⟩ := bind_eq_ok_iff.1 hfinish
    cases required_eq_ok_iff.1 hfound
    cases hmade
    exact ⟨mayHave_given_iff.1 hfile, hline⟩
  · rintro ⟨hfile, hline⟩
    exact ⟨_, ⟨_, mayHave_given_iff.2 hfile, _, hline, rfl⟩, rfl⟩

/-- What the rows of a declaration say. -/
structure Declaration.Told (rows : List (String × Value)) (d : Declaration) : Prop where
  identity : Has rows "identity" Identity.Spells d.identity
  kind : Has rows "kind" Kind.Spells d.kind
  constructible : Has rows "has_no_arg_constructor" Spells.truth d.hasNoArgConstructor
  dependencies : MayHave rows "dependencies" (Spells.list Identity.Spells) [] d.dependencies
  location : MayHave rows "location" (Spells.option Location.Spells) none d.location

/-- A list may end before the dependencies or before the location. -/
def Declaration.Spells : Value → Declaration → Prop :=
  Spells.inRows ["identity", "kind", "has_no_arg_constructor"] ["dependencies", "location"] Told

theorem Declaration.regular : Declaration.shape.Regular
    ["identity", "kind", "has_no_arg_constructor"] ["dependencies", "location"] where
  fields_eq := rfl
  nodup := by decide
  apart := by simp [shape, Field.apart_of_put, -bind_pure_comp]
  closed_eq := rfl

theorem Declaration.accepts_read : Accepts Declaration.read Declaration.Spells := by
  refine regular.accepts fun rows _ => ?_
  simp only [shape, fills_nil,
    fills_cons_some Identity.accepts_read (fun identity d => { d with identity }) Draft.identity
      (fun _ => rfl),
    fills_cons_some Kind.accepts_read (fun kind d => { d with kind }) Draft.kind (fun _ => rfl),
    fills_cons_some accepts_boolean (fun b d => { d with hasNoArgConstructor := b })
      Draft.hasNoArgConstructor (fun _ => rfl),
    fills_cons_put (accepts_list Identity.accepts_read)
      (fun dependencies d => { d with dependencies }) Draft.dependencies (fun _ => rfl),
    fills_cons_put (accepts_optional Location.accepts_read) (fun location d => { d with location })
      Draft.location (fun _ => rfl)]
  constructor
  · rintro ⟨_, ⟨_, hidentity, _, hkind, _, hconstructible, _, hdependencies, _, hlocation, rfl⟩,
      hfinish⟩
    obtain ⟨identity, hfound, hfinish⟩ := bind_eq_ok_iff.1 hfinish
    cases required_eq_ok_iff.1 hfound
    obtain ⟨kind, hfound, hfinish⟩ := bind_eq_ok_iff.1 hfinish
    cases required_eq_ok_iff.1 hfound
    obtain ⟨constructible, hfound, hfinish⟩ := bind_eq_ok_iff.1 hfinish
    cases required_eq_ok_iff.1 hfound
    cases hfinish
    exact ⟨mayHave_given_iff.1 hidentity, mayHave_given_iff.1 hkind,
      mayHave_given_iff.1 hconstructible, hdependencies, hlocation⟩
  · rintro ⟨hidentity, hkind, hconstructible, hdependencies, hlocation⟩
    exact ⟨_, ⟨_, mayHave_given_iff.2 hidentity, _, mayHave_given_iff.2 hkind, _,
      mayHave_given_iff.2 hconstructible, _, hdependencies, _, hlocation, rfl⟩, rfl⟩

/-! ## Summaries of emissions -/

structure EmitSummary.Told (rows : List (String × Value)) (s : EmitSummary) : Prop where
  written : Has rows "written" Spells.count s.written
  skipped : Has rows "skipped" Spells.count s.skipped

def EmitSummary.Spells : Value → EmitSummary → Prop := Spells.inRows ["written", "skipped"] [] Told

theorem EmitSummary.regular : EmitSummary.shape.Regular ["written", "skipped"] [] where
  fields_eq := rfl
  nodup := by decide
  apart := by simp [shape, Field.apart_of_put, -bind_pure_comp]
  closed_eq := rfl

theorem EmitSummary.accepts_read : Accepts EmitSummary.read EmitSummary.Spells := by
  refine regular.accepts fun rows _ => ?_
  simp only [shape, fills_nil,
    fills_cons_some accepts_count (fun written d => { d with written }) Draft.written
      (fun _ => rfl),
    fills_cons_some accepts_count (fun skipped d => { d with skipped }) Draft.skipped
      (fun _ => rfl)]
  constructor
  · rintro ⟨_, ⟨_, hwritten, _, hskipped, rfl⟩, hfinish⟩
    obtain ⟨written, hfound, hfinish⟩ := bind_eq_ok_iff.1 hfinish
    cases required_eq_ok_iff.1 hfound
    obtain ⟨skipped, hfound, hfinish⟩ := bind_eq_ok_iff.1 hfinish
    cases required_eq_ok_iff.1 hfound
    cases hfinish
    exact ⟨mayHave_given_iff.1 hwritten, mayHave_given_iff.1 hskipped⟩
  · rintro ⟨hwritten, hskipped⟩
    exact ⟨_, ⟨_, mayHave_given_iff.2 hwritten, _, mayHave_given_iff.2 hskipped, rfl⟩, rfl⟩

/-! ## Settings

Whatever is missing in a section has its default, and so has a section that is missing. -/

def Report.Format.Spells : Value → Report.Format → Prop := Spells.name fun format => [format.name]

theorem Report.Format.accepts_read : Accepts (Report.Format.read .json) Report.Format.Spells := by
  refine accepts_choice (by decide) (fun format name => ?_) _
  cases format <;> simp [Format.name]

namespace Settings

structure Logging.Told (rows : List (String × Value)) (logging : Logging) : Prop where
  level : MayHave rows "level" Spells.text "info" logging.level
  asJson : MayHave rows "json_format" Spells.truth false logging.asJson
  file : MayHave rows "file_output" (Spells.option Spells.text) none logging.file

def Logging.Spells : Value → Logging → Prop :=
  Spells.inRows [] ["level", "json_format", "file_output"] Told

theorem Logging.regular :
    Logging.shape.Regular [] ["level", "json_format", "file_output"] where
  fields_eq := rfl
  nodup := by decide
  apart := by simp [shape, Field.apart_of_put, -bind_pure_comp]
  closed_eq := rfl

theorem Logging.accepts_read : Accepts (Logging.read .json) Logging.Spells := by
  refine regular.accepts_draft rfl fun rows _ => ?_
  simp only [shape, fills_nil,
    fills_cons_put accepts_string (fun level d => { d with level }) Logging.level (fun _ => rfl),
    fills_cons_put accepts_boolean (fun asJson d => { d with asJson }) Logging.asJson
      (fun _ => rfl),
    fills_cons_put (accepts_optional accepts_path) (fun file d => { d with file }) Logging.file
      (fun _ => rfl)]
  constructor
  · rintro ⟨_, hlevel, _, hjson, _, hfile, rfl⟩
    exact ⟨hlevel, hjson, hfile⟩
  · rintro ⟨hlevel, hjson, hfile⟩
    exact ⟨_, hlevel, _, hjson, _, hfile, rfl⟩

structure Scan.Told (rows : List (String × Value)) (scan : Scan) : Prop where
  inputs : MayHave rows "input_dirs" (Spells.list Spells.text) ["components"] scan.inputs
  extension : MayHave rows "extension" Spells.text "toml" scan.extension

def Scan.Spells : Value → Scan → Prop := Spells.inRows [] ["input_dirs", "extension"] Told

theorem Scan.regular : Scan.shape.Regular [] ["input_dirs", "extension"] where
  fields_eq := rfl
  nodup := by decide
  apart := by simp [shape, Field.apart_of_put, -bind_pure_comp]
  closed_eq := rfl

theorem Scan.accepts_read : Accepts (Scan.read .json) Scan.Spells := by
  refine regular.accepts_draft rfl fun rows _ => ?_
  simp only [shape, fills_nil,
    fills_cons_put (accepts_list accepts_path) (fun inputs d => { d with inputs }) Scan.inputs
      (fun _ => rfl),
    fills_cons_put accepts_string (fun extension d => { d with extension }) Scan.extension
      (fun _ => rfl)]
  constructor
  · rintro ⟨_, hinputs, _, hextension, rfl⟩
    exact ⟨hinputs, hextension⟩
  · rintro ⟨hinputs, hextension⟩
    exact ⟨_, hinputs, _, hextension, rfl⟩

structure Emit.Told (rows : List (String × Value)) (emit : Emit) : Prop where
  outputDirectory : MayHave rows "output_dir" Spells.text "target/influx" emit.outputDirectory
  manifestName : MayHave rows "manifest_name" Spells.text "components.manifest" emit.manifestName
  registrationDirectory :
    MayHave rows "registration_dir" Spells.text "registrations" emit.registrationDirectory
  enabled : MayHave rows "enabled" Spells.truth true emit.enabled

def Emit.Spells : Value → Emit → Prop :=
  Spells.inRows [] ["output_dir", "manifest_name", "registration_dir", "enabled"] Told

theorem Emit.regular :
    Emit.shape.Regular [] ["output_dir", "manifest_name", "registration_dir", "enabled"] where
  fields_eq := rfl
  nodup := by decide
  apart := by simp [shape, Field.apart_of_put, -bind_pure_comp]
  closed_eq := rfl

theorem Emit.accepts_read : Accepts (Emit.read .json) Emit.Spells := by
  refine regular.accepts_draft rfl fun rows _ => ?_
  simp only [shape, fills_nil,
    fills_cons_put accepts_path (fun outputDirectory d => { d with outputDirectory })
      Emit.outputDirectory (fun _ => rfl),
    fills_cons_put accepts_string (fun manifestName d => { d with manifestName })
      Emit.manifestName (fun _ => rfl),
    fills_cons_put accepts_string (fun registrationDirectory d => { d with registrationDirectory })
      Emit.registrationDirectory (fun _ => rfl),
    fills_cons_put accepts_boolean (fun enabled d => { d with enabled }) Emit.enabled
      (fun _ => rfl)]
  constructor
  · rintro ⟨_, hdirectory, _, hmanifest, _, hregistrations, _, henabled, rfl⟩
    exact ⟨hdirectory, hmanifest, hregistrations, henabled⟩
  · rintro ⟨hdirectory, hmanifest, hregistrations, henabled⟩
    exact ⟨_, hdirectory, _, hmanifest, _, hregistrations, _, henabled, rfl⟩

structure Reporting.Told (rows : List (String × Value)) (report : Reporting) : Prop where
  format : MayHave rows "format" Report.Format.Spells .human report.format

def Reporting.Spells : Value → Reporting → Prop := Spells.inRows [] ["format"] Told

theorem Reporting.regular : (Reporting.shape .json).Regular [] ["format"] where
  fields_eq := rfl
  nodup := by decide
  apart := by simp [shape]
  closed_eq := rfl

theorem Reporting.accepts_read : Accepts (Reporting.read .json) Reporting.Spells := by
  refine regular.accepts_draft rfl fun rows _ => ?_
  simp only [shape, fills_nil,
    fills_cons_put Report.Format.accepts_read (fun format d => { d with format })
      Reporting.format (fun _ => rfl)]
  constructor
  · rintro ⟨_, hformat, rfl⟩
    exact ⟨hformat⟩
  · rintro ⟨hformat⟩
    exact ⟨_, hformat, rfl⟩

structure Told (rows : List (String × Value)) (settings : Settings) : Prop where
  logging : MayHave rows "logging" Logging.Spells {} settings.logging
  scan : MayHave rows "scan" Scan.Spells {} settings.scan
  emit : MayHave rows "emit" Emit.Spells {} settings.emit
  report : MayHave rows "report" Reporting.Spells {} settings.report

def Spells : Value → Settings → Prop :=
  Data.Spells.inRows [] ["logging", "scan", "emit", "report"] Told

theorem regular : (shape .json).Regular [] ["logging", "scan", "emit", "report"] where
  fields_eq := rfl
  nodup := by decide
  apart := by simp [shape, Field.apart_of_put, -bind_pure_comp]
  closed_eq := rfl

theorem accepts_read : Accepts (read .json) Spells := by
  refine regular.accepts_draft rfl fun rows _ => ?_
  simp only [shape, fills_nil,
    fills_cons_put Logging.accepts_read (fun logging d => { d with logging }) Settings.logging
      (fun _ => rfl),
    fills_cons_put Scan.accepts_read (fun scan d => { d with scan }) Settings.scan (fun _ => rfl),
    fills_cons_put Emit.accepts_read (fun emit d => { d with emit }) Settings.emit (fun _ => rfl),
    fills_cons_put Reporting.accepts_read (fun report d => { d with report }) Settings.report
      (fun _ => rfl)]
  constructor
  · rintro ⟨_, hlogging, _, hscan, _, hemit, _, hreport, rfl⟩
    exact ⟨hlogging, hscan, hemit, hreport⟩
  · rintro ⟨hlogging, hscan, hemit, hreport⟩
    exact ⟨_, hlogging, _, hscan, _, hemit, _, hreport, rfl⟩

end Settings

/-! ## Writing -/

theorem Identity.read_toValue (identity : Identity) : read identity.toValue = .ok identity :=
  (accepts_read _ _).2 ⟨identity.name, rfl, identity.trim_name⟩

theorem Kind.read_toValue (kind : Kind) : read .json kind.toValue = .ok kind := by
  cases kind <;> rfl

theorem Reason.read_toValue (reason : Reason) : read reason.toValue = .ok reason := by
  cases reason <;> rfl

theorem Outcome.read_toValue (outcome : Outcome) : read outcome.toValue = .ok outcome := by
  have hlist := (accepts_list Identity.accepts_read _ _).1
    (Reader.list_map Identity.read_toValue outcome.identities)
  refine (accepts_read _ _).2 ?_
  cases outcome with
  | ordered order => exact ⟨_, ⟨_, rfl, rfl⟩, hlist⟩
  | cycle path => exact ⟨_, ⟨_, rfl, rfl⟩, hlist⟩

theorem Location.read_toValue (location : Location) : read location.toValue = .ok location := by
  refine (accepts_read _ _).2 ⟨_, .inl rfl, ⟨_, rfl, rfl⟩, .inr ⟨_, rfl, ?_⟩⟩
  cases location.line with
  | none => rfl
  | some line => exact ⟨nofun, .inl rfl⟩

theorem Declaration.read_toValue (d : Declaration) : read d.toValue = .ok d := by
  have hidentity := (Identity.accepts_read _ _).1 d.identity.read_toValue
  have hkind := (Kind.accepts_read _ _).1 d.kind.read_toValue
  have hdependencies := (accepts_list Identity.accepts_read _ _).1
    (Reader.list_map Identity.read_toValue d.dependencies)
  refine (accepts_read _ _).2 ⟨_, .inl rfl, ?_⟩
  cases hlocation : d.location with
  | none =>
    exact ⟨⟨_, rfl, hidentity⟩, ⟨_, rfl, hkind⟩, ⟨_, rfl, rfl⟩, .inr ⟨_, rfl, hdependencies⟩,
      .inl ⟨rfl, hlocation⟩⟩
  | some location =>
    have hspells := (Location.accepts_read _ _).1 location.read_toValue
    exact ⟨⟨_, rfl, hidentity⟩, ⟨_, rfl, hkind⟩, ⟨_, rfl, rfl⟩, .inr ⟨_, rfl, hdependencies⟩,
      .inr ⟨_, rfl, hlocation ▸ ⟨nofun, hspells⟩⟩⟩

theorem EmitSummary.read_toValue (s : EmitSummary) : read s.toValue = .ok s :=
  (accepts_read _ _).2 ⟨_, .inl rfl, ⟨_, rfl, .inl rfl⟩, ⟨_, rfl, .inl rfl⟩⟩

/-- Reading takes exactly the values that spell something. What is written is read as what it was,
and what was read from any value is written as one that is read as the same and written as
itself. -/
structure Data.Canonical {α : Type} (Spells : Value → α → Prop) (write : α → Value)
    (read : Reader α) : Prop where
  accepts : Accepts read Spells
  read_write : ∀ x, read (write x) = .ok x
  settled : ∀ v x, read v = .ok x →
    read (write x) = .ok x ∧ (read (write x)).map write = .ok (write x)

theorem Data.Canonical.of_read_write {α : Type} {Spells : Value → α → Prop} {write : α → Value}
    {read : Reader α} (haccepts : Accepts read Spells) (h : ∀ x, read (write x) = .ok x) :
    Canonical Spells write read where
  accepts := haccepts
  read_write := h
  settled := fun _ x _ => ⟨h x, by rw [h x]; rfl⟩

/-- Everything that is read and written by itself settles in its canonical value. -/
theorem canonical_values :
    Canonical Identity.Spells Identity.toValue Identity.read ∧
    Canonical Kind.Spells Kind.toValue (Kind.read .json) ∧
    Canonical Location.Spells Location.toValue Location.read ∧
    Canonical Declaration.Spells Declaration.toValue Declaration.read ∧
    Canonical Reason.Spells Reason.toValue Reason.read ∧
    Canonical Outcome.Spells Outcome.toValue Outcome.read ∧
    Canonical EmitSummary.Spells EmitSummary.toValue EmitSummary.read ∧
    Canonical Settings.Spells Settings.toValue (Settings.read .json) :=
  ⟨.of_read_write Identity.accepts_read Identity.read_toValue,
   .of_read_write Kind.accepts_read Kind.read_toValue,
   .of_read_write Location.accepts_read Location.read_toValue,
   .of_read_write Declaration.accepts_read Declaration.read_toValue,
   .of_read_write Reason.accepts_read Reason.read_toValue,
   .of_read_write Outcome.accepts_read Outcome.read_toValue,
   .of_read_write EmitSummary.accepts_read EmitSummary.read_toValue,
   .of_read_write Settings.accepts_read (Settings.read_toValue .json)⟩

/-- A declaration as a list that ends before the location, with another name of its kind and
blanks around its identities. -/
example :
    (Declaration.read (.list [.text " app ", .record [("class", .null)], .bool true,
      .list [.text "store\t"]])).map Declaration.toValue =
    .ok (.record [("identity", .text "app"), ("kind", .text "concrete"),
      ("has_no_arg_constructor", .bool true), ("dependencies", .list [.text "store"])]) := by
  rfl

end ComponentWiring
