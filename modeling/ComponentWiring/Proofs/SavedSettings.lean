import ComponentWiring.Proofs.EmissionFaults
import ComponentWiring.Proofs.KeyedFields
import ComponentWiring.Proofs.StatementTexts
import ComponentWiring.Settings.File

/-! # Reading saved settings back

A settings file has a table for each section with a row for each setting, so it takes the place of
all defaults, and without variables of the environment above it the settings are the saved ones.

* `Settings.read_toValue`: reading data undoes writing it.
* `Settings.blocks`, `Settings.read_written`: the tables of a settings file.
* `Settings.plain_above_defaults`: what these tables make of the defaults.
* `Settings.load_saved`: what is loaded from a file that was saved.
-/

namespace ComponentWiring.Settings
open Data File
set_option autoImplicit false

/-! ## Settings as data -/

theorem Logging.read_toValue (form : Form) (logging : Logging) :
    Logging.read form logging.toValue = .ok logging := by
  obtain ⟨level, asJson, file⟩ := logging
  have hsorted : ∀ output : Value,
      sortFields [("level", .text level), ("json_format", .bool asJson), ("file_output", output)] =
        [("file_output", output), ("json_format", .bool asJson), ("level", .text level)] :=
    fun _ => by
      simp (disch := decide) only [sortFields, List.foldl_cons, List.foldl_nil, insertField_nil,
        insertField_of_lt]
  rw [Logging.read, Logging.toValue, structured_record, hsorted]
  cases file <;> rfl

theorem Scan.read_toValue (form : Form) (scan : Scan) :
    Scan.read form scan.toValue = .ok scan := by
  obtain ⟨inputs, extension⟩ := scan
  have htext : ∀ path, Reader.path (.text path) = .ok path := fun _ => rfl
  have hlist := Reader.list_map htext inputs
  have hsorted : ∀ paths : Value,
      sortFields [("input_dirs", paths), ("extension", .text extension)] =
        [("extension", .text extension), ("input_dirs", paths)] :=
    fun _ => by
      simp (disch := decide) only [sortFields, List.foldl_cons, List.foldl_nil, insertField_nil,
        insertField_of_lt]
  rw [Scan.read, Scan.toValue, structured_record, hsorted]
  simp [Shape.readFields, Scan.shape, hlist, Reader.string, Except.mapError, bind, Except.bind,
    pure, Except.pure]

theorem Emit.read_toValue (form : Form) (emit : Emit) : Emit.read form emit.toValue = .ok emit := by
  obtain ⟨outputDirectory, manifestName, registrationDirectory, enabled⟩ := emit
  have hsorted : sortFields
      [("output_dir", Value.text outputDirectory), ("manifest_name", .text manifestName),
       ("registration_dir", .text registrationDirectory), ("enabled", .bool enabled)] =
      [("enabled", .bool enabled), ("manifest_name", .text manifestName),
       ("output_dir", .text outputDirectory),
       ("registration_dir", .text registrationDirectory)] := by
    simp (disch := decide) only [sortFields, List.foldl_cons, List.foldl_nil, insertField_nil,
      insertField_of_lt, insertField_of_not_lt]
  rw [Emit.read, Emit.toValue, structured_record, hsorted]
  rfl

theorem Reporting.read_toValue (form : Form) (report : Reporting) :
    Reporting.read form report.toValue = .ok report := by
  obtain ⟨format⟩ := report
  cases format <;> rfl

theorem read_toValue (form : Form) (settings : Settings) :
    read form settings.toValue = .ok settings := by
  obtain ⟨logging, scan, emit, report⟩ := settings
  have hsorted : sortFields
      [("logging", logging.toValue), ("scan", scan.toValue), ("emit", emit.toValue),
       ("report", report.toValue)] =
      [("emit", emit.toValue), ("logging", logging.toValue), ("report", report.toValue),
       ("scan", scan.toValue)] := by
    simp (disch := decide) only [sortFields, List.foldl_cons, List.foldl_nil, insertField_nil,
      insertField_of_lt, insertField_of_not_lt]
  rw [read, toValue, structured_record, hsorted]
  simp [Shape.readFields, shape, Logging.read_toValue, Scan.read_toValue, Emit.read_toValue,
    Reporting.read_toValue, Except.mapError, bind, Except.bind, pure,
    Except.pure]

/-! ## The tables of a settings file -/

open Toml

def truthRow (key : String) (b : Bool) : Row := ⟨key, truth b, .bool b⟩

def pathsRow (key : String) (paths : List String) : Row :=
  ⟨key, Toml.array paths, .list (paths.map .text)⟩

def Logging.block (logging : Logging) : Block where
  name := "logging"
  rows := [textRow "level" logging.level, truthRow "json_format" logging.asJson] ++
    logging.file.toList.map (textRow "file_output")

def Scan.block (scan : Scan) : Block where
  name := "scan"
  rows := [pathsRow "input_dirs" scan.inputs, textRow "extension" scan.extension]

def Emit.block (emit : Emit) : Block where
  name := "emit"
  rows :=
    [textRow "output_dir" emit.outputDirectory, textRow "manifest_name" emit.manifestName,
     textRow "registration_dir" emit.registrationDirectory, truthRow "enabled" emit.enabled]

def Reporting.block (report : Reporting) : Block where
  name := "report"
  rows := [textRow "format" report.format.name]

/-- The tables of a settings file, one for each section. -/
def blocks (settings : Settings) : List Block :=
  [settings.logging.block, settings.scan.block, settings.emit.block, settings.report.block]

theorem written_eq (settings : Settings) :
    settings.written = Text.join "\n" (settings.blocks.map Block.text) := by
  obtain ⟨⟨level, asJson, file⟩, scan, emit, report⟩ := settings
  cases file <;> rfl

theorem spells_truth (edition : Edition) (b : Bool) : Spells edition (truth b) (.bool b) where
  starts := by cases b <;> exact ⟨_, _, rfl, by decide⟩
  value?_eq := fun rest => by cases edition <;> cases b <;> rfl

section Good
variable (edition : Edition)

theorem good_truthRow {key : String} (hkey : Bare key) (b : Bool) :
    (truthRow key b).Good edition := ⟨hkey, spells_truth edition b⟩

theorem good_pathsRow {key : String} (hkey : Bare key) (paths : List String) :
    (pathsRow key paths).Good edition := ⟨hkey, spells_array edition paths⟩

theorem Logging.good_block (logging : Logging) : logging.block.Good edition where
  bare := (by decide : Bare "logging")
  rows := by
    simp (disch := decide) [Logging.block, good_textRow, good_truthRow]
  nodup := by
    obtain ⟨level, asJson, file⟩ := logging
    cases file <;> simp [Logging.block, textRow, truthRow]

theorem Scan.good_block (scan : Scan) : scan.block.Good edition where
  bare := (by decide : Bare "scan")
  rows := by simp (disch := decide) [Scan.block, good_textRow, good_pathsRow]
  nodup := by simp [Scan.block, textRow, pathsRow]

theorem Emit.good_block (emit : Emit) : emit.block.Good edition where
  bare := (by decide : Bare "emit")
  rows := by simp (disch := decide) [Emit.block, good_textRow, good_truthRow]
  nodup := by simp [Emit.block, textRow, truthRow]

theorem Reporting.good_block (report : Reporting) : report.block.Good edition where
  bare := (by decide : Bare "report")
  rows := by simp (disch := decide) [Reporting.block, good_textRow]
  nodup := by simp [Reporting.block]

theorem read_written (settings : Settings) :
    Toml.read edition settings.written = .ok (settings.blocks.map Block.field) := by
  have hgood : ∀ block ∈ settings.blocks, block.Good edition := by
    simp [blocks, Logging.good_block, Scan.good_block, Emit.good_block, Reporting.good_block]
  rw [written_eq]
  exact read_blocks hgood
    (by simp [blocks, Logging.block, Scan.block, Emit.block, Reporting.block])

end Good

/-! ## Layers -/

section Layers
variable (origin : Origin)

/-- The layer of a table. -/
def layerOf (block : Block) : Layered := .of origin (.record (block.rows.map Row.field))

/-- Without a row for the log file it is left at the default, which is none. -/
theorem Logging.plain_above_default (logging : Logging) :
    ((layerOf origin logging.block).above (.of .defaults (Logging.toValue {}))).plain =
      logging.toValue := by
  obtain ⟨level, asJson, file⟩ := logging
  cases file <;>
    simp [layerOf, Logging.block, Row.field, textRow, truthRow, Logging.toValue, Layered.of,
      Layered.ofFields, Layered.above, Layered.aboveFields, Layered.plain, Layered.plainFields]

theorem Scan.plain_above_default (scan : Scan) :
    ((layerOf origin scan.block).above (.of .defaults (Scan.toValue {}))).plain =
      scan.toValue := by
  simp [layerOf, Scan.block, Row.field, textRow, pathsRow, Scan.toValue, Layered.of,
    Layered.ofFields, Layered.above, Layered.aboveFields, Layered.plain, Layered.plainFields]

theorem Emit.plain_above_default (emit : Emit) :
    ((layerOf origin emit.block).above (.of .defaults (Emit.toValue {}))).plain =
      emit.toValue := by
  simp [layerOf, Emit.block, Row.field, textRow, truthRow, Emit.toValue, Layered.of,
    Layered.ofFields, Layered.above, Layered.aboveFields, Layered.plain, Layered.plainFields]

theorem Reporting.plain_above_default (report : Reporting) :
    ((layerOf origin report.block).above (.of .defaults (Reporting.toValue {}))).plain =
      report.toValue := by
  simp [layerOf, Reporting.block, Row.field, textRow, Reporting.toValue, Layered.of,
    Layered.ofFields, Layered.above, Layered.aboveFields, Layered.plain, Layered.plainFields,
    Report.Format.toValue]

/-- The fields of two layers with the same four keys. -/
theorem above_sections (earlier later : Origin) (a b c d a' b' c' d' : Layered) :
    (Layered.record later [("logging", a), ("scan", b), ("emit", c), ("report", d)]).above
      (.record earlier [("logging", a'), ("scan", b'), ("emit", c'), ("report", d')]) =
    .record later [("logging", a.above a'), ("scan", b.above b'), ("emit", c.above c'),
      ("report", d.above d')] := by
  simp [Layered.above, Layered.aboveFields]

/-- The tables of a settings file take the place of all defaults. -/
theorem above_defaults (settings : Settings) : ∃ fields,
    (Layered.of origin (.record (settings.blocks.map Block.field))).above defaultLayer =
      .record origin fields ∧ Layered.plain (.record origin fields) = settings.toValue := by
  refine ⟨_, above_sections .defaults origin (layerOf origin settings.logging.block)
    (layerOf origin settings.scan.block) (layerOf origin settings.emit.block)
    (layerOf origin settings.report.block) _ _ _ _, ?_⟩
  simp only [Layered.plain, Layered.plainFields]
  rw [Logging.plain_above_default, Scan.plain_above_default, Emit.plain_above_default,
    Reporting.plain_above_default, toValue]

end Layers

theorem environmentLayer_of_quiet {start : String} {environment : Environment}
    (hquiet : ∀ given ∈ environment, beginsWith start (Text.trim given.1) = false) :
    environmentLayer start environment = .record (.environment start) [] := by
  have hnone : environment.filterMap (variableLayer? start) = [] := by
    rw [List.filterMap_eq_nil_iff]
    intro given hgiven
    rw [variableLayer?, hquiet given hgiven]
    rfl
  rw [environmentLayer, hnone, List.foldl_nil]

/-- A path that leads to a file from the working directory is not looked for elsewhere. -/
theorem lookout?_of_isFile {tree : Tree} {path : String} (h : tree.isFile path = true) :
    lookout? tree path = some tree := by
  have hself : tree.seenFrom (tree.workingDirectory.take tree.workingDirectory.length) = tree := by
    rw [List.take_length]
    rfl
  rw [lookout?, lookouts, List.range_succ, List.reverse_append, List.reverse_singleton,
    List.singleton_append, List.map_cons, hself]
  exact List.find?_cons_of_pos h

/-- Settings are loaded from a file with their text where no variable lies above it. -/
theorem loadFrom_of_written {tree : Tree} {settings : Settings} {path start : String}
    {environment : Environment} {place : Place} (haccepted : settings.check = .ok ())
    (hfile : tree.find path = .ok (place, .file settings.written.toUTF8.data.toList))
    (hquiet : ∀ given ∈ environment, beginsWith start (Text.trim given.1) = false) :
    loadFrom tree environment start (some path) = .ok settings := by
  let origin := Origin.file (Path.relativeTo (workingDirectory tree)
    (Path.join (workingDirectory tree) path))
  obtain ⟨fields, habove, hplain⟩ := above_defaults origin settings
  have hisFile : tree.isFile path = true := by
    rw [Tree.isFile, hfile]
  have hlayer : fileLayer tree path =
      .ok (Layered.of origin (.record (settings.blocks.map Block.field))) := by
    rw [fileLayer, lookout?_of_isFile hisFile]
    dsimp only
    rw [Tree.readText_of_find hfile]
    dsimp only
    rw [read_written]
  have hlayers : layers tree environment start (some path) =
      .ok (.record (.environment start) fields) := by
    rw [layers, environmentLayer_of_quiet hquiet]
    simp only [hlayer, bind, Except.bind, pure, Except.pure, habove]
    rfl
  have hextract : extract (.record (.environment start) fields) = .ok settings := by
    have hsame : Layered.plain (.record (.environment start) fields) = settings.toValue := hplain
    rw [extract, hsame, read_toValue]
  rw [loadFrom, hlayers]
  simp only [bind, Except.bind, hextract, checked, haccepted]
  rfl

theorem wrote_of_save {σ : Type} {disk : Disk σ} {tree : σ → Tree} (hshows : disk.Shows tree)
    {settings : Settings} {path : String} {s : σ} (hproper : (tree s).Proper)
    (hsaved : (save disk settings path s).1 = .ok ()) :
    ∃ place, (tree s).Wrote path settings.written.toUTF8.data.toList place
      (tree (save disk settings path s).2) := by
  have hwrite := hshows.write path settings.written s
  unfold save at hsaved ⊢
  rcases hwritten : disk.write path settings.written s with ⟨answer, s'⟩
  rw [hwritten] at hsaved hwrite
  cases answer with
  | ok u =>
    rcases hwrite with ⟨-, hwrite⟩ | ⟨⟨fault, hfault⟩, -⟩
    · exact Tree.wrote_of_write hproper hwrite
    · cases hfault
  | error fault => cases hsaved

/-- Accepted settings that were saved are loaded again as they were, from the same path, where the
environment has no variable with the beginning of the names of settings. -/
theorem load_saved {σ : Type} {disk : Disk σ} {tree : σ → Tree} (hshows : disk.Shows tree)
    {settings : Settings} {path start : String} {environment : Environment}
    {home : Option String} {s : σ} (hproper : (tree s).Proper) (haccepted : settings.check = .ok ())
    (hsaved : (save disk settings path s).1 = .ok ())
    (hquiet : ∀ given ∈ environment, beginsWith (start ++ "_") (Text.trim given.1) = false) :
    load (tree (save disk settings path s).2) environment start (some path) home =
      ⟨.ok settings, [loadedEvent path]⟩ := by
  obtain ⟨place, hwrote⟩ := wrote_of_save hshows hproper hsaved
  have hexists : (tree (save disk settings path s).2).exists? path = true :=
    Tree.exists?_iff.2 ⟨place, _, hwrote.find⟩
  rw [load, chosenFile, if_pos hexists]
  dsimp only
  rw [loadFrom_of_written haccepted hwrote.find hquiet]
  rfl

namespace Sample

/-- Settings without inputs, with all kinds of quotes in their texts. -/
def quoted : Settings where
  logging := { level := "Warning", asJson := true, file := some "\"a\\.log" }
  scan := { inputs := [], extension := "'''\n" }
  emit :=
    { outputDirectory := "", manifestName := "#", registrationDirectory := "\t", enabled := false }
  report := { format := .json }

/-- A file tree with nothing but its root. -/
def empty : Tree := ⟨[], []⟩

theorem save_quoted : (save Tree.disk quoted "s" empty).1 = .ok () := by
  have hpath : Tree.NamesHere "s" "s" :=
    ⟨⟨by decide, by decide, by decide⟩, ⟨by decide, by decide, by decide⟩, by decide, by decide,
      0, by decide⟩
  rw [save, hpath.disk_write_eq (Tree.node?_root empty) (.inl rfl)]

theorem load_saved_of_quoted :
    quoted.check = .ok () ∧ (save Tree.disk quoted "s" empty).1 = .ok () ∧
      beginsWith "INFLUX_" "HOME" = false ∧
      load (save Tree.disk quoted "s" empty).2 [("HOME", "/")] "INFLUX" (some "s") =
        ⟨.ok quoted, [loadedEvent "s"]⟩ := by
  have haccepted : quoted.check = .ok () := by rfl
  have hquiet : ∀ given ∈ [("HOME", "/")], beginsWith "INFLUX_" (Text.trim given.1) = false := by
    decide
  exact ⟨haccepted, save_quoted, by decide,
    load_saved Tree.shows_disk (Tree.proper_of_linkless Emission.linkless_nil) haccepted save_quoted
      hquiet⟩

end Sample

end ComponentWiring.Settings
