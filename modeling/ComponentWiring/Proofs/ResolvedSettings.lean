import ComponentWiring.CommandLine.Run
import ComponentWiring.Proofs.SavedSettings
import ComponentWiring.Proofs.SettingsLayers

/-! # Where each single setting comes from

Each single setting of a run is given by the command line, or else by the environment, or else by
the settings file, or else it has its default, whatever the other single settings are.

* `Settings.leaf_of_extract`: what is read of layers at a single setting.
* `Settings.fieldsOf`, `Settings.Leaf.inFile?`: what a settings file gives.
* `Settings.leaf_of_loadFrom`: single settings after loading.
* `Settings.Leaf.variableName`, `Settings.Leaf.variablesIn`: the variables for a single setting.
* `CommandLine.Options.given?`: what the command line gives.
* `CommandLine.settings_from_sources`: single settings of a run.
-/

namespace ComponentWiring
set_option autoImplicit false

namespace Settings
open Data File

/-! ## Reading layers -/

theorem Leaf.of_ne_record (leaf : Leaf) (settings : Settings) (fields : List (String × Value)) :
    leaf.of settings ≠ .record fields := by
  cases leaf with
  | file =>
    rw [Leaf.of]
    cases settings.logging.file <;> exact Value.noConfusion
  | _ => exact Value.noConfusion

theorem Leaf.filled_of (leaf : Leaf) (settings : Settings) : (leaf.of settings).Filled :=
  fun fields h => absurd h (leaf.of_ne_record settings fields)

/-- What is read of layers at a single setting is a value without parts that is there. -/
theorem leaf_of_extract {layers : Layered} {settings : Settings} (hlayers : layers.Sectioned)
    (h : extract layers = .ok settings) {leaf : Leaf} {inner : Layered}
    (hinner : Layered.at? leaf layers = some inner) :
    ∃ origin, inner = .leaf origin (leaf.of settings) := by
  obtain ⟨fields, hplain, hnodup, hlookup⟩ := hlayers.tidy.exists_plain
  have hread : read .settings (.record fields) = .ok settings := by
    rw [extract, hplain] at h
    split at h
    · next found hfound =>
      cases h
      exact hfound
    · cases h
  have hsection : ∀ innerFields, lookupField? leaf.sectionKey fields = some (.record innerFields) →
      (innerFields.map (·.1)).Nodup := by
    intro innerFields hfound
    rw [hlookup, Option.map_eq_some_iff] at hfound
    obtain ⟨section', hsection, hfields⟩ := hfound
    obtain ⟨fields', hplain', hnodup', -⟩ := (hlayers.sections leaf section' hsection).exists_plain
    rw [hplain'] at hfields
    cases hfields
    exact hnodup'
  have hat : leaf.at? (.record fields) = some inner.plain := by
    rw [← hplain, hlayers.at?_plain, hinner, Option.map_some]
  have hvalue := Leaf.of_read hread hnodup hsection hat (hlayers.filled leaf inner hinner)
  cases inner with
  | leaf origin v =>
    rw [Layered.plain] at hvalue
    exact ⟨origin, by rw [hvalue]⟩
  | record origin fields =>
    rw [Layered.plain] at hvalue
    exact absurd hvalue.symm (leaf.of_ne_record settings _)

/-! ## Defaults and settings files -/

theorem Leaf.at?_toValue (leaf : Leaf) (settings : Settings) :
    leaf.at? settings.toValue = some (leaf.of settings) := by
  obtain ⟨⟨level, asJson, file⟩, scan, emit, report⟩ := settings
  cases leaf with
  | file => cases file <;> rfl
  | _ => rfl

theorem exists_record_of_toValue (settings : Settings) : ∃ fields,
    settings.toValue = .record fields ∧ (fields.map (·.1)).Nodup ∧
      ∀ leaf : Leaf, ∀ v, lookupField? leaf.sectionKey fields = some v →
        ∃ inner, v = .record inner ∧ (inner.map (·.1)).Nodup := by
  refine ⟨_, rfl, by simp, fun leaf v hv => ?_⟩
  cases leaf <;> cases hv <;> exact ⟨_, rfl, by simp⟩

theorem at?_defaultLayer (leaf : Leaf) :
    Layered.at? leaf defaultLayer = some (.of .defaults (leaf.of {})) := by
  obtain ⟨fields, hfields, -, hrecords⟩ := exists_record_of_toValue {}
  have hat := leaf.at?_toValue {}
  rw [hfields] at hat
  rw [defaultLayer, hfields, Layered.at?_of, hat, Option.map_some]
  exact fun leaf v hv => (hrecords leaf v hv).imp fun _ => And.left

theorem sectioned_defaultLayer : defaultLayer.Sectioned := by
  obtain ⟨fields, hfields, hnodup, hrecords⟩ := exists_record_of_toValue {}
  rw [defaultLayer, hfields]
  refine Layered.sectioned_of (fun leaf v hv => (hrecords leaf v hv).imp fun _ => And.left) hnodup
    (fun leaf inner hinner => ?_) fun leaf v hv => ?_
  · obtain ⟨_, ⟨rfl⟩, hkeys⟩ := hrecords leaf _ hinner
    exact hkeys
  · rw [← hfields, leaf.at?_toValue] at hv
    cases hv
    exact leaf.filled_of {}

/-- The fields of the settings file to which a path leads. What leads to no file has none, nor has a
file that cannot be read. -/
def fieldsOf (tree : Tree) (path : String) : List (String × Value) :=
  match lookout? tree path with
  | none => []
  | some seen =>
    match seen.readText path with
    | .error _ => []
    | .ok text => (Toml.read .v10 text).toOption.getD []

/-- The fields of the settings file that is used, if any. -/
def usedFields (tree : Tree) (environment : Environment) (home given : Option String) :
    List (String × Value) :=
  match chosenFile tree environment home given with
  | .ok (some path) => fieldsOf tree path
  | _ => []

theorem fileLayer_eq {tree : Tree} {path : String} {layer : Layered}
    (h : fileLayer tree path = .ok layer) :
    (Value.record (fieldsOf tree path)).Whole ∧
      ∃ origin, layer = .of origin (.record (fieldsOf tree path)) := by
  have hnone : (Value.record []).Whole :=
    .record List.nodup_nil fun _ h => absurd h List.not_mem_nil
  rw [fileLayer] at h
  rw [fieldsOf]
  cases hseen : lookout? tree path with
  | none =>
    rw [hseen] at h
    cases h
    exact ⟨hnone, _, by rw [Layered.of, Layered.ofFields]⟩
  | some seen =>
    rw [hseen] at h
    dsimp only at h ⊢
    cases htext : seen.readText path with
    | error fault =>
      rw [htext] at h
      cases h
    | ok text =>
      rw [htext] at h
      dsimp only at h ⊢
      cases hfields : Toml.read .v10 text with
      | error line =>
        rw [hfields] at h
        cases h
      | ok fields =>
        rw [hfields] at h
        cases h
        exact ⟨Toml.whole_read hfields, _, rfl⟩

/-- What is no file from a directory is looked for from the one that holds it. -/
theorem lookout?_of_held {tree : Tree} {place : Place} {name path : String}
    (h : (tree.seenFrom (place ++ [name])).isFile path = false) :
    lookout? (tree.seenFrom (place ++ [name])) path = lookout? (tree.seenFrom place) path := by
  have hself : (tree.seenFrom (place ++ [name])).seenFrom ((place ++ [name]).take
      (place ++ [name]).length) = tree.seenFrom (place ++ [name]) := by
    rw [List.take_length]
    rfl
  have hheld : ∀ n ∈ (List.range (place.length + 1)).reverse,
      (tree.seenFrom (place ++ [name])).seenFrom ((place ++ [name]).take n) =
        (tree.seenFrom place).seenFrom (place.take n) := by
    intro n hn
    have hle : n ≤ place.length := by
      simpa [Nat.lt_succ_iff] using hn
    rw [List.take_append_of_le_length hle]
    rfl
  have hlength : (place ++ [name]).length = place.length + 1 := by simp
  rw [lookout?, lookout?, lookouts, lookouts]
  change ((List.range ((place ++ [name]).length + 1)).reverse.map fun n =>
    (tree.seenFrom (place ++ [name])).seenFrom ((place ++ [name]).take n)).find? _ =
      ((List.range (place.length + 1)).reverse.map fun n =>
        (tree.seenFrom place).seenFrom (place.take n)).find? _
  rw [List.range_succ, List.reverse_append, List.reverse_singleton, List.singleton_append,
    List.map_cons, hself, List.find?_cons_of_neg (by simpa using h), hlength,
    List.map_congr_left hheld]

/-- The value that the fields of a settings file give to a single setting. -/
def Leaf.inFile? (fields : List (String × Value)) (leaf : Leaf) : Option Value :=
  leaf.at? (.record fields)

/-- Fields whose known sections are tables. -/
def TablesIn (fields : List (String × Value)) : Prop :=
  ∀ (leaf : Leaf) (v : Value), lookupField? leaf.sectionKey fields = some v →
    ∃ inner, v = .record inner

/-- Variables each of which stands for a single setting, or for a place apart from them. -/
def VariablesApart (start : String) (environment : Environment) : Prop :=
  ∀ given ∈ environment, ∀ way, wayOfVariable? start given.1 = some way → Leaf.Apart way

section Loading
variable {tree : Tree} {environment : Environment} {start : String} {file : Option String}

/-- The layers under the environment have the value of the file above the default in the place of
each single setting. -/
theorem below_of_layers {merged : Layered}
    (h : layers tree environment start file = .ok merged)
    (htables : TablesIn (file.elim [] (fieldsOf tree))) :
    ∃ below origin, merged = (environmentLayer start environment).above below ∧
      below.Sectioned ∧ ∀ leaf : Leaf, Layered.at? leaf below =
        Option.merge Layered.above
          ((leaf.inFile? (file.elim [] (fieldsOf tree))).map (Layered.of origin))
          (some (.of .defaults (leaf.of {}))) := by
  unfold layers at h
  cases file with
  | none =>
    cases h
    exact ⟨defaultLayer, .defaults, rfl, sectioned_defaultLayer, at?_defaultLayer⟩
  | some path =>
    obtain ⟨layer, hlayer, h⟩ := bind_eq_ok_iff.1 h
    cases h
    obtain ⟨hwhole, origin, rfl⟩ := fileLayer_eq hlayer
    have htables : TablesIn (fieldsOf tree path) := htables
    have hfile : (Layered.of origin (.record (fieldsOf tree path))).Sectioned :=
      Layered.sectioned_of_whole htables hwhole
    refine ⟨_, origin, rfl, hfile.above sectioned_defaultLayer, fun leaf => ?_⟩
    rw [hfile.at?_above sectioned_defaultLayer, at?_defaultLayer, Layered.at?_of htables]
    rfl

theorem extract_of_loadFrom {settings : Settings}
    (h : loadFrom tree environment start file = .ok settings) :
    ∃ merged, layers tree environment start file = .ok merged ∧
      extract merged = .ok settings := by
  obtain ⟨merged, hmerged, h⟩ := bind_eq_ok_iff.1 h
  obtain ⟨found, hfound, h⟩ := bind_eq_ok_iff.1 h
  obtain ⟨-, -, h⟩ := bind_eq_ok_iff.1 h
  cases h
  exact ⟨merged, hmerged, hfound⟩

/-! ## Single settings after loading -/

/-- A single setting that was loaded is given by the environment, or else by the file, or else it
has its default. -/
theorem leaf_of_loadFrom {settings : Settings}
    (h : loadFrom tree environment start file = .ok settings)
    (htables : TablesIn (file.elim [] (fieldsOf tree)))
    (hapart : VariablesApart start environment) (leaf : Leaf) :
    leaf.of settings = ((leaf.inEnvironment? start environment).or
      (leaf.inFile? (file.elim [] (fieldsOf tree)))).getD (leaf.of {}) := by
  obtain ⟨merged, hmerged, hextract⟩ := extract_of_loadFrom h
  obtain ⟨below, origin, rfl, hbelow, hat⟩ := below_of_layers hmerged htables
  have henvironment := sectioned_environmentLayer hapart
  -- There is a default, so there is something in the place of the single setting.
  obtain ⟨inner, hinner⟩ : ∃ inner,
      Layered.at? leaf ((environmentLayer start environment).above below) = some inner := by
    rw [henvironment.at?_above hbelow, hat]
    cases Layered.at? leaf (environmentLayer start environment) <;>
      cases leaf.inFile? (file.elim [] (fieldsOf tree)) <;> exact ⟨_, rfl⟩
  obtain ⟨origin', rfl⟩ := leaf_of_extract (henvironment.above hbelow) hextract hinner
  have htop := topmost_of_environmentLayer hapart hbelow hinner
  cases hgiven : leaf.inEnvironment? start environment with
  | some v =>
    rw [hgiven] at htop
    exact (Layered.eq_of_of_eq_leaf (Option.some.inj htop)).symm
  | none =>
    rw [hgiven, Option.map_none, Option.none_or, hat] at htop
    have hunder := Layered.topmost_of_merge htop
    cases hfile : leaf.inFile? (file.elim [] (fieldsOf tree)) with
    | some v =>
      rw [hfile] at hunder
      exact (Layered.eq_of_of_eq_leaf (Option.some.inj hunder)).symm
    | none =>
      rw [hfile] at hunder
      exact (Layered.eq_of_of_eq_leaf (Option.some.inj hunder)).symm

end Loading

/-! ## Names of variables -/

/-- The way to a single setting leads neither through nor past that of another one. -/
theorem Leaf.apart_way (leaf : Leaf) : Leaf.Apart leaf.way := by
  rintro other (h | h)
  · exact h.eq_of_length rfl
  · exact (h.eq_of_length rfl).symm

/-- The name of the variable for a single setting: the keys of its section and of itself, with two
underscores between them. -/
def Leaf.variableName (leaf : Leaf) : String :=
  upper (variableStart ++ "_" ++ leaf.sectionKey ++ "__" ++ leaf.key)

theorem Leaf.wayOfVariable?_variableName (leaf : Leaf) :
    wayOfVariable? (variableStart ++ "_") leaf.variableName = some leaf.way := by
  cases leaf <;> decide +kernel

example : Leaf.outputDirectory.variableName = "INFLUX_EMIT__OUTPUT_DIR" := by decide +kernel

/-- Variables with the names for single settings are apart, with any variables whose names do not
have the beginning of these. -/
theorem variablesApart_of_named {environment : Environment}
    (h : ∀ given ∈ environment, (∃ leaf : Leaf, given.1 = leaf.variableName) ∨
      beginsWith (variableStart ++ "_") (Text.trim given.1) = false) :
    VariablesApart (variableStart ++ "_") environment := by
  intro given hgiven way hway
  rcases h given hgiven with ⟨leaf, hname⟩ | hquiet
  · rw [hname, leaf.wayOfVariable?_variableName] at hway
    cases hway
    exact leaf.apart_way
  · rw [wayOfVariable?, hquiet] at hway
    cases hway

/-- The variables that stand for a single setting. -/
def Leaf.variablesIn (start : String) (environment : Environment) (leaf : Leaf) : Environment :=
  environment.filter fun given => wayOfVariable? start given.1 = some leaf.way

theorem Leaf.inEnvironment?_eq (start : String) (environment : Environment) (leaf : Leaf) :
    leaf.inEnvironment? start environment =
      (leaf.variablesIn start environment).getLast?.map fun given => valueOf given.2 := by
  rw [inEnvironment?, variablesIn, ← List.head?_filter, List.filter_reverse, List.head?_reverse]

end Settings

/-! ## The command line -/

namespace CommandLine
open Data Settings File

/-- The value that options give to a single setting. -/
def Options.given? (o : Options) : Leaf → Option Value
  | .level => o.level.map .text
  | .inputs => if o.inputs = [] then none else some (.list (o.inputs.map .text))
  | .outputDirectory => o.outputDirectory.map .text
  | .enabled => if o.dryRun then some (.bool false) else none
  | .format => o.format.map Report.Format.toValue
  | _ => none

/-- Options change the single settings that they give, and no others. -/
theorem leaf_of_applyTo (o : Options) (settings : Settings) (leaf : Leaf) :
    leaf.of (o.applyTo settings) = (o.given? leaf).getD (leaf.of settings) := by
  obtain ⟨file, format, outputDirectory, dryRun, level, inputs⟩ := o
  cases leaf <;> cases format <;> cases outputDirectory <;> cases dryRun <;> cases level <;>
    cases inputs <;> rfl

theorem during_eq_ok_iff {α : Type} {doing : String} {result : Except Error α} {x : α} :
    during doing result = .ok x ↔ result = .ok x := by
  cases result <;> simp [during]

section Resolving
variable {o : Options} {environment : Environment} {tree : Tree} {home : Option String}
  {settings : Settings}

theorem loadFrom_of_load {start : String} {given : Option String}
    (h : (load tree environment start given home).value = .ok settings) :
    ∃ file : Option String,
      usedFields tree environment home given = file.elim [] (fieldsOf tree) ∧
        loadFrom tree environment (start ++ "_") file = .ok settings := by
  rw [load] at h
  rw [usedFields]
  split at h
  · cases h
  · next file hfile =>
    refine ⟨file, ?_, h⟩
    rw [hfile]
    cases file <;> rfl

theorem load_of_settingsFor (h : settingsFor o environment tree home = .ok settings) :
    settings.check = .ok () ∧ ∃ loaded, o.applyTo loaded = settings ∧
      (load tree environment variableStart o.settingsFile home).value = .ok loaded := by
  obtain ⟨loaded, hloaded, h⟩ := bind_eq_ok_iff.1 h
  obtain ⟨u, hcheck, h⟩ := bind_eq_ok_iff.1 (during_eq_ok_iff.1 h)
  cases h
  exact ⟨hcheck, loaded, rfl, during_eq_ok_iff.1 hloaded⟩

end Resolving

/-- The settings that a run comes to, where the known sections of its settings file are tables, and
each variable stands for a single setting or for none. -/
structure Resolves (o : Options) (environment : Environment) (tree : Tree) (home : Option String)
    (settings : Settings) : Prop where
  resolved : settingsFor o environment tree home = .ok settings
  tables : TablesIn (usedFields tree environment home o.settingsFile)
  apart : VariablesApart (variableStart ++ "_") environment

/-- The value that the sources give to a single setting: the command line, or else the environment,
or else the settings file. -/
def fromSources? (o : Options) (environment : Environment) (tree : Tree) (home : Option String)
    (leaf : Leaf) : Option Value :=
  (o.given? leaf).or ((leaf.inEnvironment? (variableStart ++ "_") environment).or
    (leaf.inFile? (usedFields tree environment home o.settingsFile)))

/-- A single setting of a run is the one of the first source that gives it, or else its default. -/
theorem Resolves.leaf_eq {o : Options} {environment : Environment} {tree : Tree}
    {home : Option String} {settings : Settings} (h : Resolves o environment tree home settings)
    (leaf : Leaf) :
    leaf.of settings = (fromSources? o environment tree home leaf).getD (leaf.of {}) := by
  obtain ⟨-, loaded, rfl, hloaded⟩ := load_of_settingsFor h.resolved
  obtain ⟨file, hfile, hfrom⟩ := loadFrom_of_load hloaded
  have htables := h.tables
  rw [hfile] at htables
  rw [leaf_of_applyTo, leaf_of_loadFrom hfrom htables h.apart, fromSources?, hfile]
  cases o.given? leaf <;> rfl

/-- The settings of a run have no fault, and each single setting is the one of the first source that
gives it, or else its default. So a single setting is the same in two runs where each source gives
it the same, whatever the sources give besides. -/
theorem settings_from_sources {o : Options} {environment : Environment} {tree : Tree}
    {home : Option String} {settings : Settings} (h : Resolves o environment tree home settings) :
    settings.check = .ok () ∧
      (∀ leaf : Leaf,
        leaf.of settings = (fromSources? o environment tree home leaf).getD (leaf.of {})) ∧
      ∀ (o' : Options) (environment' : Environment) (tree' : Tree) (home' : Option String)
          (settings' : Settings),
        Resolves o' environment' tree' home' settings' → ∀ leaf : Leaf,
          o'.given? leaf = o.given? leaf →
          leaf.variablesIn (variableStart ++ "_") environment' =
            leaf.variablesIn (variableStart ++ "_") environment →
          leaf.inFile? (usedFields tree' environment' home' o'.settingsFile) =
            leaf.inFile? (usedFields tree environment home o.settingsFile) →
          leaf.of settings' = leaf.of settings := by
  refine ⟨(load_of_settingsFor h.resolved).1, h.leaf_eq, ?_⟩
  intro o' environment' tree' home' settings' h' leaf hgiven hvariables hfile
  rw [h'.leaf_eq, h.leaf_eq, fromSources?, fromSources?, hgiven, leaf.inEnvironment?_eq, hvariables,
    ← leaf.inEnvironment?_eq, hfile]

namespace Sample

/-- Tables of a settings file that leaves out sections, and settings of sections. -/
def blocks : List Toml.Block :=
  [⟨"logging", [Toml.textRow "level" "debug", truthRow "json_format" true]⟩,
   ⟨"emit", [Toml.textRow "output_dir" "f"]⟩]

def text : String := Text.join "\n" (blocks.map Toml.Block.text)

def tree : Tree := ⟨[(["s.toml"], .file text.toUTF8.data.toList)], []⟩

def environment : Environment :=
  [("HOME", "/"), (Leaf.level.variableName, "warn"), (Leaf.outputDirectory.variableName, "e"),
   (Leaf.inputs.variableName, "[a, b]")]

def options : Options := { settingsFile := some "s.toml", level := some "trace", dryRun := true }

/-- What is loaded, in front of the options. -/
def loaded : Settings where
  logging := { level := "warn", asJson := true }
  scan := { inputs := ["a", "b"] }
  emit := { outputDirectory := "e" }

/-- The level and the emission are from the command line, the inputs and the output directory from
the environment, and the form of the log from the file. -/
def settings : Settings where
  logging := { level := "trace", asJson := true }
  scan := { inputs := ["a", "b"] }
  emit := { outputDirectory := "e", enabled := false }

theorem find_settings : tree.find "s.toml" = .ok (["s.toml"], .file text.toUTF8.data.toList) := by
  have hsegments : Tree.closedSegments "s.toml" = ["s.toml"] := by decide
  have hname : Tree.Names "s.toml" := ⟨by decide, by decide, by decide⟩
  rw [Tree.find_eq_ok_iff, hsegments]
  exact ⟨⟨by decide, by decide, by decide⟩,
    .name rfl hname rfl (fun _ => Node.noConfusion) (.there _ rfl)⟩

theorem read_text : Toml.read .v10 text = .ok (blocks.map Toml.Block.field) := by
  have hgood : ∀ block ∈ blocks, block.Good .v10 := by
    intro block hblock
    fin_cases hblock
    · exact ⟨by decide, by simp (disch := decide) [Toml.good_textRow, good_truthRow], by decide⟩
    · exact ⟨by decide, by simp (disch := decide) [Toml.good_textRow], by decide⟩
  exact Toml.read_blocks hgood (by decide)

theorem isFile_settings : tree.isFile "s.toml" = true := by
  rw [Tree.isFile, find_settings]

theorem fieldsOf_settings : fieldsOf tree "s.toml" = blocks.map Toml.Block.field := by
  rw [fieldsOf, lookout?_of_isFile isFile_settings]
  dsimp only
  rw [Tree.readText_of_find find_settings]
  dsimp only
  rw [read_text]
  rfl

theorem fileLayer_settings : fileLayer tree "s.toml" =
    .ok (.of (.file (Path.relativeTo (workingDirectory tree)
      (Path.join (workingDirectory tree) "s.toml"))) (.record (blocks.map Toml.Block.field))) := by
  rw [fileLayer, lookout?_of_isFile isFile_settings]
  dsimp only
  rw [Tree.readText_of_find find_settings]
  dsimp only
  rw [read_text]

theorem loadFrom_settings :
    loadFrom tree environment "INFLUX_" (some "s.toml") = .ok loaded := by
  have hextract : extract ((environmentLayer "INFLUX_" environment).above
      ((Layered.of (.file (Path.relativeTo (workingDirectory tree)
          (Path.join (workingDirectory tree) "s.toml")))
        (.record (blocks.map Toml.Block.field))).above defaultLayer)) = .ok loaded :=
    eq_ok_of_toOption (by decide +kernel)
  simp only [loadFrom, layers, fileLayer_settings, bind, Except.bind, pure, Except.pure, hextract]
  rfl

theorem chosenFile_settings :
    chosenFile tree environment none options.settingsFile = .ok (some "s.toml") :=
  if_pos (Tree.exists?_iff.2 ⟨_, _, find_settings⟩)

theorem settingsFor_options : settingsFor options environment tree = .ok settings := by
  have hload : (load tree environment variableStart options.settingsFile).value = .ok loaded := by
    rw [load, chosenFile_settings]
    exact loadFrom_settings
  rw [settingsFor, hload]
  rfl

theorem usedFields_settings :
    usedFields tree environment none options.settingsFile = blocks.map Toml.Block.field := by
  rw [usedFields, chosenFile_settings, ← fieldsOf_settings]

theorem resolves_options : Resolves options environment tree none settings where
  resolved := settingsFor_options
  tables := by
    intro leaf v hv
    rw [usedFields_settings] at hv
    cases leaf <;> cases hv <;> exact ⟨_, rfl⟩
  apart := variablesApart_of_named (List.forall_mem_cons.2 ⟨.inr (by decide),
    List.forall_mem_cons.2 ⟨.inl ⟨.level, rfl⟩,
    List.forall_mem_cons.2 ⟨.inl ⟨.outputDirectory, rfl⟩,
    List.forall_mem_singleton.2 (.inl ⟨.inputs, rfl⟩)⟩⟩⟩)

theorem settings_from_sources_of_mixed :
    Resolves options environment tree none settings ∧ settings.check = .ok () ∧
      ∀ leaf : Leaf, leaf.of settings =
        (fromSources? options environment tree none leaf).getD (leaf.of {}) := by
  obtain ⟨hcheck, hleaf, -⟩ := settings_from_sources resolves_options
  exact ⟨resolves_options, hcheck, hleaf⟩

end Sample

end CommandLine

end ComponentWiring
