import ComponentWiring.Proofs.ReadFields
import ComponentWiring.Proofs.WholeValues
import ComponentWiring.Settings.Basic
import Mathlib.Tactic.FinCases

/-! # Single settings

There are ten single settings, each under a key of a section. Where data is read as settings, each
single setting is what the data has in its place.

* `Settings.Leaf`: the single settings, with the way to each, and its value.
* `Settings.Leaf.of_read`: the value of a single setting after reading.
-/

namespace ComponentWiring
set_option autoImplicit false

namespace Data

/-- What stands under a key, if the value is a record. -/
def Value.field? (key : String) : Value → Option Value
  | .record fields => lookupField? key fields
  | _ => none

end Data

namespace Settings
open Data

/-! ## The fields of sections

Each field puts what it reads in its own place. -/

theorem Logging.sees_level : Logging.shape.Sees "level" Reader.string Logging.level :=
  .of_put rfl (fun _ _ => rfl) (by simp [Logging.shape, Field.keeps_of_put, -bind_pure_comp]) rfl

theorem Logging.sees_asJson : Logging.shape.Sees "json_format" Reader.boolean Logging.asJson :=
  .of_put rfl (fun _ _ => rfl) (by simp [Logging.shape, Field.keeps_of_put, -bind_pure_comp]) rfl

theorem Logging.sees_file :
    Logging.shape.Sees "file_output" (Reader.optional Reader.path) Logging.file :=
  .of_put rfl (fun _ _ => rfl) (by simp [Logging.shape, Field.keeps_of_put, -bind_pure_comp]) rfl

theorem Scan.sees_inputs : Scan.shape.Sees "input_dirs" (Reader.list Reader.path) Scan.inputs :=
  .of_put rfl (fun _ _ => rfl) (by simp [Scan.shape, Field.keeps_of_put, -bind_pure_comp]) rfl

theorem Scan.sees_extension : Scan.shape.Sees "extension" Reader.string Scan.extension :=
  .of_put rfl (fun _ _ => rfl) (by simp [Scan.shape, Field.keeps_of_put, -bind_pure_comp]) rfl

theorem Emit.sees_outputDirectory : Emit.shape.Sees "output_dir" Reader.path Emit.outputDirectory :=
  .of_put rfl (fun _ _ => rfl) (by simp [Emit.shape, Field.keeps_of_put, -bind_pure_comp]) rfl

theorem Emit.sees_manifestName : Emit.shape.Sees "manifest_name" Reader.string Emit.manifestName :=
  .of_put rfl (fun _ _ => rfl) (by simp [Emit.shape, Field.keeps_of_put, -bind_pure_comp]) rfl

theorem Emit.sees_registrationDirectory :
    Emit.shape.Sees "registration_dir" Reader.string Emit.registrationDirectory :=
  .of_put rfl (fun _ _ => rfl) (by simp [Emit.shape, Field.keeps_of_put, -bind_pure_comp]) rfl

theorem Emit.sees_enabled : Emit.shape.Sees "enabled" Reader.boolean Emit.enabled :=
  .of_put rfl (fun _ _ => rfl) (by simp [Emit.shape, Field.keeps_of_put, -bind_pure_comp]) rfl

theorem Reporting.sees_format (form : Form) :
    (Reporting.shape form).Sees "format" (Report.Format.read form) Reporting.format :=
  .of_put rfl (fun _ _ => rfl) (by simp [Reporting.shape]) rfl

theorem sees_logging (form : Form) : (shape form).Sees "logging" (Logging.read form) logging :=
  .of_put rfl (fun _ _ => rfl) (by simp [shape, Field.keeps_of_put, -bind_pure_comp]) rfl

theorem sees_scan (form : Form) : (shape form).Sees "scan" (Scan.read form) scan :=
  .of_put rfl (fun _ _ => rfl) (by simp [shape, Field.keeps_of_put, -bind_pure_comp]) rfl

theorem sees_emit (form : Form) : (shape form).Sees "emit" (Emit.read form) emit :=
  .of_put rfl (fun _ _ => rfl) (by simp [shape, Field.keeps_of_put, -bind_pure_comp]) rfl

theorem sees_report (form : Form) : (shape form).Sees "report" (Reporting.read form) report :=
  .of_put rfl (fun _ _ => rfl) (by simp [shape, Field.keeps_of_put, -bind_pure_comp]) rfl

/-! ## The ten single settings -/

/-- The single settings. -/
inductive Leaf where
  | level
  | asJson
  | file
  | inputs
  | extension
  | outputDirectory
  | manifestName
  | registrationDirectory
  | enabled
  | format
  deriving DecidableEq

namespace Leaf

/-- The key of the section that holds a single setting. -/
def sectionKey : Leaf → String
  | level => "logging"
  | asJson => "logging"
  | file => "logging"
  | inputs => "scan"
  | extension => "scan"
  | outputDirectory => "emit"
  | manifestName => "emit"
  | registrationDirectory => "emit"
  | enabled => "emit"
  | format => "report"

/-- The key of a single setting in its section. -/
def key : Leaf → String
  | level => "level"
  | asJson => "json_format"
  | file => "file_output"
  | inputs => "input_dirs"
  | extension => "extension"
  | outputDirectory => "output_dir"
  | manifestName => "manifest_name"
  | registrationDirectory => "registration_dir"
  | enabled => "enabled"
  | format => "format"

/-- The value of a single setting. -/
def of : Leaf → Settings → Value
  | level, s => .text s.logging.level
  | asJson, s => .bool s.logging.asJson
  | file, s => s.logging.file.elim .null .text
  | inputs, s => .list (s.scan.inputs.map .text)
  | extension, s => .text s.scan.extension
  | outputDirectory, s => .text s.emit.outputDirectory
  | manifestName, s => .text s.emit.manifestName
  | registrationDirectory, s => .text s.emit.registrationDirectory
  | enabled, s => .bool s.emit.enabled
  | format, s => s.report.format.toValue

/-- What data has in the place of a single setting. -/
def at? (leaf : Leaf) (v : Value) : Option Value :=
  (v.field? leaf.sectionKey).bind (Value.field? leaf.key)

end Leaf

section Readers
variable {v : Value}

theorem eq_of_string {s : String} (h : Reader.string v = .ok s) : v = .text s := by
  cases v <;> cases h
  rfl

theorem eq_of_path {s : String} (h : Reader.path v = .ok s) : v = .text s := by
  cases v <;> cases h
  rfl

theorem eq_of_boolean {b : Bool} (h : Reader.boolean v = .ok b) : v = .bool b := by
  cases v <;> cases h
  rfl

theorem eq_of_optional {path : Option String}
    (h : Reader.optional Reader.path v = .ok path) : v = path.elim .null .text := by
  cases v <;> cases h <;> rfl

theorem eq_of_itemsFrom {index : Nat} {items : List Value} {paths : List String}
    (h : Reader.itemsFrom Reader.path index items = .ok paths) : items = paths.map .text := by
  induction items generalizing index paths with
  | nil =>
    cases h
    rfl
  | cons item items ih =>
    rw [Reader.itemsFrom] at h
    obtain ⟨path, hitem, h⟩ := bind_eq_ok_iff.1 h
    obtain ⟨more, hitems, h⟩ := bind_eq_ok_iff.1 h
    cases h
    rw [List.map_cons, eq_of_path (mapError_eq_ok_iff.1 hitem), ih hitems]

theorem eq_of_list {paths : List String} (h : Reader.list Reader.path v = .ok paths) :
    v = .list (paths.map .text) := by
  cases v with
  | list items => rw [eq_of_itemsFrom h]
  | _ => cases h

/-- Only a record with an empty field is read as a format besides the name of one. -/
theorem eq_of_format {format : Report.Format} (hfilled : v.Filled)
    (h : Report.Format.read .settings v = .ok format) : v = format.toValue := by
  cases v with
  | text name =>
    have hnamed : named [("human", Report.Format.human), ("json", .json)] name = .ok format := h
    rw [named] at hnamed
    split at hnamed
    · next key found hfind =>
      cases hnamed
      have hname : key = name := by simpa using List.find?_some hfind
      have hmem := List.mem_of_find?_eq_some hfind
      fin_cases hmem <;> rw [← hname] <;> rfl
    · cases hnamed
  | moment s => cases h
  | record fields =>
    cases hsorted : sortFields fields with
    | nil =>
      simp only [Report.Format.read, choice, Value.fields?, Option.map_some, hsorted] at h
      cases h
    | cons f rest =>
      obtain ⟨key, content⟩ := f
      have hcontent : content ≠ .null := by
        refine hfilled fields rfl (key, content) (mem_of_mem_sortFields ?_)
        rw [hsorted]
        exact List.mem_cons_self
      simp only [Report.Format.read, choice, Value.fields?, Option.map_some, hsorted] at h
      generalize named _ key = found at h
      cases found <;> cases h
  | _ => cases h

end Readers

/-- Where data is read as settings, each single setting is what the data has in its place, if this
has no empty fields. -/
theorem Leaf.of_read {fields : List (String × Value)} {settings : Settings} {leaf : Leaf}
    {v : Value} (h : read .settings (.record fields) = .ok settings)
    (hnodup : (fields.map (·.1)).Nodup)
    (hinner : ∀ inner, lookupField? leaf.sectionKey fields = some (.record inner) →
      (inner.map (·.1)).Nodup)
    (hv : leaf.at? (.record fields) = some v) (hfilled : v.Filled) : v = leaf.of settings := by
  rw [Leaf.at?, Option.bind_eq_some_iff] at hv
  obtain ⟨w, hw, hv⟩ := hv
  obtain ⟨inner, rfl, hv⟩ : ∃ inner, w = .record inner ∧ lookupField? leaf.key inner = some v := by
    cases w with
    | record inner => exact ⟨inner, rfl, hv⟩
    | _ => cases hv
  have hkeys := hinner inner hw
  have hlogging : leaf.sectionKey = "logging" →
      Logging.read .settings (.record inner) = .ok settings.logging := fun hkey =>
    (sees_logging .settings).reader_eq h hnodup (hkey ▸ hw)
  have hscan : leaf.sectionKey = "scan" →
      Scan.read .settings (.record inner) = .ok settings.scan := fun hkey =>
    (sees_scan .settings).reader_eq h hnodup (hkey ▸ hw)
  have hemit : leaf.sectionKey = "emit" →
      Emit.read .settings (.record inner) = .ok settings.emit := fun hkey =>
    (sees_emit .settings).reader_eq h hnodup (hkey ▸ hw)
  have hreport : leaf.sectionKey = "report" →
      Reporting.read .settings (.record inner) = .ok settings.report := fun hkey =>
    (sees_report .settings).reader_eq h hnodup (hkey ▸ hw)
  cases leaf with
  | level => exact eq_of_string (Logging.sees_level.reader_eq (hlogging rfl) hkeys hv)
  | asJson => exact eq_of_boolean (Logging.sees_asJson.reader_eq (hlogging rfl) hkeys hv)
  | file => exact eq_of_optional (Logging.sees_file.reader_eq (hlogging rfl) hkeys hv)
  | inputs => exact eq_of_list (Scan.sees_inputs.reader_eq (hscan rfl) hkeys hv)
  | extension => exact eq_of_string (Scan.sees_extension.reader_eq (hscan rfl) hkeys hv)
  | outputDirectory => exact eq_of_path (Emit.sees_outputDirectory.reader_eq (hemit rfl) hkeys hv)
  | manifestName => exact eq_of_string (Emit.sees_manifestName.reader_eq (hemit rfl) hkeys hv)
  | registrationDirectory =>
    exact eq_of_string (Emit.sees_registrationDirectory.reader_eq (hemit rfl) hkeys hv)
  | enabled => exact eq_of_boolean (Emit.sees_enabled.reader_eq (hemit rfl) hkeys hv)
  | format =>
    exact eq_of_format hfilled
      ((Reporting.sees_format .settings).reader_eq (hreport rfl) hkeys hv)

end Settings

end ComponentWiring
