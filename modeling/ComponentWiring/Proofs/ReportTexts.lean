import ComponentWiring.Proofs.JsonTexts
import ComponentWiring.Proofs.KeyedFields
import ComponentWiring.Report.Text

/-! # Reports read back

A report is written as a JSON text, and this text is read as the same report: whatever is in its
texts, with places and suggestions or without, and with passes and violations in their order.

* `Report.Counted`: reports with numbers of 64 bits.
* `Report.read_toValue`: reading data undoes writing it, for reports and all their parts.
* `Report.plain_toValue`: the data of a report can be read back from its text.
* `Report.json_read_back`: the text of a report is read as the report.
-/

namespace ComponentWiring
open Data
set_option autoImplicit false

/-! ## Reports as data -/

theorem Category.read_toValue (category : Category) : read category.toValue = .ok category := by
  cases category <;> rfl

theorem Severity.read_toValue (severity : Severity) : read severity.toValue = .ok severity := by
  cases severity <;> rfl

namespace Report

theorem list_texts (texts : List String) :
    Reader.list Reader.string (.list (texts.map .text)) = .ok texts := by
  have htext : ∀ text, Reader.string (.text text) = .ok text := fun _ => rfl
  exact Reader.list_map htext texts

theorem optional_textOrNull (text : Option String) :
    Reader.optional Reader.string (Entry.textOrNull text) = .ok text := by
  cases text <;> rfl

theorem Entry.read_toValue (e : Entry) : Entry.read e.toValue = .ok e := by
  rw [Entry.read, Entry.toValue, structured_record]
  simp (disch := decide) only [sortFields, List.foldl_cons, List.foldl_nil, insertField_nil,
    insertField_of_lt, insertField_of_not_lt]
  simp [Shape.readFields, Entry.shape, Category.read_toValue, Severity.read_toValue, list_texts,
    optional_textOrNull, Reader.string, required, Except.mapError, bind, Except.bind, pure,
    Except.pure]

theorem count_integer (n : Nat) : Reader.count (.integer n) = .ok n := by
  simp [Reader.count]

theorem Pass.read_toValue (p : Pass) : Pass.read p.toValue = .ok p := by
  rw [Pass.read, Pass.toValue, structured_record]
  simp (disch := decide) only [sortFields, List.foldl_cons, List.foldl_nil, insertField_nil,
    insertField_of_lt, insertField_of_not_lt]
  simp [Shape.readFields, Pass.shape, list_texts, optional_textOrNull, count_integer,
    Reader.string, required, Except.mapError, bind, Except.bind, pure, Except.pure]

theorem Summary.read_toValue (s : Summary) : Summary.read s.toValue = .ok s := by
  rw [Summary.read, Summary.toValue, structured_record]
  simp (disch := decide) only [sortFields, List.foldl_cons, List.foldl_nil, insertField_nil,
    insertField_of_lt, insertField_of_not_lt]
  simp [Shape.readFields, Summary.shape, count_integer, Reader.boolean, required, Except.mapError,
    bind, Except.bind, pure, Except.pure]

theorem read_toValue (r : Report) : read r.toValue = .ok r := by
  have hpasses := Reader.list_map Pass.read_toValue r.passes
  have hentries := Reader.list_map Entry.read_toValue r.violations
  rw [read, toValue, structured_record]
  simp (disch := decide) only [sortFields, List.foldl_cons, List.foldl_nil, insertField_nil,
    insertField_of_lt, insertField_of_not_lt]
  simp [Shape.readFields, shape, Summary.read_toValue, hpasses, hentries, Reader.string, required,
    Except.mapError, bind, Except.bind, pure, Except.pure]

/-! ## Reports as texts -/

def Summary.numbers (s : Summary) : List Nat :=
  [s.totalPasses, s.emittedPasses, s.totalViolations, s.declarationCount, s.cycleCount,
   s.componentsOrdered]

def Pass.numbers (p : Pass) : List Nat := [p.pass, p.declarations, p.violationCount]

/-- All numbers of a report. -/
def numbers (r : Report) : List Nat := r.summary.numbers ++ r.passes.flatMap (·.numbers)

/-- A report whose numbers fit 64 bits, as those of every build do. -/
def Counted (r : Report) : Prop := ∀ n ∈ r.numbers, n < UInt64.size

instance (r : Report) : Decidable r.Counted := inferInstanceAs (Decidable (∀ n ∈ r.numbers, _))

open Json

theorem plain_texts (texts : List String) : Plain (.list (texts.map .text)) := by
  refine .list fun v hv => ?_
  obtain ⟨text, -, rfl⟩ := List.mem_map.1 hv
  exact .text text

theorem plain_textOrNull (text : Option String) : Plain (Entry.textOrNull text) := by
  cases text with
  | none => exact .null
  | some text => exact .text text

theorem Entry.plain_toValue (e : Entry) : Plain e.toValue := by
  refine .record ?_
  simp only [List.forall_mem_cons, List.not_mem_nil, false_imp_iff, implies_true, and_true]
  exact ⟨.text _, .text _, .text _, .text _, plain_texts _, plain_textOrNull _, .text _,
    plain_textOrNull _⟩

theorem Pass.plain_toValue {p : Pass} (h : ∀ n ∈ p.numbers, n < UInt64.size) :
    Plain p.toValue := by
  simp only [numbers, List.forall_mem_cons, List.not_mem_nil, false_imp_iff, implies_true,
    and_true] at h
  refine .record ?_
  simp only [List.forall_mem_cons, List.not_mem_nil, false_imp_iff, implies_true, and_true]
  exact ⟨.integer h.1, plain_textOrNull _, .integer h.2.1, .text _, plain_texts _,
    .integer h.2.2⟩

theorem Summary.plain_toValue {s : Summary} (h : ∀ n ∈ s.numbers, n < UInt64.size) :
    Plain s.toValue := by
  simp only [numbers, List.forall_mem_cons, List.not_mem_nil, false_imp_iff, implies_true,
    and_true] at h
  obtain ⟨hpasses, hemitted, hviolations, hdeclarations, hcycles, hordered⟩ := h
  refine .record ?_
  simp only [List.forall_mem_cons, List.not_mem_nil, false_imp_iff, implies_true, and_true]
  exact ⟨.integer hpasses, .integer hemitted, .integer hviolations, .integer hdeclarations,
    .integer hcycles, .integer hordered, .bool _⟩

theorem plain_toValue {r : Report} (h : r.Counted) : Plain r.toValue := by
  have hsummary : Plain r.summary.toValue :=
    Summary.plain_toValue fun n hn => h n (List.mem_append_left _ hn)
  have hpasses : ∀ v ∈ r.passes.map (·.toValue), Plain v := by
    intro v hv
    obtain ⟨p, hp, rfl⟩ := List.mem_map.1 hv
    exact Pass.plain_toValue fun n hn =>
      h n (List.mem_append_right _ (List.mem_flatMap.2 ⟨p, hp, hn⟩))
  have hentries : ∀ v ∈ r.violations.map (·.toValue), Plain v := by
    intro v hv
    obtain ⟨e, -, rfl⟩ := List.mem_map.1 hv
    exact e.plain_toValue
  refine .record ?_
  simp only [List.forall_mem_cons, List.not_mem_nil, false_imp_iff, implies_true, and_true]
  exact ⟨.text _, hsummary, .list hpasses, .list hentries⟩

theorem read_json {r : Report} (h : r.Counted) : Json.read r.json = some r.toValue :=
  read_pretty (plain_toValue h)

/-- The text of a report is read as the report, so it is never an empty record, and different
reports have different texts. -/
theorem json_read_back (r : Report) (hr : r.Counted) :
    (∃ v, Json.read r.json = some v ∧ Report.read v = .ok r) ∧ r.json ≠ "\x7b\x7d" ∧
      ∀ r' : Report, r'.Counted → r'.json = r.json → r' = r := by
  have hread := read_json hr
  refine ⟨⟨r.toValue, hread, read_toValue r⟩, fun hempty => ?_, fun r' hr' hsame => ?_⟩
  · have hnone : Json.read "\x7b\x7d" = some (.record []) := rfl
    rw [hempty, hnone] at hread
    cases hread
  · have hread' := read_json hr'
    rw [hsame, hread, Option.some.injEq] at hread'
    have hvalue := read_toValue r
    rw [hread', read_toValue r', Except.ok.injEq] at hvalue
    exact hvalue

namespace Sample

/-- A report with and without sources, places and suggestions, and with all kinds of escapes. -/
def escaped : Report where
  timestamp := ""
  summary := ⟨2, 0, 2, 1, 1, UInt64.size - 1, false⟩
  passes :=
    [⟨1, none, 0, "no_work", [], 0⟩, ⟨2, some "d\\\"e\".toml", 2, "invalid", ["é", "\n"], 2⟩]
  violations :=
    [⟨"DI001", "IsInterface", .declaration, .warning, ["a"], some "\t:1", "\x00\x1f", none⟩,
     ⟨"DI004", "DependencyCycle", .structural, .error, [], none, "\x08\x0c\r", some "/"⟩]

theorem json_read_back_of_escaped :
    escaped.Counted ∧ (∃ v, Json.read escaped.json = some v ∧ Report.read v = .ok escaped) ∧
      escaped.json ≠ "\x7b\x7d" := by
  have hcounted : escaped.Counted := by decide
  obtain ⟨hread, hne, -⟩ := json_read_back escaped hcounted
  exact ⟨hcounted, hread, hne⟩

end Sample

end Report

end ComponentWiring
