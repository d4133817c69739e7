import ComponentWiring.Proofs.ComponentRows
import ComponentWiring.Proofs.HeaderLines

/-! # The lines of declarations

Declarations are told with lines that look like headers of component tables, found line by line,
while their tables come from the statements of the text. Both agree just if no such header has
quotes or stands behind the byte order mark, and no other line in front of one looks like a header.

* `Document.headers`: the lines of the headers of component tables.
* `Document.mem_headerLines_iff`: the lines that look like headers.
* `Document.Plain`: lines whose code has no quotes and no byte order mark.
* `Document.located_at_headers_iff`: when declarations are told with the lines of their headers.
-/

namespace ComponentWiring
set_option autoImplicit false

namespace Document
open Toml

/-! ## Two lists of lines -/

/-- The statements of a text that is TOML, with the numbers of their lines. -/
def statementsOf (text : String) : List (Nat × Statement) :=
  match statements .v11 text with
  | .ok all => all
  | .error _ => []

/-- The lines of the headers of component tables. -/
def headers (text : String) : List Nat :=
  ((statementsOf text).filter fun e => isElement "component" e.2).map (·.1)

theorem starts_of_statementsOf (text : String) :
    (∀ e ∈ statementsOf text,
        ∃ front s rest, Starts .v11 (body text.toList) e.1 e.2 front s rest) ∧
      ((statementsOf text).map (·.1)).Pairwise (· < ·) := by
  rw [statementsOf]
  split
  · next all hall => exact starts_of_statements hall
  · simp

theorem increasing_headers (text : String) : (headers text).Pairwise (· < ·) :=
  (starts_of_statementsOf text).2.sublist (List.filter_sublist.map _)

theorem eq_element_of_isElement {key : String} {statement : Statement}
    (h : isElement key statement = true) : statement = .element [] key := by
  cases statement with
  | pair path k v => cases h
  | table path k => cases h
  | element path k =>
    cases path with
    | nil =>
      have hk : k = key := by simpa [isElement] using h
      rw [hk]
    | cons first path => cases h

theorem mem_headers_iff {text : String} {n : Nat} :
    n ∈ headers text ↔ (n, Statement.element [] "component") ∈ statementsOf text := by
  simp only [headers, List.mem_map, List.mem_filter]
  constructor
  · rintro ⟨⟨line, statement⟩, ⟨hmem, helement⟩, rfl⟩
    rwa [← eq_element_of_isElement helement]
  · intro hmem
    exact ⟨_, ⟨hmem, by simp [isElement]⟩, rfl⟩

theorem mem_headersFrom_iff {n number : Nat} {lines : List (List Char)} :
    n ∈ headersFrom number lines ↔
      number ≤ n ∧ ∃ line, lines[n - number]? = some line ∧ isHeader line = true := by
  induction lines generalizing number with
  | nil => simp [headersFrom]
  | cons first lines ih =>
    have hrest : n ∈ headersFrom (number + 1) lines ↔
        number < n ∧ ∃ line, (first :: lines)[n - number]? = some line ∧ isHeader line = true := by
      rw [ih]
      refine and_congr_right fun hlt => ?_
      have hindex : n - number = n - (number + 1) + 1 := by omega
      rw [hindex, List.getElem?_cons_succ]
    rw [headersFrom]
    by_cases hn : n = number
    · subst hn
      have hrest' : n ∉ headersFrom (n + 1) lines := fun hmem => absurd (hrest.1 hmem).1 (by omega)
      split
      · next hfirst => simp [hfirst]
      · next hfirst => simp [hfirst, hrest']
    · have hlt : number < n ↔ number ≤ n := by omega
      rw [hlt] at hrest
      split
      · rw [List.mem_cons, or_iff_right hn, hrest]
      · exact hrest

theorem increasing_headersFrom (number : Nat) (lines : List (List Char)) :
    (headersFrom number lines).Pairwise (· < ·) := by
  induction lines generalizing number with
  | nil => simp [headersFrom]
  | cons first lines ih =>
    rw [headersFrom]
    split
    · rw [List.pairwise_cons]
      exact ⟨fun n hn => (mem_headersFrom_iff.1 hn).1, ih (number + 1)⟩
    · exact ih (number + 1)

theorem increasing_headerLines (text : String) : (headerLines text).Pairwise (· < ·) :=
  increasing_headersFrom 1 _

theorem mem_headerLines_iff {text : String} {n : Nat} :
    n ∈ headerLines text ↔ 1 ≤ n ∧ ∃ line, lineAt text n = some line ∧ isHeader line = true :=
  mem_headersFrom_iff

/-- One of two increasing lists starts the other one just if it is part of it and leaves nothing out
on the way. -/
theorem prefix_iff_of_increasing {marks lines : List Nat} (hmarks : marks.Pairwise (· < ·))
    (hlines : lines.Pairwise (· < ·)) :
    marks <+: lines ↔ (∀ m ∈ marks, m ∈ lines) ∧
      ∀ n ∈ lines, (∃ m ∈ marks, n < m) → n ∈ marks := by
  constructor
  · rintro ⟨rest, rfl⟩
    refine ⟨fun m hm => List.mem_append_left rest hm, ?_⟩
    rintro n hn ⟨m, hm, hlt⟩
    rcases List.mem_append.1 hn with hn | hn
    · exact hn
    · have hgt := (List.pairwise_append.1 hlines).2.2 m hm n hn
      omega
  · rintro ⟨hpart, hnone⟩
    induction marks generalizing lines with
    | nil => exact List.nil_prefix
    | cons mark marks ih =>
      obtain ⟨hmark, hmarks⟩ := List.pairwise_cons.1 hmarks
      cases lines with
      | nil => exact absurd (hpart mark List.mem_cons_self) List.not_mem_nil
      | cons line lines =>
        obtain ⟨hline, hrest⟩ := List.pairwise_cons.1 hlines
        have hfirst : mark = line := by
          rcases List.mem_cons.1 (hpart mark List.mem_cons_self) with heq | hmem
          · exact heq
          · -- the first line would stand in front of a mark without being one
            have hlt := hline mark hmem
            rcases List.mem_cons.1 (hnone line List.mem_cons_self ⟨mark, List.mem_cons_self, hlt⟩)
              with heq | hmem'
            · exact heq.symm
            · have hgt := hmark line hmem'
              omega
        subst hfirst
        refine List.cons_prefix_cons.2 ⟨rfl, ih hmarks hrest (fun m hm => ?_) ?_⟩
        · have hgt := hmark m hm
          rcases List.mem_cons.1 (hpart m (List.mem_cons_of_mem _ hm)) with heq | hmem
          · omega
          · exact hmem
        · rintro n hn ⟨m, hm, hlt⟩
          have hgt := hline n hn
          rcases List.mem_cons.1 (hnone n (List.mem_cons_of_mem _ hn)
            ⟨m, List.mem_cons_of_mem _ hm, hlt⟩) with heq | hmem
          · omega
          · exact hmem

/-- Component tables are told with given lines just if they are as many and these lines come first
among those that are given out. -/
theorem location_located_iff {file : String} {lines : List Nat} {entries : List Entry}
    {marks : List Nat} :
    (located file lines entries).map (·.location) =
        marks.map (fun line => some ⟨file, some line⟩) ↔
      entries.length = marks.length ∧ marks <+: lines := by
  induction entries generalizing lines marks with
  | nil =>
    cases marks with
    | nil => simp [located]
    | cons mark marks => simp [located]
  | cons entry entries ih =>
    cases lines with
    | nil =>
      cases marks with
      | nil => simp [located]
      | cons mark marks => simp [located, Entry.declaration]
    | cons line lines =>
      cases marks with
      | nil => simp [located]
      | cons mark marks =>
        rw [located, List.map_cons, List.map_cons, List.cons.injEq, ih, List.cons_prefix_cons,
          List.length_cons, List.length_cons, Nat.succ_inj]
        simp only [Entry.declaration, Option.some.injEq, Location.mk.injEq, true_and]
        rw [and_left_comm, @eq_comm _ line mark]

/-! ## Headers that look like headers -/

/-- A line whose code has no quotes and no byte order mark. -/
def Plain (line : List Char) : Prop :=
  ∀ c ∈ line.takeWhile (· ≠ '#'), c ≠ '"' ∧ c ≠ '\'' ∧ c ≠ byteOrderMark

theorem plain_of_isHeader {line : List Char} (h : isHeader line = true) : Plain line := by
  rw [isHeader_iff] at h
  intro c hc
  have hcode : Text.isBlank c = true ∨ c ∈ header := by
    cases hblank : Text.isBlank c with
    | true => exact .inl rfl
    | false =>
      right
      rw [← h, code, List.mem_filter]
      exact ⟨hc, by rw [hblank]; rfl⟩
  refine ⟨?_, ?_, ?_⟩
  all_goals
    rintro rfl
    revert hcode
    decide

theorem mem_takeWhile_of_mem_shown {c : Char} {s front : List Char} (hc : c ∈ shown s)
    (hfront : ∀ d ∈ front, d ≠ '#') :
    c ∈ (front ++ s.takeWhile (· ≠ '\n')).takeWhile (· ≠ '#') := by
  have hall : ∀ d ∈ front, decide (d ≠ '#') = true := by simpa using hfront
  rw [List.takeWhile_append_of_pos hall]
  exact List.mem_append_right _ (List.mem_of_mem_filter hc)

theorem not_plain_of_mark (line : List Char) : ¬ Plain (byteOrderMark :: line) := by
  intro hplain
  have hmem : byteOrderMark ∈ (byteOrderMark :: line).takeWhile (· ≠ '#') := by
    rw [List.takeWhile_cons_of_pos (by decide)]
    exact List.mem_cons_self
  exact (hplain byteOrderMark hmem).2.2 rfl

/-- The line of the header of a component table looks like one just if it is plain. -/
theorem isHeader_iff_plain {text : String} {n : Nat} (hn : n ∈ headers text) :
    ∃ line, lineAt text n = some line ∧ (isHeader line = true ↔ Plain line) := by
  obtain ⟨front, s, rest, hstarts⟩ :=
    (starts_of_statementsOf text).1 _ (mem_headers_iff.1 hn)
  obtain ⟨behind, hend⟩ := hstarts.ended
  obtain ⟨mark, blanks, hmark, hblanks, hline⟩ := hstarts.exists_lineAt
  refine ⟨_, hline, plain_of_isHeader, fun hplain => ?_⟩
  have hcomment : ∀ d ∈ blanks, d ≠ '#' := fun d hd => (isBlank_of_toml (hblanks d hd)).2.2
  rcases hmark with rfl | rfl
  · rw [List.nil_append] at hplain ⊢
    rcases shown_of_element hstarts.statement_eq hend with hshown | ⟨q, hq, hquote⟩
    · rw [isHeader_iff, code_blanks hblanks]
      exact hshown
    · have hcode := hplain q (mem_takeWhile_of_mem_shown hq hcomment)
      rcases hquote with rfl | rfl
      · exact absurd rfl hcode.1
      · exact absurd rfl hcode.2.1
  · exact absurd hplain (not_plain_of_mark _)

theorem mem_headers_of_isHeader {text : String} {n : Nat} {statement : Statement}
    (hmem : (n, statement) ∈ statementsOf text) {line : List Char}
    (hline : lineAt text n = some line) (hheader : isHeader line = true) : n ∈ headers text := by
  obtain ⟨front, s, rest, hstarts⟩ := (starts_of_statementsOf text).1 _ hmem
  obtain ⟨behind, hend⟩ := hstarts.ended
  obtain ⟨mark, blanks, hmark, hblanks, hline'⟩ := hstarts.exists_lineAt
  cases hline.symm.trans hline'
  rcases hmark with rfl | rfl
  · rw [List.nil_append, isHeader_iff, code_blanks hblanks] at hheader
    have helement := element_of_shown hstarts.statement_eq hend hheader
    exact mem_headers_iff.2 (helement ▸ hmem)
  · exact absurd (plain_of_isHeader hheader) (not_plain_of_mark _)

/-! ## Lines of declarations -/

theorem statementsOf_eq {text : String} {all : List (Nat × Statement)}
    (h : statements .v11 text = .ok all) : statementsOf text = all := by
  rw [statementsOf, h]

theorem exists_statements {text : String} {found : List Entry} (h : entries text = .ok found) :
    ∃ all, statements .v11 text = .ok all := by
  cases hall : statements .v11 text with
  | error line =>
    rw [entries, Toml.read, hall] at h
    cases h
  | ok all => exact ⟨all, rfl⟩

theorem length_headers (text : String) :
    (headers text).length = ((statementsOf text).map (·.2)).countP (isElement "component") := by
  rw [headers, List.length_map, List.countP_map, List.countP_eq_length_filter]
  rfl

theorem length_located (file : String) (lines : List Nat) (entries : List Entry) :
    (located file lines entries).length = entries.length := by
  induction entries generalizing lines with
  | nil => rw [located]; rfl
  | cons entry entries ih =>
    cases lines with
    | nil => rw [located, List.length_cons, List.length_cons, ih]
    | cons line lines => rw [located, List.length_cons, List.length_cons, ih]

variable {path text : String} {ds : List Declaration}

theorem declarations_cases (h : declarations path text = .ok ds) :
    ∃ found, entries text = .ok found ∧ ds = located path (headerLines text) found := by
  rw [declarations] at h
  cases hentries : entries text with
  | error fault =>
    rw [hentries] at h
    cases h
  | ok found =>
    rw [hentries] at h
    cases h
    exact ⟨found, rfl, rfl⟩

theorem length_declarations (h : declarations path text = .ok ds) (hgiven : headers text ≠ []) :
    ds.length = (headers text).length := by
  obtain ⟨found, hfound, rfl⟩ := declarations_cases h
  obtain ⟨all, hall⟩ := exists_statements hfound
  have hcount := length_headers text
  rw [statementsOf_eq hall] at hcount
  have hsome : (all.map (·.2)).countP (isElement "component") ≠ 0 := by
    rw [← hcount]
    exact fun hzero => hgiven (List.length_eq_zero_iff.1 hzero)
  rw [length_located, hcount]
  exact length_entries hall hfound hsome

theorem mem_headerLines_iff_plain {n : Nat} (hn : n ∈ headers text) :
    n ∈ headerLines text ↔ ∀ line, lineAt text n = some line → Plain line := by
  obtain ⟨line, hline, hplain⟩ := isHeader_iff_plain hn
  obtain ⟨front, s, rest, hstarts⟩ := (starts_of_statementsOf text).1 _ (mem_headers_iff.1 hn)
  have hpos : 1 ≤ n := by
    have hn' := hstarts.line_eq
    omega
  rw [mem_headerLines_iff, hline]
  simp [hpos, hplain]

/-- In a document whose components are given by headers, each header is a statement on its line and
has a declaration. All declarations are told with the lines of their headers just if the code of
these lines has neither quotes nor the byte order mark, and if on each line in front of a header
that looks like one a statement starts. -/
theorem located_at_headers_iff (h : declarations path text = .ok ds)
    (hgiven : headers text ≠ [] ∨ ds = []) :
    ds.length = (headers text).length ∧
    (∀ n ∈ headers text, ∃ front s rest,
      Starts .v11 (body text.toList) n (.element [] "component") front s rest) ∧
    (ds.map (·.location) = (headers text).map (fun n => some ⟨path, some n⟩) ↔
      (∀ n ∈ headers text, ∀ line, lineAt text n = some line → Plain line) ∧
      ∀ n ∈ headerLines text, (∃ m ∈ headers text, n < m) →
        ∃ statement, (n, statement) ∈ statementsOf text) := by
  have hlength : ds.length = (headers text).length := by
    by_cases hnone : headers text = []
    · rw [hgiven.resolve_left (not_not.2 hnone), hnone]
      rfl
    · exact length_declarations h hnone
  refine ⟨hlength, fun n hn => (starts_of_statementsOf text).1 _ (mem_headers_iff.1 hn), ?_⟩
  obtain ⟨found, -, rfl⟩ := declarations_cases h
  rw [length_located] at hlength
  rw [location_located_iff, and_iff_right hlength,
    prefix_iff_of_increasing (increasing_headers text) (increasing_headerLines text)]
  refine and_congr ?_ ?_
  · exact forall₂_congr fun n hn => mem_headerLines_iff_plain hn
  · refine forall₃_congr fun n hn _ => ⟨fun hmem => ⟨_, mem_headers_iff.1 hmem⟩, ?_⟩
    rintro ⟨statement, hmem⟩
    obtain ⟨-, line, hline, hheader⟩ := mem_headerLines_iff.1 hn
    exact mem_headers_of_isHeader hmem hline hheader

namespace Sample

/-- A header with blanks and a comment. -/
def spaced : String := "# one\n[[ component ]] # two\nidentity = \"a\"\n"

theorem located_at_headers_iff_of_spaced :
    ∃ ds, declarations "doc.toml" spaced = .ok ds ∧
      (headers spaced ≠ [] ∨ ds = []) ∧
      ds.length = (headers spaced).length ∧
      (∀ n ∈ headers spaced, ∀ line, lineAt spaced n = some line → Plain line) := by
  have hlocations : (declarations "doc.toml" spaced).toOption.map (·.map (·.location)) =
      some [some ⟨"doc.toml", some 2⟩] := by decide +kernel
  obtain ⟨ds, hread, hlocations⟩ := Option.map_eq_some_iff.1 hlocations
  have hheaders : headers spaced = [2] := by decide +kernel
  have hgiven : headers spaced ≠ [] ∨ ds = [] := .inl (by rw [hheaders]; decide)
  obtain ⟨hlength, -, hiff⟩ := located_at_headers_iff (eq_ok_of_toOption hread) hgiven
  have hlocated : ds.map (·.location) =
      (headers spaced).map (fun n => some ⟨"doc.toml", some n⟩) := by
    rw [hlocations, hheaders]
    rfl
  exact ⟨ds, eq_ok_of_toOption hread, hgiven, hlength, (hiff.1 hlocated).1⟩

/-- A header with quotes in front of one without. -/
def quoted : String := "[[\"component\"]]\nidentity = \"a\"\n\n[[component]]\nidentity = \"b\"\n"

/-- The header with quotes is one, but the first declaration is told with the line of the second
header, and the second declaration with none. -/
theorem located_at_other_header :
    headers quoted = [1, 4] ∧ ∃ ds, declarations "doc.toml" quoted = .ok ds ∧
      ds.map (·.location) = [some ⟨"doc.toml", some 4⟩, some ⟨"doc.toml", none⟩] := by
  have hlocations : (declarations "doc.toml" quoted).toOption.map (·.map (·.location)) =
      some [some ⟨"doc.toml", some 4⟩, some ⟨"doc.toml", none⟩] := by decide +kernel
  obtain ⟨ds, hds, hlocations⟩ := Option.map_eq_some_iff.1 hlocations
  exact ⟨by decide +kernel, ds, eq_ok_of_toOption hds, hlocations⟩

/-- A string with a line that looks like a header, in front of a second header. -/
def lines : String :=
  "[[component]]\nidentity = \"\"\"\n[[component]]\n\"\"\"\n[[component]]\nidentity = \"b\"\n"

example : headers lines = [1, 5] ∧ headerLines lines = [1, 3, 5] := by decide +kernel

end Sample

end Document

end ComponentWiring
