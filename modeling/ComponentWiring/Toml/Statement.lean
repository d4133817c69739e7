import ComponentWiring.Text.Split
import ComponentWiring.Toml.Quoted
import ComponentWiring.Toml.Scalar
import ComponentWiring.Toml.Table

/-! # TOML texts

A text is a list of statements, each on a line of its own: pairs of a key and a value, and headers.

* `key?`, `path?`: keys, and keys with points between them.
* `value?`: values, nested up to a depth.
* `Statement`, `statements`: the statements of a text with their lines.
* `read`: the fields that a text holds, or the line in which it is no TOML.
-/

namespace ComponentWiring.Toml
open Text Data
set_option autoImplicit false

/-! ## Keys -/

def isBare (c : Char) : Bool :=
  ('A' ≤ c && c ≤ 'Z') || ('a' ≤ c && c ≤ 'z') || ('0' ≤ c && c ≤ '9') || c = '_' || c = '-'

theorem ne_of_isBare {c d : Char} (hc : isBare c = true) (hd : isBare d = false) : c ≠ d := by
  rintro rfl
  simp [hc] at hd

theorem isBlank_of_isBare {c : Char} (hc : isBare c = true) : isBlank c = false := by
  have hspace := ne_of_isBare (d := ' ') hc (by decide)
  have htab := ne_of_isBare (d := '\t') hc (by decide)
  simp [isBlank, hspace, htab]

def key? (edition : Edition) : Parser String
  | '"' :: r => (basicBody edition 0 r).map fun (cs, rest) => (String.ofList cs, rest)
  | '\'' :: r => (literalBody r).map fun (cs, rest) => (String.ofList cs, rest)
  | s =>
    let cs := s.takeWhile isBare
    if cs = [] then none else some (String.ofList cs, s.drop cs.length)

/-- Keys with points between them, at most `limit`, as the keys in front, the last one, and the
text after the blanks behind it. -/
def path? (edition : Edition) : Nat → Parser (List String × String)
  | 0, _ => none
  | limit + 1, s => do
    let (key, s) ← key? edition (skipBlank s)
    match skipBlank s with
    | '.' :: r =>
      let ((path, last), rest) ← path? edition limit r
      pure ((key :: path, last), rest)
    | s => pure (([], key), s)

/-! ## Values -/

/-- A path, an equals sign and a value, as they stand in inline tables. -/
def inlinePair? (edition : Edition) (value : Parser Value) (s : List Char) :
    Option ((List String × String × Value) × List Char) := do
  let ((path, key), s) ← path? edition s.length s
  match s with
  | '=' :: r =>
    let (v, s) ← value (skipBlank r)
    pure ((path, key, v), s)
  | _ => none

def inlineTable? (pairs : List (List String × String × Value)) : Option Value := do
  let entries ← pairs.foldlM (fun entries (path, key, v) => addPair path key v entries) []
  pure (.record (finished entries))

/-- What may stand around the pairs of an inline table. -/
def inlineGap (edition : Edition) (s : List Char) : Option (List Char) :=
  if edition = .v11 then skipGap false s else some (skipBlank s)

/-- A value that holds others at most `depth` deep. -/
def value? (edition : Edition) : Nat → Parser Value
  | 0, s => if s.head? = some '[' ∨ s.head? = some '{' then none else leaf? s
  | depth + 1, s =>
    match s with
    | '[' :: r =>
      (separated (value? edition depth) (skipGap false) ']' true false (r.length + 1) r).map
        fun (items, rest) => (.list items, rest)
    | '{' :: r => do
      let (pairs, rest) ←
        separated (inlinePair? edition (value? edition depth)) (inlineGap edition) '}'
          (edition = .v11) false (r.length + 1) r
      let v ← inlineTable? pairs
      pure (v, rest)
    | s => leaf? s
where
  /-- A string, or a value that is not written with brackets. -/
  leaf? (s : List Char) : Option (Value × List Char) :=
    match string? edition s with
    | some (cs, rest) => some (.text (String.ofList cs), rest)
    | none =>
      if s.head? = some '"' ∨ s.head? = some '\'' then none else scalar? edition s

/-! ## Statements -/

/-- What a line says: a pair, the header of a table, or the header of a further table in a row. -/
inductive Statement where
  | pair (path : List String) (key : String) (v : Value)
  | table (path : List String) (key : String)
  | element (path : List String) (key : String)

/-- The path between the brackets of a header, and the text after the closing brackets. -/
def header? (edition : Edition) (close : List Char) (s : List Char) :
    Option ((List String × String) × List Char) := do
  let (path, s) ← path? edition s.length s
  let rest ← dropStart? close s
  pure (path, rest)

def statement? (edition : Edition) (s : List Char) : Option (Statement × List Char) :=
  match s with
  | '[' :: '[' :: r => do
    let ((path, key), rest) ← header? edition [']', ']'] r
    pure (.element path key, rest)
  | '[' :: r => do
    let ((path, key), rest) ← header? edition [']'] r
    pure (.table path key, rest)
  | s => do
    let ((path, key, v), rest) ← inlinePair? edition (value? edition edition.depth) s
    pure (.pair path key v, rest)

def lineFeeds (s : List Char) : Nat := s.count '\n'

/-- The statements of a text with the numbers of their lines, at most `limit`. A text that goes
wrong is told by the line of the statement. -/
def statementsFrom (edition : Edition) (total : Nat) :
    Nat → List Char → Except Nat (List (Nat × Statement))
  | 0, _ => .ok []
  | limit + 1, s =>
    match skipGap false s with
    | none => .error (1 + (total - lineFeeds s))
    | some [] => .ok []
    | some s =>
      let line := 1 + (total - lineFeeds s)
      match statement? edition s with
      | none => .error line
      | some (statement, rest) =>
        match skipLineEnd rest with
        | none => .error line
        | some rest => do
          let more ← statementsFrom edition total limit rest
          pure ((line, statement) :: more)

/-- The byte order mark, which may stand at the start. -/
def byteOrderMark : Char := '\uFEFF'

/-- The statements of a text with the numbers of their lines. -/
def statements (edition : Edition) (text : String) : Except Nat (List (Nat × Statement)) :=
  let s := match text.toList with
    | c :: r => if c = byteOrderMark then r else c :: r
    | [] => []
  statementsFrom edition (lineFeeds s) (s.length + 1) s

/-! ## The table of a text -/

/-- What the statements so far have made, and the path of the last header. -/
structure Assembly where
  entries : Entries
  header : List String

def Assembly.add? (a : Assembly) : Statement → Option Assembly
  | .pair path key v => do
    let entries ← atHeader (addPair path key v) a.header a.entries
    pure { a with entries }
  | .table path key => do
    let entries ← openTable path key a.entries
    pure ⟨entries, path ++ [key]⟩
  | .element path key => do
    let entries ← openElement path key a.entries
    pure ⟨entries, path ++ [key]⟩

/-- What statements do, in order. One that does not go with those before it is told by its line. -/
def assemble : List (Nat × Statement) → Assembly → Except Nat Assembly
  | [], a => .ok a
  | (line, statement) :: rest, a =>
    match a.add? statement with
    | some a => assemble rest a
    | none => .error line

/-- Lines are told only of statements that go wrong. -/
theorem assemble_eq_ok_iff {all : List (Nat × Statement)} {a b : Assembly} :
    assemble all a = .ok b ↔ (all.map (·.2)).foldlM Assembly.add? a = some b := by
  induction all generalizing a with
  | nil => simp [assemble]
  | cons first rest ih =>
    obtain ⟨line, statement⟩ := first
    rw [assemble, List.map_cons, List.foldlM_cons]
    cases a.add? statement with
    | none => simp
    | some a' => exact ih

/-- The fields that a text holds, or the line in which it is no TOML. -/
def read (edition : Edition) (text : String) : Except Nat (List (String × Value)) := do
  let all ← statements edition text
  let a ← assemble all ⟨[], []⟩
  pure (finished a.entries)

end ComponentWiring.Toml
