import ComponentWiring.Toml.Edition

/-! # Reading TOML strings

* `basicBody`, `literalBody`: what stands between quotes on one line.
* `basicLines`, `literalLines`: what stands between triple quotes.
* `string?`: a string in any quotes.
-/

namespace ComponentWiring.Toml
open Text
set_option autoImplicit false

/-- The character of an escape written in hexadecimal digits, and the number of characters that it
takes after the backslash. -/
def hexEscape? (count : Nat) (r : List Char) : Option (Char × Nat) := do
  let n ← hexNumber? count r
  let c ← charOfNat? n
  pure (c, count + 1)

/-- The character of the escape that follows a backslash, and the number of characters it takes. -/
def escapeIn? (edition : Edition) : List Char → Option (Char × Nat)
  | 'b' :: _ => some ('\x08', 1)
  | 't' :: _ => some ('\t', 1)
  | 'n' :: _ => some ('\n', 1)
  | 'f' :: _ => some ('\x0c', 1)
  | 'r' :: _ => some ('\r', 1)
  | '"' :: _ => some ('"', 1)
  | '\\' :: _ => some ('\\', 1)
  | 'u' :: r => hexEscape? 4 r
  | 'U' :: r => hexEscape? 8 r
  | 'e' :: _ => if edition = .v11 then some ('\x1b', 1) else none
  | 'x' :: r => if edition = .v11 then hexEscape? 2 r else none
  | _ => none

/-- A character in front of what a parser reads. -/
def put (c : Char) (read : Option (List Char × List Char)) : Option (List Char × List Char) :=
  read.map fun (cs, rest) => (c :: cs, rest)

/-- The characters up to the closing quote, after `skip` characters. -/
def basicBody (edition : Edition) : Nat → Parser (List Char)
  | _, [] => none
  | skip + 1, _ :: r => basicBody edition skip r
  | 0, c :: r =>
    if c = '"' then some ([], r)
    else if c = '\\' then
      match escapeIn? edition r with
      | some (e, taken) => put e (basicBody edition taken r)
      | none => none
    else if isText c then put c (basicBody edition 0 r)
    else none

/-- The characters up to the closing apostrophe. -/
def literalBody : Parser (List Char)
  | [] => none
  | c :: r =>
    if c = '\'' then some ([], r)
    else if isText c then put c (literalBody r)
    else none

/-- The end of a string in triple quotes, where the text is behind the first three of them: up to
two more belong to the string. -/
def closing (q : Char) (r : List Char) : List Char × List Char :=
  let more := (r.takeWhile (· = q)).take 2
  (more, r.drop more.length)

/-- Whether a text starts with two of a character. -/
def startsWithTwo (q : Char) : List Char → Bool
  | a :: b :: _ => a = q && b = q
  | _ => false

/-- The line break that a carriage return and a line feed stand for. The earlier edition reads them
as a line feed. -/
def lineBreak : Edition → List Char
  | .v10 => ['\n']
  | .v11 => ['\r', '\n']

/-- The number of characters after a backslash at the end of a line: the rest of the line, and all
blanks and line breaks after it. -/
def foldedLines? (r : List Char) : Option Nat :=
  match skipBlank r with
  | '\n' :: _ => some (r.takeWhile fun c => isBlank c || c = '\n' || c = '\r').length
  | '\r' :: '\n' :: _ => some (r.takeWhile fun c => isBlank c || c = '\n' || c = '\r').length
  | _ => none

/-- The characters up to the closing triple quotes, after `skip` characters. -/
def basicLines (edition : Edition) : Nat → Parser (List Char)
  | _, [] => none
  | skip + 1, _ :: r => basicLines edition skip r
  | 0, c :: r =>
    if c = '"' then
      if startsWithTwo '"' r then some (closing '"' (r.drop 2))
      else put '"' (basicLines edition 0 r)
    else if c = '\\' then
      match foldedLines? r with
      | some taken => basicLines edition taken r
      | none =>
        match escapeIn? edition r with
        | some (e, taken) => put e (basicLines edition taken r)
        | none => none
    else if c = '\n' then put c (basicLines edition 0 r)
    else if c = '\r' ∧ r.head? = some '\n' then
      (basicLines edition 1 r).map fun (cs, rest) => (lineBreak edition ++ cs, rest)
    else if isText c then put c (basicLines edition 0 r)
    else none

/-- The characters up to the closing triple apostrophes, after `skip` characters. -/
def literalLines (edition : Edition) : Nat → Parser (List Char)
  | _, [] => none
  | skip + 1, _ :: r => literalLines edition skip r
  | 0, c :: r =>
    if c = '\'' then
      if startsWithTwo '\'' r then some (closing '\'' (r.drop 2))
      else put '\'' (literalLines edition 0 r)
    else if c = '\n' then put c (literalLines edition 0 r)
    else if c = '\r' ∧ r.head? = some '\n' then
      (literalLines edition 1 r).map fun (cs, rest) => (lineBreak edition ++ cs, rest)
    else if isText c then put c (literalLines edition 0 r)
    else none

/-- The text after a line break right behind opening triple quotes. -/
def skipOpening : List Char → List Char
  | '\n' :: r => r
  | '\r' :: '\n' :: r => r
  | s => s

def string? (edition : Edition) : Parser (List Char)
  | '"' :: r =>
    if startsWithTwo '"' r then basicLines edition 0 (skipOpening (r.drop 2))
    else basicBody edition 0 r
  | '\'' :: r =>
    if startsWithTwo '\'' r then literalLines edition 0 (skipOpening (r.drop 2))
    else literalBody r
  | _ => none

end ComponentWiring.Toml
