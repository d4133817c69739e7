import ComponentWiring.Data.Value
import ComponentWiring.Text.Blank
import ComponentWiring.Toml.Edition

/-! # Values written in environment variables

A variable holds a truth value, a number, a quoted text, a list in brackets or a record in braces;
whatever is none of these is a text.

* `literal`: a value at the front of a text.
* `valueOf`: the value of a variable.
-/

namespace ComponentWiring.Settings
open Data Decimal Text
set_option autoImplicit false

def isGap (c : Char) : Bool := c = ' ' || c = '\t' || c = '\n' || c = '\x0c' || c = '\r'

def skipGaps (s : List Char) : List Char := s.dropWhile isGap

/-! ## Numbers -/

def digitsOf (s : List Char) : List Char × List Char := (s.takeWhile isDigit, s.dropWhile isDigit)

/-- A sign at the front: whether it is a minus, and the rest. -/
def signOf : List Char → Bool × List Char
  | '-' :: r => (true, r)
  | '+' :: r => (false, r)
  | s => (false, s)

/-- The power of ten at the end of a real. -/
def powerOf? : List Char → Option Int
  | [] => some 0
  | c :: r =>
    if c = 'e' ∨ c = 'E' then
      let (negative, ds) := signOf r
      if ds ≠ [] ∧ ds.all isDigit then
        some (if negative then -(decimalNumber ds : Int) else decimalNumber ds)
      else none
    else none

/-- A real written with a point; digits may be left out on one side of it. -/
def realOf? (s : List Char) : Option Binary64 :=
  let (negative, r) := signOf s
  let (whole, r) := digitsOf r
  match r with
  | '.' :: r =>
    let (fraction, r) := digitsOf r
    if whole ++ fraction = [] then none
    else
      (powerOf? r).map fun power =>
        Binary64.nearest negative (decimalNumber (whole ++ fraction)) (power - fraction.length)
  | _ => none

/-- A whole number of 64 bits: written without a minus, or else with a sign. -/
def wholeOf? (s : List Char) : Option Value :=
  let (negative, ds) := signOf s
  if ds ≠ [] ∧ ds.all isDigit then
    let n := decimalNumber ds
    if negative then if n ≤ Nat.pow 2 63 then some (.integer (-(n : Int))) else none
    else if n < Nat.pow 2 64 then some (.natural n)
    else none
  else none

/-- The value of a text without quotes and brackets. -/
def wordValue (s : List Char) : Value :=
  match realOf? s with
  | some x => .real x
  | none =>
    match wholeOf? s with
    | some v => v
    | none => .text (String.ofList s)

/-! ## Quoted texts -/

/-- The character of the escape that follows a backslash, and the number of characters it takes. -/
def escapeOf? : List Char → Option (Char × Nat)
  | '"' :: _ => some ('"', 1)
  | '\\' :: _ => some ('\\', 1)
  | 'b' :: _ => some ('\x08', 1)
  | 'f' :: _ => some ('\x0c', 1)
  | 'n' :: _ => some ('\n', 1)
  | 'r' :: _ => some ('\r', 1)
  | 't' :: _ => some ('\t', 1)
  | 'u' :: r => ((hexNumber? 4 r).bind charOfNat?).map fun c => (c, 5)
  | 'U' :: r => ((hexNumber? 8 r).bind charOfNat?).map fun c => (c, 9)
  | _ => none

/-- The characters up to the closing quote, after `skip` characters. -/
def quotedBody : Nat → Parser (List Char)
  | _, [] => none
  | skip + 1, _ :: r => quotedBody skip r
  | 0, c :: r =>
    if c = '"' then some ([], r)
    else if c = '\\' then
      match escapeOf? r with
      | some (e, taken) => (quotedBody taken r).map fun (cs, rest) => (e :: cs, rest)
      | none => none
    else if Toml.isText c then (quotedBody 0 r).map fun (cs, rest) => (c :: cs, rest)
    else none

/-! ## Literals -/

def isWord (c : Char) : Bool := c ≠ ',' && c ≠ '{' && c ≠ '}' && c ≠ '[' && c ≠ ']'

def isKey (c : Char) : Bool :=
  ('A' ≤ c && c ≤ 'Z') || ('a' ≤ c && c ≤ 'z') || ('0' ≤ c && c ≤ '9') || c = '_' || c = '-'

def literalKey (s : List Char) : Option (String × List Char) :=
  match skipGaps s with
  | '"' :: r => (quotedBody 0 r).map fun (cs, rest) => (String.ofList cs, skipGaps rest)
  | s =>
    let cs := s.takeWhile isKey
    if cs = [] then none else some (String.ofList cs, skipGaps (s.drop cs.length))

def literalPair (value : Parser Value) (s : List Char) : Option ((String × Value) × List Char) := do
  let (key, s) ← literalKey s
  match s with
  | '=' :: r =>
    let (v, rest) ← value r
    pure ((key, v), rest)
  | _ => none

/-- A value at the front of a text, with blanks around it, that holds others at most `depth`
deep. -/
def literal : Nat → Parser Value
  | 0, _ => none
  | depth + 1, s =>
    let found : Option (Value × List Char) :=
      match skipGaps s with
      | 't' :: 'r' :: 'u' :: 'e' :: r => some (.bool true, r)
      | 'f' :: 'a' :: 'l' :: 's' :: 'e' :: r => some (.bool false, r)
      | '{' :: r =>
        (separated (literalPair (literal depth)) some '}' true false (r.length + 1) r).map
          fun (fields, rest) => (.record (sortFields fields), rest)
      | '[' :: r =>
        (separated (literal depth) some ']' true false (r.length + 1) r).map
          fun (items, rest) => (.list items, rest)
      | '"' :: r => (quotedBody 0 r).map fun (cs, rest) => (.text (String.ofList cs), rest)
      | '\'' :: c :: '\'' :: r => some (.text (String.ofList [c]), r)
      | '\'' :: _ => none
      | s => some (wordValue (trimChars (s.takeWhile isWord)), s.dropWhile isWord)
    found.map fun (v, rest) => (v, skipGaps rest)

/-- The value of a variable. Text that is no literal as a whole stands for itself. -/
def valueOf (text : String) : Value :=
  match literal (text.toList.length + 1) text.toList with
  | some (v, []) => v
  | _ => .text text

end ComponentWiring.Settings
