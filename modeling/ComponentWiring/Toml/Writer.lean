import ComponentWiring.Text.Split

/-! # Writing TOML

A string is written in the quotes that need the fewest escapes.

* `Quotes`, `quotesFor`: the four kinds of quotes, and which one a string gets.
* `string`: a string in its quotes.
* `array`: strings in brackets.
* `pair`: a key and its value.
-/

namespace ComponentWiring.Toml
set_option autoImplicit false

/-- The kinds of quotes: with escapes or without, for one line or for several. -/
inductive Quotes where
  | basic
  | literal
  | basicLines
  | literalLines
  deriving DecidableEq

/-- A control character that stands in no string as it is; tabs and line breaks are no such ones. -/
def isControl (c : Char) : Bool :=
  (c.toNat < 0x20 && c ≠ '\t' && c ≠ '\n') || c.toNat == 0x7F

/-- A character of strings that never raise a question. -/
def isPlain (c : Char) : Bool :=
  ('A' ≤ c && c ≤ 'Z') || ('a' ≤ c && c ≤ 'z') || ('0' ≤ c && c ≤ '9') ||
  c = '_' || c = '-' || c = '.' || c = '/' || c = ' ' || c = ':'

/-- Whether a character stands three times in a row. -/
def hasThree (q : Char) : List Char → Bool
  | a :: b :: c :: r => (a = q && b = q && c = q) || hasThree q (b :: c :: r)
  | _ => false

def quotesFor (cs : List Char) : Quotes :=
  let clean := !cs.any isControl
  let lines := cs.contains '\n'
  if cs.all isPlain then .basic
  else if clean && !cs.contains '\\' && !cs.contains '"' && !lines then .basic
  else if clean && !cs.contains '\'' && !lines then .literal
  else if clean && !cs.contains '\\' && !hasThree '"' cs then .basicLines
  else if clean && !hasThree '\'' cs then .literalLines
  else if lines then .basicLines
  else .basic

def hexUpper (n : Nat) : Char := (Nat.digitChar (n % 16)).toUpper

def hexFour (n : Nat) : List Char :=
  [hexUpper (n / 4096), hexUpper (n / 256), hexUpper (n / 16), hexUpper n]

/-- How a character other than a quote stands between basic quotes, if it is escaped there. -/
def escape? (lines : Bool) (c : Char) : Option (List Char) :=
  if c = '\x08' then some ['\\', 'b']
  else if c = '\t' then some ['\\', 't']
  else if c = '\x0c' then some ['\\', 'f']
  else if c = '\r' then some ['\\', 'r']
  else if c = '\\' then some ['\\', '\\']
  else if c = '\n' then if lines then none else some ['\\', 'n']
  else if isControl c then some ('\\' :: 'u' :: hexFour c.toNat)
  else none

/-- The characters between basic quotes. A quote is escaped where one more quote than `free` would
stand in a row; `row` counts the quotes in front. -/
def basicText (lines : Bool) (free : Nat) : Nat → List Char → List Char
  | _, [] => []
  | row, c :: r =>
    if c = '"' then
      if free ≤ row then '\\' :: '"' :: basicText lines free 0 r
      else '"' :: basicText lines free (row + 1) r
    else
      match escape? lines c with
      | some escaped => escaped ++ basicText lines free 0 r
      | none => c :: basicText lines free 0 r

/-- The line break in front of a string of several lines, which is not part of it. -/
def opening (cs : List Char) : List Char := if cs.contains '\n' then ['\n'] else []

def within (quotes : Quotes) (cs : List Char) : List Char :=
  match quotes with
  | .basic => '"' :: basicText false 0 0 cs ++ ['"']
  | .literal => '\'' :: cs ++ ['\'']
  | .basicLines => ['"', '"', '"'] ++ opening cs ++ basicText true 2 0 cs ++ ['"', '"', '"']
  | .literalLines => ['\'', '\'', '\''] ++ opening cs ++ cs ++ ['\'', '\'', '\'']

def string (s : String) : String := String.ofList (within (quotesFor s.toList) s.toList)

/-- Strings in brackets, on lines of their own if there are two or more. -/
def array (items : List String) : String :=
  match items with
  | _ :: _ :: _ => "[\n" ++ String.join (items.map fun item => s!"    {string item},\n") ++ "]"
  | _ => "[" ++ Text.join ", " (items.map string) ++ "]"

def pair (key value : String) : String := s!"{key} = {value}\n"

end ComponentWiring.Toml
