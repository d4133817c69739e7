import ComponentWiring.Data.Value

/-! # Writing JSON

* `Json.compact`: a value on one line, without blanks.
* `Json.pretty`: a value with every item and field on a line of its own, two blanks per level; an
  empty list or record stays on its line.
-/

namespace ComponentWiring.Json
open Data
set_option autoImplicit false

def hexDigit (n : Nat) : Char := Nat.digitChar (n % 16)

/-- A character inside quotes: quotes, backslashes and control characters are escaped, everything
else stands for itself. -/
def escaped (c : Char) : List Char :=
  if c = '"' then ['\\', '"']
  else if c = '\\' then ['\\', '\\']
  else if c = '\x08' then ['\\', 'b']
  else if c = '\x0c' then ['\\', 'f']
  else if c = '\n' then ['\\', 'n']
  else if c = '\r' then ['\\', 'r']
  else if c = '\t' then ['\\', 't']
  else if c.toNat < 0x20 then
    ['\\', 'u', '0', '0', hexDigit (c.toNat / 16), hexDigit c.toNat]
  else [c]

def string (s : String) : List Char := '"' :: (s.toList.flatMap escaped ++ ['"'])

def scalar : Value → List Char
  | .null => "null".toList
  | .bool b => (if b then "true" else "false").toList
  | .integer n => (toString n).toList
  | .natural n => (toString n).toList
  | .real (.finite negative m e) => (Decimal.Binary64.pointed (.finite negative m e)).toList
  | .real _ => "null".toList
  | .text s => string s
  | .moment s => string s
  | .list _ => "[]".toList
  | .record _ => "\x7b\x7d".toList

/-- The line break and the blanks in front of a line at a level. -/
def newLine (level : Nat) : List Char := '\n' :: List.replicate (2 * level) ' '

mutual

/-- A value on lines of its own, at a level. -/
def prettyAt (level : Nat) : Value → List Char
  | .list (item :: items) =>
    '[' :: newLine (level + 1) ++ prettyAt (level + 1) item ++ prettyItems (level + 1) items ++
      newLine level ++ [']']
  | .record (field :: fields) =>
    '{' :: newLine (level + 1) ++ string field.1 ++ [':', ' '] ++ prettyAt (level + 1) field.2 ++
      prettyFields (level + 1) fields ++ newLine level ++ ['}']
  | v => scalar v

/-- The items after the first one. -/
def prettyItems (level : Nat) : List Value → List Char
  | [] => []
  | item :: items => ',' :: newLine level ++ prettyAt level item ++ prettyItems level items

/-- The fields after the first one. -/
def prettyFields (level : Nat) : List (String × Value) → List Char
  | [] => []
  | field :: fields =>
    ',' :: newLine level ++ string field.1 ++ [':', ' '] ++ prettyAt level field.2 ++
      prettyFields level fields

end

mutual

def compactChars : Value → List Char
  | .list (item :: items) => '[' :: compactChars item ++ compactItems items ++ [']']
  | .record (field :: fields) =>
    '{' :: string field.1 ++ [':'] ++ compactChars field.2 ++ compactFields fields ++ ['}']
  | v => scalar v

def compactItems : List Value → List Char
  | [] => []
  | item :: items => ',' :: compactChars item ++ compactItems items

def compactFields : List (String × Value) → List Char
  | [] => []
  | field :: fields =>
    ',' :: string field.1 ++ [':'] ++ compactChars field.2 ++ compactFields fields

end

def compact (v : Value) : String := String.ofList (compactChars v)

/-- A value with every item and field on a line of its own. -/
def pretty (v : Value) : String := String.ofList (prettyAt 0 v)

end ComponentWiring.Json
