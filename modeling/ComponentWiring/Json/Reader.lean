import ComponentWiring.Data.Value
import ComponentWiring.Text.Parser

/-! # Reading JSON

* `Json.read`: the value of a JSON text.

A number without point and exponent that fits 64 bits is an integer; every other number is a real.
-/

namespace ComponentWiring.Json
open Data Decimal Text
set_option autoImplicit false

/-- The text after the blank characters of JSON. -/
def skipBlank (s : List Char) : List Char :=
  s.dropWhile fun c => c = ' ' ∨ c = '\t' ∨ c = '\n' ∨ c = '\r'

/-- The character of the escape that follows a backslash, and the number of characters it takes. -/
def escape? : List Char → Option (Char × Nat)
  | '"' :: _ => some ('"', 1)
  | '\\' :: _ => some ('\\', 1)
  | '/' :: _ => some ('/', 1)
  | 'b' :: _ => some ('\x08', 1)
  | 'f' :: _ => some ('\x0c', 1)
  | 'n' :: _ => some ('\n', 1)
  | 'r' :: _ => some ('\r', 1)
  | 't' :: _ => some ('\t', 1)
  | 'u' :: r => do
    let high ← hexNumber? 4 r
    if 0xD800 ≤ high ∧ high < 0xDC00 then
      match r.drop 4 with
      | '\\' :: 'u' :: r' =>
        let low ← hexNumber? 4 r'
        if 0xDC00 ≤ low ∧ low < 0xE000 then
          let c ← charOfNat? (0x10000 + (high - 0xD800) * 0x400 + (low - 0xDC00))
          pure (c, 11)
        else none
      | _ => none
    else
      let c ← charOfNat? high
      pure (c, 5)
  | _ => none

/-- The characters up to the closing quote, after `skip` characters. -/
def stringBody : Nat → Parser (List Char)
  | _, [] => none
  | skip + 1, _ :: r => stringBody skip r
  | 0, c :: r =>
    if c = '"' then some ([], r)
    else if c = '\\' then
      match escape? r with
      | some (e, taken) => (stringBody taken r).map fun (cs, rest) => (e :: cs, rest)
      | none => none
    else if c.toNat < 0x20 then none
    else (stringBody 0 r).map fun (cs, rest) => (c :: cs, rest)

def digits1? (s : List Char) : Option (List Char × List Char) :=
  let digits := s.takeWhile isDigit
  if digits = [] then none else some (digits, s.drop digits.length)

/-- The digits after a point, if there is one. -/
def fraction? : Parser (List Char)
  | '.' :: r => digits1? r
  | s => some ([], s)

/-- The power of ten, if there is one. -/
def exponent? (s : List Char) : Option (Option Int × List Char) :=
  match s with
  | c :: r =>
    if c = 'e' ∨ c = 'E' then
      match r with
      | '-' :: r' => (digits1? r').map fun (ds, rest) => (some (-(decimalNumber ds : Int)), rest)
      | '+' :: r' => (digits1? r').map fun (ds, rest) => (some (decimalNumber ds : Int), rest)
      | _ => (digits1? r).map fun (ds, rest) => (some (decimalNumber ds : Int), rest)
    else some (none, s)
  | [] => some (none, s)

/-- A number from its sign, the digits before and after the point, and the power of ten. -/
def number (negative : Bool) (whole fraction : List Char) (power : Option Int) : Value :=
  let digits := decimalNumber (whole ++ fraction)
  let asReal : Value :=
    .real (Binary64.nearest negative digits (power.getD 0 - fraction.length))
  if fraction ≠ [] ∨ power.isSome then asReal
  else if negative then
    if 0 < digits ∧ digits ≤ Nat.pow 2 63 then .integer (-(digits : Int)) else asReal
  else if digits < Nat.pow 2 64 then .integer digits
  else asReal

/-- A number; the digits before the point start with a zero only if that is the only one. -/
def number? (s : List Char) : Option (Value × List Char) := do
  let negative := s.head? = some '-'
  let s := if negative then s.tail else s
  let (whole, s) ← digits1? s
  if whole.head? = some '0' ∧ whole.length ≠ 1 then none
  else
    let (fraction, s) ← fraction? s
    let (power, s) ← exponent? s
    pure (number negative whole fraction power, s)

def member (value : Parser Value) (s : List Char) : Option ((String × Value) × List Char) :=
  match s with
  | '"' :: r => do
    let (key, s) ← stringBody 0 r
    match skipBlank s with
    | ':' :: r =>
      let (v, s) ← value (skipBlank r)
      pure ((String.ofList key, v), s)
    | _ => none
  | _ => none

/-- A value that holds others at most `depth` deep. -/
def value : Nat → Parser Value
  | 0, _ => none
  | depth + 1, s =>
    match s with
    | '[' :: r =>
      (separated (value depth) (some ∘ skipBlank) ']' false false r.length r).map
        fun (items, rest) => (.list items, rest)
    | '{' :: r =>
      (separated (member (value depth)) (some ∘ skipBlank) '}' false false r.length r).map
        fun (fields, rest) => (.record fields, rest)
    | '"' :: r => (stringBody 0 r).map fun (cs, rest) => (.text (String.ofList cs), rest)
    | 't' :: 'r' :: 'u' :: 'e' :: r => some (.bool true, r)
    | 'f' :: 'a' :: 'l' :: 's' :: 'e' :: r => some (.bool false, r)
    | 'n' :: 'u' :: 'l' :: 'l' :: r => some (.null, r)
    | _ => number? s

def read (text : String) : Option Value :=
  let s := skipBlank text.toList
  match value (s.length + 1) s with
  | some (v, rest) => if skipBlank rest = [] then some v else none
  | none => none

end ComponentWiring.Json
