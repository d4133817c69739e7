/-! # Reading text from the left

A parser takes characters off the front of a text and gives a value and the rest.

* `Parser`: what is read, and what is left.
* `separated`: items with commas between them, up to a closing character.
-/

namespace ComponentWiring.Text
set_option autoImplicit false

/-- Reads a value off the front of a text, or refuses the text. -/
abbrev Parser (α : Type) := List Char → Option (α × List Char)

/-- Items with commas between them, up to and with the character `close`. `gap` skips what may stand
around an item, `trailing` allows a comma after the last one, and `more` tells that a comma was just
read after which an item must follow. At most `limit` items are read. -/
def separated {α : Type} (item : Parser α) (gap : List Char → Option (List Char)) (close : Char)
    (trailing : Bool) : Bool → Nat → Parser (List α)
  | _, 0, _ => none
  | more, limit + 1, s => do
    let s ← gap s
    if s.head? = some close ∧ more = false then
      pure ([], s.tail)
    else
      let (x, s) ← item s
      let s ← gap s
      match s with
      | [] => none
      | c :: r =>
        if c = close then pure ([x], r)
        else if c = ',' then
          let (xs, r) ← separated item gap close trailing (!trailing) limit r
          pure (x :: xs, r)
        else none

section Separated
variable {α : Type} {item : Parser α} {gap : List Char → Option (List Char)} {close : Char}
  {trailing more : Bool} {x : α} {s start behind rest : List Char} (hgap : gap s = some start)
  (hstart : start.head? ≠ some close) (hitem : item start = some (x, behind))
include hgap hstart hitem

theorem separated_last (limit : Nat) (hbehind : gap behind = some (close :: rest)) :
    separated item gap close trailing more (limit + 1) s = some ([x], rest) := by
  rw [separated, hgap]
  simp [hstart, hitem, hbehind]

theorem separated_comma (limit : Nat) (hcomma : close ≠ ',')
    (hbehind : gap behind = some (',' :: rest)) :
    separated item gap close trailing more (limit + 1) s =
      (separated item gap close trailing (!trailing) limit rest).map fun (xs, rest) =>
        (x :: xs, rest) := by
  rw [separated, hgap]
  simp only [Option.bind_eq_bind, Option.bind_some, hstart, false_and, if_false, hitem, hbehind,
    if_neg hcomma.symm, if_true]
  cases separated item gap close trailing (!trailing) limit rest <;> rfl

end Separated

def hexDigit? (c : Char) : Option Nat :=
  if '0' ≤ c ∧ c ≤ '9' then some (c.toNat - '0'.toNat)
  else if 'a' ≤ c ∧ c ≤ 'f' then some (c.toNat - 'a'.toNat + 10)
  else if 'A' ≤ c ∧ c ≤ 'F' then some (c.toNat - 'A'.toNat + 10)
  else none

/-- The number written by exactly `count` hexadecimal digits at the front. -/
def hexNumber? : Nat → List Char → Option Nat
  | count, cs =>
    let digits := cs.take count
    if digits.length = count then
      digits.foldlM (fun n c => (hexDigit? c).map (16 * n + ·)) 0
    else none

/-- The character of a code point; surrogates and numbers beyond the last one have none. -/
def charOfNat? (n : Nat) : Option Char :=
  if h : n.isValidChar then some (Char.ofNatAux n h) else none

theorem charOfNat?_toNat (c : Char) : charOfNat? c.toNat = some c := dif_pos c.valid

/-- The decimal number written by digits, leftmost first. -/
def decimalNumber (digits : List Char) : Nat :=
  digits.foldl (fun n c => 10 * n + (c.toNat - '0'.toNat)) 0

def isDigit (c : Char) : Bool := '0' ≤ c && c ≤ '9'

end ComponentWiring.Text
