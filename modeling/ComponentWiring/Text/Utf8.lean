import ComponentWiring.Text.Parser

/-! # Bytes as text

* `decodeFirst`: the character that the first bytes encode, or how many bytes encode none.
* `shown`: the text that bytes encode, with a replacement character for what encodes none.
-/

namespace ComponentWiring.Text.Utf8
set_option autoImplicit false

/-- The character that is shown for bytes that encode none. -/
def replacement : Char := '\uFFFD'

/-- How many bytes follow a leading byte, and the bounds of the first one that follows. -/
def trailing? (lead : UInt8) : Option (Nat × UInt8 × UInt8) :=
  if 0xC2 ≤ lead ∧ lead ≤ 0xDF then some (1, 0x80, 0xBF)
  else if lead = 0xE0 then some (2, 0xA0, 0xBF)
  else if lead = 0xED then some (2, 0x80, 0x9F)
  else if 0xE1 ≤ lead ∧ lead ≤ 0xEF then some (2, 0x80, 0xBF)
  else if lead = 0xF0 then some (3, 0x90, 0xBF)
  else if lead = 0xF4 then some (3, 0x80, 0x8F)
  else if 0xF1 ≤ lead ∧ lead ≤ 0xF3 then some (3, 0x80, 0xBF)
  else none

/-- The bytes that can follow: at most `count`, the first within the bounds and the others within
the common ones. -/
def following : Nat → UInt8 → UInt8 → List UInt8 → List UInt8
  | 0, _, _, _ => []
  | _, _, _, [] => []
  | count + 1, low, high, b :: r =>
    if low ≤ b ∧ b ≤ high then b :: following count 0x80 0xBF r else []

/-- The bits of a leading byte that belong to the character, by the number of bytes that follow. -/
def leadBits (lead : UInt8) : Nat → Nat
  | 1 => lead.toNat % 0x20
  | 2 => lead.toNat % 0x10
  | _ => lead.toNat % 0x08

/-- The character that a byte and those behind it encode, and how many bytes behind it were used. -/
def decodeFirst (lead : UInt8) (rest : List UInt8) : Option Char × Nat :=
  if lead < 0x80 then (some (Char.ofNat lead.toNat), 0)
  else
    match trailing? lead with
    | none => (none, 0)
    | some (count, low, high) =>
      let used := following count low high rest
      if used.length = count then
        (charOfNat? (used.foldl (fun n b => 64 * n + b.toNat % 64) (leadBits lead count)), count)
      else (none, used.length)

/-- The characters that bytes encode, after `skip` bytes. -/
def shownFrom : Nat → List UInt8 → List Char
  | _, [] => []
  | skip + 1, _ :: r => shownFrom skip r
  | 0, b :: r =>
    let (c, used) := decodeFirst b r
    c.getD replacement :: shownFrom used r

/-- The text that bytes encode; every longest run that could still have become a character is shown
as one replacement character. -/
def shown (bytes : List UInt8) : String := String.ofList (shownFrom 0 bytes)

end ComponentWiring.Text.Utf8
