/-! # Binary floating point numbers and their decimal texts

A number is kept as an exact mantissa and a power of two, so reading and writing are arithmetic on
natural numbers.

* `Binary64`: the values of the 64 bit binary format.
* `Binary64.nearest`: the value nearest to a decimal, ties to the even mantissa.
* `Binary64.shortest`: the fewest decimal digits that read back as the value.
* `Binary64.plain`, `Binary64.pointed`: positional texts of a value.
-/

namespace ComponentWiring.Decimal
set_option autoImplicit false

/-- A value of the 64 bit binary format. A finite one is `mantissa * 2 ^ exponent`, with a mantissa
below `2 ^ 53` and an exponent of at least `-1074`. -/
inductive Binary64 where
  | notANumber
  | infinite (negative : Bool)
  | finite (negative : Bool) (mantissa : Nat) (exponent : Int)
  deriving DecidableEq, Repr

namespace Binary64

/-- The natural number nearest to `num / den`, the even one of two equally near. -/
def roundHalfEven (num den : Nat) : Nat :=
  let low := num / den
  let twice := 2 * (num % den)
  if twice < den then low
  else if den < twice then low + 1
  else if low % 2 = 0 then low else low + 1

/-- `num / den` times `base ^ (-q)` as a fraction. -/
def scaleDown (base num den : Nat) (q : Int) : Nat × Nat :=
  if q < 0 then (num * Nat.pow base q.natAbs, den) else (num, den * Nat.pow base q.natAbs)

/-- The value nearest to the positive fraction `num / den`. -/
def nearestFraction (negative : Bool) (num den : Nat) : Binary64 :=
  let q₀ : Int := (num.log2 : Int) - (den.log2 : Int) - 52
  let at₀ := scaleDown 2 num den q₀
  let q₁ := if at₀.1 / at₀.2 < Nat.pow 2 52 then q₀ - 1 else q₀
  let q := if q₁ < -1074 then -1074 else q₁
  let at' := scaleDown 2 num den q
  let m := roundHalfEven at'.1 at'.2
  let (m, q) := if m = Nat.pow 2 53 then (Nat.pow 2 52, q + 1) else (m, q)
  if 971 < q then .infinite negative else .finite negative m q

/-- The value nearest to `digits * 10 ^ power`; beyond the greatest finite value it is infinite. -/
def nearest (negative : Bool) (digits : Nat) (power : Int) : Binary64 :=
  if digits = 0 then .finite negative 0 (-1074)
  else
    let magnitude := ((Nat.toDigits 10 digits).length : Int) + power
    if 320 < magnitude then .infinite negative
    else if magnitude < -340 then .finite negative 0 (-1074)
    else if power < 0 then nearestFraction negative digits (Nat.pow 10 power.natAbs)
    else nearestFraction negative (digits * Nat.pow 10 power.natAbs) 1

/-- The place of the first digit of `num / den`: `10 ^ (p - 1) ≤ num / den < 10 ^ p`. -/
def leadingPlace (num den : Nat) : Int :=
  if den ≤ num then (Nat.toDigits 10 (num / den)).length
  else
    match (List.range 340).find? fun j => den ≤ num * Nat.pow 10 j with
    | some j => 1 - (j : Int)
    | none => -340

/-- The digits without their trailing zeros, and the power of ten that goes with them. -/
def dropZeros (digits : Nat) (power : Int) : Nat → Nat × Int
  | 0 => (digits, power)
  | steps + 1 =>
    if digits % 10 = 0 ∧ digits ≠ 0 then dropZeros (digits / 10) (power + 1) steps
    else (digits, power)

/-- The nearer of the two decimals with `count` digits around `num / den`, the even one of two
equally near, among those that read back as `value`. -/
def withDigits? (value : Binary64) (negative : Bool) (num den : Nat) (place : Int) (count : Nat) :
    Option (Nat × Int) :=
  let power := place - count
  let scaled := scaleDown 10 num den power
  let low := scaled.1 / scaled.2
  let reads (digits : Nat) : Bool := nearest negative digits power = value
  match reads low, reads (low + 1) with
  | true, true => some (roundHalfEven scaled.1 scaled.2, power)
  | true, false => some (low, power)
  | false, true => some (low + 1, power)
  | false, false => none

/-- The fewest digits, and the power of ten of the last one, that read back as the finite value
`mantissa * 2 ^ exponent`. -/
def shortest (negative : Bool) (mantissa : Nat) (exponent : Int) : Nat × Int :=
  let value := finite negative mantissa exponent
  if mantissa = 0 then (0, 0)
  else
    let fraction := scaleDown 2 mantissa 1 (-exponent)
    let place := leadingPlace fraction.1 fraction.2
    let hits := (List.range 17).findSome? fun k =>
      withDigits? value negative fraction.1 fraction.2 place (k + 1)
    match hits with
    | some (digits, power) => dropZeros digits power 20
    | none => (mantissa, exponent)

/-- `digits * 10 ^ power` in positional notation. -/
def positional (digits : Nat) (power : Int) : String :=
  let ds := Nat.toDigits 10 digits
  if 0 ≤ power then String.ofList (ds ++ List.replicate power.natAbs '0')
  else
    let places := power.natAbs
    let padded := List.replicate (places + 1 - ds.length) '0' ++ ds
    let whole := padded.length - places
    String.ofList (padded.take whole ++ '.' :: padded.drop whole)

/-- The shortest positional text: a whole number has no point. -/
def plain : Binary64 → String
  | notANumber => "NaN"
  | infinite negative => if negative then "-inf" else "inf"
  | finite negative mantissa exponent =>
    let (digits, power) := shortest negative mantissa exponent
    (if negative then "-" else "") ++ positional digits power

/-- The shortest positional text that shows a finite number to be no whole number type: a whole
number ends in `.0`. -/
def pointed (x : Binary64) : String :=
  match x with
  | finite _ _ _ => if x.plain.toList.contains '.' then x.plain else x.plain ++ ".0"
  | _ => x.plain

end Binary64

end ComponentWiring.Decimal
