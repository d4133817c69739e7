import ComponentWiring.Data.Value
import ComponentWiring.Toml.Edition

/-! # Reading TOML numbers, dates and times

* `number?`: an integer or a real.
* `date?`, `time?`, `offset?`, `moment?`: dates and times, checked against the calendar.
* `scalar?`: a number, a date or time, or a truth value.
-/

namespace ComponentWiring.Toml
open Text Data Decimal
set_option autoImplicit false

/-! ## Numbers -/

/-- Digits of a class with single underscores between them, as the digits and the rest. -/
def digits? (isDigit : Char → Bool) : Parser (List Char)
  | [] => none
  | c :: r =>
    if isDigit c then
      match r with
      | '_' :: r' =>
        match digits? isDigit r' with
        | some (ds, rest) => some (c :: ds, rest)
        | none => some ([c], r)
      | r =>
        match digits? isDigit r with
        | some (ds, rest) => some (c :: ds, rest)
        | none => some ([c], r)
    else none

/-- A digit below a base of at most sixteen. -/
def isDigitOf (base : Nat) (c : Char) : Bool :=
  match hexDigit? c with
  | some n => n < base
  | none => false

def numberOf (base : Nat) (ds : List Char) : Nat :=
  ds.foldl (fun n c => base * n + (hexDigit? c).getD 0) 0

def integer? (n : Int) : Option Value :=
  if -(Nat.pow 2 63 : Int) ≤ n ∧ n < (Nat.pow 2 63 : Int) then some (.integer n) else none

def based? (base : Nat) (s : List Char) : Option (Value × List Char) := do
  let (ds, rest) ← digits? (isDigitOf base) s
  let v ← integer? (numberOf base ds)
  pure (v, rest)

/-- The sign in front of a number: whether it is negative, and the rest. -/
def sign : List Char → Bool × List Char
  | '-' :: r => (true, r)
  | '+' :: r => (false, r)
  | s => (false, s)

/-- The power of ten behind the digits of a real. -/
def power? : List Char → Option (Int × List Char)
  | c :: r =>
    if c = 'e' ∨ c = 'E' then do
      let (negative, r) := sign r
      let (ds, rest) ← digits? isDigit r
      pure (if negative then -(decimalNumber ds : Int) else decimalNumber ds, rest)
    else none
  | [] => none

/-- A real whose value is finite. The earlier edition lets a negative one pass all bounds. -/
def real? (edition : Edition) (x : Binary64) : Option Value :=
  match x with
  | .infinite negative =>
    if edition = .v10 ∧ negative = true then some (.real (.infinite true)) else none
  | x => some (.real x)

/-- A decimal number: an integer, or a real if a point or a power of ten follows. -/
def decimal? (edition : Edition) (s : List Char) : Option (Value × List Char) := do
  let (negative, r) := sign s
  let (whole, r) ← digits? isDigit r
  if whole.head? = some '0' ∧ whole.length ≠ 1 then none
  else
    let (fraction, r) ← match r with
      | '.' :: r' => digits? isDigit r'
      | r => some ([], r)
    let digits := decimalNumber (whole ++ fraction)
    match power? r with
    | some (power, rest) =>
      let v ← real? edition (Binary64.nearest negative digits (power - fraction.length))
      pure (v, rest)
    | none =>
      if fraction = [] then
        let v ← integer? (if negative then -(digits : Int) else digits)
        pure (v, r)
      else
        let v ← real? edition (Binary64.nearest negative digits (-(fraction.length : Int)))
        pure (v, r)

def number? (edition : Edition) (s : List Char) : Option (Value × List Char) :=
  match s with
  | '0' :: 'x' :: r => based? 16 r
  | '0' :: 'o' :: r => based? 8 r
  | '0' :: 'b' :: r => based? 2 r
  | _ =>
    match sign s with
    | (negative, 'i' :: 'n' :: 'f' :: r) => some (.real (.infinite negative), r)
    | (_, 'n' :: 'a' :: 'n' :: r) => some (.real .notANumber, r)
    | _ => decimal? edition s

/-! ## Dates and times -/

/-- A number of exactly so many digits that lies between two bounds. -/
def bounded? (count low high : Nat) (s : List Char) : Option (Nat × List Char) :=
  let ds := s.take count
  if ds.length = count ∧ ds.all isDigit ∧ low ≤ decimalNumber ds ∧ decimalNumber ds ≤ high then
    some (decimalNumber ds, s.drop count)
  else none

/-- The rest behind a given character. -/
def after? (c : Char) : List Char → Option (List Char)
  | d :: r => if d = c then some r else none
  | [] => none

def isLeap (year : Nat) : Bool := (year % 4 = 0 && year % 100 ≠ 0) || year % 400 = 0

def daysIn (year month : Nat) : Nat :=
  if month = 2 then if isLeap year then 29 else 28
  else if month = 4 ∨ month = 6 ∨ month = 9 ∨ month = 11 then 30
  else 31

/-- The rest behind a date. -/
def date? (s : List Char) : Option (List Char) := do
  let (year, s) ← bounded? 4 0 9999 s
  let s ← after? '-' s
  let (month, s) ← bounded? 2 1 12 s
  let s ← after? '-' s
  let (_, s) ← bounded? 2 1 (daysIn year month) s
  pure s

/-- The rest behind a fraction of a second, if there is one. -/
def fraction? : List Char → Option (List Char)
  | '.' :: r =>
    let ds := r.takeWhile isDigit
    if ds = [] then none else some (r.drop ds.length)
  | s => some s

/-- The rest behind a time. The later edition lets the seconds be left out. -/
def time? (edition : Edition) (s : List Char) : Option (List Char) := do
  let (_, s) ← bounded? 2 0 23 s
  let s ← after? ':' s
  let (_, s) ← bounded? 2 0 59 s
  match after? ':' s with
  | some s => do
    let (_, s) ← bounded? 2 0 60 s
    fraction? s
  | none => if edition = .v11 then some s else none

/-- The rest behind the offset of a time, if there is one. -/
def offset? (s : List Char) : Option (List Char) :=
  match s with
  | c :: r =>
    if c = 'Z' ∨ c = 'z' then some r
    else if c = '+' ∨ c = '-' then do
      let (_, s) ← bounded? 2 0 23 r
      let s ← after? ':' s
      let (_, s) ← bounded? 2 0 59 s
      pure s
    else some s
  | [] => some []

/-- Whether a time follows behind a date: after a `T`, or after a single blank. -/
def timeAfterDate? : List Char → Option (List Char)
  | 'T' :: r => some r
  | 't' :: r => some r
  | ' ' :: c :: r => if isDigit c then some (c :: r) else none
  | _ => none

/-- The rest behind a date, a time or both. -/
def momentRest? (edition : Edition) (s : List Char) : Option (List Char) :=
  if (s.drop 2).head? = some ':' then time? edition s
  else do
    let s ← date? s
    match timeAfterDate? s with
    | some s => do
      let s ← time? edition s
      offset? s
    | none => pure s

/-- Whether a text starts like a date or a time. -/
def startsMoment (s : List Char) : Bool :=
  let ds := s.takeWhile isDigit
  (ds.length == 2 && (s.drop 2).head? == some ':') ||
    (ds.length == 4 && (s.drop 4).head? == some '-')

def moment? (edition : Edition) (s : List Char) : Option (Value × List Char) := do
  let rest ← momentRest? edition s
  pure (.moment (String.ofList (s.take (s.length - rest.length))), rest)

def scalar? (edition : Edition) (s : List Char) : Option (Value × List Char) :=
  match s with
  | 't' :: 'r' :: 'u' :: 'e' :: r => some (.bool true, r)
  | 'f' :: 'a' :: 'l' :: 's' :: 'e' :: r => some (.bool false, r)
  | _ => if startsMoment s then moment? edition s else number? edition s

end ComponentWiring.Toml
