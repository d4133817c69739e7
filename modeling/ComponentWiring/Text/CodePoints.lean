/-! # Classes of characters given by ranges of code points

* `CodePoints`: a list of closed ranges, in ascending order.
* `CodePoints.has`: membership of a character.
-/

namespace ComponentWiring.Text
set_option autoImplicit false

/-- A class of characters: closed ranges of code points. -/
abbrev CodePoints := List (Nat × Nat)

/-- Whether one of the ranges holds the character. -/
def CodePoints.has (ranges : CodePoints) (c : Char) : Bool :=
  ranges.any fun range => range.1 ≤ c.toNat && c.toNat ≤ range.2

end ComponentWiring.Text
