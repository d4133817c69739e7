import ComponentWiring.Text.Parser

/-! # The editions of TOML and what they share

* `Edition`: which edition a text is read by.
* `isText`: the characters that stand for themselves in strings and comments.
* `skipBlank`, `skipGap`, `skipComment`, `skipLineEnd`: what may stand between tokens.
-/

namespace ComponentWiring.Toml
open Text
set_option autoImplicit false

/-- The editions of TOML. The later one has two more escapes, times without seconds, and inline
tables over several lines and with a comma after the last pair. -/
inductive Edition where
  | v10
  | v11
  deriving DecidableEq

def Edition.depth : Edition → Nat
  | .v10 => 79
  | .v11 => 80

/-- A character that stands for itself in strings and comments. -/
def isText (c : Char) : Bool := c = '\t' || (0x20 ≤ c.toNat && c.toNat ≠ 0x7F)

def isBlank (c : Char) : Bool := c = ' ' || c = '\t'

def skipBlank (s : List Char) : List Char := s.dropWhile isBlank

/-- The text after blanks, line breaks and comments, if they are well formed. `inside` tells that
the text starts inside a comment. -/
def skipGap (inside : Bool) : List Char → Option (List Char)
  | [] => some []
  | '\n' :: r => skipGap false r
  | '\r' :: '\n' :: r => skipGap false r
  | c :: r =>
    if inside then if isText c then skipGap true r else none
    else if c = '#' then skipGap true r
    else if isBlank c then skipGap false r
    else some (c :: r)

/-- The text up to the end of a line, which must consist of characters of comments. -/
def skipComment : List Char → Option (List Char)
  | [] => some []
  | '\n' :: r => some ('\n' :: r)
  | '\r' :: '\n' :: r => some ('\n' :: r)
  | c :: r => if isText c then skipComment r else none

/-- The text after the rest of a line that may hold only blanks and a comment. -/
def skipLineEnd (s : List Char) : Option (List Char) :=
  match skipBlank s with
  | [] => some []
  | '\n' :: r => some r
  | '\r' :: '\n' :: r => some r
  | '#' :: r => (skipComment r).map List.tail
  | _ => none

end ComponentWiring.Toml
