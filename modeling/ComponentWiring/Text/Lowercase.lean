import ComponentWiring.Text.CaseTable

/-! # Lower case

The full lower case of a text: each character by the table, the capital I with a dot above as two
characters, and the capital sigma by its place in the word.

* `lowercase`: the lower case of a text.
-/

namespace ComponentWiring.Text
set_option autoImplicit false

def LowerRun.covers (run : LowerRun) (c : Char) : Bool :=
  run.first ≤ c.toNat && c.toNat ≤ run.last && (c.toNat - run.first) % run.step == 0

/-- The lower case of a character outside of any word. -/
def lowerChar (c : Char) : Char :=
  match lowerRuns.find? (·.covers c) with
  | some run => Char.ofNat (c.toNat + run.shift).toNat
  | none => c

/-- Whether the next character that is not skipped in words belongs to a word. -/
def startsInWord (cs : List Char) : Bool :=
  match cs.dropWhile caseIgnorable.has with
  | [] => false
  | c :: _ => cased.has c

/-- The lower case of `cs`, where `before` is the text in front of it, nearest character first. A
capital sigma at the end of a word has a form of its own. -/
def lowerFrom (before : List Char) : List Char → List Char
  | [] => []
  | c :: r =>
    let here :=
      if c = '\u03A3' then
        [if startsInWord before && !startsInWord r then '\u03C2' else '\u03C3']
      else if c = '\u0130' then ['i', '\u0307']
      else [lowerChar c]
    here ++ lowerFrom (c :: before) r

def lowercase (s : String) : String := String.ofList (lowerFrom [] s.toList)

end ComponentWiring.Text
