import ComponentWiring.Toml.Quoted
import ComponentWiring.Toml.Writer
import Mathlib.Order.Basic

/-! # Strings written and read back

A string is written in one of four kinds of quotes. Reading takes it off the front of a text and
gives back its characters, whatever they are, in both editions.

* `Toml.Follows`: texts that may stand behind a string.
* `Toml.Fits`: strings that can be written in a kind of quotes.
* `Toml.fits_quotesFor`: the kind that is chosen is one of these.
* `Toml.string?_within`: reading undoes writing.
-/

namespace ComponentWiring
set_option autoImplicit false

namespace Toml
open Text

/-! ## Escapes -/

theorem hexDigit?_hexUpper (n : Nat) : hexDigit? (hexUpper n) = some (n % 16) := by
  have hdigit : ∀ k < 16, hexDigit? (Nat.digitChar k).toUpper = some k := by decide
  exact hdigit _ (Nat.mod_lt n (by decide))

theorem hexNumber?_hexFour {n : Nat} (hn : n < 65536) (rest : List Char) :
    hexNumber? 4 (hexFour n ++ rest) = some n := by
  have hvalue : 16 * (16 * (16 * (16 * 0 + n / 4096 % 16) + n / 256 % 16) + n / 16 % 16) + n % 16 =
      n := by
    omega
  have htake : (hexFour n ++ rest).take 4 = hexFour n := rfl
  have hlength : (hexFour n).length = 4 := rfl
  rw [hexNumber?, htake, if_pos hlength, hexFour]
  simp only [List.foldlM_cons, List.foldlM_nil, hexDigit?_hexUpper, Option.map_some,
    Option.bind_eq_bind, Option.bind_some, Option.pure_def, hvalue]

theorem toNat_lt_of_isControl {c : Char} (h : isControl c = true) : c.toNat < 128 := by
  simp only [isControl, Bool.or_eq_true, Bool.and_eq_true, decide_eq_true_eq, beq_iff_eq] at h
  omega

/-- What a written escape says when it is read. -/
structure Escapes (c : Char) (escaped : List Char) : Prop where
  read : ∀ edition rest, escapeIn? edition (escaped ++ rest) = some (c, escaped.length)
  notFolded : ∀ rest, foldedLines? (escaped ++ rest) = none

theorem escapes_quote : Escapes '"' ['"'] := ⟨fun _ _ => rfl, fun _ => rfl⟩

theorem escapes_code {c : Char} (h : isControl c = true) : Escapes c ('u' :: hexFour c.toNat) where
  read := by
    intro edition rest
    have hlow := toNat_lt_of_isControl h
    have hn : c.toNat < 65536 := by omega
    have hread := hexNumber?_hexFour hn rest
    rw [List.cons_append, escapeIn?, hexEscape?, hread]
    simp only [Option.bind_eq_bind, Option.bind_some, charOfNat?_toNat, Option.pure_def]
    rfl
  notFolded := fun _ => rfl

/-- A character is escaped in a way that is read as this character, or it is a line break between
triple quotes, or stands for itself. -/
theorem escape?_cases (lines : Bool) (c : Char) :
    (∃ escaped, escape? lines c = some ('\\' :: escaped) ∧ Escapes c escaped) ∨
      escape? lines c = none ∧ c ≠ '\\' ∧ c ≠ '\r' ∧
        (isText c = true ∨ lines = true ∧ c = '\n') := by
  rw [escape?]
  split
  · next hc => subst hc; exact .inl ⟨['b'], rfl, fun _ _ => rfl, fun _ => rfl⟩
  split
  · next hc => subst hc; exact .inl ⟨['t'], rfl, fun _ _ => rfl, fun _ => rfl⟩
  split
  · next hc => subst hc; exact .inl ⟨['f'], rfl, fun _ _ => rfl, fun _ => rfl⟩
  split
  · next hc => subst hc; exact .inl ⟨['r'], rfl, fun _ _ => rfl, fun _ => rfl⟩
  next hreturn =>
  split
  · next hc => subst hc; exact .inl ⟨['\\'], rfl, fun _ _ => rfl, fun _ => rfl⟩
  next hbackslash =>
  split
  · next hc =>
    subst hc
    cases lines with
    | false => exact .inl ⟨['n'], rfl, fun _ _ => rfl, fun _ => rfl⟩
    | true => exact .inr ⟨rfl, by decide, by decide, .inr ⟨rfl, rfl⟩⟩
  next hbreak =>
  split
  · next hcontrol => exact .inl ⟨_, rfl, escapes_code hcontrol⟩
  · next hcontrol =>
    refine .inr ⟨rfl, hbackslash, hreturn, .inl ?_⟩
    simp only [isControl, isText, Bool.or_eq_true, Bool.and_eq_true, decide_eq_true_eq, beq_iff_eq,
      not_or, not_and, not_not] at hcontrol ⊢
    by_cases htab : c = '\t'
    · exact .inl htab
    · have hlow : ¬ c.toNat < 32 := fun hlt => hbreak (hcontrol.1 ⟨hlt, htab⟩)
      exact .inr ⟨Nat.not_lt.1 hlow, hcontrol.2⟩

/-! ## Between quotes on one line -/

theorem basicBody_skip (edition : Edition) (skipped rest : List Char) :
    basicBody edition skipped.length (skipped ++ rest) = basicBody edition 0 rest := by
  induction skipped with
  | nil => rfl
  | cons c skipped ih => exact ih

theorem basicBody_escaped (edition : Edition) {c : Char} {escaped : List Char}
    (h : Escapes c escaped) (rest : List Char) :
    basicBody edition 0 ('\\' :: (escaped ++ rest)) = put c (basicBody edition 0 rest) := by
  rw [basicBody, if_neg (by decide), if_pos rfl, h.read]
  dsimp only
  rw [basicBody_skip]

theorem basicBody_basicText (edition : Edition) (row : Nat) (cs rest : List Char) :
    basicBody edition 0 (basicText false 0 row cs ++ '"' :: rest) = some (cs, rest) := by
  induction cs generalizing row with
  | nil => rfl
  | cons c cs ih =>
    rw [basicText]
    split
    · next hquote =>
      subst hquote
      rw [if_pos (Nat.zero_le row)]
      exact (basicBody_escaped edition escapes_quote _).trans (congrArg (put '"') (ih 0))
    · next hquote =>
      rcases escape?_cases false c with ⟨escaped, hsome, hescapes⟩ | ⟨hnone, hslash, -, htext⟩
      · rw [hsome]
        dsimp only
        rw [List.cons_append, List.cons_append, List.append_assoc,
          basicBody_escaped edition hescapes,
          ih 0]
        rfl
      · have htext : isText c = true := by simpa using htext
        rw [hnone]
        dsimp only
        rw [List.cons_append, basicBody, if_neg hquote, if_neg hslash, if_pos htext, ih 0]
        rfl

theorem literalBody_append {cs : List Char} (h : ∀ c ∈ cs, c ≠ '\'' ∧ isText c = true)
    (rest : List Char) : literalBody (cs ++ '\'' :: rest) = some (cs, rest) := by
  induction cs with
  | nil => rfl
  | cons c cs ih =>
    obtain ⟨⟨hquote, htext⟩, hrest⟩ := List.forall_mem_cons.1 h
    rw [List.cons_append, literalBody, if_neg hquote, if_pos htext, ih hrest]
    rfl

/-! ## Between triple quotes -/

/-- A text that may stand behind a string: it does not start with a quote. -/
structure Follows (rest : List Char) : Prop where
  noQuote : rest.head? ≠ some '"'
  noApostrophe : rest.head? ≠ some '\''

theorem follows_lineFeed (rest : List Char) : Follows ('\n' :: rest) := ⟨by simp, by simp⟩

theorem startsWithTwo_two (q : Char) (rest : List Char) :
    startsWithTwo q (q :: q :: rest) = true := by
  simp [startsWithTwo]

theorem startsWithTwo_cons_of_ne {q c : Char} (h : c ≠ q) (rest : List Char) :
    startsWithTwo q (c :: rest) = false := by
  cases rest with
  | nil => rfl
  | cons d rest => simp [startsWithTwo, h]

theorem startsWithTwo_of_second_ne {q d : Char} (h : d ≠ q) (c : Char) (rest : List Char) :
    startsWithTwo q (c :: d :: rest) = false := by
  simp [startsWithTwo, h]

theorem startsWithTwo_lone {q : Char} {rest : List Char} (h : rest.head? ≠ some q) :
    startsWithTwo q (q :: rest) = false := by
  cases rest with
  | nil => rfl
  | cons c rest => exact startsWithTwo_of_second_ne (by simpa using h) q rest

theorem replicate_append_three (k : Nat) (q : Char) (rest : List Char) :
    List.replicate k q ++ q :: q :: q :: rest = q :: q :: q :: (List.replicate k q ++ rest) := by
  induction k with
  | zero => rfl
  | succ k ih => rw [List.replicate_succ, List.cons_append, ih, List.cons_append]

/-- Up to two quotes in front of the three closing ones belong to the string. -/
theorem closing_replicate {q : Char} {k : Nat} (hk : k ≤ 2) {rest : List Char}
    (hrest : rest.head? ≠ some q) :
    closing q (List.replicate k q ++ rest) = (List.replicate k q, rest) := by
  have hrun : (List.replicate k q ++ rest).takeWhile (· = q) = List.replicate k q := by
    rw [List.takeWhile_append_of_pos (by simp)]
    cases rest with
    | nil => simp
    | cons c rest =>
      have hc : c ≠ q := by simpa using hrest
      simp [hc]
  have htake : (List.replicate k q).take 2 = List.replicate k q := by
    rw [List.take_of_length_le (by simpa using hk)]
  rw [closing, hrun, htake, List.length_replicate, List.drop_append_of_le_length (by simp)]
  simp

theorem basicLines_close (edition : Edition) {k : Nat} (hk : k ≤ 2) {rest : List Char}
    (hrest : Follows rest) :
    basicLines edition 0 (List.replicate k '"' ++ '"' :: '"' :: '"' :: rest) =
      some (List.replicate k '"', rest) := by
  rw [replicate_append_three, basicLines, if_pos rfl, startsWithTwo_two, if_pos rfl]
  exact congrArg some (closing_replicate hk hrest.noQuote)

theorem literalLines_close (edition : Edition) {k : Nat} (hk : k ≤ 2) {rest : List Char}
    (hrest : Follows rest) :
    literalLines edition 0 (List.replicate k '\'' ++ '\'' :: '\'' :: '\'' :: rest) =
      some (List.replicate k '\'', rest) := by
  rw [replicate_append_three, literalLines, if_pos rfl, startsWithTwo_two, if_pos rfl]
  exact congrArg some (closing_replicate hk hrest.noApostrophe)

theorem basicLines_skip (edition : Edition) (skipped rest : List Char) :
    basicLines edition skipped.length (skipped ++ rest) = basicLines edition 0 rest := by
  induction skipped with
  | nil => rfl
  | cons c skipped ih => exact ih

theorem basicLines_escaped (edition : Edition) {c : Char} {escaped : List Char}
    (h : Escapes c escaped) (rest : List Char) :
    basicLines edition 0 ('\\' :: (escaped ++ rest)) = put c (basicLines edition 0 rest) := by
  rw [basicLines, if_neg (by decide), if_pos rfl, h.notFolded, h.read]
  dsimp only
  rw [basicLines_skip]

/-- The characters end with a run of quotes that may all stand unescaped, `row` being in front. -/
def EndsRow (row : Nat) (cs : List Char) : Prop := ∃ k, cs = List.replicate k '"' ∧ row + k ≤ 2

theorem basicText_replicate (lines : Bool) {row k : Nat} (h : row + k ≤ 2) :
    basicText lines 2 row (List.replicate k '"') = List.replicate k '"' := by
  induction k generalizing row with
  | zero => rfl
  | succ k ih =>
    rw [List.replicate_succ, basicText, if_pos rfl, if_neg (by omega), ih (by omega)]

/-- What is written for a text in which another character than a quote comes first does not start
with a quote. -/
theorem exists_basicText_cons (lines : Bool) (free row : Nat) {c : Char} (hc : c ≠ '"')
    (cs : List Char) :
    ∃ d more, basicText lines free row (c :: cs) = d :: more ∧ d ≠ '"' ∧ d ≠ '\r' ∧
      (d = '\n' → c = '\n') := by
  rw [basicText, if_neg hc]
  rcases escape?_cases lines c with ⟨escaped, hsome, -⟩ | ⟨hnone, -, hreturn, -⟩
  · rw [hsome]
    exact ⟨'\\', _, rfl, by decide, by decide, fun h => absurd h (by decide)⟩
  · rw [hnone]
    exact ⟨c, _, rfl, hc, hreturn, id⟩

/-- Behind an unescaped quote two more follow only in the run at the end. -/
theorem startsWithTwo_basicText (lines : Bool) {row : Nat} {cs : List Char}
    (h : ¬ EndsRow (row + 1) cs) (hrow : row + 1 ≤ 2) (rest : List Char) :
    startsWithTwo '"' (basicText lines 2 (row + 1) cs ++ rest) = false := by
  cases cs with
  | nil => exact absurd ⟨0, rfl, hrow⟩ h
  | cons c cs =>
    by_cases hc : c = '"'
    · subst hc
      rw [basicText, if_pos rfl]
      split
      · exact startsWithTwo_cons_of_ne (by decide) _
      · next hfree =>
        cases cs with
        | nil => exact absurd ⟨1, rfl, by omega⟩ h
        | cons d cs =>
          by_cases hd : d = '"'
          · subst hd
            rw [basicText, if_pos rfl, if_pos (by omega)]
            exact startsWithTwo_of_second_ne (by decide) _ _
          · obtain ⟨e, more, hmore, he, -⟩ := exists_basicText_cons lines 2 (row + 1 + 1) hd cs
            rw [hmore]
            exact startsWithTwo_of_second_ne he _ _
    · obtain ⟨d, more, hmore, hd, -⟩ := exists_basicText_cons lines 2 (row + 1) hc cs
      rw [hmore]
      exact startsWithTwo_cons_of_ne hd _

theorem basicLines_basicText (edition : Edition) {rest : List Char} (hrest : Follows rest)
    (row : Nat) (cs : List Char) :
    basicLines edition 0 (basicText true 2 row cs ++ '"' :: '"' :: '"' :: rest) =
      some (cs, rest) := by
  induction cs generalizing row with
  | nil => exact basicLines_close edition (Nat.zero_le 2) hrest
  | cons c cs ih =>
    by_cases hquote : c = '"'
    · subst hquote
      by_cases hfree : 2 ≤ row
      · rw [basicText, if_pos rfl, if_pos hfree]
        exact (basicLines_escaped edition escapes_quote _).trans (congrArg (put '"') (ih 0))
      by_cases hends : EndsRow (row + 1) cs
      · -- the run at the end is read together with the closing quotes
        obtain ⟨k, rfl, hk⟩ := hends
        have hrun : row + (k + 1) ≤ 2 := by omega
        rw [← List.replicate_succ, basicText_replicate true hrun]
        exact basicLines_close edition (by omega) hrest
      · have hnot := startsWithTwo_basicText true hends (by omega) ('"' :: '"' :: '"' :: rest)
        rw [basicText, if_pos rfl, if_neg hfree, List.cons_append, basicLines, if_pos rfl, hnot, ih]
        rfl
    · rw [basicText, if_neg hquote]
      rcases escape?_cases true c with ⟨escaped, hsome, hescapes⟩ | ⟨hnone, hslash, hreturn, htext⟩
      · rw [hsome]
        dsimp only
        rw [List.cons_append, List.cons_append, List.append_assoc,
          basicLines_escaped edition hescapes, ih 0]
        rfl
      · rw [hnone]
        dsimp only
        rw [List.cons_append, basicLines, if_neg hquote, if_neg hslash]
        rcases htext with htext | ⟨-, rfl⟩
        · by_cases hbreak : c = '\n'
          · rw [if_pos hbreak, ih 0]
            rfl
          · rw [if_neg hbreak, if_neg (fun h => hreturn h.1), if_pos htext, ih 0]
            rfl
        · rw [if_pos rfl, ih 0]
          rfl

/-- A character that stands between triple apostrophes as it is. -/
def IsLiteral (c : Char) : Prop := c = '\n' ∨ isText c = true ∧ c ≠ '\r'

theorem startsWithTwo_literal {cs : List Char} (hthree : hasThree '\'' ('\'' :: cs) = false)
    (hnil : cs ≠ []) (hone : cs ≠ ['\'']) (rest : List Char) :
    startsWithTwo '\'' (cs ++ rest) = false := by
  match cs with
  | [] => exact absurd rfl hnil
  | [d] =>
    have hd : d ≠ '\'' := by
      rintro rfl
      exact hone rfl
    exact startsWithTwo_cons_of_ne hd _
  | d :: e :: cs =>
    by_cases hd : d = '\''
    · have he : e ≠ '\'' := by
        rintro rfl
        simp [hasThree, hd] at hthree
      exact startsWithTwo_of_second_ne he _ _
    · exact startsWithTwo_cons_of_ne hd _

theorem literalLines_append (edition : Edition) {rest : List Char} (hrest : Follows rest)
    {cs : List Char} (hclean : ∀ c ∈ cs, IsLiteral c) (hthree : hasThree '\'' cs = false) :
    literalLines edition 0 (cs ++ '\'' :: '\'' :: '\'' :: rest) = some (cs, rest) := by
  induction cs with
  | nil => exact literalLines_close edition (Nat.zero_le 2) hrest
  | cons c cs ih =>
    obtain ⟨hc, hcs⟩ := List.forall_mem_cons.1 hclean
    have hthree' : hasThree '\'' cs = false := by
      cases cs with
      | nil => rfl
      | cons d cs =>
        cases cs with
        | nil => rfl
        | cons e cs =>
          rw [hasThree, Bool.or_eq_false_iff] at hthree
          exact hthree.2
    have hread := ih hcs hthree'
    by_cases hquote : c = '\''
    · subst hquote
      -- one or two apostrophes at the end are read together with the closing ones
      by_cases hnil : cs = []
      · rw [hnil]
        exact literalLines_close edition (Nat.le_succ 1) hrest
      by_cases hone : cs = ['\'']
      · rw [hone]
        exact literalLines_close edition (Nat.le_refl 2) hrest
      · have hnot := startsWithTwo_literal hthree hnil hone ('\'' :: '\'' :: '\'' :: rest)
        rw [List.cons_append, literalLines, if_pos rfl, hnot, hread]
        rfl
    · rw [List.cons_append, literalLines, if_neg hquote]
      rcases hc with rfl | ⟨htext, hreturn⟩
      · rw [if_pos rfl, hread]
        rfl
      · by_cases hbreak : c = '\n'
        · rw [if_pos hbreak, hread]
          rfl
        · rw [if_neg hbreak, if_neg (fun h => hreturn h.1), if_pos htext, hread]
          rfl

/-! ## Strings -/

/-- The strings that can be written in a kind of quotes. -/
def Fits : Quotes → List Char → Prop
  | .basic, _ => True
  | .literal, cs => ∀ c ∈ cs, c ≠ '\'' ∧ isText c = true
  | .basicLines, _ => True
  | .literalLines, cs => (∀ c ∈ cs, IsLiteral c) ∧ hasThree '\'' cs = false

theorem isLiteral_of_not_isControl {c : Char} (h : isControl c = false) : IsLiteral c := by
  by_cases hbreak : c = '\n'
  · exact .inl hbreak
  have hreturn : c ≠ '\r' := by
    rintro rfl
    exact absurd h (by decide)
  simp only [isControl, Bool.or_eq_false_iff, Bool.and_eq_false_iff, decide_eq_false_iff_not,
    beq_eq_false_iff_ne, not_not] at h
  refine .inr ⟨?_, hreturn⟩
  rw [isText, Bool.or_eq_true, Bool.and_eq_true]
  simp only [decide_eq_true_eq]
  rcases h.1 with (hlow | htab) | hfeed
  · exact .inr ⟨Nat.not_lt.1 hlow, h.2⟩
  · exact .inl htab
  · exact absurd hfeed hbreak

theorem fits_quotesFor (cs : List Char) : Fits (quotesFor cs) cs := by
  have hclean : cs.any isControl = false → ∀ c ∈ cs, IsLiteral c :=
    fun h c hc => isLiteral_of_not_isControl (by simpa using List.any_eq_false.1 h c hc)
  unfold quotesFor
  dsimp only
  split
  · trivial
  split
  · trivial
  split
  · next hliteral =>
    simp only [Bool.and_eq_true, Bool.not_eq_true'] at hliteral
    obtain ⟨⟨hcontrol, hquote⟩, hbreak⟩ := hliteral
    intro c hc
    refine ⟨?_, ?_⟩
    · rintro rfl
      simp [hc] at hquote
    · rcases hclean hcontrol c hc with rfl | htext
      · simp [hc] at hbreak
      · exact htext.1
  split
  · trivial
  split
  · next hliteral =>
    simp only [Bool.and_eq_true, Bool.not_eq_true'] at hliteral
    exact ⟨hclean hliteral.1, hliteral.2⟩
  split <;> trivial

theorem skipOpening_of_ne {c : Char} (hfeed : c ≠ '\n') (hreturn : c ≠ '\r') (rest : List Char) :
    skipOpening (c :: rest) = c :: rest := by
  rw [skipOpening]
  · rintro r ⟨rfl, -⟩
    exact hfeed rfl
  · rintro r ⟨rfl, -⟩
    exact hreturn rfl

/-- The line break behind the opening quotes is left out, and nothing else is. -/
theorem skipOpening_opening {cs text : List Char}
    (h : ∀ c, text.head? = some c → c ≠ '\r' ∧ (c = '\n' → '\n' ∈ cs)) :
    skipOpening (opening cs ++ text) = text := by
  rw [opening]
  split
  · rfl
  · next hbreak =>
    cases text with
    | nil => rfl
    | cons c text =>
      obtain ⟨hreturn, hfeed⟩ := h c rfl
      exact skipOpening_of_ne (fun hc => hbreak (by simpa using hfeed hc)) hreturn text

section String
variable {cs rest : List Char} (hrest : Follows rest)
include hrest

theorem string?_basic (edition : Edition) (cs : List Char) :
    string? edition (within .basic cs ++ rest) = some (cs, rest) := by
  have hnot : startsWithTwo '"' (basicText false 0 0 cs ++ '"' :: rest) = false := by
    cases cs with
    | nil => exact startsWithTwo_lone hrest.noQuote
    | cons c cs =>
      by_cases hc : c = '"'
      · rw [basicText, if_pos hc, if_pos (Nat.le_refl 0)]
        exact startsWithTwo_cons_of_ne (by decide) _
      · obtain ⟨d, more, hmore, hd, -⟩ := exists_basicText_cons false 0 0 hc cs
        rw [hmore]
        exact startsWithTwo_cons_of_ne hd _
  have hwithin : within .basic cs ++ rest = '"' :: (basicText false 0 0 cs ++ '"' :: rest) := by
    simp [within]
  rw [hwithin, string?, hnot]
  exact basicBody_basicText edition 0 cs rest

theorem string?_literal (edition : Edition) (hcs : Fits .literal cs) :
    string? edition (within .literal cs ++ rest) = some (cs, rest) := by
  have hnot : startsWithTwo '\'' (cs ++ '\'' :: rest) = false := by
    cases cs with
    | nil => exact startsWithTwo_lone hrest.noApostrophe
    | cons c cs => exact startsWithTwo_cons_of_ne (hcs c List.mem_cons_self).1 _
  have hwithin : within .literal cs ++ rest = '\'' :: (cs ++ '\'' :: rest) := by
    simp [within]
  rw [hwithin, string?, hnot]
  exact literalBody_append hcs rest

theorem string?_basicLines (edition : Edition) (cs : List Char) :
    string? edition (within .basicLines cs ++ rest) = some (cs, rest) := by
  have hskip : skipOpening (opening cs ++ (basicText true 2 0 cs ++ '"' :: '"' :: '"' :: rest)) =
      basicText true 2 0 cs ++ '"' :: '"' :: '"' :: rest := by
    refine skipOpening_opening fun d hd => ?_
    cases cs with
    | nil =>
      cases hd
      decide
    | cons c cs =>
      by_cases hc : c = '"'
      · rw [basicText, if_pos hc, if_neg (by decide)] at hd
        cases hd
        exact ⟨by decide, fun h => absurd h (by decide)⟩
      · obtain ⟨e, more, hmore, -, hreturn, hfeed⟩ := exists_basicText_cons true 2 0 hc cs
        rw [hmore] at hd
        cases hd
        exact ⟨hreturn, fun h => by simp [hfeed h]⟩
  have hwithin : within .basicLines cs ++ rest = '"' :: '"' :: '"' ::
      (opening cs ++ (basicText true 2 0 cs ++ '"' :: '"' :: '"' :: rest)) := by
    simp [within]
  rw [hwithin, string?, startsWithTwo_two, if_pos rfl, List.drop_succ_cons, List.drop_succ_cons,
    List.drop_zero, hskip]
  exact basicLines_basicText edition hrest 0 cs

theorem string?_literalLines (edition : Edition) (hcs : Fits .literalLines cs) :
    string? edition (within .literalLines cs ++ rest) = some (cs, rest) := by
  have hskip : skipOpening (opening cs ++ (cs ++ '\'' :: '\'' :: '\'' :: rest)) =
      cs ++ '\'' :: '\'' :: '\'' :: rest := by
    refine skipOpening_opening fun d hd => ?_
    cases cs with
    | nil =>
      cases hd
      decide
    | cons c cs =>
      obtain rfl : c = d := by simpa using hd
      refine ⟨?_, fun h => by simp [h]⟩
      rcases hcs.1 c List.mem_cons_self with rfl | htext
      · decide
      · exact htext.2
  have hwithin : within .literalLines cs ++ rest = '\'' :: '\'' :: '\'' ::
      (opening cs ++ (cs ++ '\'' :: '\'' :: '\'' :: rest)) := by
    simp [within]
  rw [hwithin, string?, startsWithTwo_two, if_pos rfl, List.drop_succ_cons, List.drop_succ_cons,
    List.drop_zero, hskip]
  exact literalLines_append edition hrest hcs.1 hcs.2

theorem string?_within (edition : Edition) {quotes : Quotes} (hfits : Fits quotes cs) :
    string? edition (within quotes cs ++ rest) = some (cs, rest) := by
  cases quotes with
  | basic => exact string?_basic hrest edition cs
  | literal => exact string?_literal hrest edition hfits
  | basicLines => exact string?_basicLines hrest edition cs
  | literalLines => exact string?_literalLines hrest edition hfits

theorem string?_string (edition : Edition) (s : String) :
    string? edition ((string s).toList ++ rest) = some (s.toList, rest) := by
  rw [string, String.toList_ofList]
  exact string?_within hrest edition (fits_quotesFor s.toList)

end String

end Toml

end ComponentWiring
