import ComponentWiring.Proofs.ParserRests

/-! # Where statements start

A statement stands behind a front of the text, and only blanks are in front of it on its line. The
number of that line is one more than the number of line feeds in the front.

* `Toml.Starts`: a statement that starts on a line.
* `Toml.starts_of_statements`: the statements of a text start on the lines that they are told with,
  which increase.
* `Toml.Starts.exists_lineAt`: the line of a statement.
-/

namespace ComponentWiring
set_option autoImplicit false

namespace Toml
open Text Data

/-! ## Fronts -/

/-- A text whose last line holds only blanks. -/
def BlankEnd (front : List Char) : Prop := ∀ c ∈ afterLast '\n' front, isBlank c = true

theorem blankEnd_nil : BlankEnd [] := by simp [BlankEnd]

theorem blankEnd_feed (front : List Char) : BlankEnd (front ++ ['\n']) := by simp [BlankEnd]

theorem BlankEnd.concat {front : List Char} (h : BlankEnd front) {c : Char}
    (hc : isBlank c = true) : BlankEnd (front ++ [c]) := by
  have hfeed : c ≠ '\n' := by
    rintro rfl
    cases hc
  intro d hd
  rw [afterLast_concat hfeed, List.mem_append, List.mem_singleton] at hd
  rcases hd with hd | rfl
  · exact h d hd
  · exact hc

/-- A gap behind which something stands ends in a line of blanks. -/
theorem exists_gap {inside : Bool} {s rest front : List Char} (h : skipGap inside s = some rest)
    (hrest : rest ≠ []) (hfront : inside = false → BlankEnd front) :
    ∃ gap, s = gap ++ rest ∧ BlankEnd (front ++ gap) := by
  fun_induction skipGap inside s generalizing front with
  | case1 inside =>
    cases h
    exact absurd rfl hrest
  | case2 inside r ih =>
    obtain ⟨gap, rfl, hgap⟩ := ih h fun _ => blankEnd_feed front
    exact ⟨'\n' :: gap, rfl, by rwa [List.append_cons]⟩
  | case3 inside r ih =>
    obtain ⟨gap, rfl, hgap⟩ := ih h fun _ => blankEnd_feed (front ++ ['\r'])
    exact ⟨'\r' :: '\n' :: gap, rfl, by rwa [List.append_cons, List.append_cons]⟩
  | case4 c r _ _ _ ih =>
    have hinside : true = false → BlankEnd (front ++ [c]) := Bool.noConfusion
    obtain ⟨gap, rfl, hgap⟩ := ih h hinside
    exact ⟨c :: gap, rfl, by rwa [List.append_cons]⟩
  | case5 => cases h
  | case6 inside r _ _ _ ih =>
    have hinside : true = false → BlankEnd (front ++ ['#']) := Bool.noConfusion
    obtain ⟨gap, rfl, hgap⟩ := ih h hinside
    exact ⟨'#' :: gap, rfl, by rwa [List.append_cons]⟩
  | case7 inside c r _ _ hinside _ hblank ih =>
    have hfront' := hfront (Bool.not_eq_true _ ▸ hinside)
    obtain ⟨gap, rfl, hgap⟩ := ih h fun _ => hfront'.concat hblank
    exact ⟨c :: gap, rfl, by rwa [List.append_cons]⟩
  | case8 inside c r _ _ hinside _ _ =>
    cases h
    exact ⟨[], rfl, by simpa using hfront (by simpa using hinside)⟩

theorem exists_comment {s rest : List Char} (h : skipComment s = some rest) :
    rest = [] ∨ ∃ comment behind, rest = '\n' :: behind ∧ s = comment ++ '\n' :: behind := by
  fun_induction skipComment s with
  | case1 =>
    cases h
    exact .inl rfl
  | case2 r =>
    cases h
    exact .inr ⟨[], r, rfl, rfl⟩
  | case3 r =>
    cases h
    exact .inr ⟨['\r'], r, rfl, rfl⟩
  | case4 c r _ _ _ ih =>
    rcases ih h with hrest | ⟨comment, behind, hrest, rfl⟩
    · exact .inl hrest
    · exact .inr ⟨c :: comment, behind, hrest, rfl⟩
  | case5 => cases h

/-- What follows the end of a line follows a line feed, unless nothing follows. -/
theorem exists_line {s rest : List Char} (h : skipLineEnd s = some rest) :
    rest = [] ∨ ∃ line, s = line ++ '\n' :: rest := by
  obtain ⟨blanks, hblanks⟩ := skipBlank_suffix s
  unfold skipLineEnd at h
  split at h
  · cases h
    exact .inl rfl
  · next r hr =>
    cases h
    exact .inr ⟨blanks, by rw [← hblanks, hr]⟩
  · next r hr =>
    cases h
    exact .inr ⟨blanks ++ ['\r'], by rw [← hblanks, hr]; simp⟩
  · next r hr =>
    rw [Option.map_eq_some_iff] at h
    obtain ⟨x, hx, rfl⟩ := h
    rcases exists_comment hx with rfl | ⟨comment, behind, rfl, rfl⟩
    · exact .inl rfl
    · exact .inr ⟨blanks ++ '#' :: comment, by rw [← hblanks, hr]; simp⟩
  · cases h

/-! ## Statements on their lines -/

/-- A statement that starts on a line of a text, behind a front that ends in blanks on this line,
and leaves a rest at the end of a line. -/
structure Starts (edition : Edition) (cs : List Char) (line : Nat) (statement : Statement)
    (front s rest : List Char) : Prop where
  eq_append : cs = front ++ s
  line_eq : line = lineFeeds front + 1
  blankEnd : BlankEnd front
  statement_eq : statement? edition s = some (statement, rest)
  ended : ∃ behind, skipLineEnd rest = some behind

theorem statementsFrom_cases {edition : Edition} {total limit : Nat} {s : List Char}
    {all : List (Nat × Statement)} (h : statementsFrom edition total limit s = .ok all) :
    all = [] ∨ ∃ limit' s' statement rest behind more, limit = limit' + 1 ∧
      skipGap false s = some s' ∧ s' ≠ [] ∧ statement? edition s' = some (statement, rest) ∧
      skipLineEnd rest = some behind ∧ statementsFrom edition total limit' behind = .ok more ∧
      all = (1 + (total - lineFeeds s'), statement) :: more := by
  cases limit with
  | zero =>
    cases h
    exact .inl rfl
  | succ limit =>
    rw [statementsFrom] at h
    split at h
    · cases h
    · cases h
      exact .inl rfl
    · next s' hne hgap =>
      dsimp only at h
      split at h
      · cases h
      · next statement rest hstatement =>
        split at h
        · cases h
        · next behind hbehind =>
          cases hmore : statementsFrom edition total limit behind with
          | error line =>
            rw [hmore] at h
            cases h
          | ok more =>
            rw [hmore] at h
            cases h
            exact .inr ⟨limit, s', statement, rest, behind, more, rfl, hgap, hne, hstatement,
              hbehind, hmore, rfl⟩

/-- An empty text has no statements. -/
theorem statementsFrom_nil {edition : Edition} {total limit : Nat} {all : List (Nat × Statement)}
    (h : statementsFrom edition total limit [] = .ok all) : all = [] := by
  rcases statementsFrom_cases h with rfl | ⟨_, s', _, _, _, _, _, hgap, hs', -⟩
  · rfl
  · cases hgap
    exact absurd rfl hs'

theorem lineFeeds_append (front s : List Char) :
    lineFeeds (front ++ s) = lineFeeds front + lineFeeds s := List.count_append

/-- An entry in front of entries on later lines. -/
theorem lines_cons {P : Nat × Statement → Prop} {low line : Nat} {statement : Statement}
    {more : List (Nat × Statement)} (hle : low ≤ line) (hfirst : P (line, statement))
    (hmore : ∀ e ∈ more, line + 1 ≤ e.1 ∧ P e) (hsorted : (more.map (·.1)).Pairwise (· < ·)) :
    (∀ e ∈ (line, statement) :: more, low ≤ e.1 ∧ P e) ∧
      (((line, statement) :: more).map (·.1)).Pairwise (· < ·) := by
  constructor
  · intro e he
    rcases List.mem_cons.1 he with rfl | he
    · exact ⟨hle, hfirst⟩
    · obtain ⟨hge, hP⟩ := hmore e he
      exact ⟨by omega, hP⟩
  · rw [List.map_cons, List.pairwise_cons]
    refine ⟨fun n hn => ?_, hsorted⟩
    obtain ⟨e, he, rfl⟩ := List.mem_map.1 hn
    exact (hmore e he).1

theorem starts_of_statementsFrom {edition : Edition} {cs : List Char} {limit : Nat}
    {front s : List Char} {all : List (Nat × Statement)} (hcs : cs = front ++ s)
    (hfront : BlankEnd front) (h : statementsFrom edition (lineFeeds cs) limit s = .ok all) :
    (∀ e ∈ all, lineFeeds front + 1 ≤ e.1 ∧
        ∃ front' s' rest, Starts edition cs e.1 e.2 front' s' rest) ∧
      (all.map (·.1)).Pairwise (· < ·) := by
  -- the front grows by a gap, a statement and the end of its line
  induction limit generalizing front s all with
  | zero =>
    cases h
    simp
  | succ limit ih =>
    rcases statementsFrom_cases h with rfl |
      ⟨_, s', statement, rest, behind, more, hlimit, hgap, hs', hstatement, hend, hmore, rfl⟩
    · simp
    cases hlimit
    obtain ⟨gap, rfl, hblank⟩ := exists_gap hgap hs' fun _ => hfront
    obtain ⟨taken, rfl⟩ := takesFront_statement? edition s' statement rest hstatement
    rw [← List.append_assoc] at hcs
    have hline : 1 + (lineFeeds cs - lineFeeds (taken ++ rest)) = lineFeeds (front ++ gap) + 1 := by
      rw [hcs, lineFeeds_append (front ++ gap)]
      omega
    have hle : lineFeeds front + 1 ≤ lineFeeds (front ++ gap) + 1 := by
      rw [lineFeeds_append]
      omega
    have hstarts : Starts edition cs (lineFeeds (front ++ gap) + 1) statement (front ++ gap)
        (taken ++ rest) rest := ⟨hcs, rfl, hblank, hstatement, behind, hend⟩
    rw [hline]
    rcases exists_line hend with rfl | ⟨line, rfl⟩
    · obtain rfl := statementsFrom_nil hmore
      exact lines_cons hle ⟨_, _, _, hstarts⟩ (by simp) List.Pairwise.nil
    · have hcs' : cs = (front ++ gap ++ taken ++ line ++ ['\n']) ++ behind := by
        rw [hcs]
        simp
      obtain ⟨hall, hsorted⟩ := ih hcs' (blankEnd_feed _) hmore
      refine lines_cons hle ⟨_, _, _, hstarts⟩ (fun e he => ?_) hsorted
      obtain ⟨hge, hstart⟩ := hall e he
      have hfeed : lineFeeds ['\n'] = 1 := rfl
      rw [lineFeeds_append, lineFeeds_append, lineFeeds_append, hfeed] at hge
      exact ⟨by omega, hstart⟩

/-- A text without the byte order mark that may stand at its start. -/
def body : List Char → List Char
  | c :: r => if c = byteOrderMark then r else c :: r
  | [] => []

theorem body_cases (cs : List Char) : cs = body cs ∨ cs = byteOrderMark :: body cs := by
  cases cs with
  | nil => exact .inl rfl
  | cons c r =>
    by_cases hc : c = byteOrderMark
    · exact .inr (by rw [body, if_pos hc, hc])
    · exact .inl (by rw [body, if_neg hc])

theorem starts_of_statements {edition : Edition} {text : String} {all : List (Nat × Statement)}
    (h : statements edition text = .ok all) :
    (∀ e ∈ all, ∃ front s rest, Starts edition (body text.toList) e.1 e.2 front s rest) ∧
      (all.map (·.1)).Pairwise (· < ·) := by
  have hbody : statementsFrom edition (lineFeeds (body text.toList))
      ((body text.toList).length + 1) (body text.toList) = .ok all := h
  obtain ⟨hall, hsorted⟩ := starts_of_statementsFrom (List.nil_append _).symm blankEnd_nil hbody
  exact ⟨fun e he => (hall e he).2, hsorted⟩

/-- The line of a number, where the first one has the number one. -/
def lineAt (text : String) (n : Nat) : Option (List Char) := (lines text.toList)[n - 1]?

/-- A statement starts its line, behind blanks and perhaps the byte order mark. -/
theorem Starts.exists_lineAt {edition : Edition} {text : String} {n : Nat} {statement : Statement}
    {front s rest : List Char}
    (h : Starts edition (body text.toList) n statement front s rest) :
    ∃ mark blanks, (mark = [] ∨ mark = [byteOrderMark]) ∧ (∀ c ∈ blanks, isBlank c = true) ∧
      lineAt text n = some (mark ++ (blanks ++ s.takeWhile (· ≠ '\n'))) := by
  have hline : (lines (body text.toList))[n - 1]? =
      some (afterLast '\n' front ++ s.takeWhile (· ≠ '\n')) := by
    rw [h.line_eq, Nat.add_sub_cancel, h.eq_append]
    exact getElem?_splitOn '\n' front s
  rcases body_cases text.toList with htext | htext
  · exact ⟨[], afterLast '\n' front, .inl rfl, h.blankEnd, by rw [lineAt, htext, hline]; rfl⟩
  · have hmark : byteOrderMark ≠ '\n' := by decide
    obtain ⟨part, parts, hparts, hcons⟩ := exists_splitOn_cons hmark (body text.toList)
    have hlines : lines text.toList = (byteOrderMark :: part) :: parts := by
      rw [htext, lines, hcons]
    rw [lines, hparts] at hline
    rw [lineAt, hlines]
    cases hn : n - 1 with
    | zero =>
      rw [hn, List.getElem?_cons_zero, Option.some.injEq] at hline
      exact ⟨[byteOrderMark], afterLast '\n' front, .inr rfl, h.blankEnd, by rw [hline]; rfl⟩
    | succ k =>
      rw [hn, List.getElem?_cons_succ] at hline
      exact ⟨[], afterLast '\n' front, .inl rfl, h.blankEnd, hline⟩

end Toml

end ComponentWiring
