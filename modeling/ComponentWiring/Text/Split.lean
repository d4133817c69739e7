/-! # Cutting text into parts

* `splitOn`: the parts between the occurrences of a character; never the empty list.
* `lines`: the parts between line breaks.
* `afterLast`, `afterLastPair`: what follows the last occurrence of one or of two characters.
* `join`: texts with a separator between them.
* `dropStart?`: what follows a given beginning.
* `replacePair`: another text for every occurrence of two characters in a row.
-/

namespace ComponentWiring.Text
set_option autoImplicit false

/-- Puts a character in front of the first part. -/
def consFirst (c : Char) : List (List Char) → List (List Char)
  | [] => [[c]]
  | part :: parts => (c :: part) :: parts

/-- The parts between the occurrences of a character. -/
def splitOn (sep : Char) : List Char → List (List Char)
  | [] => [[]]
  | c :: r => if c = sep then [] :: splitOn sep r else consFirst c (splitOn sep r)

def lines (cs : List Char) : List (List Char) := splitOn '\n' cs

/-- What follows the last occurrence of a character, the whole text if there is none. -/
def afterLast (sep : Char) (cs : List Char) : List Char :=
  (cs.reverse.takeWhile (· ≠ sep)).reverse

/-- What follows the last occurrence of two equal characters in a row, if there is one. -/
def afterLastPair? (sep : Char) : List Char → Option (List Char)
  | [] => none
  | c :: r =>
    match afterLastPair? sep r with
    | some rest => some rest
    | none => if c = sep ∧ r.head? = some sep then some r.tail else none

/-- What follows the last occurrence of two equal characters in a row, the whole text if there is
none. -/
def afterLastPair (sep : Char) (cs : List Char) : List Char := (afterLastPair? sep cs).getD cs

/-- The text after a given beginning, if it begins so. -/
def dropStart? (start : List Char) (cs : List Char) : Option (List Char) :=
  if start.isPrefixOf cs then some (cs.drop start.length) else none

/-- Puts `new` for every occurrence of the two characters `a b` in a row, taken from the left. -/
def replacePair (a b : Char) (new : List Char) : List Char → List Char
  | [] => []
  | [c] => [c]
  | c :: d :: r =>
    if c = a ∧ d = b then new ++ replacePair a b new r else c :: replacePair a b new (d :: r)

def join (sep : String) (parts : List String) : String := sep.intercalate parts

theorem toList_join_cons (sep first : String) (more : List String) :
    (join sep (first :: more)).toList =
      first.toList ++ more.flatMap fun text => sep.toList ++ text.toList := by
  induction more generalizing first with
  | nil => simp [join]
  | cons second more ih =>
    rw [join, String.intercalate_cons_cons, String.toList_append, String.toList_append]
    change _ ++ (join sep (second :: more)).toList = _
    rw [ih, List.flatMap_cons, List.append_assoc, List.append_assoc]

/-! ## Laws of cutting -/

theorem splitOn_ne_nil (sep : Char) (cs : List Char) : splitOn sep cs ≠ [] := by
  induction cs with
  | nil => simp [splitOn]
  | cons c r ih =>
    by_cases h : c = sep
    · simp [splitOn, h]
    · cases hs : splitOn sep r with
      | nil => exact absurd hs ih
      | cons part parts => simp [splitOn, h, hs, consFirst]

theorem splitOn_cons_sep (sep : Char) (cs : List Char) :
    splitOn sep (sep :: cs) = [] :: splitOn sep cs := if_pos rfl

/-- Another character than the separator comes in front of the first part. -/
theorem exists_splitOn_cons {sep c : Char} (hc : c ≠ sep) (cs : List Char) :
    ∃ part parts, splitOn sep cs = part :: parts ∧
      splitOn sep (c :: cs) = (c :: part) :: parts := by
  obtain ⟨part, parts, hparts⟩ := List.exists_cons_of_ne_nil (splitOn_ne_nil sep cs)
  refine ⟨part, parts, hparts, ?_⟩
  rw [splitOn, if_neg hc, hparts]
  rfl

theorem splitOn_of_notMem (sep : Char) (cs : List Char) (h : sep ∉ cs) : splitOn sep cs = [cs] := by
  induction cs with
  | nil => rfl
  | cons c r ih =>
    have hc : c ≠ sep := fun e => h (by simp [e])
    have hr : sep ∉ r := fun m => h (by simp [m])
    simp [splitOn, hc, ih hr, consFirst]

theorem splitOn_append_sep (sep : Char) (cs ds : List Char) :
    splitOn sep (cs ++ sep :: ds) = splitOn sep cs ++ splitOn sep ds := by
  induction cs with
  | nil => simp [splitOn]
  | cons c cs ih =>
    by_cases hc : c = sep
    · simp [splitOn, hc, ih]
    · obtain ⟨part, parts, hparts, hcons⟩ := exists_splitOn_cons hc cs
      rw [List.cons_append, splitOn, if_neg hc, ih, hcons, hparts]
      rfl

theorem splitOn_append_cons (sep : Char) (part rest : List Char) (h : sep ∉ part) :
    splitOn sep (part ++ sep :: rest) = part :: splitOn sep rest := by
  rw [splitOn_append_sep, splitOn_of_notMem sep part h, List.singleton_append]

theorem notMem_of_mem_splitOn {sep : Char} {cs part : List Char} (h : part ∈ splitOn sep cs) :
    sep ∉ part := by
  induction cs generalizing part with
  | nil =>
    rw [List.mem_singleton.1 h]
    exact List.not_mem_nil
  | cons c cs ih =>
    by_cases hc : c = sep
    · rw [hc, splitOn_cons_sep] at h
      rcases List.mem_cons.1 h with rfl | h
      · exact List.not_mem_nil
      · exact ih h
    · obtain ⟨first, parts, hparts, hcons⟩ := exists_splitOn_cons hc cs
      rw [hcons] at h
      rw [hparts] at ih
      rcases List.mem_cons.1 h with rfl | h
      · rw [List.mem_cons, not_or]
        exact ⟨Ne.symm hc, ih List.mem_cons_self⟩
      · exact ih (List.mem_cons_of_mem _ h)

theorem length_splitOn (sep : Char) (cs : List Char) :
    (splitOn sep cs).length = cs.count sep + 1 := by
  induction cs with
  | nil => rfl
  | cons c cs ih =>
    by_cases hc : c = sep
    · rw [hc, splitOn_cons_sep, List.length_cons, ih, List.count_cons_self]
    · obtain ⟨part, parts, hparts, hcons⟩ := exists_splitOn_cons hc cs
      rw [hcons, List.count_cons_of_ne hc, ← ih, hparts, List.length_cons, List.length_cons]

theorem head?_splitOn (sep : Char) (cs : List Char) :
    (splitOn sep cs).head? = some (cs.takeWhile (· ≠ sep)) := by
  induction cs with
  | nil => rfl
  | cons c cs ih =>
    by_cases hc : c = sep
    · rw [hc, splitOn_cons_sep]
      simp
    · obtain ⟨part, parts, hparts, hcons⟩ := exists_splitOn_cons hc cs
      rw [hparts, List.head?_cons, Option.some.injEq] at ih
      rw [hcons, List.head?_cons, ih]
      simp [hc]

theorem takeWhile_append_of_notMem {sep : Char} {cs : List Char} (h : sep ∉ cs) (s : List Char) :
    (cs ++ s).takeWhile (· ≠ sep) = cs ++ s.takeWhile (· ≠ sep) := by
  apply List.takeWhile_append_of_pos
  intro c hc
  rw [decide_eq_true_eq]
  rintro rfl
  exact h hc

@[simp] theorem afterLast_nil (sep : Char) : afterLast sep [] = [] := rfl

@[simp] theorem afterLast_concat_sep (sep : Char) (cs : List Char) :
    afterLast sep (cs ++ [sep]) = [] := by
  simp [afterLast]

theorem afterLast_concat {sep c : Char} (hc : c ≠ sep) (cs : List Char) :
    afterLast sep (cs ++ [c]) = afterLast sep cs ++ [c] := by
  simp [afterLast, hc]

theorem afterLast_append_cons {sep : Char} (cs : List Char) {last : List Char} (h : sep ∉ last) :
    afterLast sep (cs ++ sep :: last) = last := by
  have hrest : sep ∉ last.reverse := by simpa using h
  rw [afterLast, List.reverse_append, List.reverse_cons, List.append_assoc,
    takeWhile_append_of_notMem hrest]
  simp

theorem afterLast_of_notMem {sep : Char} {cs : List Char} (h : sep ∉ cs) :
    afterLast sep cs = cs := by
  have hrest : sep ∉ cs.reverse := by simpa using h
  have htake := takeWhile_append_of_notMem hrest []
  rw [List.append_nil] at htake
  rw [afterLast, htake]
  simp

/-- A text ends in a part without separators, which is all of it or stands behind one. -/
theorem exists_last (sep : Char) (cs : List Char) :
    sep ∉ cs ∨ ∃ front last, cs = front ++ sep :: last ∧ sep ∉ last := by
  induction cs with
  | nil => exact .inl List.not_mem_nil
  | cons c cs ih =>
    rcases ih with hcs | ⟨front, last, rfl, hlast⟩
    · by_cases hc : c = sep
      · exact .inr ⟨[], cs, by rw [hc]; rfl, hcs⟩
      · exact .inl (by simp [Ne.symm hc, hcs])
    · exact .inr ⟨c :: front, last, rfl, hlast⟩

/-- The part in which a text goes on behind a front of it. -/
theorem getElem?_splitOn (sep : Char) (front s : List Char) :
    (splitOn sep (front ++ s))[front.count sep]? =
      some (afterLast sep front ++ s.takeWhile (· ≠ sep)) := by
  have hfirst : ∀ {last : List Char}, sep ∉ last →
      (splitOn sep (last ++ s))[0]? = some (last ++ s.takeWhile (· ≠ sep)) := by
    intro last hlast
    rw [← List.head?_eq_getElem?, head?_splitOn, takeWhile_append_of_notMem hlast]
  rcases exists_last sep front with hfront | ⟨front, last, rfl, hlast⟩
  · rw [List.count_eq_zero.2 hfront, hfirst hfront, afterLast_of_notMem hfront]
  · rw [List.append_assoc, List.cons_append, splitOn_append_sep, afterLast_append_cons front hlast,
      List.count_append, List.count_cons_self, List.count_eq_zero.2 hlast,
      List.getElem?_append_right (Nat.le_of_eq (length_splitOn sep front)), length_splitOn]
    have hindex : front.count sep + (0 + 1) - (front.count sep + 1) = 0 := by omega
    rw [hindex, hfirst hlast]

end ComponentWiring.Text
