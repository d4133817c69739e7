import ComponentWiring.Document
import ComponentWiring.Proofs.StatementLines
import Mathlib.Data.List.TakeWhile

/-! # Lines that look like headers

A line looks like the header of a component table just if its code, which is the line without its
comment and its blank characters, is one. Of the lines on which statements start these are the
headers of component tables whose key has no quotes and that follow no byte order mark.

* `Document.code`, `Document.shown`: the code of a line, and of the first line of a text.
* `Document.shown_of_element`: the code of a header of a component table.
* `Document.element_of_shown`: a statement with this code is such a header.
-/

namespace ComponentWiring
set_option autoImplicit false

namespace Document
open Toml

/-! ## The code of a line -/

/-- A line without its comment and its blank characters. -/
def code (line : List Char) : List Char :=
  (line.takeWhile (· ≠ '#')).filter fun c => !Text.isBlank c

theorem isHeader_iff {line : List Char} : isHeader line = true ↔ code line = header := by
  rw [isHeader, decide_eq_true_eq]
  rfl

/-- The code of the line with which a text starts. -/
def shown (s : List Char) : List Char := code (s.takeWhile (· ≠ '\n'))

theorem shown_nil : shown [] = [] := rfl

theorem shown_feed (s : List Char) : shown ('\n' :: s) = [] := rfl

theorem shown_comment (s : List Char) : shown ('#' :: s) = [] := rfl

theorem shown_cons {c : Char} (hfeed : c ≠ '\n') (hcomment : c ≠ '#') (s : List Char) :
    shown (c :: s) = if Text.isBlank c then shown s else c :: shown s := by
  cases hc : Text.isBlank c with
  | true => simp [shown, code, hfeed, hcomment, hc]
  | false => simp [shown, code, hfeed, hcomment, hc]

theorem shown_mark {c : Char} (hfeed : c ≠ '\n') (hcomment : c ≠ '#')
    (hblank : Text.isBlank c = false) (s : List Char) : shown (c :: s) = c :: shown s := by
  rw [shown_cons hfeed hcomment, hblank, if_neg Bool.false_ne_true]

theorem isBlank_of_toml {c : Char} (h : Toml.isBlank c = true) :
    Text.isBlank c = true ∧ c ≠ '\n' ∧ c ≠ '#' := by
  simp only [Toml.isBlank, Bool.or_eq_true, decide_eq_true_eq] at h
  rcases h with rfl | rfl <;> decide

theorem code_blanks {blanks : List Char} (h : ∀ c ∈ blanks, Toml.isBlank c = true)
    (line : List Char) : code (blanks ++ line) = code line := by
  have hcomment : ∀ c ∈ blanks, decide (c ≠ '#') = true :=
    fun c hc => decide_eq_true (isBlank_of_toml (h c hc)).2.2
  have hnone : blanks.filter (fun c => !Text.isBlank c) = [] := by
    rw [List.filter_eq_nil_iff]
    intro c hc
    simp [(isBlank_of_toml (h c hc)).1]
  rw [code, List.takeWhile_append_of_pos hcomment, List.filter_append, hnone, List.nil_append]
  rfl

theorem shown_blanks {blanks : List Char} (h : ∀ c ∈ blanks, Toml.isBlank c = true)
    (s : List Char) : shown (blanks ++ s) = shown s := by
  have hfeed : ∀ c ∈ blanks, decide (c ≠ '\n') = true :=
    fun c hc => decide_eq_true (isBlank_of_toml (h c hc)).2.1
  rw [shown, List.takeWhile_append_of_pos hfeed, code_blanks h]
  rfl

theorem shown_skipBlank (s : List Char) : shown (skipBlank s) = shown s := by
  have hall : ∀ c ∈ s.takeWhile Toml.isBlank, Toml.isBlank c = true :=
    fun c hc => List.mem_takeWhile_imp hc
  conv_rhs => rw [← List.takeWhile_append_dropWhile (p := Toml.isBlank) (l := s)]
  rw [shown_blanks hall]
  rfl

theorem isBlank_of_bare {c : Char} (hc : isBare c = true) : Text.isBlank c = false := by
  have hle : c ≤ 'z' := by
    simp only [isBare, Bool.or_eq_true, Bool.and_eq_true, decide_eq_true_eq] at hc
    rcases hc with (((⟨-, h⟩ | ⟨-, h⟩) | ⟨-, h⟩) | rfl) | rfl
    · exact Char.le_trans h (by decide)
    · exact h
    · exact Char.le_trans h (by decide)
    all_goals decide
  have hall : ∀ n < 123, isBare (Char.ofNat n) = true → Text.isBlank (Char.ofNat n) = false := by
    decide
  have hlt : c.toNat < 123 := Nat.lt_succ_of_le hle
  have hsame := hall c.toNat hlt
  rw [Char.ofNat_toNat] at hsame
  exact hsame hc

theorem shown_of_bare {c : Char} (hc : isBare c = true) (s : List Char) :
    shown (c :: s) = c :: shown s :=
  shown_mark (ne_of_isBare hc (by decide)) (ne_of_isBare hc (by decide)) (isBlank_of_bare hc) s

theorem shown_append_of_bare {key : List Char} (h : ∀ c ∈ key, isBare c = true) (s : List Char) :
    shown (key ++ s) = key ++ shown s := by
  induction key with
  | nil => rfl
  | cons c key ih =>
    obtain ⟨hc, hkey⟩ := List.forall_mem_cons.1 h
    rw [List.cons_append, shown_of_bare hc, ih hkey, List.cons_append]

theorem shown_of_skipLineEnd {s rest : List Char} (h : skipLineEnd s = some rest) :
    shown s = [] := by
  rw [← shown_skipBlank]
  unfold skipLineEnd at h
  split at h
  · next hs => rw [hs, shown_nil]
  · next r hs => rw [hs, shown_feed]
  · next r hs =>
    have hblank : Text.isBlank '\r' = true := by decide
    rw [hs, shown_cons (by decide) (by decide), if_pos hblank, shown_feed]
  · next r hs => rw [hs, shown_comment]
  · cases h

/-! ## Headers and their code -/

/-- The first key of a path, and what follows: a point and more keys, or the rest. -/
theorem path?_cases {edition : Edition} {limit : Nat} {s rest : List Char} {path : List String}
    {key : String} (h : path? edition limit s = some ((path, key), rest)) :
    ∃ first s', key? edition (skipBlank s) = some (first, s') ∧
      (path ≠ [] ∧ (∃ r, skipBlank s' = '.' :: r) ∨
        path = [] ∧ key = first ∧ rest = skipBlank s') := by
  cases limit with
  | zero => cases h
  | succ limit =>
    simp only [path?, Option.bind_eq_bind, Option.bind_eq_some_iff] at h
    obtain ⟨⟨first, s'⟩, hfirst, h⟩ := h
    refine ⟨first, s', hfirst, ?_⟩
    split at h
    · next r hr =>
      rw [Option.bind_eq_some_iff] at h
      obtain ⟨⟨⟨path', last⟩, rest'⟩, -, h⟩ := h
      cases h
      exact .inl ⟨List.cons_ne_nil _ _, r, hr⟩
    · cases h
      exact .inr ⟨rfl, rfl, rfl⟩

theorem key?_cases {edition : Edition} {s rest : List Char} {key : String}
    (h : key? edition s = some (key, rest)) :
    (∃ q r, s = q :: r ∧ (q = '"' ∨ q = '\'')) ∨
      s = key.toList ++ rest ∧ key.toList ≠ [] ∧ ∀ c ∈ key.toList, isBare c = true := by
  unfold key? at h
  split at h
  · exact .inl ⟨'"', _, rfl, .inl rfl⟩
  · exact .inl ⟨'\'', _, rfl, .inr rfl⟩
  · dsimp only at h
    split at h
    · cases h
    · next hne =>
      cases h
      rw [String.toList_ofList]
      exact .inr ⟨(List.prefix_iff_eq_append.1 (List.takeWhile_prefix isBare)).symm, hne,
        fun c hc => List.mem_takeWhile_imp hc⟩

theorem shown_of_path? {edition : Edition} {limit : Nat} {s rest : List Char} {path : List String}
    {key : String} (h : path? edition limit s = some ((path, key), rest)) :
    (∃ q cs, shown s = q :: cs ∧ (q = '"' ∨ q = '\'')) ∨
      ∃ first s', first ≠ [] ∧ (∀ c ∈ first, isBare c = true) ∧ shown s = first ++ shown s' ∧
        (path ≠ [] ∧ (∃ r, skipBlank s' = '.' :: r) ∨
          path = [] ∧ key.toList = first ∧ rest = skipBlank s') := by
  obtain ⟨first, s', hkey, hnext⟩ := path?_cases h
  rcases key?_cases hkey with ⟨q, r, hq, hquote⟩ | ⟨hs, hne, hbare⟩
  · refine .inl ⟨q, shown r, ?_, hquote⟩
    rw [← shown_skipBlank, hq]
    rcases hquote with rfl | rfl
    · exact shown_mark (by decide) (by decide) (by decide) r
    · exact shown_mark (by decide) (by decide) (by decide) r
  · refine .inr ⟨first.toList, s', hne, hbare, ?_, ?_⟩
    · rw [← shown_skipBlank, hs, shown_append_of_bare hbare]
    · rcases hnext with hpoint | ⟨hpath, hlast, hrest⟩
      · exact .inl hpoint
      · exact .inr ⟨hpath, by rw [hlast], hrest⟩

theorem shown_bracket (s : List Char) : shown ('[' :: s) = '[' :: shown s :=
  shown_mark (by decide) (by decide) (by decide) s

theorem shown_closed {rest behind : List Char} (hend : skipLineEnd rest = some behind) :
    shown ([']', ']'] ++ rest) = [']', ']'] := by
  have hclose : ∀ s, shown (']' :: s) = ']' :: shown s :=
    shown_mark (by decide) (by decide) (by decide)
  rw [List.cons_append, List.cons_append, List.nil_append, hclose, hclose,
    shown_of_skipLineEnd hend]

theorem shown_of_element {edition : Edition} {s rest behind : List Char}
    (h : statement? edition s = some (.element [] "component", rest))
    (hend : skipLineEnd rest = some behind) :
    shown s = header ∨ ∃ q ∈ shown s, q = '"' ∨ q = '\'' := by
  obtain ⟨r, path, key, rfl, hsame, hheader⟩ | ⟨_, _, _, _, hother, _⟩ | ⟨_, _, _, hother, _⟩ :=
    statement?_cases h
  · cases hsame
    rw [shown_bracket, shown_bracket]
    rcases shown_of_path? (path?_of_header? hheader) with
      ⟨q, cs, hr, hq⟩ | ⟨first, s', -, -, hr, ⟨hne, -⟩ | ⟨-, hkey, hclose⟩⟩
    · exact .inr ⟨q, by simp [hr], hq⟩
    · exact absurd rfl hne
    · left
      rw [hr, ← hkey, ← shown_skipBlank s', ← hclose, shown_closed hend]
      rfl
  · cases hother
  · cases hother

theorem head_of_path? {edition : Edition} {limit : Nat} {s rest : List Char}
    {path : List String × String} (h : path? edition limit s = some (path, rest)) :
    ∃ c cs, shown s = c :: cs ∧ (c = '"' ∨ c = '\'' ∨ isBare c = true) := by
  obtain ⟨front, key⟩ := path
  rcases shown_of_path? h with ⟨q, cs, hs, hq⟩ | ⟨first, s', hne, hbare, hs, -⟩
  · exact ⟨q, cs, hs, hq.imp_right .inl⟩
  · obtain ⟨c, cs, rfl⟩ := List.exists_cons_of_ne_nil hne
    exact ⟨c, cs ++ shown s', hs, .inr (.inr (hbare c List.mem_cons_self))⟩

theorem ne_bracket_of_path? {edition : Edition} {limit : Nat} {s rest : List Char}
    {path : List String × String} (h : path? edition limit s = some (path, rest)) (cs : List Char) :
    shown s ≠ '[' :: cs := by
  obtain ⟨c, cs', hs, hc⟩ := head_of_path? h
  rw [hs]
  rintro ⟨⟩
  rcases hc with hc | hc | hc
  · exact absurd hc (by decide)
  · exact absurd hc (by decide)
  · exact absurd hc (by decide)

theorem header_eq : header = '[' :: '[' :: ("component".toList ++ [']', ']']) := by decide

theorem element_of_shown {edition : Edition} {s rest behind : List Char} {statement : Statement}
    (h : statement? edition s = some (statement, rest)) (hend : skipLineEnd rest = some behind)
    (hshown : shown s = header) : statement = .element [] "component" := by
  rw [header_eq] at hshown
  rcases statement?_cases h with ⟨r, path, key, rfl, rfl, hheader⟩ |
    ⟨r, path, key, rfl, -, hheader⟩ | ⟨path, key, v, -, hpair⟩
  · rw [shown_bracket, shown_bracket, List.cons.injEq, List.cons.injEq] at hshown
    have hr := hshown.2.2
    rcases shown_of_path? (path?_of_header? hheader) with ⟨q, cs, hq, hquote⟩ |
      ⟨first, s', -, -, hfirst, ⟨-, r', hpoint⟩ | ⟨rfl, hkey, hclose⟩⟩
    · have hhead : q = 'c' := by
        rw [hq] at hr
        exact (List.cons.inj hr).1
      rw [hhead] at hquote
      exact absurd hquote (by decide)
    · have hdot : shown ('.' :: r') = '.' :: shown r' :=
        shown_mark (by decide) (by decide) (by decide) r'
      have hmem : '.' ∈ "component".toList ++ [']', ']'] := by
        rw [← hr, hfirst, ← shown_skipBlank s', hpoint, hdot]
        simp
      exact absurd hmem (by decide)
    · have hlast : shown s' = [']', ']'] := by
        rw [← shown_skipBlank, ← hclose, shown_closed hend]
      rw [hfirst, ← hkey, hlast, List.append_cancel_right_eq, String.toList_inj] at hr
      rw [hr]
  · rw [shown_bracket, List.cons.injEq] at hshown
    exact absurd hshown.2 (ne_bracket_of_path? (path?_of_header? hheader) _)
  · simp only [inlinePair?, Option.bind_eq_bind, Option.bind_eq_some_iff] at hpair
    obtain ⟨⟨found, s'⟩, hpath, -⟩ := hpair
    exact absurd hshown (ne_bracket_of_path? hpath _)

end Document

end ComponentWiring
