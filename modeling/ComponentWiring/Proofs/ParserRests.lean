import ComponentWiring.Toml.Statement
import Mathlib.Data.List.Infix

/-! # What parsers leave

Every parser takes characters off the front of a text, so what it leaves is an end of the text.

* `Text.TakesFront`: parsers like that.
* `Toml.takesFront_value?`: values.
* `Toml.takesFront_statement?`: statements.
* `Toml.skipGap_suffix`: what stands between values.
-/

namespace ComponentWiring
set_option autoImplicit false

namespace Text

/-- A parser that leaves an end of the text. -/
def TakesFront {α : Type} (parse : Parser α) : Prop :=
  ∀ s x rest, parse s = some (x, rest) → rest <:+ s

theorem TakesFront.of_eq {α β : Type} {parse : Parser α} (h : TakesFront parse) {s : List Char}
    {f : α → β} {x : β} {rest : List Char}
    (hmap : (parse s).map (fun (y, r) => (f y, r)) = some (x, rest)) : rest <:+ s := by
  rw [Option.map_eq_some_iff] at hmap
  obtain ⟨⟨y, r⟩, hparse, heq⟩ := hmap
  cases heq
  exact h s y rest hparse

theorem eq_append_of_dropStart? {start s rest : List Char} (h : dropStart? start s = some rest) :
    s = start ++ rest := by
  rw [dropStart?] at h
  split at h
  · next hstart =>
    cases h
    exact (List.prefix_iff_eq_append.1 (List.isPrefixOf_iff_prefix.1 hstart)).symm
  · cases h

/-- Separated items leave an end of the text if each item and each gap does. -/
theorem takesFront_separated {α : Type} {item : Parser α} (hitem : TakesFront item)
    {gap : List Char → Option (List Char)} (hgap : ∀ s rest, gap s = some rest → rest <:+ s)
    (close : Char) (trailing more : Bool) (limit : Nat) :
    TakesFront (separated item gap close trailing more limit) := by
  induction limit generalizing more with
  | zero =>
    intro s xs rest h
    rw [separated] at h
    cases h
  | succ limit ih =>
    intro s xs rest h
    rw [separated] at h
    simp only [Option.bind_eq_bind, Option.bind_eq_some_iff] at h
    obtain ⟨s₁, hs₁, h⟩ := h
    have hfront := hgap s s₁ hs₁
    split at h
    · cases h
      exact (List.tail_suffix _).trans hfront
    · simp only [Option.bind_eq_some_iff] at h
      obtain ⟨⟨x, s₂⟩, hx, s₃, hs₃, h⟩ := h
      have hs := ((hgap s₂ s₃ hs₃).trans (hitem s₁ x s₂ hx)).trans hfront
      split at h
      · cases h
      · next c r =>
        have hr := (List.suffix_cons c r).trans hs
        split at h
        · cases h
          exact hr
        · split at h
          · simp only [Option.bind_eq_some_iff] at h
            obtain ⟨⟨ys, r'⟩, hys, h⟩ := h
            cases h
            exact (ih _ r ys r' hys).trans hr
          · cases h

end Text

namespace Toml
open Text Data

/-! ## Gaps -/

theorem skipBlank_suffix (s : List Char) : skipBlank s <:+ s := List.dropWhile_suffix _

theorem skipGap_suffix {inside : Bool} {s rest : List Char} (h : skipGap inside s = some rest) :
    rest <:+ s := by
  fun_induction skipGap inside s with
  | case1 inside =>
    cases h
    exact List.suffix_rfl
  | case2 inside r ih => exact (ih h).trans (List.suffix_cons _ _)
  | case3 inside r ih =>
    exact (ih h).trans ((List.suffix_cons _ _).trans (List.suffix_cons _ _))
  | case4 c r _ _ _ ih => exact (ih h).trans (List.suffix_cons _ _)
  | case5 => cases h
  | case6 inside r _ _ _ ih => exact (ih h).trans (List.suffix_cons _ _)
  | case7 inside c r _ _ _ _ _ ih => exact (ih h).trans (List.suffix_cons _ _)
  | case8 =>
    cases h
    exact List.suffix_rfl

/-! ## Strings -/

theorem exists_of_map {f : List Char → List Char} {read : Option (List Char × List Char)}
    {cs rest : List Char} (h : (read.map fun (cs, rest) => (f cs, rest)) = some (cs, rest)) :
    ∃ cs', read = some (cs', rest) := by
  rw [Option.map_eq_some_iff] at h
  obtain ⟨⟨cs', r⟩, hread, heq⟩ := h
  cases heq
  exact ⟨cs', hread⟩

theorem exists_of_put {c : Char} {read : Option (List Char × List Char)} {cs rest : List Char}
    (h : put c read = some (cs, rest)) : ∃ cs', read = some (cs', rest) := exists_of_map h

theorem takesFront_basicBody (edition : Edition) (skip : Nat) :
    TakesFront (basicBody edition skip) := by
  intro s cs rest h
  fun_induction basicBody edition skip s generalizing cs with
  | case1 => cases h
  | case2 skip c r ih => exact (ih cs h).trans (List.suffix_cons _ _)
  | case3 r =>
    cases h
    exact List.suffix_cons _ _
  | case4 r _ e taken _ ih =>
    obtain ⟨cs', hread⟩ := exists_of_put h
    exact (ih cs' hread).trans (List.suffix_cons _ _)
  | case5 => cases h
  | case6 c r _ _ _ ih =>
    obtain ⟨cs', hread⟩ := exists_of_put h
    exact (ih cs' hread).trans (List.suffix_cons _ _)
  | case7 => cases h

theorem takesFront_literalBody : TakesFront literalBody := by
  intro s cs rest h
  fun_induction literalBody s generalizing cs with
  | case1 => cases h
  | case2 r =>
    cases h
    exact List.suffix_cons _ _
  | case3 c r _ _ ih =>
    obtain ⟨cs', hread⟩ := exists_of_put h
    exact (ih cs' hread).trans (List.suffix_cons _ _)
  | case4 => cases h

theorem closing_suffix {q : Char} {r cs rest : List Char} (h : closing q r = (cs, rest)) :
    rest <:+ r := by
  cases h
  exact List.drop_suffix _ _

theorem takesFront_basicLines (edition : Edition) (skip : Nat) :
    TakesFront (basicLines edition skip) := by
  intro s cs rest h
  fun_induction basicLines edition skip s generalizing cs with
  | case1 => cases h
  | case2 skip c r ih => exact (ih cs h).trans (List.suffix_cons _ _)
  | case3 r _ =>
    have hclosing := closing_suffix (Option.some.inj h)
    exact (hclosing.trans (List.drop_suffix _ _)).trans (List.suffix_cons _ _)
  | case4 r _ ih =>
    obtain ⟨cs', hread⟩ := exists_of_put h
    exact (ih cs' hread).trans (List.suffix_cons _ _)
  | case5 r taken _ _ ih => exact (ih cs h).trans (List.suffix_cons _ _)
  | case6 r _ e taken _ _ ih =>
    obtain ⟨cs', hread⟩ := exists_of_put h
    exact (ih cs' hread).trans (List.suffix_cons _ _)
  | case7 => cases h
  | case8 r _ _ ih =>
    obtain ⟨cs', hread⟩ := exists_of_put h
    exact (ih cs' hread).trans (List.suffix_cons _ _)
  | case9 c r _ _ _ _ ih =>
    obtain ⟨cs', hread⟩ := exists_of_map h
    exact (ih cs' hread).trans (List.suffix_cons _ _)
  | case10 c r _ _ _ _ _ ih =>
    obtain ⟨cs', hread⟩ := exists_of_put h
    exact (ih cs' hread).trans (List.suffix_cons _ _)
  | case11 => cases h

theorem takesFront_literalLines (edition : Edition) (skip : Nat) :
    TakesFront (literalLines edition skip) := by
  intro s cs rest h
  fun_induction literalLines edition skip s generalizing cs with
  | case1 => cases h
  | case2 skip c r ih => exact (ih cs h).trans (List.suffix_cons _ _)
  | case3 r _ =>
    have hclosing := closing_suffix (Option.some.inj h)
    exact (hclosing.trans (List.drop_suffix _ _)).trans (List.suffix_cons _ _)
  | case4 r _ ih =>
    obtain ⟨cs', hread⟩ := exists_of_put h
    exact (ih cs' hread).trans (List.suffix_cons _ _)
  | case5 r _ ih =>
    obtain ⟨cs', hread⟩ := exists_of_put h
    exact (ih cs' hread).trans (List.suffix_cons _ _)
  | case6 c r _ _ _ ih =>
    obtain ⟨cs', hread⟩ := exists_of_map h
    exact (ih cs' hread).trans (List.suffix_cons _ _)
  | case7 c r _ _ _ _ ih =>
    obtain ⟨cs', hread⟩ := exists_of_put h
    exact (ih cs' hread).trans (List.suffix_cons _ _)
  | case8 => cases h

theorem skipOpening_suffix (s : List Char) : skipOpening s <:+ s := by
  unfold skipOpening
  split
  · exact List.suffix_cons _ _
  · exact (List.suffix_cons _ _).trans (List.suffix_cons _ _)
  · exact List.suffix_rfl

theorem takesFront_string? (edition : Edition) : TakesFront (string? edition) := by
  intro s cs rest h
  unfold string? at h
  split at h
  · next r =>
    have hopening := (skipOpening_suffix (r.drop 2)).trans (List.drop_suffix 2 r)
    split at h
    · exact ((takesFront_basicLines edition 0 _ _ _ h).trans hopening).trans (List.suffix_cons _ _)
    · exact (takesFront_basicBody edition 0 _ _ _ h).trans (List.suffix_cons _ _)
  · next r =>
    have hopening := (skipOpening_suffix (r.drop 2)).trans (List.drop_suffix 2 r)
    split at h
    · exact ((takesFront_literalLines edition 0 _ _ _ h).trans hopening).trans
        (List.suffix_cons _ _)
    · exact (takesFront_literalBody _ _ _ h).trans (List.suffix_cons _ _)
  · cases h

/-! ## Numbers -/

theorem takesFront_digits? (isDigit : Char → Bool) : TakesFront (digits? isDigit) := by
  intro s ds rest h
  fun_induction digits? isDigit s generalizing ds with
  | case1 => cases h
  | case2 c _ r ds' rest' hread ih =>
    cases h
    exact ((ih ds' hread).trans (List.suffix_cons _ _)).trans (List.suffix_cons _ _)
  | case3 c _ r _ _ =>
    cases h
    exact List.suffix_cons _ _
  | case4 c _ r _ ds' rest' hread ih =>
    cases h
    exact (ih ds' hread).trans (List.suffix_cons _ _)
  | case5 c _ r _ _ _ =>
    cases h
    exact List.suffix_cons _ _
  | case6 => cases h

theorem takesFront_based? (base : Nat) : TakesFront (based? base) := by
  intro s v rest h
  simp only [based?, Option.bind_eq_bind, Option.bind_eq_some_iff] at h
  obtain ⟨⟨ds, r⟩, hds, v', -, h⟩ := h
  cases h
  exact takesFront_digits? _ s ds r hds

theorem sign_suffix (s : List Char) : (sign s).2 <:+ s := by
  unfold sign
  split
  · exact List.suffix_cons _ _
  · exact List.suffix_cons _ _
  · exact List.suffix_rfl

theorem takesFront_power? : TakesFront power? := by
  intro s n rest h
  unfold power? at h
  split at h
  · next c r =>
    split at h
    · simp only [Option.bind_eq_bind, Option.bind_eq_some_iff] at h
      obtain ⟨⟨ds, r'⟩, hds, h⟩ := h
      cases h
      exact ((takesFront_digits? _ _ ds r' hds).trans (sign_suffix r)).trans (List.suffix_cons _ _)
    · cases h
  · cases h

theorem rest_of_bind {α β : Type} {read : Option α} {f : α → β} {r rest : List Char} {x : β}
    (h : (read.bind fun a => pure (f a, r)) = some (x, rest)) : rest = r := by
  rw [Option.bind_eq_some_iff] at h
  obtain ⟨a, -, h⟩ := h
  cases h
  rfl

theorem takesFront_decimal? (edition : Edition) : TakesFront (decimal? edition) := by
  intro s v rest h
  simp only [decimal?, Option.bind_eq_bind, Option.bind_eq_some_iff] at h
  obtain ⟨⟨whole, r⟩, hwhole, h⟩ := h
  have hr : r <:+ s := (takesFront_digits? _ _ whole r hwhole).trans (sign_suffix s)
  dsimp only at h
  split at h
  · cases h
  split at h
  · next r₁ =>
    rw [Option.bind_eq_some_iff] at h
    obtain ⟨⟨fraction, r₂⟩, hfraction, h⟩ := h
    have hr₂ : r₂ <:+ s :=
      ((takesFront_digits? _ _ fraction r₂ hfraction).trans (List.suffix_cons _ _)).trans hr
    dsimp only at h
    split at h
    · next power r₃ hpower =>
      rw [rest_of_bind h]
      exact (takesFront_power? _ _ _ hpower).trans hr₂
    · split at h
      · rwa [rest_of_bind h]
      · rwa [rest_of_bind h]
  · dsimp only [Option.bind_some] at h
    split at h
    · next power r₃ hpower =>
      rw [rest_of_bind h]
      exact (takesFront_power? _ _ _ hpower).trans hr
    · split at h
      · rwa [rest_of_bind h]
      · rwa [rest_of_bind h]

theorem takesFront_number? (edition : Edition) : TakesFront (number? edition) := by
  intro s v rest h
  unfold number? at h
  split at h
  · exact (takesFront_based? 16 _ _ _ h).trans ((List.suffix_cons _ _).trans (List.suffix_cons _ _))
  · exact (takesFront_based? 8 _ _ _ h).trans ((List.suffix_cons _ _).trans (List.suffix_cons _ _))
  · exact (takesFront_based? 2 _ _ _ h).trans ((List.suffix_cons _ _).trans (List.suffix_cons _ _))
  · have hsign := sign_suffix s
    split at h
    · next negative r hr =>
      cases h
      rw [hr] at hsign
      exact (List.drop_suffix 3 ('i' :: 'n' :: 'f' :: rest)).trans hsign
    · next negative r hr =>
      cases h
      rw [hr] at hsign
      exact (List.drop_suffix 3 ('n' :: 'a' :: 'n' :: rest)).trans hsign
    · exact takesFront_decimal? edition s v rest h

/-! ## Dates and times -/

theorem takesFront_bounded? (count low high : Nat) : TakesFront (bounded? count low high) := by
  intro s n rest h
  rw [bounded?] at h
  split at h
  · cases h
    exact List.drop_suffix _ _
  · cases h

theorem after?_suffix {c : Char} {s rest : List Char} (h : after? c s = some rest) :
    rest <:+ s := by
  unfold after? at h
  split at h
  · split at h
    · cases h
      exact List.suffix_cons _ _
    · cases h
  · cases h

theorem date?_suffix {s rest : List Char} (h : date? s = some rest) : rest <:+ s := by
  simp only [date?, Option.bind_eq_bind, Option.bind_eq_some_iff] at h
  obtain ⟨⟨year, s₁⟩, h₁, s₂, h₂, ⟨month, s₃⟩, h₃, s₄, h₄, ⟨day, s₅⟩, h₅, h⟩ := h
  cases h
  have hmonth := (takesFront_bounded? _ _ _ _ _ _ h₃).trans
    ((after?_suffix h₂).trans (takesFront_bounded? _ _ _ _ _ _ h₁))
  exact (takesFront_bounded? _ _ _ _ _ _ h₅).trans ((after?_suffix h₄).trans hmonth)

theorem fraction?_suffix {s rest : List Char} (h : fraction? s = some rest) : rest <:+ s := by
  unfold fraction? at h
  split at h
  · dsimp only at h
    split at h
    · cases h
    · cases h
      exact (List.drop_suffix _ _).trans (List.suffix_cons _ _)
  · cases h
    exact List.suffix_rfl

theorem time?_suffix {edition : Edition} {s rest : List Char} (h : time? edition s = some rest) :
    rest <:+ s := by
  simp only [time?, Option.bind_eq_bind, Option.bind_eq_some_iff] at h
  obtain ⟨⟨hour, s₁⟩, h₁, s₂, h₂, ⟨minute, s₃⟩, h₃, h⟩ := h
  have hminute := (takesFront_bounded? _ _ _ _ _ _ h₃).trans
    ((after?_suffix h₂).trans (takesFront_bounded? _ _ _ _ _ _ h₁))
  split at h
  · next s₄ h₄ =>
    rw [Option.bind_eq_some_iff] at h
    obtain ⟨⟨second, s₅⟩, h₅, h⟩ := h
    exact ((fraction?_suffix h).trans (takesFront_bounded? _ _ _ _ _ _ h₅)).trans
      ((after?_suffix h₄).trans hminute)
  · split at h
    · cases h
      exact hminute
    · cases h

theorem offset?_suffix {s rest : List Char} (h : offset? s = some rest) : rest <:+ s := by
  unfold offset? at h
  split at h
  · next c r =>
    split at h
    · cases h
      exact List.suffix_cons _ _
    · split at h
      · simp only [Option.bind_eq_bind, Option.bind_eq_some_iff] at h
        obtain ⟨⟨hour, s₁⟩, h₁, s₂, h₂, ⟨minute, s₃⟩, h₃, h⟩ := h
        cases h
        exact ((takesFront_bounded? _ _ _ _ _ _ h₃).trans ((after?_suffix h₂).trans
          (takesFront_bounded? _ _ _ _ _ _ h₁))).trans (List.suffix_cons _ _)
      · cases h
        exact List.suffix_rfl
  · cases h
    exact List.suffix_rfl

theorem timeAfterDate?_suffix {s rest : List Char} (h : timeAfterDate? s = some rest) :
    rest <:+ s := by
  unfold timeAfterDate? at h
  split at h
  · cases h
    exact List.suffix_cons _ _
  · cases h
    exact List.suffix_cons _ _
  · split at h
    · cases h
      exact List.suffix_cons _ _
    · cases h
  · cases h

theorem takesFront_moment? (edition : Edition) : TakesFront (moment? edition) := by
  intro s v rest h
  simp only [moment?, Option.bind_eq_bind, Option.bind_eq_some_iff] at h
  obtain ⟨r, hr, h⟩ := h
  cases h
  rw [momentRest?] at hr
  split at hr
  · exact time?_suffix hr
  · simp only [Option.bind_eq_bind, Option.bind_eq_some_iff] at hr
    obtain ⟨s₁, h₁, hr⟩ := hr
    split at hr
    · next s₂ h₂ =>
      rw [Option.bind_eq_some_iff] at hr
      obtain ⟨s₃, h₃, hr⟩ := hr
      exact ((offset?_suffix hr).trans (time?_suffix h₃)).trans
        ((timeAfterDate?_suffix h₂).trans (date?_suffix h₁))
    · cases hr
      exact date?_suffix h₁

theorem takesFront_scalar? (edition : Edition) : TakesFront (scalar? edition) := by
  intro s v rest h
  unfold scalar? at h
  split at h
  · cases h
    exact List.drop_suffix 4 ('t' :: 'r' :: 'u' :: 'e' :: rest)
  · cases h
    exact List.drop_suffix 5 ('f' :: 'a' :: 'l' :: 's' :: 'e' :: rest)
  · split at h
    · exact takesFront_moment? edition s v rest h
    · exact takesFront_number? edition s v rest h

/-! ## Keys and values -/

theorem takesFront_key? (edition : Edition) : TakesFront (key? edition) := by
  intro s key rest h
  unfold key? at h
  split at h
  · exact ((takesFront_basicBody edition 0).of_eq h).trans (List.suffix_cons _ _)
  · exact (takesFront_literalBody.of_eq h).trans (List.suffix_cons _ _)
  · dsimp only at h
    split at h
    · cases h
    · cases h
      exact List.drop_suffix _ _

theorem takesFront_path? (edition : Edition) (limit : Nat) : TakesFront (path? edition limit) := by
  induction limit with
  | zero =>
    intro s path rest h
    cases h
  | succ limit ih =>
    intro s path rest h
    simp only [path?, Option.bind_eq_bind, Option.bind_eq_some_iff] at h
    obtain ⟨⟨key, s₁⟩, hkey, h⟩ := h
    have hs₁ := (takesFront_key? edition _ _ _ hkey).trans (skipBlank_suffix s)
    have hs₂ := (skipBlank_suffix s₁).trans hs₁
    split at h
    · next r hr =>
      rw [Option.bind_eq_some_iff] at h
      obtain ⟨⟨⟨front, last⟩, r'⟩, hpath, h⟩ := h
      cases h
      rw [hr] at hs₂
      exact (ih r _ _ hpath).trans ((List.suffix_cons _ _).trans hs₂)
    · cases h
      exact hs₂

theorem takesFront_inlinePair? (edition : Edition) {value : Parser Value}
    (hvalue : TakesFront value) : TakesFront (inlinePair? edition value) := by
  intro s x rest h
  simp only [inlinePair?, Option.bind_eq_bind, Option.bind_eq_some_iff] at h
  obtain ⟨⟨⟨path, key⟩, s₁⟩, hpath, h⟩ := h
  have hs₁ := takesFront_path? edition _ _ _ _ hpath
  dsimp only at h
  split at h
  · next r =>
    rw [Option.bind_eq_some_iff] at h
    obtain ⟨⟨v, s₂⟩, hv, h⟩ := h
    cases h
    exact ((hvalue _ _ _ hv).trans (skipBlank_suffix r)).trans ((List.suffix_cons _ _).trans hs₁)
  · cases h

theorem inlineGap_suffix {edition : Edition} {s rest : List Char}
    (h : inlineGap edition s = some rest) : rest <:+ s := by
  rw [inlineGap] at h
  split at h
  · exact skipGap_suffix h
  · cases h
    exact skipBlank_suffix s

theorem takesFront_leaf? (edition : Edition) : TakesFront (value?.leaf? edition) := by
  intro s v rest h
  rw [value?.leaf?] at h
  split at h
  · next cs r hstring =>
    cases h
    exact takesFront_string? edition s cs _ hstring
  · split at h
    · cases h
    · exact takesFront_scalar? edition s v rest h

theorem takesFront_value? (edition : Edition) (depth : Nat) :
    TakesFront (value? edition depth) := by
  -- a list and an inline table hold values of the next depth
  induction depth with
  | zero =>
    intro s v rest h
    rw [value?] at h
    split at h
    · cases h
    · exact takesFront_leaf? edition s v rest h
  | succ depth ih =>
    intro s v rest h
    unfold value? at h
    split at h
    · next r =>
      have hgap : ∀ s rest, skipGap false s = some rest → rest <:+ s := fun _ _ => skipGap_suffix
      have hitems := takesFront_separated ih hgap ']' true false (r.length + 1)
      exact (hitems.of_eq h).trans (List.suffix_cons _ _)
    · next r =>
      have hgap : ∀ s rest, inlineGap edition s = some rest → rest <:+ s :=
        fun _ _ => inlineGap_suffix
      have hpairs := takesFront_separated (takesFront_inlinePair? edition ih) hgap '}'
        (edition = .v11) false (r.length + 1)
      simp only [Option.bind_eq_bind, Option.bind_eq_some_iff] at h
      obtain ⟨⟨pairs, r'⟩, hread, v', -, h⟩ := h
      cases h
      exact (hpairs _ _ _ hread).trans (List.suffix_cons _ _)
    · exact takesFront_leaf? edition s v rest h

/-! ## Statements -/

theorem path?_of_header? {edition : Edition} {close s rest : List Char}
    {path : List String × String} (h : header? edition close s = some (path, rest)) :
    path? edition s.length s = some (path, close ++ rest) := by
  simp only [header?, Option.bind_eq_bind, Option.bind_eq_some_iff] at h
  obtain ⟨⟨path', s'⟩, hpath, rest', hclose, h⟩ := h
  cases h
  have hs' : s' = close ++ rest := eq_append_of_dropStart? hclose
  exact hs' ▸ hpath

/-- What a statement is read from: one of two kinds of header, or a pair. -/
theorem statement?_cases {edition : Edition} {s rest : List Char} {statement : Statement}
    (h : statement? edition s = some (statement, rest)) :
    (∃ r path key, s = '[' :: '[' :: r ∧ statement = .element path key ∧
        header? edition [']', ']'] r = some ((path, key), rest)) ∨
      (∃ r path key, s = '[' :: r ∧ statement = .table path key ∧
        header? edition [']'] r = some ((path, key), rest)) ∨
      ∃ path key v, statement = .pair path key v ∧
        inlinePair? edition (value? edition edition.depth) s = some ((path, key, v), rest) := by
  unfold statement? at h
  split at h
  · simp only [Option.bind_eq_bind, Option.bind_eq_some_iff] at h
    obtain ⟨⟨⟨path, key⟩, r⟩, hheader, h⟩ := h
    cases h
    exact .inl ⟨_, path, key, rfl, rfl, hheader⟩
  · simp only [Option.bind_eq_bind, Option.bind_eq_some_iff] at h
    obtain ⟨⟨⟨path, key⟩, r⟩, hheader, h⟩ := h
    cases h
    exact .inr (.inl ⟨_, path, key, rfl, rfl, hheader⟩)
  · simp only [Option.bind_eq_bind, Option.bind_eq_some_iff] at h
    obtain ⟨⟨⟨path, key, v⟩, r⟩, hpair, h⟩ := h
    cases h
    exact .inr (.inr ⟨path, key, v, rfl, hpair⟩)

theorem takesFront_header? (edition : Edition) (close : List Char) :
    TakesFront (header? edition close) := by
  intro s path rest h
  have hpath := takesFront_path? edition _ _ _ _ (path?_of_header? h)
  exact (List.suffix_append close rest).trans hpath

theorem takesFront_statement? (edition : Edition) : TakesFront (statement? edition) := by
  intro s statement rest h
  rcases statement?_cases h with ⟨r, path, key, rfl, -, hheader⟩ | ⟨r, path, key, rfl, -, hheader⟩ |
    ⟨path, key, v, -, hpair⟩
  · exact (takesFront_header? edition _ _ _ _ hheader).trans
      ((List.suffix_cons _ _).trans (List.suffix_cons _ _))
  · exact (takesFront_header? edition _ _ _ _ hheader).trans (List.suffix_cons _ _)
  · exact takesFront_inlinePair? edition (takesFront_value? edition _) _ _ _ hpair

end Toml

end ComponentWiring
