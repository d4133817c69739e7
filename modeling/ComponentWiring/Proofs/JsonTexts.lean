import ComponentWiring.Json.Reader
import ComponentWiring.Json.Writer
import Mathlib.Data.List.Basic

/-! # JSON texts read back

A value of truths, numbers from zero on, strings, lists and records is written over lines, and
reading takes it off the front of a text again, whatever characters are in its strings.

* `Json.Plain`: these values, with numbers that fit 64 bits.
* `Json.Reads`: texts that a parser reads as a value, up to the end of a line or a comma.
* `Json.stringBody_written`, `Json.number?_written`: strings and numbers are read back.
* `Json.separated_lines`: what stands between brackets or braces is read item by item.
* `Json.read_pretty`: reading undoes writing.
-/

namespace ComponentWiring.Json
open Data Text
set_option autoImplicit false

/-! ## Strings -/

theorem hexDigit?_hexDigit (n : Nat) : hexDigit? (hexDigit n) = some (n % 16) := by
  have hdigit : ∀ k < 16, hexDigit? (Nat.digitChar k) = some k := by decide
  exact hdigit _ (Nat.mod_lt n (by decide))

/-- A control character is found again from its code. -/
theorem escape?_code {c : Char} (hc : c.toNat < 0x20) (rest : List Char) :
    escape? ('u' :: '0' :: '0' :: hexDigit (c.toNat / 16) :: hexDigit c.toNat :: rest) =
      some (c, 5) := by
  have hvalue : 16 * (c.toNat / 16 % 16) + c.toNat % 16 = c.toNat := by omega
  have hsurrogate : ¬ (0xD800 ≤ c.toNat ∧ c.toNat < 0xDC00) := by omega
  have hnumber : hexNumber? 4
      ('0' :: '0' :: hexDigit (c.toNat / 16) :: hexDigit c.toNat :: rest) = some c.toNat := by
    have hzero : hexDigit? '0' = some 0 := by decide
    simp [hexNumber?, hexDigit?_hexDigit, hzero, hvalue]
  rw [escape?, hnumber]
  simp only [Option.bind_eq_bind, Option.bind_some, if_neg hsurrogate, charOfNat?_toNat,
    Option.pure_def]

/-- One written character is read as this character. -/
theorem stringBody_escaped (c : Char) (rest : List Char) :
    stringBody 0 (escaped c ++ rest) =
      (stringBody 0 rest).map fun (cs, rest) => (c :: cs, rest) := by
  rw [escaped]
  split
  · next hc => subst hc; rfl
  next hquote =>
  split
  · next hc => subst hc; rfl
  next hbackslash =>
  split
  · next hc => subst hc; rfl
  split
  · next hc => subst hc; rfl
  split
  · next hc => subst hc; rfl
  split
  · next hc => subst hc; rfl
  split
  · next hc => subst hc; rfl
  split
  · next hcontrol =>
    simp only [List.cons_append, List.nil_append]
    rw [stringBody, if_neg (by decide), if_pos rfl, escape?_code hcontrol]
    rfl
  · next hcontrol =>
    rw [List.singleton_append, stringBody, if_neg hquote, if_neg hbackslash, if_neg hcontrol]

theorem stringBody_written (cs rest : List Char) :
    stringBody 0 (cs.flatMap escaped ++ '"' :: rest) = some (cs, rest) := by
  induction cs with
  | nil => rfl
  | cons c cs ih =>
    rw [List.flatMap_cons, List.append_assoc, stringBody_escaped, ih]
    rfl

/-! ## Numbers -/

theorem decimalNumber_toDigits (n : Nat) : decimalNumber (Nat.toDigits 10 n) = n := by
  rw [decimalNumber, ← Nat.ofDigitChars_eq_foldl]
  exact Nat.ofDigitChars_ten_toDigits

theorem isDigit_of_mem_toDigits {n : Nat} {c : Char} (h : c ∈ Nat.toDigits 10 n) :
    isDigit c = true := by
  have hdigit : c.isDigit = true := Nat.isDigit_of_mem_toDigits (by decide) (by decide) h
  rw [Char.isDigit, Bool.and_eq_true, decide_eq_true_eq, decide_eq_true_eq] at hdigit
  rw [isDigit, Bool.and_eq_true, decide_eq_true_eq, decide_eq_true_eq]
  exact hdigit

/-- Only zero is written with a zero in front. -/
theorem head?_toDigits_ne {n : Nat} (hn : n ≠ 0) : (Nat.toDigits 10 n).head? ≠ some '0' := by
  induction n using Nat.strongRecOn with
  | ind n ih =>
    rw [Nat.toDigits_eq_if (by decide)]
    split
    · next hlt =>
      have hdigit : ∀ k < 10, k ≠ 0 → Nat.digitChar k ≠ '0' := by decide
      simpa using hdigit n hlt hn
    · next hle =>
      rw [List.head?_append_of_ne_nil _ Nat.toDigits_ne_nil]
      exact ih (n / 10) (by omega) (by omega)

/-- Behind a value the text ends, or a comma or a line break follows. -/
def Follows (rest : List Char) : Prop := ∀ c, rest.head? = some c → c = ',' ∨ c = '\n'

theorem follows_nil : Follows [] := fun _ h => by cases h

theorem follows_comma (rest : List Char) : Follows (',' :: rest) := by simp [Follows]

theorem follows_newLine (level : Nat) (rest : List Char) : Follows (newLine level ++ rest) := by
  simp [Follows, newLine]

theorem digits1?_written {ds rest : List Char} (hne : ds ≠ [])
    (hdigits : ∀ c ∈ ds, isDigit c = true) (hrest : Follows rest) :
    digits1? (ds ++ rest) = some (ds, rest) := by
  have hrun : (ds ++ rest).takeWhile isDigit = ds := by
    rw [List.takeWhile_append_of_pos hdigits]
    cases rest with
    | nil => simp
    | cons c rest =>
      have hc : isDigit c = false := by
        rcases hrest c rfl with rfl | rfl <;> decide
      simp [hc]
  rw [digits1?, hrun, if_neg hne, List.drop_left]

theorem fraction?_of_follows {rest : List Char} (hrest : Follows rest) :
    fraction? rest = some ([], rest) := by
  rw [fraction?]
  rintro r rfl
  have hpoint := hrest '.' rfl
  simp at hpoint

theorem exponent?_of_follows {rest : List Char} (hrest : Follows rest) :
    exponent? rest = some (none, rest) := by
  cases rest with
  | nil => rfl
  | cons c rest =>
    have hc : ¬ (c = 'e' ∨ c = 'E') := by
      rcases hrest c rfl with rfl | rfl <;> decide
    exact if_neg hc

theorem number?_written {n : Nat} (hn : n < UInt64.size) {rest : List Char} (hrest : Follows rest) :
    number? (Nat.toDigits 10 n ++ rest) = some (.integer n, rest) := by
  have hdigits : ∀ c ∈ Nat.toDigits 10 n, isDigit c = true := fun _ h => isDigit_of_mem_toDigits h
  have hsign : (Nat.toDigits 10 n ++ rest).head? ≠ some '-' := by
    rw [List.head?_append_of_ne_nil _ Nat.toDigits_ne_nil]
    intro hhead
    exact absurd (hdigits '-' (List.mem_of_head? hhead)) (by decide)
  have hzero : ¬ ((Nat.toDigits 10 n).head? = some '0' ∧ (Nat.toDigits 10 n).length ≠ 1) := by
    rintro ⟨hhead, hlength⟩
    have hn : n = 0 := not_not.1 fun hne => head?_toDigits_ne hne hhead
    subst hn
    exact hlength rfl
  have hvalue : number false (Nat.toDigits 10 n) [] none = .integer n := by
    have hnat : n < Nat.pow 2 64 := hn
    rw [number, List.append_nil, decimalNumber_toDigits]
    simp [hnat]
  have hwhole := digits1?_written Nat.toDigits_ne_nil hdigits hrest
  rw [number?]
  simp only [hsign, if_false, decide_false, hwhole, Option.bind_eq_bind, Option.bind_some, hzero,
    fraction?_of_follows hrest, exponent?_of_follows hrest, hvalue, Option.pure_def]

/-! ## Lines between brackets -/

theorem skipBlank_newLine (level : Nat) (s : List Char) :
    skipBlank (newLine level ++ s) = skipBlank s := by
  have hblank : ∀ c ∈ newLine level, c = ' ' ∨ c = '\t' ∨ c = '\n' ∨ c = '\r' := by
    intro c hc
    rcases List.mem_cons.1 hc with rfl | hc
    · simp
    · simp [List.eq_of_mem_replicate hc]
  exact List.dropWhile_append_of_pos fun c hc => decide_eq_true (hblank c hc)

/-- A character that ends a list or a record. -/
def Closes (c : Char) : Prop := c = ']' ∨ c = '}'

/-- A character with which a value may start. -/
def Opens (c : Char) : Prop := c ∉ [' ', '\t', '\n', '\r', ']', '}']

theorem skipBlank_of_opens {c : Char} (hc : Opens c) (s : List Char) :
    skipBlank (c :: s) = c :: s := by
  simp only [Opens, List.mem_cons, List.not_mem_nil, or_false, not_or] at hc
  exact List.dropWhile_cons_of_neg (by simp [hc])

theorem Opens.ne_of_closes {c close : Char} (hc : Opens c) (hclose : Closes close) :
    c ≠ close := by
  rintro rfl
  rcases hclose with rfl | rfl <;> simp [Opens] at hc

theorem skipBlank_of_closes {close : Char} (hclose : Closes close) (s : List Char) :
    skipBlank (close :: s) = close :: s := by
  rcases hclose with rfl | rfl <;> rfl

section Lines
variable {α : Type} {item : Parser α} {text : α → List Char} {level : Nat} {first : α}
  {more : List α}

/-- A text that a parser reads as a value, up to the end of the text, a comma or a line break. -/
structure Reads (item : Parser α) (text : List Char) (x : α) : Prop where
  starts : ∃ c cs, text = c :: cs ∧ Opens c
  item_eq : ∀ rest, Follows rest → item (text ++ rest) = some (x, rest)

/-- Items on lines of their own, with commas between them. -/
def inner (level : Nat) (text : α → List Char) (first : α) (more : List α) : List Char :=
  newLine level ++ text first ++ more.flatMap fun x => ',' :: (newLine level ++ text x)

theorem inner_cons (level : Nat) (text : α → List Char) (first second : α) (more : List α) :
    inner level text first (second :: more) =
      newLine level ++ text first ++ ',' :: inner level text second more := by
  simp [inner]

theorem length_le_inner (level : Nat) (text : α → List Char) {x : α} (hx : x ∈ first :: more) :
    (text x).length ≤ (inner level text first more).length := by
  induction more generalizing first with
  | nil =>
    rw [List.mem_singleton.1 hx]
    simp [inner]
  | cons second more ih =>
    rw [inner_cons]
    rcases List.mem_cons.1 hx with rfl | hx
    · simp
      omega
    · have hlength := ih hx
      simp
      omega

theorem length_lt_inner : more.length < (inner level text first more).length := by
  induction more generalizing first with
  | nil => simp [inner, newLine]
  | cons second more ih =>
    have hlength : more.length < (inner level text second more).length := ih
    rw [inner_cons]
    simp
    omega

theorem Reads.gap_eq {s : List Char} {x : α} (h : Reads item s x) (level : Nat)
    (behind : List Char) :
    (some ∘ skipBlank) (newLine level ++ s ++ behind) = some (s ++ behind) := by
  obtain ⟨c, cs, rfl, hc⟩ := h.starts
  rw [Function.comp_apply, List.append_assoc, skipBlank_newLine, List.cons_append,
    skipBlank_of_opens hc]

theorem Reads.head?_ne {s : List Char} {x : α} (h : Reads item s x) {close : Char}
    (hclose : Closes close) (behind : List Char) : (s ++ behind).head? ≠ some close := by
  obtain ⟨c, cs, rfl, hc⟩ := h.starts
  simpa using hc.ne_of_closes hclose

theorem separated_lines {close : Char} (hclose : Closes close) (outer : Nat)
    (hitems : ∀ x ∈ first :: more, Reads item (text x) x) (comma : Bool) {limit : Nat}
    (hlimit : more.length < limit) (rest : List Char) :
    separated item (some ∘ skipBlank) close false comma limit
      (inner level text first more ++ (newLine outer ++ close :: rest)) =
        some (first :: more, rest) := by
  induction more generalizing first comma limit with
  | nil =>
    obtain ⟨limit, rfl⟩ := Nat.exists_eq_add_of_lt hlimit
    have hfirst := hitems first List.mem_cons_self
    have hitem := hfirst.item_eq _ (follows_newLine outer (close :: rest))
    have hbehind : (some ∘ skipBlank) (newLine outer ++ close :: rest) = some (close :: rest) := by
      rw [Function.comp_apply, skipBlank_newLine, skipBlank_of_closes hclose]
    rw [inner, List.flatMap_nil, List.append_nil]
    exact separated_last (hfirst.gap_eq level _) (hfirst.head?_ne hclose _) hitem _ hbehind
  | cons second more ih =>
    obtain ⟨limit, rfl⟩ : ∃ k, limit = k + 1 := Nat.exists_eq_succ_of_ne_zero (by omega)
    have hfirst := hitems first List.mem_cons_self
    have hrest := ih (fun x hx => hitems x (List.mem_cons_of_mem _ hx)) true
      (Nat.lt_of_succ_lt_succ hlimit)
    have hcomma : close ≠ ',' := by rcases hclose with rfl | rfl <;> decide
    have hitem := hfirst.item_eq _
      (follows_comma (inner level text second more ++ (newLine outer ++ close :: rest)))
    rw [inner_cons, List.append_assoc (newLine level ++ text first), List.cons_append]
    rw [separated_comma (hfirst.gap_eq level _) (hfirst.head?_ne hclose _) hitem _ hcomma rfl,
      Bool.not_false, hrest]
    rfl

/-- The length of the text is limit enough. -/
theorem separated_inner {close : Char} (hclose : Closes close) (outer : Nat)
    (hitems : ∀ x ∈ first :: more, Reads item (text x) x) (rest : List Char) :
    let s := inner level text first more ++ (newLine outer ++ close :: rest)
    separated item (some ∘ skipBlank) close false false s.length s =
      some (first :: more, rest) := by
  intro s
  refine separated_lines hclose outer hitems false ?_ rest
  rw [List.length_append]
  exact Nat.lt_add_right _ length_lt_inner

end Lines

/-! ## Values -/

/-- Truths, numbers from zero on that fit 64 bits, strings, and lists and records of these. -/
inductive Plain : Value → Prop
  | null : Plain .null
  | bool (b : Bool) : Plain (.bool b)
  | integer {n : Nat} (h : n < UInt64.size) : Plain (.integer n)
  | text (s : String) : Plain (.text s)
  | list {items : List Value} (h : ∀ v ∈ items, Plain v) : Plain (.list items)
  | record {fields : List (String × Value)} (h : ∀ f ∈ fields, Plain f.2) : Plain (.record fields)

/-- The text of a field at a level. -/
def fieldText (level : Nat) (field : String × Value) : List Char :=
  string field.1 ++ [':', ' '] ++ prettyAt level field.2

theorem prettyItems_eq (level : Nat) (items : List Value) :
    prettyItems level items =
      items.flatMap fun v => ',' :: (newLine level ++ prettyAt level v) := by
  induction items with
  | nil => rfl
  | cons item items ih =>
    rw [prettyItems, ih]
    simp

theorem prettyFields_eq (level : Nat) (fields : List (String × Value)) :
    prettyFields level fields =
      fields.flatMap fun f => ',' :: (newLine level ++ fieldText level f) := by
  induction fields with
  | nil => rfl
  | cons field fields ih =>
    rw [prettyFields, ih]
    simp [fieldText]

theorem prettyAt_list (level : Nat) (item : Value) (items : List Value) :
    prettyAt level (.list (item :: items)) =
      '[' :: (inner (level + 1) (prettyAt (level + 1)) item items ++ newLine level ++ [']']) := by
  rw [prettyAt, prettyItems_eq, inner]
  simp

theorem prettyAt_record (level : Nat) (field : String × Value) (fields : List (String × Value)) :
    prettyAt level (.record (field :: fields)) =
      '{' ::
        (inner (level + 1) (fieldText (level + 1)) field fields ++ newLine level ++ ['}']) := by
  rw [prettyAt, prettyFields_eq, inner]
  simp [fieldText]

theorem reads_integer {n : Nat} (hn : n < UInt64.size) (level depth : Nat) :
    Reads (value (depth + 1)) (prettyAt level (.integer n)) (.integer n) := by
  have htext : prettyAt level (.integer n) = Nat.toDigits 10 n := by
    change (toString n).toList = _
    rw [Nat.toString_eq_ofList_toDigits, String.toList_ofList]
  obtain ⟨c, cs, hdigits⟩ := List.exists_cons_of_ne_nil (Nat.toDigits_ne_nil (n := n) (b := 10))
  have hc : isDigit c = true := isDigit_of_mem_toDigits (n := n) (by simp [hdigits])
  rw [htext]
  constructor
  · refine ⟨c, cs, hdigits, fun hmem => ?_⟩
    simp only [List.mem_cons, List.not_mem_nil, or_false] at hmem
    rcases hmem with rfl | rfl | rfl | rfl | rfl | rfl <;> exact absurd hc (by decide)
  · intro rest hrest
    rw [← number?_written hn hrest, hdigits, List.cons_append, value]
    all_goals
      intro r heq
      rw [(List.cons.inj heq).1] at hc
      exact absurd hc (by decide)

theorem reads_text (s : String) (level depth : Nat) :
    Reads (value (depth + 1)) (prettyAt level (.text s)) (.text s) where
  starts := ⟨'"', _, rfl, by simp [Opens]⟩
  item_eq := by
    intro rest _
    have htext : prettyAt level (.text s) ++ rest =
        '"' :: (s.toList.flatMap escaped ++ '"' :: rest) := by
      simp [prettyAt, scalar, string]
    rw [htext, value, stringBody_written, Option.map_some]
    dsimp only
    rw [String.ofList_toList]

theorem reads_field {field : String × Value} {level depth : Nat}
    (h : Reads (value depth) (prettyAt level field.2) field.2) :
    Reads (member (value depth)) (fieldText level field) field where
  starts := ⟨'"', _, rfl, by simp [Opens]⟩
  item_eq := by
    intro rest hrest
    obtain ⟨c, cs, htext, hc⟩ := h.starts
    have hline : fieldText level field ++ rest = '"' :: (field.1.toList.flatMap escaped ++
        '"' :: ':' :: ' ' :: (prettyAt level field.2 ++ rest)) := by
      simp [fieldText, string]
    have hskip : skipBlank (' ' :: (prettyAt level field.2 ++ rest)) =
        prettyAt level field.2 ++ rest := by
      rw [htext, List.cons_append]
      exact skipBlank_of_opens hc _
    have hcolon : ∀ s, skipBlank (':' :: s) = ':' :: s := fun _ => rfl
    rw [hline, member, stringBody_written]
    simp only [Option.bind_eq_bind, Option.bind_some, hcolon, hskip, h.item_eq rest hrest,
      String.ofList_toList, Option.pure_def]

theorem reads_list {item : Value} {items : List Value} {level depth : Nat}
    (hitems : ∀ v ∈ item :: items, Reads (value depth) (prettyAt (level + 1) v) v) :
    Reads (value (depth + 1)) (prettyAt level (.list (item :: items))) (.list (item :: items)) where
  starts := ⟨'[', _, prettyAt_list level item items, by simp [Opens]⟩
  item_eq := by
    intro rest _
    have htext : prettyAt level (.list (item :: items)) ++ rest =
        '[' :: (inner (level + 1) (prettyAt (level + 1)) item items ++
          (newLine level ++ ']' :: rest)) := by
      simp [prettyAt_list]
    rw [htext, value, separated_inner (.inl rfl) level hitems rest]
    rfl

theorem reads_record {field : String × Value} {fields : List (String × Value)} {level depth : Nat}
    (hfields : ∀ f ∈ field :: fields, Reads (value depth) (prettyAt (level + 1) f.2) f.2) :
    Reads (value (depth + 1)) (prettyAt level (.record (field :: fields)))
      (.record (field :: fields)) where
  starts := ⟨'{', _, prettyAt_record level field fields, by simp [Opens]⟩
  item_eq := by
    intro rest _
    have htext : prettyAt level (.record (field :: fields)) ++ rest =
        '{' :: (inner (level + 1) (fieldText (level + 1)) field fields ++
          (newLine level ++ '}' :: rest)) := by
      simp [prettyAt_record]
    have hmembers : ∀ f ∈ field :: fields,
        Reads (member (value depth)) (fieldText (level + 1) f) f :=
      fun f hf => reads_field (hfields f hf)
    rw [htext, value, separated_inner (.inr rfl) level hmembers rest]
    rfl

/-- A value is read from the text that is written for it, at any level and with depth enough. -/
theorem reads_value {v : Value} (h : Plain v) (level : Nat) {depth : Nat}
    (hdepth : (prettyAt level v).length ≤ depth) :
    Reads (value (depth + 1)) (prettyAt level v) v := by
  -- A bracket takes one from the depth, and what is between two of them is shorter than the whole.
  induction h generalizing level depth with
  | null => exact ⟨⟨'n', _, rfl, by simp [Opens]⟩, fun _ _ => rfl⟩
  | bool b =>
    cases b with
    | true => exact ⟨⟨'t', _, rfl, by simp [Opens]⟩, fun _ _ => rfl⟩
    | false => exact ⟨⟨'f', _, rfl, by simp [Opens]⟩, fun _ _ => rfl⟩
  | integer hn => exact reads_integer hn level depth
  | text s => exact reads_text s level depth
  | @list items _ ih =>
    cases items with
    | nil => exact ⟨⟨'[', _, rfl, by simp [Opens]⟩, fun _ _ => rfl⟩
    | cons item items =>
      rw [prettyAt_list, List.length_cons, List.length_append, List.length_append] at hdepth
      obtain ⟨depth, rfl⟩ : ∃ d, depth = d + 1 := Nat.exists_eq_succ_of_ne_zero (by omega)
      refine reads_list fun v hv => ih v hv (level + 1) ?_
      have hlength := length_le_inner (level + 1) (prettyAt (level + 1)) hv
      omega
  | @record fields _ ih =>
    cases fields with
    | nil => exact ⟨⟨'{', _, rfl, by simp [Opens]⟩, fun _ _ => rfl⟩
    | cons field fields =>
      rw [prettyAt_record, List.length_cons, List.length_append, List.length_append] at hdepth
      obtain ⟨depth, rfl⟩ : ∃ d, depth = d + 1 := Nat.exists_eq_succ_of_ne_zero (by omega)
      refine reads_record fun f hf => ih f hf (level + 1) ?_
      have hlength := length_le_inner (level + 1) (fieldText (level + 1)) hf
      have hfield : (prettyAt (level + 1) f.2).length ≤ (fieldText (level + 1) f).length := by
        rw [fieldText, List.length_append]
        exact Nat.le_add_left _ _
      omega

/-- The text of a value over lines is read as this value. -/
theorem read_pretty {v : Value} (h : Plain v) : read (pretty v) = some v := by
  have hreads := reads_value h 0 (Nat.le_refl _)
  obtain ⟨c, cs, htext, hc⟩ := hreads.starts
  have hskip : skipBlank (prettyAt 0 v) = prettyAt 0 v := by
    rw [htext, skipBlank_of_opens hc]
  have hvalue := hreads.item_eq [] follows_nil
  rw [List.append_nil] at hvalue
  rw [read, pretty, String.toList_ofList, hskip, hvalue]
  rfl

end ComponentWiring.Json
