import ComponentWiring.Proofs.QuotedStrings
import ComponentWiring.Toml.Statement

/-! # Texts that are written as statements

Values, pairs and headers as they are written are read back, whatever stands behind them, so a text
of such lines is read as the tables that the lines make.

* `Toml.Spells`: texts that stand for a value at the end of a line.
* `Toml.Says`: texts of whole lines that hold one statement.
* `Toml.read_of_lines`: a text of such lines is read as what the statements make.
* `Toml.Block`: a table of a text, with its header and its rows.
* `Toml.read_blocks`: a text of tables is read as these tables.
-/

namespace ComponentWiring
set_option autoImplicit false

namespace Toml
open Text Data

/-! ## Keys -/

/-- A key that may stand without quotes. -/
def Bare (key : String) : Prop := key.toList ≠ [] ∧ ∀ c ∈ key.toList, isBare c = true

instance (key : String) : Decidable (Bare key) :=
  decidable_of_iff (key.toList.isEmpty = false ∧ key.toList.all isBare = true) (by simp [Bare])

theorem Bare.exists_cons {key : String} (h : Bare key) :
    ∃ c cs, key.toList = c :: cs ∧ isBare c = true := by
  obtain ⟨c, cs, hkey⟩ := List.exists_cons_of_ne_nil h.1
  exact ⟨c, cs, hkey, h.2 c (by simp [hkey])⟩

theorem skipBlank_of_not {c : Char} (h : isBlank c = false) (rest : List Char) :
    skipBlank (c :: rest) = c :: rest := by
  simp [skipBlank, h]

theorem key?_of_bare (edition : Edition) {key : String} (hkey : Bare key) {rest : List Char}
    (hrest : ∀ c, rest.head? = some c → isBare c = false) :
    key? edition (key.toList ++ rest) = some (key, rest) := by
  obtain ⟨c, cs, hlist, hc⟩ := hkey.exists_cons
  have hquote := ne_of_isBare (d := '"') hc (by decide)
  have hapostrophe := ne_of_isBare (d := '\'') hc (by decide)
  have hrun : (key.toList ++ rest).takeWhile isBare = key.toList := by
    rw [List.takeWhile_append_of_pos hkey.2]
    cases rest with
    | nil => simp
    | cons d rest => simp [hrest d rfl]
  have hlast : key? edition (key.toList ++ rest) =
      if (key.toList ++ rest).takeWhile isBare = [] then none
      else some (String.ofList ((key.toList ++ rest).takeWhile isBare),
        (key.toList ++ rest).drop ((key.toList ++ rest).takeWhile isBare).length) := by
    rw [hlist, List.cons_append, key?]
    · rintro r ⟨rfl, -⟩
      exact hquote rfl
    · rintro r ⟨rfl, -⟩
      exact hapostrophe rfl
  rw [hlast, hrun, if_neg hkey.1, List.drop_left, String.ofList_toList]

/-- A bare key is a path of its own where no point follows behind blanks. -/
theorem path?_of_bare (edition : Edition) {key : String} (hkey : Bare key) (limit : Nat)
    {rest : List Char} (hrest : ∀ c, rest.head? = some c → isBare c = false)
    (hpoint : (skipBlank rest).head? ≠ some '.') :
    path? edition (limit + 1) (key.toList ++ rest) = some (([], key), skipBlank rest) := by
  obtain ⟨c, cs, hlist, hc⟩ := hkey.exists_cons
  have hfront : skipBlank (key.toList ++ rest) = key.toList ++ rest := by
    rw [hlist, List.cons_append, skipBlank_of_not (isBlank_of_isBare hc)]
  rw [path?, hfront, key?_of_bare edition hkey hrest]
  simp only [Option.bind_eq_bind, Option.bind_some]
  cases hbehind : skipBlank rest with
  | nil => rfl
  | cons d behind =>
    rw [hbehind] at hpoint
    split
    · next heq =>
      cases heq
      exact absurd rfl hpoint
    · rfl

/-! ## Values -/

theorem exists_string_cons (s : String) :
    ∃ q cs, (string s).toList = q :: cs ∧ (q = '"' ∨ q = '\'') := by
  rw [string, String.toList_ofList]
  cases quotesFor s.toList with
  | basic => exact ⟨'"', _, rfl, .inl rfl⟩
  | literal => exact ⟨'\'', _, rfl, .inr rfl⟩
  | basicLines => exact ⟨'"', _, rfl, .inl rfl⟩
  | literalLines => exact ⟨'\'', _, rfl, .inr rfl⟩

theorem value?_string (edition : Edition) (depth : Nat) (s : String) {rest : List Char}
    (hrest : Follows rest) :
    value? edition (depth + 1) ((string s).toList ++ rest) = some (.text s, rest) := by
  obtain ⟨q, cs, hlist, hq⟩ := exists_string_cons s
  have hbracket : q ≠ '[' := by rcases hq with rfl | rfl <;> decide
  have hbrace : q ≠ '{' := by rcases hq with rfl | rfl <;> decide
  have hleaf : value? edition (depth + 1) ((string s).toList ++ rest) =
      value?.leaf? edition ((string s).toList ++ rest) := by
    rw [hlist, List.cons_append, value?]
    · rintro r ⟨rfl, -⟩
      exact hbracket rfl
    · rintro r ⟨rfl, -⟩
      exact hbrace rfl
  rw [hleaf, value?.leaf?, string?_string hrest]
  dsimp only
  rw [String.ofList_toList]

theorem exists_depth (edition : Edition) : ∃ depth, edition.depth = depth + 2 := by
  cases edition with
  | v10 => exact ⟨77, rfl⟩
  | v11 => exact ⟨78, rfl⟩

/-- A text that is read as a value where a line ends behind it, and starts without a blank. -/
structure Spells (edition : Edition) (text : String) (v : Value) : Prop where
  starts : ∃ c cs, text.toList = c :: cs ∧ isBlank c = false
  value?_eq : ∀ rest,
    value? edition edition.depth (text.toList ++ '\n' :: rest) = some (v, '\n' :: rest)

theorem spells_string (edition : Edition) (s : String) : Spells edition (string s) (.text s) where
  starts := by
    obtain ⟨q, qs, hlist, hq⟩ := exists_string_cons s
    exact ⟨q, qs, hlist, by rcases hq with rfl | rfl <;> decide⟩
  value?_eq := fun rest => by
    obtain ⟨depth, hdepth⟩ := exists_depth edition
    rw [hdepth]
    exact value?_string edition (depth + 1) s (follows_lineFeed rest)

/-! ## Arrays -/

theorem skipGap_string (s : String) (rest : List Char) :
    skipGap false ((string s).toList ++ rest) = some ((string s).toList ++ rest) := by
  obtain ⟨q, qs, hlist, hq⟩ := exists_string_cons s
  rw [hlist]
  rcases hq with rfl | rfl <;> simp [skipGap, isBlank]

theorem head?_string (s : String) (rest : List Char) :
    ((string s).toList ++ rest).head? ≠ some ']' := by
  obtain ⟨q, qs, hlist, hq⟩ := exists_string_cons s
  rw [hlist]
  rcases hq with rfl | rfl <;> simp

/-- The lines of the strings of an array. -/
def itemLines (items : List String) : List Char :=
  items.flatMap fun item => ' ' :: ' ' :: ' ' :: ' ' :: ((string item).toList ++ [',', '\n'])

theorem length_le_itemLines (items : List String) : items.length ≤ (itemLines items).length := by
  induction items with
  | nil => simp
  | cons item items ih =>
    rw [itemLines, List.flatMap_cons, List.length_append, List.length_cons, List.length_cons]
    change items.length ≤ (items.flatMap _).length at ih
    omega

/-- In front of the first item and behind each comma a line starts. -/
theorem separated_itemLines (edition : Edition) (depth : Nat) (items : List String)
    (rest : List Char) {limit : Nat} (hlimit : items.length ≤ limit) :
    separated (value? edition (depth + 1)) (skipGap false) ']' true false (limit + 1)
      ('\n' :: (itemLines items ++ ']' :: rest)) = some (items.map .text, rest) := by
  induction items generalizing limit with
  | nil =>
    have hskip : skipGap false ('\n' :: ']' :: rest) = some (']' :: rest) := by
      simp [skipGap, isBlank]
    rw [itemLines, List.flatMap_nil, List.nil_append, separated, hskip]
    rfl
  | cons item items ih =>
    cases limit with
    | zero => simp at hlimit
    | succ limit =>
      let behind := ',' :: '\n' :: (itemLines items ++ ']' :: rest)
      have hskip : skipGap false ('\n' :: (itemLines (item :: items) ++ ']' :: rest)) =
          some ((string item).toList ++ behind) := by
        simpa [itemLines, skipGap, isBlank, behind] using skipGap_string item behind
      have hbehind : Follows behind := ⟨by simp [behind], by simp [behind]⟩
      have hvalue := value?_string edition depth item hbehind
      have hcomma : skipGap false behind = some behind := by simp [behind, skipGap, isBlank]
      rw [separated_comma hskip (head?_string item behind) hvalue _ (by decide) hcomma,
        Bool.not_true, ih (Nat.le_of_succ_le_succ hlimit)]
      rfl

theorem separated_single (edition : Edition) (depth limit : Nat) (item : String)
    (rest : List Char) :
    separated (value? edition (depth + 1)) (skipGap false) ']' true false (limit + 1)
      ((string item).toList ++ ']' :: rest) = some ([.text item], rest) := by
  have hrest : Follows (']' :: rest) := ⟨by simp, by simp⟩
  have hvalue := value?_string edition depth item hrest
  have hclose : skipGap false (']' :: rest) = some (']' :: rest) := by simp [skipGap, isBlank]
  exact separated_last (skipGap_string item _) (head?_string item _) hvalue _ hclose

theorem separated_none (edition : Edition) (depth limit : Nat) (rest : List Char) :
    separated (value? edition depth) (skipGap false) ']' true false (limit + 1) (']' :: rest) =
      some ([], rest) := by
  rw [separated]
  simp [skipGap, isBlank]

/-- The brackets of an array hold its strings. -/
theorem exists_array (items : List String) : ∃ inner, (array items).toList = '[' :: inner ∧
    ∀ edition depth rest, separated (value? edition (depth + 1)) (skipGap false) ']' true false
      ((inner ++ rest).length + 1) (inner ++ rest) = some (items.map .text, rest) := by
  match items with
  | [] =>
    refine ⟨[']'], by simp [array, Text.join], fun edition depth rest => ?_⟩
    exact separated_none edition (depth + 1) _ rest
  | [item] =>
    refine ⟨(string item).toList ++ [']'], by simp [array, Text.join], fun edition depth rest => ?_⟩
    rw [List.append_assoc, List.singleton_append]
    exact separated_single edition depth _ item rest
  | first :: second :: more =>
    let items := first :: second :: more
    refine ⟨'\n' :: (itemLines items ++ [']']), ?_, fun edition depth rest => ?_⟩
    · simp [items, array, itemLines, List.flatMap_map, toString]
    · have hlimit : items.length ≤ ('\n' :: (itemLines items ++ [']']) ++ rest).length := by
        refine Nat.le_trans (length_le_itemLines items) ?_
        rw [List.cons_append, List.length_cons, List.length_append, List.length_append]
        omega
      have hitems := separated_itemLines edition depth items rest hlimit
      simpa only [List.cons_append, List.append_assoc, List.nil_append] using hitems

theorem spells_array (edition : Edition) (items : List String) :
    Spells edition (array items) (.list (items.map .text)) where
  starts := by
    obtain ⟨inner, hinner, -⟩ := exists_array items
    exact ⟨'[', inner, hinner, by decide⟩
  value?_eq := fun rest => by
    obtain ⟨depth, hdepth⟩ := exists_depth edition
    obtain ⟨inner, hinner, hitems⟩ := exists_array items
    rw [hdepth, hinner, List.cons_append, value?, hitems]
    rfl

/-! ## Lines -/

/-- A text of whole lines that hold one statement, with nothing in front of it but gaps. -/
structure Says (edition : Edition) (text : List Char) (statement : Statement) : Prop where
  exists_start : ∀ rest, ∃ c cs behind, skipGap false (text ++ rest) = some (c :: cs) ∧
    statement? edition (c :: cs) = some (statement, behind) ∧ skipLineEnd behind = some rest

theorem skipGap_of_bare {c : Char} (hc : isBare c = true) (rest : List Char) :
    skipGap false (c :: rest) = some (c :: rest) := by
  have hfeed := ne_of_isBare (d := '\n') hc (by decide)
  have hreturn := ne_of_isBare (d := '\r') hc (by decide)
  have hcomment := ne_of_isBare (d := '#') hc (by decide)
  rw [skipGap, if_neg Bool.false_ne_true, if_neg hcomment, isBlank_of_isBare hc,
    if_neg Bool.false_ne_true]
  · exact hfeed
  · rintro r hr -
    exact hreturn hr

theorem statement?_of_ne (edition : Edition) {c : Char} (hc : c ≠ '[') (rest : List Char) :
    statement? edition (c :: rest) = (do
      let ((path, key, v), rest) ← inlinePair? edition (value? edition edition.depth) (c :: rest)
      pure (.pair path key v, rest)) := by
  rw [statement?]
  · rintro r ⟨rfl, -⟩
    exact hc rfl
  · rintro r ⟨rfl, -⟩
    exact hc rfl

theorem toList_pair (key text : String) :
    (pair key text).toList = key.toList ++ ' ' :: '=' :: ' ' :: (text.toList ++ ['\n']) := by
  simp [pair, toString]

/-- A bare key and the text of a value make a line with a pair. -/
theorem says_pair {edition : Edition} {key text : String} {v : Value} (hkey : Bare key)
    (htext : Spells edition text v) : Says edition (pair key text).toList (.pair [] key v) where
  exists_start := fun rest => by
    obtain ⟨c, cs, hlist, hc⟩ := hkey.exists_cons
    obtain ⟨d, ds, hvalue, hd⟩ := htext.starts
    let behind := ' ' :: '=' :: ' ' :: (text.toList ++ '\n' :: rest)
    have hline : (pair key text).toList ++ rest = key.toList ++ behind := by
      rw [toList_pair]
      simp [behind]
    have hequals : skipBlank behind = '=' :: ' ' :: (text.toList ++ '\n' :: rest) := by
      simp [behind, skipBlank, isBlank]
    have hskip : skipBlank (' ' :: (text.toList ++ '\n' :: rest)) =
        text.toList ++ '\n' :: rest := by
      rw [hvalue, List.cons_append]
      exact (List.dropWhile_cons_of_pos (by decide)).trans (skipBlank_of_not hd _)
    have hpair : inlinePair? edition (value? edition edition.depth) (key.toList ++ behind) =
        some (([], key, v), '\n' :: rest) := by
      obtain ⟨limit, hlimit⟩ : ∃ limit, (key.toList ++ behind).length = limit + 1 := by
        rw [hlist]
        exact ⟨_, rfl⟩
      rw [inlinePair?, hlimit, path?_of_bare edition hkey limit (by simp [behind, isBare])
        (by simp [hequals]), hequals]
      simp only [Option.bind_eq_bind, Option.bind_some, hskip, htext.value?_eq rest]
      rfl
    rw [hline]
    rw [hlist, List.cons_append] at hpair ⊢
    refine ⟨c, cs ++ behind, '\n' :: rest, skipGap_of_bare hc _, ?_, rfl⟩
    rw [statement?_of_ne edition (ne_of_isBare hc (by decide)), hpair]
    rfl

/-- The header of a table. -/
def headerLine (name : String) : String := s!"[{name}]\n"

theorem toList_headerLine (name : String) :
    (headerLine name).toList = '[' :: (name.toList ++ [']', '\n']) := by
  simp [headerLine, toString]

theorem says_headerLine (edition : Edition) {name : String} (hname : Bare name) :
    Says edition (headerLine name).toList (.table [] name) where
  exists_start := fun rest => by
    obtain ⟨c, cs, hlist, hc⟩ := hname.exists_cons
    have hline : (headerLine name).toList ++ rest =
        '[' :: (name.toList ++ ']' :: '\n' :: rest) := by
      rw [toList_headerLine]
      simp
    have hbehind : skipBlank (']' :: '\n' :: rest) = ']' :: '\n' :: rest :=
      skipBlank_of_not (by decide) _
    have hpath : path? edition (name.toList ++ ']' :: '\n' :: rest).length
        (name.toList ++ ']' :: '\n' :: rest) = some (([], name), ']' :: '\n' :: rest) := by
      obtain ⟨limit, hlimit⟩ :
          ∃ limit, (name.toList ++ ']' :: '\n' :: rest).length = limit + 1 := by
        rw [hlist]
        exact ⟨_, rfl⟩
      rw [hlimit, path?_of_bare edition hname limit (by simp [isBare]) (by simp [hbehind]), hbehind]
    have hheader : header? edition [']'] (name.toList ++ ']' :: '\n' :: rest) =
        some (([], name), '\n' :: rest) := by
      rw [header?, hpath]
      rfl
    have hstatement : statement? edition ('[' :: (name.toList ++ ']' :: '\n' :: rest)) =
        some (.table [] name, '\n' :: rest) := by
      rw [hlist, List.cons_append] at hheader ⊢
      rw [statement?, hheader]
      · rfl
      · rintro r ⟨rfl, -⟩
        revert hc
        decide
    rw [hline]
    refine ⟨'[', name.toList ++ ']' :: '\n' :: rest, '\n' :: rest, ?_, hstatement, rfl⟩
    rw [skipGap, if_neg Bool.false_ne_true, if_neg (by decide), if_neg (by decide)]
    · decide
    · rintro r h -
      exact absurd h (by decide)

theorem Says.behind_feed {edition : Edition} {text : List Char} {statement : Statement}
    (h : Says edition text statement) : Says edition ('\n' :: text) statement where
  exists_start := fun rest => by
    rw [List.cons_append, skipGap]
    exact h.exists_start rest

theorem skipGap_comment {comment : List Char} (h : ∀ c ∈ comment, isText c = true)
    (rest : List Char) : skipGap true (comment ++ '\n' :: rest) = skipGap false rest := by
  induction comment with
  | nil => rw [List.nil_append, skipGap]
  | cons c comment ih =>
    obtain ⟨hc, hcomment⟩ := List.forall_mem_cons.1 h
    have hne : ∀ d, isText d = false → c ≠ d := by
      rintro d hd rfl
      simp [hc] at hd
    rw [List.cons_append, skipGap, if_pos rfl, if_pos hc, ih hcomment]
    · exact hne '\n' (by decide)
    · rintro r hr -
      exact hne '\r' (by decide) hr

theorem Says.behind_comment {edition : Edition} {text comment : List Char} {statement : Statement}
    (h : Says edition text statement) (hcomment : ∀ c ∈ comment, isText c = true) :
    Says edition ('#' :: (comment ++ '\n' :: text)) statement where
  exists_start := fun rest => by
    have hskip : skipGap false ('#' :: (comment ++ '\n' :: text) ++ rest) =
        skipGap false (text ++ rest) := by
      have hstart : skipGap false ('#' :: (comment ++ '\n' :: text) ++ rest) =
          skipGap true (comment ++ '\n' :: (text ++ rest)) := by
        simp [skipGap]
      rw [hstart, skipGap_comment hcomment]
    rw [hskip]
    exact h.exists_start rest

/-! ## Texts of lines -/

section Lines
variable {edition : Edition} {lines : List (List Char × Statement)}

theorem Says.ne_nil {text : List Char} {statement : Statement} (h : Says edition text statement) :
    text ≠ [] := by
  rintro rfl
  obtain ⟨c, cs, behind, hskip, -⟩ := h.exists_start []
  rw [List.nil_append, skipGap] at hskip
  cases hskip

theorem length_le_lines (h : ∀ line ∈ lines, Says edition line.1 line.2) :
    lines.length ≤ (lines.flatMap (·.1)).length := by
  induction lines with
  | nil => simp
  | cons line lines ih =>
    obtain ⟨hline, hlines⟩ := List.forall_mem_cons.1 h
    have hlong := List.length_pos_iff.2 hline.ne_nil
    have hmore := ih hlines
    rw [List.flatMap_cons, List.length_append, List.length_cons]
    omega

theorem statementsFrom_of_lines (total : Nat) {limit : Nat}
    (h : ∀ line ∈ lines, Says edition line.1 line.2) (hlimit : lines.length ≤ limit) :
    ∃ all, statementsFrom edition total limit (lines.flatMap (·.1)) = .ok all ∧
      all.map (·.2) = lines.map (·.2) := by
  induction lines generalizing limit with
  | nil =>
    refine ⟨[], ?_, rfl⟩
    cases limit with
    | zero => rfl
    | succ limit => simp [statementsFrom, skipGap]
  | cons line lines ih =>
    obtain ⟨hline, hlines⟩ := List.forall_mem_cons.1 h
    cases limit with
    | zero => simp at hlimit
    | succ limit =>
      obtain ⟨all, hall, hmap⟩ := ih hlines (Nat.le_of_succ_le_succ hlimit)
      obtain ⟨c, cs, behind, hskip, hstatement, hend⟩ :=
        hline.exists_start (lines.flatMap (·.1))
      refine ⟨(1 + (total - lineFeeds (c :: cs)), line.2) :: all, ?_,
        by rw [List.map_cons, List.map_cons, hmap]⟩
      rw [List.flatMap_cons, statementsFrom, hskip]
      dsimp only
      rw [hstatement]
      dsimp only
      rw [hend]
      dsimp only
      rw [hall]
      rfl

/-- A text of lines is read as what their statements make. -/
theorem read_of_lines (h : ∀ line ∈ lines, Says edition line.1 line.2) {text : String}
    (htext : text.toList = lines.flatMap (·.1)) (hmark : text.toList.head? ≠ some byteOrderMark)
    {made : Assembly} (hmade : (lines.map (·.2)).foldlM Assembly.add? ⟨[], []⟩ = some made) :
    read edition text = .ok (finished made.entries) := by
  have hlimit : lines.length ≤ text.toList.length + 1 := by
    rw [htext]
    exact Nat.le_succ_of_le (length_le_lines h)
  obtain ⟨all, hall, hmap⟩ := statementsFrom_of_lines (lineFeeds text.toList) h hlimit
  have hstatements : statements edition text = .ok all := by
    rw [← htext] at hall
    rw [statements]
    cases hlist : text.toList with
    | nil => rwa [hlist] at hall
    | cons c cs =>
      rw [hlist] at hall hmark
      have hne : c ≠ byteOrderMark := fun hc => hmark (by rw [hc, List.head?_cons])
      simp only [if_neg hne]
      exact hall
  have hassembled : assemble all ⟨[], []⟩ = .ok made := by
    rw [assemble_eq_ok_iff, hmap]
    exact hmade
  rw [read, hstatements]
  simp only [bind, Except.bind, hassembled]
  rfl

end Lines

/-! ## Tables -/

/-- A row of a table: a key, the text of its value, and the value that it stands for. -/
structure Row where
  key : String
  text : String
  value : Value

def Row.statement (row : Row) : Statement := .pair [] row.key row.value

def Row.line (row : Row) : List Char × Statement :=
  ((pair row.key row.text).toList, row.statement)

def Row.item (row : Row) : String × Item := (row.key, .value row.value)

def Row.field (row : Row) : String × Value := (row.key, row.value)

/-- A row whose key is bare and whose text stands for its value. -/
structure Row.Good (edition : Edition) (row : Row) : Prop where
  bare : Bare row.key
  spells : Spells edition row.text row.value

/-- A row with a string. -/
def textRow (key s : String) : Row := ⟨key, string s, .text s⟩

theorem good_textRow (edition : Edition) {key : String} (hkey : Bare key) (s : String) :
    (textRow key s).Good edition := ⟨hkey, spells_string edition s⟩

theorem Row.Good.says_line {edition : Edition} {row : Row} (h : row.Good edition) :
    Says edition row.line.1 row.line.2 := says_pair h.bare h.spells

/-- Rows fill the table that is open, where a change of this table is a change at the header. -/
theorem foldlM_rows {header : List String} {fill : Entries → Entries}
    (hfill : ∀ change inner, atHeader change header (fill inner) = (change inner).map fill)
    (rows : List Row) (inner : Entries)
    (hkeys : (inner.map (·.1) ++ rows.map (·.key)).Nodup) :
    (rows.map Row.statement).foldlM Assembly.add? ⟨fill inner, header⟩ =
      some ⟨fill (inner ++ rows.map Row.item), header⟩ := by
  induction rows generalizing inner with
  | nil => simp
  | cons row rows ih =>
    rw [List.map_cons, List.append_cons] at hkeys
    have hnew : row.key ∉ inner.map (·.1) := by
      have hfront := (List.nodup_append.1 hkeys).1
      rw [List.nodup_append] at hfront
      exact fun hmem => hfront.2.2 _ hmem _ (List.mem_singleton_self _) rfl
    have hadd : (⟨fill inner, header⟩ : Assembly).add? row.statement =
        some ⟨fill (inner ++ [row.item]), header⟩ := by
      have hnone := entry?_eq_none_iff.2 hnew
      simp [Row.statement, Row.item, Assembly.add?, hfill, addPair, descend, addValue, hnone]
    have hmore : (inner ++ [row.item]).map (·.1) = inner.map (·.1) ++ [row.key] := by
      simp [Row.item]
    rw [List.map_cons, List.foldlM_cons, hadd]
    simp only [Option.bind_eq_bind, Option.bind_some]
    rw [ih _ (hmore ▸ hkeys), List.map_cons, List.append_assoc, List.singleton_append]

theorem finished_items (rows : List Row) : finished (rows.map Row.item) = rows.map Row.field := by
  rw [finished_eq_map, List.map_map]
  exact List.map_congr_left fun row _ => by
    rw [Function.comp_apply, Row.item, Item.toValue, Row.field]

/-- A table of a text: its name and its rows. -/
structure Block where
  name : String
  rows : List Row

namespace Block

def text (block : Block) : String :=
  headerLine block.name ++ String.join (block.rows.map fun row => pair row.key row.text)

def statements (block : Block) : List Statement :=
  .table [] block.name :: block.rows.map Row.statement

/-- The lines of a table behind a text of gaps. -/
def lines (gap : List Char) (block : Block) : List (List Char × Statement) :=
  (gap ++ (headerLine block.name).toList, .table [] block.name) :: block.rows.map Row.line

def item (block : Block) : String × Item := (block.name, .table .opened (block.rows.map Row.item))

def field (block : Block) : String × Value := (block.name, .record (block.rows.map Row.field))

/-- A table with a bare name and good rows with different keys. -/
structure Good (edition : Edition) (block : Block) : Prop where
  bare : Bare block.name
  rows : ∀ row ∈ block.rows, row.Good edition
  nodup : (block.rows.map (·.key)).Nodup

end Block

/-- A table that stands last is the one that its header opened. -/
theorem atHeader_last {name : String} {entries : Entries} (hnew : name ∉ entries.map (·.1))
    (change : Entries → Option Entries) (inner : Entries) :
    atHeader change [name] (entries ++ [(name, .table .opened inner)]) =
      (change inner).map fun inner => entries ++ [(name, .table .opened inner)] := by
  have hother : ∀ e ∈ entries, e.1 ≠ name := fun e he hname =>
    hnew (List.mem_map.2 ⟨e, he, hname⟩)
  have hfound : entry? name (entries ++ [(name, .table .opened inner)]) =
      some (.table .opened inner) := by
    have hnone : entries.find? (·.1 = name) = none := by simpa using hother
    unfold entry?
    rw [List.find?_append, hnone]
    simp
  have hreplaced : ∀ item, replace name item (entries ++ [(name, .table .opened inner)]) =
      entries ++ [(name, item)] := by
    intro item
    have hkept : entries.map (fun e => if e.1 = name then (name, item) else e) = entries :=
      (List.map_congr_left fun e he => if_neg (hother e he)).trans (List.map_id _)
    rw [replace, List.map_append, hkept]
    simp
  rw [atHeader, descend, hfound]
  simp only [descend, hreplaced]
  cases change inner <;> simp

theorem foldlM_block {block : Block} {entries : Entries} {header : List String}
    (hnew : block.name ∉ entries.map (·.1)) (hkeys : (block.rows.map (·.key)).Nodup) :
    block.statements.foldlM Assembly.add? ⟨entries, header⟩ =
      some ⟨entries ++ [block.item], [block.name]⟩ := by
  have hopened : (⟨entries, header⟩ : Assembly).add? (.table [] block.name) =
      some ⟨entries ++ [(block.name, .table .opened [])], [block.name]⟩ := by
    simp [Assembly.add?, openTable, descend, openHere, entry?_eq_none_iff.2 hnew]
  have hrows := foldlM_rows (atHeader_last hnew) block.rows [] (by simpa)
  rw [Block.statements, List.foldlM_cons, hopened]
  exact hrows

theorem foldlM_blocks {blocks : List Block} (entries : Entries) (header : List String)
    (hnames : (entries.map (·.1) ++ blocks.map (·.name)).Nodup)
    (hkeys : ∀ block ∈ blocks, (block.rows.map (·.key)).Nodup) :
    ∃ last, (blocks.flatMap Block.statements).foldlM Assembly.add? ⟨entries, header⟩ =
      some ⟨entries ++ blocks.map Block.item, last⟩ := by
  induction blocks generalizing entries header with
  | nil => exact ⟨header, by simp⟩
  | cons block blocks ih =>
    obtain ⟨hblock, hblocks⟩ := List.forall_mem_cons.1 hkeys
    rw [List.map_cons, List.append_cons] at hnames
    have hnew : block.name ∉ entries.map (·.1) := by
      have hfront := (List.nodup_append.1 hnames).1
      rw [List.nodup_append] at hfront
      exact fun hmem => hfront.2.2 _ hmem _ (List.mem_singleton_self _) rfl
    have hmore : (entries ++ [block.item]).map (·.1) = entries.map (·.1) ++ [block.name] := by
      simp [Block.item]
    obtain ⟨last, hlast⟩ := ih _ [block.name] (hmore ▸ hnames) hblocks
    refine ⟨last, ?_⟩
    rw [List.flatMap_cons, List.foldlM_append, foldlM_block hnew hblock]
    simp only [Option.bind_eq_bind, Option.bind_some]
    rw [hlast, List.map_cons, List.append_assoc, List.singleton_append]

/-- The lines of tables with an empty line between each two of them. -/
def linesOf : List Block → List (List Char × Statement)
  | [] => []
  | first :: more => first.lines [] ++ more.flatMap (Block.lines ['\n'])

theorem Block.says_lines {edition : Edition} {block : Block} (h : block.Good edition)
    {gap : List Char} (hgap : gap = [] ∨ gap = ['\n']) :
    ∀ line ∈ block.lines gap, Says edition line.1 line.2 := by
  have hheader : Says edition (gap ++ (headerLine block.name).toList) (.table [] block.name) := by
    have hline := says_headerLine edition h.bare
    rcases hgap with rfl | rfl
    · exact hline
    · exact hline.behind_feed
  have hrows : ∀ row ∈ block.rows, Says edition row.line.1 row.line.2 := fun row hrow =>
    (h.rows row hrow).says_line
  simpa [Block.lines] using And.intro hheader hrows

theorem Block.toList_lines (block : Block) (gap : List Char) :
    (block.lines gap).flatMap (·.1) = gap ++ block.text.toList := by
  simp [Block.lines, Block.text, Row.line, List.flatMap_map, String.toList_join]

theorem Block.statements_lines (block : Block) (gap : List Char) :
    (block.lines gap).map (·.2) = block.statements := by
  simp [Block.lines, Block.statements, Row.line]

theorem says_linesOf {edition : Edition} {blocks : List Block}
    (h : ∀ block ∈ blocks, block.Good edition) :
    ∀ line ∈ linesOf blocks, Says edition line.1 line.2 := by
  cases blocks with
  | nil => simp [linesOf]
  | cons first more =>
    obtain ⟨hfirst, hmore⟩ := List.forall_mem_cons.1 h
    intro line hline
    rw [linesOf, List.mem_append, List.mem_flatMap] at hline
    rcases hline with hline | ⟨block, hblock, hline⟩
    · exact Block.says_lines hfirst (.inl rfl) line hline
    · exact Block.says_lines (hmore block hblock) (.inr rfl) line hline

theorem toList_join_blocks (blocks : List Block) :
    (Text.join "\n" (blocks.map Block.text)).toList = (linesOf blocks).flatMap (·.1) := by
  cases blocks with
  | nil => simp [Text.join, linesOf]
  | cons first more =>
    rw [List.map_cons, toList_join_cons, List.flatMap_map, linesOf, List.flatMap_append,
      List.flatMap_assoc, Block.toList_lines]
    simp only [Block.toList_lines]
    rfl

theorem statements_linesOf (blocks : List Block) :
    (linesOf blocks).map (·.2) = blocks.flatMap Block.statements := by
  cases blocks with
  | nil => rfl
  | cons first more =>
    rw [linesOf, List.map_append, Block.statements_lines, List.map_flatMap, List.flatMap_cons]
    simp only [Block.statements_lines]

/-- A text of good tables with different names is read as these tables. -/
theorem read_blocks {edition : Edition} {blocks : List Block}
    (h : ∀ block ∈ blocks, block.Good edition) (hnames : (blocks.map (·.name)).Nodup) :
    read edition (Text.join "\n" (blocks.map Block.text)) = .ok (blocks.map Block.field) := by
  obtain ⟨last, hmade⟩ := foldlM_blocks [] [] (by simpa using hnames)
    fun block hblock => (h block hblock).nodup
  have hmark : (Text.join "\n" (blocks.map Block.text)).toList.head? ≠ some byteOrderMark := by
    rw [toList_join_blocks]
    cases blocks with
    | nil => simp [linesOf]
    | cons first more => simp [linesOf, Block.lines, toList_headerLine, byteOrderMark]
  rw [← statements_linesOf] at hmade
  rw [read_of_lines (says_linesOf h) (toList_join_blocks blocks) hmark hmade, List.nil_append,
    finished_eq_map, List.map_map]
  exact congrArg Except.ok (List.map_congr_left fun block _ => by
    rw [Function.comp_apply, Block.item, Item.toValue, finished_items, Block.field])

end Toml
end ComponentWiring
