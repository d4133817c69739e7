import ComponentWiring.Text.CodePoints

/-! # Blank characters and trimming

Blank means the Unicode property White_Space. Separator-like characters without the property
(the zero width space, the byte order mark, the information separators) are not blank.

* `isBlank`: the property.
* `trimChars`, `trim`: the text without blank characters at both ends.
-/

namespace ComponentWiring.Text
set_option autoImplicit false

def blankCodePoints : CodePoints :=
  [(0x9, 0xD), (0x20, 0x20), (0x85, 0x85), (0xA0, 0xA0), (0x1680, 0x1680), (0x2000, 0x200A),
   (0x2028, 0x2029), (0x202F, 0x202F), (0x205F, 0x205F), (0x3000, 0x3000)]

def isBlank (c : Char) : Bool := blankCodePoints.has c

/-- The text without its leading blank characters. -/
def trimLeft (cs : List Char) : List Char := cs.dropWhile isBlank

/-- The text without the blank characters at both ends. -/
def trimChars (cs : List Char) : List Char := (trimLeft (trimLeft cs).reverse).reverse

/-- The text without the blank characters at both ends. -/
def trim (s : String) : String := String.ofList (trimChars s.toList)

/-! ## Laws of trimming -/

theorem trimLeft_eq_self_iff (cs : List Char) :
    trimLeft cs = cs ↔ ∀ c, cs.head? = some c → isBlank c = false := by
  cases cs with
  | nil => simp [trimLeft]
  | cons c r =>
    by_cases h : isBlank c = true
    · have hlen : (List.dropWhile isBlank r).length ≤ r.length :=
        (List.dropWhile_suffix isBlank).length_le
      constructor
      · intro heq
        rw [trimLeft, List.dropWhile_cons_of_pos h] at heq
        have := congrArg List.length heq
        simp only [List.length_cons] at this
        omega
      · intro hc
        have := hc c rfl
        simp [h] at this
    · simp [trimLeft, h]

theorem trimLeft_trimLeft (cs : List Char) : trimLeft (trimLeft cs) = trimLeft cs := by
  rw [trimLeft_eq_self_iff]
  intro c hc
  have h := List.head?_dropWhile_not isBlank cs
  unfold trimLeft at hc
  rw [hc] at h
  simpa using h

theorem head?_trimChars (cs : List Char) (c : Char) (hc : (trimChars cs).head? = some c) :
    isBlank c = false := by
  have hpre : trimChars cs <+: trimLeft cs := by
    have h : trimLeft (trimLeft cs).reverse <:+ (trimLeft cs).reverse := List.dropWhile_suffix _
    have h' := List.reverse_prefix.2 h
    rwa [List.reverse_reverse] at h'
  obtain ⟨t, ht⟩ := hpre
  have hhead : (trimLeft cs).head? = some c := by
    rw [← ht]
    cases h : trimChars cs with
    | nil => simp [h] at hc
    | cons a r => simpa [h] using hc
  exact (trimLeft_eq_self_iff (trimLeft cs)).1 (trimLeft_trimLeft cs) c hhead

theorem getLast?_trimChars (cs : List Char) (c : Char) (hc : (trimChars cs).getLast? = some c) :
    isBlank c = false := by
  rw [trimChars, List.getLast?_reverse] at hc
  exact (trimLeft_eq_self_iff _).1 (trimLeft_trimLeft _) c hc

theorem trimChars_trimChars (cs : List Char) : trimChars (trimChars cs) = trimChars cs := by
  have h1 : trimLeft (trimChars cs) = trimChars cs :=
    (trimLeft_eq_self_iff _).2 (head?_trimChars cs)
  have h2 : trimLeft (trimChars cs).reverse = (trimChars cs).reverse := by
    simp only [trimChars, List.reverse_reverse]
    exact trimLeft_trimLeft _
  have h3 : trimChars (trimChars cs) = (trimLeft (trimLeft (trimChars cs)).reverse).reverse := rfl
  rw [h3, h1, h2, List.reverse_reverse]

@[simp] theorem trim_trim (s : String) : trim (trim s) = trim s := by
  simp [trim, trimChars_trimChars]

end ComponentWiring.Text
