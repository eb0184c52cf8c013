/-!
# Blank characters

The characters that Unicode calls white space, and the trimming of texts by them. Zero-width
characters are not blank.

* `isBlank`, `trimChars`, `trim`;
* **`trimChars_trimChars`**: trimming twice is trimming once;
* `head?_trimChars`, `getLast?_trimChars`: a trimmed text has no blank at either end.
-/

namespace LayeredLedger.Text

/-- The white-space characters of Unicode. -/
def isBlank (c : Char) : Bool :=
  let n := c.toNat
  (0x9 ≤ n && n ≤ 0xD) || n == 0x20 || n == 0x85 || n == 0xA0 || n == 0x1680
    || (0x2000 ≤ n && n ≤ 0x200A) || n == 0x2028 || n == 0x2029 || n == 0x202F
    || n == 0x205F || n == 0x3000

/-- The characters without the blanks at both ends. -/
def trimChars (s : List Char) : List Char :=
  ((s.dropWhile isBlank).reverse.dropWhile isBlank).reverse

/-- The text without the blanks at both ends. -/
def trim (s : String) : String := String.ofList (trimChars s.toList)

@[simp] theorem trimChars_nil : trimChars [] = [] := rfl

theorem head?_dropWhile_isBlank (s : List Char) :
    ∀ c ∈ (s.dropWhile isBlank).head?, isBlank c = false := by
  induction s with
  | nil => simp
  | cons c s ih =>
    rw [List.dropWhile_cons]
    split
    · exact ih
    · simpa using ‹¬isBlank c = true›

theorem dropWhile_eq_self {s : List Char} (h : ∀ c ∈ s.head?, isBlank c = false) :
    s.dropWhile isBlank = s := by
  cases s with
  | nil => rfl
  | cons c s => simp [h c (by simp)]

/-- A trimmed text does not end in a blank. -/
theorem getLast?_trimChars (s : List Char) : ∀ c ∈ (trimChars s).getLast?, isBlank c = false := by
  intro c hc
  rw [trimChars, List.getLast?_reverse] at hc
  exact head?_dropWhile_isBlank _ c hc

/-- A text that does not start with a blank keeps its first character when blanks are dropped
at its end. -/
theorem head?_reverse_dropWhile {s : List Char} (h : ∀ c ∈ s.head?, isBlank c = false) :
    ∀ c ∈ (s.reverse.dropWhile isBlank).reverse.head?, isBlank c = false := by
  cases s with
  | nil => simp
  | cons a s =>
    have ha : isBlank a = false := h a (by simp)
    intro c hc
    rw [List.reverse_cons, List.dropWhile_append] at hc
    split at hc
    · simp [ha] at hc
      exact hc ▸ ha
    · simp at hc
      exact hc ▸ ha

/-- A trimmed text does not start with a blank. -/
theorem head?_trimChars (s : List Char) : ∀ c ∈ (trimChars s).head?, isBlank c = false :=
  head?_reverse_dropWhile (head?_dropWhile_isBlank s)

/-- A text without a blank at either end is its own trimmed form. -/
theorem trimChars_eq_self {s : List Char} (hd : ∀ c ∈ s.head?, isBlank c = false)
    (hl : ∀ c ∈ s.getLast?, isBlank c = false) : trimChars s = s := by
  rw [trimChars, dropWhile_eq_self hd, dropWhile_eq_self, List.reverse_reverse]
  rwa [List.head?_reverse]

@[simp] theorem trimChars_trimChars (s : List Char) : trimChars (trimChars s) = trimChars s :=
  trimChars_eq_self (head?_trimChars s) (getLast?_trimChars s)

@[simp] theorem toList_trim (s : String) : (trim s).toList = trimChars s.toList := by
  simp [trim]

@[simp] theorem trim_trim (s : String) : trim (trim s) = trim s := by
  simp [trim]

end LayeredLedger.Text
