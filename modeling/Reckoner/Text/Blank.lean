/-!
# Blank characters

Two sets are kept apart. `isSpace` is the Unicode property White_Space. `isBlank` adds the four
information separators U+001C to U+001F, which separate tokens and are stripped from a line, but
which no reader of numbers accepts around its digits.
-/

set_option autoImplicit false

namespace Reckoner.Text

/-- The characters with the Unicode property White_Space. -/
def isSpace (c : Char) : Bool :=
  let n := c.toNat
  (9 ≤ n && n ≤ 13) || n == 0x20 || n == 0x85 || n == 0xA0 || n == 0x1680 ||
    (0x2000 ≤ n && n ≤ 0x200A) || n == 0x2028 || n == 0x2029 || n == 0x202F ||
    n == 0x205F || n == 0x3000

/-- The information separators U+001C to U+001F. -/
def isSeparator (c : Char) : Bool :=
  0x1C ≤ c.toNat && c.toNat ≤ 0x1F

/-- A blank character separates tokens: white space or an information separator. -/
def isBlank (c : Char) : Bool :=
  isSpace c || isSeparator c

/-- Every character that core counts as white space is blank. -/
theorem isBlank_of_isWhitespace {c : Char} (whitespace : c.isWhitespace) : isBlank c := by
  simp only [Char.isWhitespace, Bool.or_eq_true, decide_eq_true_eq] at whitespace
  rcases whitespace with ((rfl | rfl) | rfl) | rfl <;> decide

/-- The list without the characters of a class at its two ends. -/
def trimBy (member : Char → Bool) (characters : List Char) : List Char :=
  ((characters.dropWhile member).reverse.dropWhile member).reverse

/-- The text without the blanks at its two ends. -/
def strip (text : String) : String :=
  String.ofList (trimBy isBlank text.toList)

/-- The text without the white space at its two ends. -/
def trim (text : String) : String :=
  String.ofList (trimBy isSpace text.toList)

end Reckoner.Text
