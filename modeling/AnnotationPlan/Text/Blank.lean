/-!
# Blanks

A character is blank when the Unicode standard gives it the property
`White_Space`: twenty-five characters, from the tab to the ideographic space.
Names, paths and settings are read after their blanks are trimmed, so the whole
table is needed and not only its part in ASCII.

Every character that core calls white space is blank (`isBlank_of_isWhitespace`).
-/

namespace AnnotationPlan.Text

/-- **The blanks**: the characters with the Unicode property `White_Space`. -/
def isBlank (c : Char) : Bool :=
  let n := c.toNat
  (9 ≤ n && n ≤ 13) || n == 0x20 || n == 0x85 || n == 0xA0 || n == 0x1680
    || (0x2000 ≤ n && n ≤ 0x200A) || n == 0x2028 || n == 0x2029 || n == 0x202F
    || n == 0x205F || n == 0x3000

/-- White space in the sense of core is blank. -/
theorem isBlank_of_isWhitespace {c : Char} (h : c.isWhitespace = true) : isBlank c = true := by
  simp only [Char.isWhitespace, Bool.or_eq_true, decide_eq_true_eq] at h
  rcases h with ((h | h) | h) | h <;> subst h <;> decide

/-- The characters without the blanks before the first and after the last
character that is none. -/
def trimChars (cs : List Char) : List Char :=
  ((cs.dropWhile isBlank).reverse.dropWhile isBlank).reverse

/-- A text without its leading and trailing blanks. -/
def trim (s : String) : String :=
  String.ofList (trimChars s.toList)

end AnnotationPlan.Text
