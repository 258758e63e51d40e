import AgdaFrontEnd.Text.CodePoints

/-!
# Blank characters

A character is blank if it is one of the Unicode spaces or one of the control characters that
separate lines, files, groups, records and units.

* `isBlank`: the class; `isBlank_of_isWhitespace` says that it holds every ASCII blank.
* `Text.strip`: a text without its leading and trailing blanks.
-/

namespace AgdaFrontEnd

/-- The blank characters. -/
def blankCodePoints : CodePoints :=
  [(0x09, 0x0D), (0x1C, 0x20), (0x85, 0x85), (0xA0, 0xA0), (0x1680, 0x1680), (0x2000, 0x200A),
   (0x2028, 0x2029), (0x202F, 0x202F), (0x205F, 0x205F), (0x3000, 0x3000)]

/-- The character is blank. -/
def isBlank (c : Char) : Bool := blankCodePoints.has c

/-- Every ASCII blank is blank. -/
theorem isBlank_of_isWhitespace {c : Char} (h : c.isWhitespace = true) : isBlank c = true := by
  simp only [Char.isWhitespace, Bool.or_eq_true, decide_eq_true_eq] at h
  rcases h with ((h | h) | h) | h <;> subst h <;> decide

namespace Text

/-- The text without its leading blanks. -/
def stripLeft (t : Text) : Text := t.dropWhile isBlank

/-- The text without its trailing blanks. -/
def stripRight (t : Text) : Text := (t.reverse.dropWhile isBlank).reverse

/-- The text without its leading and trailing blanks. -/
def strip (t : Text) : Text := stripRight (stripLeft t)

end Text

end AgdaFrontEnd
