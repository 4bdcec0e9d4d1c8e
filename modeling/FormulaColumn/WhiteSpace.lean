import FormulaColumn.CodePoints

/-!
# White space

Tokens of a formula may be separated by any run of characters with the
Unicode property `White_Space`. The property holds of 25 characters: the
ASCII blanks from tab to carriage return and the space, next line, and the
spaces and separators outside ASCII. The zero-width space is not one of
them.
-/

namespace FormulaColumn

/-- The code points with the property `White_Space`. -/
def whiteSpace : CodePoints where
  ranges :=
    [(0x9, 0xD), (0x20, 0x20), (0x85, 0x85), (0xA0, 0xA0), (0x1680, 0x1680),
     (0x2000, 0x200A), (0x2028, 0x2029), (0x202F, 0x202F), (0x205F, 0x205F),
     (0x3000, 0x3000)]

/-- Whether a character separates tokens. -/
def isWhiteSpace (c : Char) : Bool := whiteSpace.contains c

/-- White space is told from what tokens are made of by its code point: no
character from `!` to `~` is white space. -/
theorem not_isWhiteSpace_of_graphic {c : Char} (h : 0x20 < c.toNat)
    (h' : c.toNat < 0x7F) : isWhiteSpace c = false := by
  rw [Bool.eq_false_iff]
  intro hc
  simp [isWhiteSpace, CodePoints.contains_iff, whiteSpace] at hc
  omega

end FormulaColumn
