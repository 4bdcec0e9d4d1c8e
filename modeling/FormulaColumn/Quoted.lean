import FormulaColumn.DefaultIgnorable
import FormulaColumn.ExtendingMark
import FormulaColumn.Unprintable

/-!
# Quoted text

A message that repeats text a user typed puts it between double quotes, in a
form where each character can be told from its neighbours. The quote and the
backslash get a backslash, the four common controls have a letter each, and a
character that would not show, or would be drawn on the character before it,
is written by its code point in hexadecimal. Everything else stands for
itself, the single quote included.
-/

namespace FormulaColumn

namespace Quoted

/-- The code point of a character in braces, in lowercase hexadecimal
without leading zeros. -/
def codePoint (c : Char) : List Char :=
  ['\\', 'u', '\x7b'] ++ Nat.toDigits 16 c.toNat ++ ['\x7d']

/-- Whether a character shows by itself: it is printable, it is not drawn as
nothing, and it is not drawn on the character before it. -/
def isShown (c : Char) : Bool :=
  !unprintable.contains c && !defaultIgnorable.contains c
    && !extendingMark.contains c

/-- **One character between quotes.** -/
def escape (c : Char) : List Char :=
  if c = '\x00' then ['\\', '0']
  else if c = '\t' then ['\\', 't']
  else if c = '\r' then ['\\', 'r']
  else if c = '\n' then ['\\', 'n']
  else if c = '\\' ∨ c = '\"' then ['\\', c]
  else if isShown c then [c]
  else codePoint c

end Quoted

/-- **The text between double quotes**, each character escaped where it has
to be. -/
def quoted (text : String) : String :=
  String.ofList ('\"' :: text.toList.flatMap Quoted.escape ++ ['\"'])

end FormulaColumn
