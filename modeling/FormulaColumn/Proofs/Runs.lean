import FormulaColumn.Scan
import Mathlib.Algebra.Group.Nat.Defs
import Mathlib.Data.List.DropRight

/-!
# Scanning by runs

What a text is scanned to, said without a scanner. At each position of the
text one can ask which run of digits or letters starts there, and which run
ends there, and this is enough to say which token starts at the position
(`Scan.tokenAt`) and whether scanning stops at it (`Scan.Rejected`). The
**scan by runs** has the tokens of the positions before the leftmost one that
is rejected, in order, and the characters from there on.

A position is rejected if its character is in no token, or if a run of digits
starts there whose value is too large. How large a value may be depends on
what stands before the run: directly after a single letter it is the number
of a row, and elsewhere an integer.

A single letter directly before a run of digits makes a reference with them,
unless scanning stops at the digits. All other runs are tokens as they stand:
the letters of `SUMA0` are one name, and its digit is a number.
-/

namespace FormulaColumn

namespace Scan

open TokenPattern

/-- The accepted characters directly before a position. -/
def runBefore (accepts : Char → Bool) (source : List Char) (p : Nat) :
    List Char :=
  (source.take p).rtakeWhile accepts

/-- The accepted characters from a position on. -/
def runFrom (accepts : Char → Bool) (source : List Char) (p : Nat) :
    List Char :=
  (source.drop p).takeWhile accepts

/-- **A maximal run of accepted characters starts** at a position. -/
def RunStarts (accepts : Char → Bool) (source : List Char) (p : Nat) : Prop :=
  runBefore accepts source p = [] ∧ runFrom accepts source p ≠ []

instance (accepts : Char → Bool) (source : List Char) (p : Nat) :
    Decidable (RunStarts accepts source p) :=
  inferInstanceAs (Decidable (_ ∧ _))

/-- A position directly after a maximal run of exactly one letter. -/
def AfterLetter (source : List Char) (p : Nat) : Prop :=
  (runBefore Char.isUpper source p).length = 1

instance (source : List Char) (p : Nat) : Decidable (AfterLetter source p) :=
  inferInstanceAs (Decidable (_ = _))

/-! ## Where scanning stops -/

/-- **A foreign character**: it is no white space and in no token. -/
def Foreign (c : Char) : Prop :=
  isWhiteSpace c = false ∧ c.isDigit = false ∧ c.isUpper = false
    ∧ c ∉ operatorSymbols ∧ c ∉ punctuationSymbols

instance (c : Char) : Decidable (Foreign c) :=
  inferInstanceAs (Decidable (_ ∧ _))

/-- **The largest value of a run of digits** that starts at a position: the
largest row directly after a single letter, and elsewhere the largest
integer. -/
def digitsLimit (source : List Char) (p : Nat) : Nat :=
  if AfterLetter source p then 2 ^ 64 - 1 else 2 ^ 63 - 1

/-- **A rejected position**: its character is foreign, or a run of digits
starts there whose value is too large. -/
def Rejected (source : List Char) (p : Nat) : Prop :=
  (∃ c ∈ source[p]?, Foreign c)
    ∨ RunStarts Char.isDigit source p
      ∧ digitsLimit source p < Numeral.value (runFrom Char.isDigit source p)

instance (source : List Char) (p : Nat) : Decidable (Rejected source p) :=
  inferInstanceAs (Decidable (_ ∨ _))

/-- **Where scanning stops**: the leftmost rejected position, or the end. -/
def stop (source : List Char) : Nat :=
  ((List.range source.length).find? fun p => Rejected source p).getD
    source.length

/-! ## The tokens -/

/-- The token of a symbol. -/
def symbolToken? (c : Char) : Option Token :=
  if c ∈ operatorSymbols then some (.operator c)
  else if c ∈ punctuationSymbols then some (.punctuation c)
  else none

/-- **The token that starts at a position**, if scanning stops at `stop`.

Digits directly after a single letter start no token. They are before `stop`
only if the letter is a reference with them. -/
def tokenAt (source : List Char) (stop p : Nat) : Option Token :=
  if RunStarts Char.isUpper source p then
    match runFrom Char.isUpper source p with
    | [c] =>
      if p + 1 < stop ∧ RunStarts Char.isDigit source (p + 1) then
        some (.reference c
          (.ofNat (Numeral.value (runFrom Char.isDigit source (p + 1)))))
      else
        some (.name (String.ofList [c]))
    | letters => some (.name (String.ofList letters))
  else if RunStarts Char.isDigit source p then
    if AfterLetter source p then
      none
    else
      some (.number (.ofNat (Numeral.value (runFrom Char.isDigit source p))))
  else
    source[p]?.bind symbolToken?

/-- **The scan by runs.** -/
def byRuns (source : List Char) : Scan :=
  ⟨(List.range (stop source)).filterMap (tokenAt source (stop source)),
    source.drop (stop source)⟩

end Scan

end FormulaColumn
