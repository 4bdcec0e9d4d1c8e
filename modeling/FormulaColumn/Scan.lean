import FormulaColumn.TokenPattern

/-!
# Scanning

A formula is scanned into a sequence of tokens with white space anywhere
between them. Scanning never fails. It stops at the first position where no
form of a token matches: at a character that is in no token, or at a run of
digits too large for the integer it would write. What is left there is the
**remainder**, and the white space before it belongs to the part that was
scanned.
-/

namespace FormulaColumn

/-- **What scanning a text gives.** -/
structure Scan where
  /-- The tokens, in order. -/
  tokens : List Token
  /-- The characters that are left where scanning stopped. -/
  rest : List Char
  deriving DecidableEq, Repr

namespace Scan

/-- **The scan of a run of characters.** A sequence of tokens may be empty,
so one always matches. -/
def ofChars (source : List Char) : Scan :=
  match TokenPattern.sequence.run source with
  | some (tokens, rest) => ⟨tokens, rest⟩
  | none => ⟨[], source⟩

/-- **A scan is a match of a sequence of tokens**, and nothing else. -/
theorem ofChars_eq_iff {source : List Char} {scan : Scan} :
    ofChars source = scan
      ↔ TokenPattern.sequence.run source = some (scan.tokens, scan.rest) := by
  unfold ofChars
  cases h : TokenPattern.sequence.run source with
  | none =>
    exact absurd h
      (Pattern.run_many_seqLeft_many_ne_none
        (.seqRight TokenPattern.whiteSpaces TokenPattern.token) _ source)
  | some found =>
    obtain ⟨tokens, rest⟩ := found
    cases scan
    simp

/-- The scan of a text. -/
def ofText (source : String) : Scan := ofChars source.toList

/-- The text that is left where scanning stopped. -/
def remainder (scan : Scan) : String := String.ofList scan.rest

/-- Whether scanning reached the end of the text. -/
def reachesEnd (scan : Scan) : Bool := scan.rest.isEmpty

end Scan

end FormulaColumn
