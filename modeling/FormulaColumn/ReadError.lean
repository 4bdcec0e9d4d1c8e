import FormulaColumn.Quoted

/-!
# Why a text is no formula

There are three reasons: the text has no tokens, it cannot be scanned to its
end, or its tokens are not an expression. The second says what is left where
scanning stopped.
-/

namespace FormulaColumn

/-- **Why a text is no formula.** -/
inductive ReadError where
  /-- It holds nothing but white space. -/
  | blank
  /-- Scanning stops before its end, and `remainder` is left. -/
  | unrecognized (remainder : String)
  /-- Its tokens are not an expression. -/
  | incomplete
  deriving DecidableEq, Repr

/-- The message of an error, for a reader. -/
def ReadError.message : ReadError → String
  | blank => "empty formula"
  | unrecognized remainder => "unrecognized input: " ++ quoted remainder
  | incomplete => "tokens do not form a complete expression"

end FormulaColumn
