import FormulaColumn.FormulaGrammar
import FormulaColumn.Logged
import FormulaColumn.Scan

/-!
# Formulas

A text is a formula if it can be scanned to its end and its tokens are an
expression. The text is scanned as a whole before its tokens are looked at,
so an unrecognized character is what is reported also where the tokens before
it are no expression.
-/

namespace FormulaColumn

/-- **The expression of a formula**, or why the text is no formula. A blank
text leaves no record. -/
def readFormula (source : String) : Logged (Except ReadError Expression) :=
  let scan := Scan.ofText source
  if scan.reachesEnd then
    if scan.tokens.isEmpty then
      pure (.error .blank)
    else
      match Expression.ofTokens? scan.tokens with
      | some e => pure (.ok e)
      | none => do
        Logged.record (.notAnExpression source)
        pure (.error .incomplete)
  else do
    Logged.record (.stoppedScanning source scan.remainder)
    pure (.error (.unrecognized scan.remainder))

end FormulaColumn
