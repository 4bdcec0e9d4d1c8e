import FormulaColumn.Evaluation
import FormulaColumn.Formula

/-!
# Columns given by texts

A column is usually given by the texts of its rows. Each text is read on its
own, and a text that is no formula leaves its row without an expression. All
texts are read before the first row is evaluated.
-/

namespace FormulaColumn

/-- **The expression of the text in a row**, if the text is a formula. -/
def readCell (row : Nat) (source : String) : Logged (Option Expression) := do
  match ← readFormula source with
  | .ok e => pure (some e)
  | .error cause => do
    Logged.record (.notAFormula row source cause)
    pure none

namespace Column

/-- **The column of a list of texts**, one row for each. -/
def ofTexts (texts : List String) : Logged Column :=
  texts.zipIdx.mapM fun cell => readCell cell.2 cell.1

/-- **The values shown in a column of texts.** -/
def valuesOfTexts (texts : List String) : Logged (List Value) := do
  let column ← ofTexts texts
  column.values

end Column

end FormulaColumn
