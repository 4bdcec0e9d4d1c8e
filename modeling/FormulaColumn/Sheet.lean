import FormulaColumn.Texts

/-!
# Sheets

A sheet is a column that is edited. It keeps three lists of equal length: the
texts of the rows, the expressions of the texts, and the values shown. An
edit reads the text of the edited row only, and evaluates every row again. So
the values shown are always those of the current texts, and what a sheet
shows does not depend on how it came to hold its texts.
-/

namespace FormulaColumn

/-- **A column of formulas that is edited**, with its values. -/
structure Sheet where
  /-- The text of each row. -/
  texts : List String
  /-- The expression of each row whose text is a formula. -/
  column : Column
  /-- The value shown in each row. -/
  values : List Value

/-- Why a sheet cannot be edited as asked. -/
inductive SheetError where
  /-- There is no row `row`; the sheet has `rows` rows. -/
  | noSuchRow (row rows : Nat)
  deriving DecidableEq, Repr

/-- The message of an error, for a reader. -/
def SheetError.message : SheetError → String
  | noSuchRow row rows => s!"row {row} is out of bounds (sheet has {rows} rows)"

namespace Sheet

/-! ## Making a sheet -/

/-- **A sheet of these texts and their expressions**, with every row
evaluated. -/
def evaluated (texts : List String) (column : Column) : Logged Sheet := do
  Logged.record (.recalculating texts.length)
  let values ← column.values
  pure ⟨texts, column, values⟩

/-- **The sheet of a list of texts.** -/
def ofTexts (texts : List String) : Logged Sheet := do
  let column ← Column.ofTexts texts
  evaluated texts column

/-- A sheet of `rows` blank rows. -/
def blank (rows : Nat) : Logged Sheet := ofTexts (List.replicate rows "")

/-- The sheet to start with: nine rows that count up from one. -/
def sample : Logged Sheet := ofTexts ((List.range' 1 9).map toString)

/-! ## Editing -/

/-- **Replaces the text of a row.** Where there is no such row, nothing is
read, evaluated or recorded. -/
def replace (sheet : Sheet) (row : Nat) (text : String) :
    Except SheetError (Logged Sheet) :=
  if row < sheet.texts.length then
    .ok do
      let cell ← readCell row text
      evaluated (sheet.texts.set row text) (sheet.column.set row cell)
  else
    .error (.noSuchRow row sheet.texts.length)

/-- **Adds a row** after the last one. -/
def append (sheet : Sheet) (text : String) : Logged Sheet := do
  let cell ← readCell sheet.texts.length text
  evaluated (sheet.texts ++ [text]) (sheet.column ++ [cell])

/-! ## Reading -/

/-- The number of rows. -/
def size (sheet : Sheet) : Nat := sheet.texts.length

/-- Whether a sheet has no rows. -/
def isEmpty (sheet : Sheet) : Bool := sheet.texts.isEmpty

/-- The text of a row. -/
def text? (sheet : Sheet) (row : Nat) : Option String := sheet.texts[row]?

/-- The expression of a row, if its text is a formula. -/
def expression? (sheet : Sheet) (row : Nat) : Option Expression :=
  sheet.column.formula? row

/-- The value shown in a row. -/
def value? (sheet : Sheet) (row : Nat) : Option Value := sheet.values[row]?

/-- The text of the value shown in a row. -/
def valueText? (sheet : Sheet) (row : Nat) : Option String :=
  (sheet.value? row).map Value.text

/-- **What a cell shows**: its text while it is edited, and its value
otherwise. -/
def shown? (sheet : Sheet) (row : Nat) (editing : Bool) : Option String :=
  if editing then sheet.text? row else sheet.valueText? row

end Sheet

end FormulaColumn
