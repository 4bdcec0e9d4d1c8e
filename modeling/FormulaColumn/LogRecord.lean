import FormulaColumn.ReadError
import FormulaColumn.Value

/-!
# The log

Reading and evaluating formulas leaves a record of what happened: where a
text stopped being a formula, which rows were recalculated and what they came
to, and where a reference led nowhere or back to a row under evaluation.

A record is data. Its text is a function of it, so a statement about which
cycles were met speaks of rows and not of the wording of a message.
-/

namespace FormulaColumn

/-- How important a record is. -/
inductive LogLevel where
  /-- The steps of an evaluation. -/
  | trace
  /-- What a reader of a sheet may want to know. -/
  | debug
  deriving DecidableEq, Repr

/-- **A record of what happened.** -/
inductive LogRecord where
  /-- The formula `source` could be scanned only up to `remainder`. -/
  | stoppedScanning (source remainder : String)
  /-- The tokens of the formula `source` are not an expression. -/
  | notAnExpression (source : String)
  /-- The text `source` in row `row` is no formula. -/
  | notAFormula (row : Nat) (source : String) (cause : ReadError)
  /-- A sheet of `rows` rows is evaluated again. -/
  | recalculating (rows : Nat)
  /-- Row `row` came to `value`. -/
  | cellValue (row : Nat) (value : Value)
  /-- A reference to row `row` was met while that row was being evaluated.
  The rows under evaluation are `path`, the outermost first. -/
  | cycle (row : Nat) (path : List Nat)
  /-- A reference to row `row`, which does not exist or holds no formula. -/
  | noFormula (row : Nat)
  /-- A reference to a column that holds no cells. -/
  | otherColumn (column : Char) (row : UInt64)

namespace LogRecord

/-- The name of a row of the column. -/
def rowName (row : Nat) : String := s!"A{row}"

/-- How important a record is: the steps of an evaluation are traced. -/
def level : LogRecord → LogLevel
  | stoppedScanning _ _ => .debug
  | notAnExpression _ => .debug
  | notAFormula _ _ _ => .debug
  | recalculating _ => .debug
  | cellValue _ _ => .trace
  | cycle _ _ => .trace
  | noFormula _ => .trace
  | otherColumn _ _ => .trace

/-- The message of a record. -/
def message : LogRecord → String
  | stoppedScanning source remainder =>
    "formula " ++ quoted source ++ " stopped tokenizing at "
      ++ quoted remainder
  | notAnExpression source =>
    "formula " ++ quoted source ++ " is not a complete expression"
  | notAFormula row source cause =>
    rowName row ++ ": " ++ quoted source ++ " does not parse: "
      ++ cause.message
  | recalculating rows => s!"recalculating {rows} rows"
  | cellValue row value => rowName row ++ " = " ++ value.text
  | cycle row path =>
    "cycle through " ++ rowName row ++ ": ["
      ++ ", ".intercalate (path.map toString) ++ "]"
  | noFormula row =>
    rowName row ++ " is outside the context or holds no formula"
  | otherColumn column row => s!"cannot evaluate {column}{row.toNat}"

/-- The line of a record: its level and its message. -/
def line (record : LogRecord) : String :=
  match record.level with
  | .trace => "TRACE " ++ record.message
  | .debug => "DEBUG " ++ record.message

end LogRecord

end FormulaColumn
