import FormulaColumn.Operator
import FormulaColumn.Value

/-!
# Arithmetic

Each operation has an exact result, on unbounded integers, and the machine
result is the exact one where a 64-bit integer has that value, and an
overflow otherwise. Division truncates toward zero; a division by zero is an
error of its own, since it has no exact result.
-/

namespace FormulaColumn

/-- **The exact result** of an operation, on unbounded integers. -/
def ArithOp.exact : ArithOp → Int → Int → Except CellError Int
  | add, left, right => .ok (left + right)
  | sub, left, right => .ok (left - right)
  | mul, left, right => .ok (left * right)
  | div, left, right =>
    if right = 0 then .error .divisionByZero else .ok (left.tdiv right)

/-- An integer as a machine integer; it is an overflow if there is none of
its value. -/
def checked (n : Int) : Except CellError Int64 :=
  match int64? n with
  | some x => .ok x
  | none => .error .overflow

/-- **The machine result** of an operation: the exact one, checked. -/
def ArithOp.apply (op : ArithOp) (left right : Int64) :
    Except CellError Int64 := do
  checked (← op.exact left.toInt right.toInt)

namespace Value

/-- The value of a computation that may fail. -/
def ofExcept : Except CellError Int64 → Value
  | .ok n => int n
  | .error cause => error cause

/-- **An operation on two values.** The leftmost error decides, also where
the other operand is no integer. -/
def arith (op : ArithOp) : Value → Value → Value
  | error cause, _ => error cause
  | _, error cause => error cause
  | int left, int right => ofExcept (op.apply left right)
  | _, _ => error .invalidOperands

end Value

end FormulaColumn
