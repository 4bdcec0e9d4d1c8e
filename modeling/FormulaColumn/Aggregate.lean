import FormulaColumn.Arithmetic

/-!
# Aggregates

The functions a formula can apply to a range. Each goes through the values of
the range from the first row on, with an integer it has so far. The first
value that stops it decides: an error is handed on, a list is no operand, and
a sum that no 64-bit integer has is an overflow. Nothing after that value
matters.
-/

namespace FormulaColumn

/-- **The functions on ranges.** -/
inductive Aggregate where
  /-- The sum of the values. -/
  | sum
  /-- The smallest value. -/
  | min
  deriving DecidableEq, Repr

namespace Aggregate

/-- The name of a function, as a formula writes it. -/
def name : Aggregate → String
  | sum => "SUM"
  | min => "MIN"

/-- The function of a name. -/
def ofName? (text : String) : Option Aggregate :=
  if text = "SUM" then some sum
  else if text = "MIN" then some min
  else none

/-- What a function has before the first value: zero for the sum, and for the
minimum the largest integer. -/
def seed : Aggregate → Int64
  | sum => 0
  | min => Int64.maxValue

/-- What a function has after one more integer. -/
def combine : Aggregate → Int64 → Int64 → Except CellError Int64
  | sum, total, n => checked (total.toInt + n.toInt)
  | min, least, n => .ok (if n < least then n else least)

/-- A value as an operand: its integer, or why it has none. -/
def operand : Value → Except CellError Int64
  | .int n => .ok n
  | .list _ => .error .invalidOperands
  | .error cause => .error cause

/-- What a function has after a list of values, from what it had before. -/
def fold (function : Aggregate) (start : Int64) (items : List Value) :
    Except CellError Int64 :=
  items.foldlM
    (fun current item => do function.combine current (← operand item)) start

@[simp] theorem fold_nil (function : Aggregate) (start : Int64) :
    function.fold start [] = .ok start := rfl

/-- **A function takes the values one by one**, and stops at the first one
it cannot take. -/
theorem fold_cons (function : Aggregate) (start : Int64) (item : Value)
    (items : List Value) :
    function.fold start (item :: items)
      = (do
          let n ← operand item
          let current ← function.combine start n
          function.fold current items) := by
  unfold fold
  rw [List.foldlM_cons, bind_assoc]

/-- **A function applied to the values of a range.** -/
def apply (function : Aggregate) (items : List Value) : Value :=
  .ofExcept (function.fold function.seed items)

end Aggregate

/-- **A function, by its name, applied to a value.** The value is looked at
before the name. -/
def Value.call (function : String) : Value → Value
  | int _ => error .invalidArgument
  | list items =>
    match Aggregate.ofName? function with
    | some aggregate => aggregate.apply items
    | none => error (.unknownFunction function)
  | error cause => error cause

end FormulaColumn
