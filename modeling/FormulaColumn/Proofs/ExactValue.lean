import FormulaColumn.Proofs.RowValue
import Mathlib.Algebra.Ring.Int.Defs

/-!
# Evaluation on unbounded integers

What an expression would come to if cells held integers of any size: the same
evaluation, with the same guard against cycles, on values without a bound
(`Column.exactEval`). Division truncates toward zero and a division by zero
is an error as before; a sum is the sum of the values and a minimum the least
of them; and nothing overflows.

A function on a range is said here by its result and not by a fold with a
start value: the items have to be integers, the first one that is not
decides, and the function is applied to the integers as a whole. There is no
least one among none, so a minimum of no values is an error.

Which integers such an evaluation comes across on its way is said beside it
(`Column.Meets`): the result of every operation, and every partial sum. These
are the integers that a machine would have to hold.
-/

namespace FormulaColumn

/-- **What evaluating an expression gives** on unbounded integers. -/
inductive ExactValue where
  /-- An integer. -/
  | int (n : Int)
  /-- The values of the rows of a range, in ascending order. -/
  | list (items : List ExactValue)
  /-- An error. -/
  | error (cause : CellError)

namespace ExactValue

/-- The value of a computation that may fail. -/
def ofExcept : Except CellError Int → ExactValue
  | .ok n => int n
  | .error cause => error cause

/-- **An operation on two values.** The leftmost error decides. -/
def arith (op : ArithOp) : ExactValue → ExactValue → ExactValue
  | error cause, _ => error cause
  | _, error cause => error cause
  | int left, int right => ofExcept (op.exact left right)
  | _, _ => error .invalidOperands

/-- A value as an operand: its integer, or why it has none. -/
def operand : ExactValue → Except CellError Int
  | int n => .ok n
  | list _ => .error .invalidOperands
  | error cause => .error cause

end ExactValue

/-- **The exact result of a function** on some integers: their sum, or the
least of them. -/
def Aggregate.exact : Aggregate → List Int → Except CellError Int
  | sum, ns => .ok ns.sum
  | min, ns =>
    match ns.min? with
    | some least => .ok least
    | none => .error .invalidArgument

/-- **A function, by its name, applied to a value.** The value is looked at
before the name, and the first item that is no integer decides. -/
def ExactValue.call (function : String) : ExactValue → ExactValue
  | int _ => error .invalidArgument
  | list items =>
    match Aggregate.ofName? function with
    | some aggregate => .ofExcept (items.mapM operand >>= aggregate.exact)
    | none => error (.unknownFunction function)
  | error cause => error cause

/-- **The exact value of an expression** in a column of `rows` rows, where
the row `s` has the value `lookup s`. -/
def Expression.exactWith (rows : Nat) (lookup : Nat → ExactValue) :
    Expression → ExactValue
  | number value => .int value.toInt
  | reference column row =>
    if column = Column.letter then
      lookup row.toNat
    else
      .error .couldNotEvaluate
  | arith op left right =>
    .arith op (left.exactWith rows lookup) (right.exactWith rows lookup)
  | range first last =>
    match rangeRows? first last with
    | none => .error .invalidRange
    | some (lo, hi) =>
      if hi < rows then
        .list ((List.range' lo (hi + 1 - lo)).map lookup)
      else
        .error .invalidReference
  | call function argument =>
    .call function (argument.exactWith rows lookup)

namespace Column

/-- **The exact value of a row that is referred to** while the rows of
`chain` are being evaluated, the innermost first. -/
def exactRow (column : Column) (chain : List Nat) (row : Nat) : ExactValue :=
  if row ∈ chain then
    .error .cyclicReference
  else
    match _ : column.formula? row with
    | some e =>
      e.exactWith column.length fun next => exactRow column (row :: chain) next
    | none => .error .invalidReference
termination_by (column.unvisited chain).length
decreasing_by exact length_unvisited_cons_lt (by assumption) (by assumption)

theorem exactRow_of_mem {column : Column} {chain : List Nat} {row : Nat}
    (h : row ∈ chain) :
    column.exactRow chain row = .error .cyclicReference := by
  rw [exactRow, if_pos h]

theorem exactRow_of_none {column : Column} {chain : List Nat} {row : Nat}
    (hchain : row ∉ chain) (h : column.formula? row = none) :
    column.exactRow chain row = .error .invalidReference := by
  rw [exactRow, if_neg hchain]
  split
  next e he => rw [h] at he; exact absurd he (by simp)
  next => rfl

/-- **A row with a formula is its expression**, evaluated with the row on
the chain. -/
theorem exactRow_of_some {column : Column} {chain : List Nat} {row : Nat}
    {e : Expression} (hchain : row ∉ chain)
    (h : column.formula? row = some e) :
    column.exactRow chain row
      = e.exactWith column.length (column.exactRow (row :: chain)) := by
  rw [exactRow, if_neg hchain]
  split
  next e' he => rw [Option.some.inj (h.symm.trans he)]
  next he => rw [h] at he; exact absurd he (by simp)

/-- **The exact value of an expression** in a column. -/
def exactEval (column : Column) (e : Expression) : ExactValue :=
  e.exactWith column.length (column.exactRow [])

/-! ## The integers on the way -/

/-- **An integer is met** in the exact evaluation of an expression while the
rows of a chain are being evaluated: it is the result of an operation, or the
sum of the first few items of a range that is summed up. -/
inductive Meets (column : Column) : List Nat → Expression → Int → Prop where
  /-- What is met in the left operand. -/
  | left {chain : List Nat} {op : ArithOp} {left right : Expression} {n : Int} :
    Meets column chain left n → Meets column chain (.arith op left right) n
  /-- What is met in the right operand, whatever the left one came to. -/
  | right {chain : List Nat} {op : ArithOp} {left right : Expression} {n : Int} :
    Meets column chain right n → Meets column chain (.arith op left right) n
  /-- The result of an operation on two integers. -/
  | result {chain : List Nat} {op : ArithOp} {left right : Expression}
      {a b n : Int} :
    left.exactWith column.length (column.exactRow chain) = .int a →
    right.exactWith column.length (column.exactRow chain) = .int b →
    op.exact a b = .ok n → Meets column chain (.arith op left right) n
  /-- What is met in a row that is referred to. -/
  | row {chain : List Nat} {row : UInt64} {e : Expression} {n : Int} :
    row.toNat ∉ chain → column.formula? row.toNat = some e →
    Meets column (row.toNat :: chain) e n →
    Meets column chain (.reference letter row) n
  /-- What is met in a row of a range. -/
  | item {chain : List Nat} {first last e : Expression} {lo hi s : Nat}
      {n : Int} :
    Expression.rangeRows? first last = some (lo, hi) → hi < column.length →
    lo ≤ s → s ≤ hi → s ∉ chain → column.formula? s = some e →
    Meets column (s :: chain) e n → Meets column chain (.range first last) n
  /-- What is met in the argument of a function. -/
  | argument {chain : List Nat} {function : String} {argument : Expression}
      {n : Int} :
    Meets column chain argument n →
    Meets column chain (.call function argument) n
  /-- A partial sum: the items up to some point, if they are integers. -/
  | partialSum {chain : List Nat} {function : String} {argument : Expression}
      {items : List ExactValue} {ns : List Int} :
    argument.exactWith column.length (column.exactRow chain) = .list items →
    Aggregate.ofName? function = some .sum →
    ns.map ExactValue.int <+: items →
    Meets column chain (.call function argument) ns.sum

end Column

end FormulaColumn
