import FormulaColumn.Aggregate
import FormulaColumn.Column
import FormulaColumn.Logged

/-!
# Evaluation

An expression is evaluated in two steps that are kept apart.

`Expression.evalWith` says what an expression comes to **given a way to look
up rows**. It is a recursion on the tree: literals are themselves, operators
and functions work on the values of their operands, a reference asks for a
row and a range for all of its rows. Both operands of an operator are always
evaluated, whatever the first one came to.

`Column.follow` is the way to look up rows that a column has: it evaluates
the expression in the row, with itself as the way to look up the rows that
are met there. It carries the chain of the rows that are being evaluated, and
a row that is met again is a cyclic reference.

Keeping the two apart lets the first be asked with another way to look up
rows, such as reading them off a finished list of results.
-/

namespace FormulaColumn

namespace Expression

/-- The first and the last row of a range: its ends are references to the
column, in ascending order. -/
def rangeRows? : Expression → Expression → Option (Nat × Nat)
  | reference c first, reference d last =>
    if c = Column.letter ∧ d = Column.letter ∧ first ≤ last then
      some (first.toNat, last.toNat)
    else
      none
  | _, _ => none

/-- **The value of an expression**, in a column of `rows` rows that are
looked up by `lookup`. -/
def evalWith (rows : Nat) (lookup : Nat → Logged Value) :
    Expression → Logged Value
  | number value => pure (.int value)
  | reference column row =>
    if column = Column.letter then
      lookup row.toNat
    else do
      Logged.record (.otherColumn column row)
      pure (.error .couldNotEvaluate)
  | arith op left right => do
    let leftValue ← left.evalWith rows lookup
    let rightValue ← right.evalWith rows lookup
    pure (.arith op leftValue rightValue)
  | range first last =>
    match rangeRows? first last with
    | none => pure (.error .invalidRange)
    | some (lo, hi) =>
      if hi < rows then do
        let items ← (List.range' lo (hi + 1 - lo)).mapM lookup
        pure (.list items)
      else
        pure (.error .invalidReference)
  | call function argument => do
    let value ← argument.evalWith rows lookup
    pure (.call function value)

end Expression

namespace Column

/-- **The value of a row that is referred to** while the rows of `chain` are
being evaluated, the innermost first. -/
def follow (column : Column) (chain : List Nat) (row : Nat) :
    Logged Value :=
  if row ∈ chain then do
    Logged.record (.cycle row chain.reverse)
    pure (.error .cyclicReference)
  else
    match _ : column.formula? row with
    | some e =>
      e.evalWith column.length fun next => follow column (row :: chain) next
    | none => do
      Logged.record (.noFormula row)
      pure (.error .invalidReference)
termination_by (column.unvisited chain).length
decreasing_by exact length_unvisited_cons_lt (by assumption) (by assumption)

theorem follow_of_mem {column : Column} {chain : List Nat} {row : Nat}
    (h : row ∈ chain) :
    column.follow chain row
      = ⟨.error .cyclicReference, [.cycle row chain.reverse]⟩ := by
  rw [follow, if_pos h]
  rfl

theorem follow_of_none {column : Column} {chain : List Nat} {row : Nat}
    (hchain : row ∉ chain) (h : column.formula? row = none) :
    column.follow chain row
      = ⟨.error .invalidReference, [.noFormula row]⟩ := by
  rw [follow, if_neg hchain]
  split
  next e he => rw [h] at he; exact absurd he (by simp)
  next => rfl

/-- **A row with a formula is its expression**, evaluated with the row on
the chain. -/
theorem follow_of_some {column : Column} {chain : List Nat} {row : Nat}
    {e : Expression} (hchain : row ∉ chain)
    (h : column.formula? row = some e) :
    column.follow chain row
      = e.evalWith column.length (column.follow (row :: chain)) := by
  rw [follow, if_neg hchain]
  split
  next e' he => rw [Option.some.inj (h.symm.trans he)]
  next he => rw [h] at he; exact absurd he (by simp)

/-- **The value of an expression** in a column. -/
def eval (column : Column) (e : Expression) : Logged Value :=
  e.evalWith column.length (column.follow [])

/-- **The value shown in a row.** A row that holds no formula cannot be
evaluated, and a row that does not exist is an invalid reference. -/
def valueAt (column : Column) (row : Nat) : Logged Value :=
  match column[row]? with
  | some (some e) => e.evalWith column.length (column.follow [row])
  | some none => pure (.error .couldNotEvaluate)
  | none => pure (.error .invalidReference)

/-- **The values shown in a column**, computed from the first row on. -/
def values (column : Column) : Logged (List Value) :=
  (List.range column.length).mapM fun row => do
    let value ← column.valueAt row
    Logged.record (.cellValue row value)
    pure value

end Column

end FormulaColumn
