import FormulaColumn.Expression

/-!
# Columns

The cells that formulas refer to are one column, `A`, with the rows counted
from zero. A row holds the expression of its formula, or nothing where the
cell is empty or its text is no formula.

A reference is followed only into a row that holds a formula, and never into
one that is already being evaluated. So what bounds an evaluation is the
number of **filled rows that are not being evaluated**, and following a
reference makes it smaller.
-/

namespace FormulaColumn

/-- **A column of cells**: per row, the expression of its formula. -/
abbrev Column := List (Option Expression)

namespace Column

/-- The name of the column. -/
def letter : Char := 'A'

/-- The expression in a row, if the row exists and holds one. -/
def formula? (column : Column) (row : Nat) : Option Expression :=
  column[row]?.join

/-- Whether a row exists and holds an expression. -/
def isFilled (column : Column) (row : Nat) : Bool :=
  (column.formula? row).isSome

/-- The filled rows that are not in `chain`. -/
def unvisited (column : Column) (chain : List Nat) : List Nat :=
  (List.range column.length).filter fun row =>
    column.isFilled row && !chain.contains row

theorem lt_length_of_formula? {column : Column} {row : Nat} {e : Expression}
    (h : column.formula? row = some e) : row < column.length := by
  have hcell : column[row]? = some (some e) := Option.join_eq_some_iff.mp h
  exact (List.getElem?_eq_some_iff.mp hcell).1

/-- **Following a reference leaves fewer rows to follow references into.** -/
theorem length_unvisited_cons_lt {column : Column} {chain : List Nat}
    {row : Nat} {e : Expression} (h : column.formula? row = some e)
    (hchain : row ∉ chain) :
    (column.unvisited (row :: chain)).length
      < (column.unvisited chain).length := by
  have hsplit : column.unvisited (row :: chain)
      = (column.unvisited chain).filter fun other => !(other == row) := by
    unfold unvisited
    rw [List.filter_filter]
    refine List.filter_congr fun other _ => ?_
    by_cases ho : other = row <;> simp [ho]
  have hmem : row ∈ column.unvisited chain := by
    simp [unvisited, isFilled, h, hchain, lt_length_of_formula? h]
  rw [hsplit]
  exact List.length_filter_lt_length_iff_exists.mpr
    ⟨row, hmem, by simp⟩

end Column

end FormulaColumn
