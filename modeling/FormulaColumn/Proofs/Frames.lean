import FormulaColumn.Proofs.Placement
import FormulaColumn.Proofs.Lookups

/-!
# Evaluations within an evaluation

While an expression is evaluated, others are: the operands of an operator, the
argument of a function, and the expressions of the rows that are looked up.
Each of them is a frame, an expression with the chain of the rows that are
being evaluated, and `Column.Enters` says which frames a frame enters. The
frames of an evaluation are those that are reached from its first one, and what
entering a frame preserves holds of all of them.

One thing that it preserves is that ranges stand where functions take them
(`Frame.Placed`). The argument of a function in such a frame is a range of two
references, and if it comes to a list, that is a list of the values of rows,
and of at least one.
-/

namespace FormulaColumn

open Relation (ReflTransGen)

/-- **An expression under evaluation**, together with the rows that are being
evaluated, the innermost first. -/
structure Frame where
  /-- The rows that are being evaluated. -/
  chain : List Nat
  /-- The expression. -/
  e : Expression

namespace Frame

/-- **What a frame comes to**, in a column. -/
def run (frame : Frame) (column : Column) : Logged Value :=
  frame.e.evalWith column.length (column.follow frame.chain)

/-- The frame of a row that is asked for. -/
def ofRow (row : Nat) (e : Expression) : Frame := ⟨[row], e⟩

/-- A frame whose ranges stand where functions take them: the tree has its
ranges in place, or is a range that some function takes. -/
def Placed (frame : Frame) : Prop :=
  frame.e.RangesPlaced ∨ frame.e.IsReferenceRange

theorem value_run (frame : Frame) (column : Column) :
    (frame.run column).value
      = frame.e.valueWith column.length (column.rowValue frame.chain) :=
  Expression.value_evalWith _ _ frame.e

end Frame

namespace Column

variable {column : Column}

/-- **A frame enters another**: it evaluates the expression of the other as
part of its own. The ends of a range are not evaluated, and neither is a row
that is being evaluated already or holds no formula. -/
inductive Enters (column : Column) : Frame → Frame → Prop where
  /-- The left operand of an operator. -/
  | left {chain : List Nat} {op : ArithOp} {left right : Expression} :
    Enters column ⟨chain, .arith op left right⟩ ⟨chain, left⟩
  /-- The right operand, whatever the left one came to. -/
  | right {chain : List Nat} {op : ArithOp} {left right : Expression} :
    Enters column ⟨chain, .arith op left right⟩ ⟨chain, right⟩
  /-- The argument of a function. -/
  | argument {chain : List Nat} {function : String} {argument : Expression} :
    Enters column ⟨chain, .call function argument⟩ ⟨chain, argument⟩
  /-- The row of a reference. -/
  | row {chain : List Nat} {row : UInt64} {e : Expression} :
    row.toNat ∉ chain → column.formula? row.toNat = some e →
    Enters column ⟨chain, .reference letter row⟩ ⟨row.toNat :: chain, e⟩
  /-- A row of a range. -/
  | item {chain : List Nat} {first last e : Expression} {lo hi s : Nat} :
    Expression.rangeRows? first last = some (lo, hi) → hi < column.length →
    lo ≤ s → s ≤ hi → s ∉ chain → column.formula? s = some e →
    Enters column ⟨chain, .range first last⟩ ⟨s :: chain, e⟩

/-- **Entering a frame keeps ranges in place.** -/
theorem Enters.placed (hplaced : column.RangesPlaced) {frame next : Frame}
    (h : column.Enters frame next) (hframe : frame.Placed) : next.Placed := by
  cases h with
  | left => exact Or.inl (hframe.resolve_right id).1
  | right => exact Or.inl (hframe.resolve_right id).2
  | argument => exact Or.inr (hframe.resolve_right id)
  | row _ he => exact Or.inl (hplaced _ _ he)
  | item _ _ _ _ _ he => exact Or.inl (hplaced _ _ he)

/-- **Ranges are in place in every frame** of an evaluation that starts with
them in place. -/
theorem placed_of_reflTransGen (hplaced : column.RangesPlaced)
    {frame inner : Frame} (h : ReflTransGen column.Enters frame inner)
    (hframe : frame.Placed) : inner.Placed := by
  induction h with
  | refl => exact hframe
  | tail _ hstep ih => exact hstep.placed hplaced ih

/-- **The list that a function is applied to** holds the values of rows, and
of at least one. -/
theorem items_of_placed {chain : List Nat} {function : String}
    {argument : Expression} {items : List Value}
    (hplaced : Frame.Placed ⟨chain, .call function argument⟩)
    (hitems : (Frame.run ⟨chain, argument⟩ column).value = .list items) :
    items ≠ [] ∧ ∀ item ∈ items, ∃ s, item = column.rowValue chain s := by
  obtain ⟨c, first, d, last, rfl⟩ :=
    Expression.isReferenceRange_iff.mp (hplaced.resolve_right id)
  rw [Frame.value_run] at hitems
  rcases Expression.valueWith_range_cases column.length (.reference c first)
    (.reference d last) with ⟨cause, -, hvalue⟩ | ⟨lo, hi, hrows, -, hvalue⟩
  · cases (hvalue _).symm.trans hitems
  · cases (hvalue _).symm.trans hitems
    have hle : lo ≤ hi := le_of_rangeRows? hrows
    refine ⟨?_, List.forall_mem_map.mpr fun s _ => ⟨s, rfl⟩⟩
    rw [Ne, List.map_eq_nil_iff, List.range'_eq_nil_iff]
    omega

end Column

end FormulaColumn
