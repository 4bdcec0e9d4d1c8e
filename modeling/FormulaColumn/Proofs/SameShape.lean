import FormulaColumn.Proofs.Cycles

/-!
# What is recorded does not depend on values

An evaluation has many places at which it could stop early: a left operand has
failed, the first row of a range is a cycle, a function does not exist. It
stops at none of them. So its log is the same for two columns that differ only
in what is computed (`Column.log_eq_of_sameShape`): in their literals, in which
operators stand between operands, and in the names of functions. Whatever
errors the one has and the other has not, the same rows are looked up, in the
same order and with the same rows under evaluation.

Such trees have the **same shape** (`Expression.SameShape`). They ask for the
same rows, and this is all that has to be known of a tree: the log is made of
the logs of these rows. Rows of the same shape then have the same log under
every chain, by induction on the evaluation of one of them.
-/

namespace FormulaColumn

namespace Expression

/-- **Two trees of the same shape**: they have the same references at the same
places, and ranges stand where ranges do. Their literals may differ, and so may
the operators on integers and the names of functions. -/
inductive SameShape : Expression → Expression → Prop where
  /-- A literal for a literal. -/
  | number (n m : Int64) : SameShape (.number n) (.number m)
  /-- The same reference. -/
  | reference (c : Char) (row : UInt64) :
    SameShape (.reference c row) (.reference c row)
  /-- An operator for an operator. -/
  | arith (op op' : ArithOp) {left left' right right' : Expression} :
    SameShape left left' → SameShape right right' →
    SameShape (.arith op left right) (.arith op' left' right')
  /-- A range for a range. -/
  | range {first first' last last' : Expression} :
    SameShape first first' → SameShape last last' →
    SameShape (.range first last) (.range first' last')
  /-- A function for a function. -/
  | call (function function' : String) {argument argument' : Expression} :
    SameShape argument argument' →
    SameShape (.call function argument) (.call function' argument')

namespace SameShape

variable {e e' first first' last last' : Expression}

/-- Ends of the same shape have the same rows between them. -/
theorem rangeRows?_eq (hfirst : SameShape first first')
    (hlast : SameShape last last') :
    rangeRows? first last = rangeRows? first' last' := by
  cases hfirst with
  | reference c row => cases hlast <;> rfl
  | number n m => rfl
  | arith op op' _ _ => rfl
  | range _ _ => rfl
  | call function function' _ => rfl

/-- **Trees of the same shape ask for the same**, in the same order. -/
theorem requests_eq (h : SameShape e e') (rows : Nat) :
    e.requests rows = e'.requests rows := by
  induction h with
  | number n m => rfl
  | reference c row => rfl
  | arith op op' _ _ ihleft ihright => rw [requests, requests, ihleft, ihright]
  | range hfirst hlast _ _ =>
    rw [requests, requests, rangeRows?_eq hfirst hlast]
  | call function function' _ ih => exact ih

/-- **Trees of the same shape have the same log**, if the rows they look up
have. -/
theorem log_evalWith_eq (h : SameShape e e') {rows : Nat}
    {lookup lookup' : Nat → Logged Value}
    (hlookup : ∀ s, (lookup s).log = (lookup' s).log) :
    (e.evalWith rows lookup).log = (e'.evalWith rows lookup').log := by
  rw [log_evalWith, log_evalWith, h.requests_eq, funext hlookup]

end SameShape

end Expression

namespace Column

/-- **Two columns of the same shape**: they have the same number of rows, the
same rows are filled, and these hold trees of the same shape. -/
structure SameShape (column other : Column) : Prop where
  /-- There are as many rows. -/
  length : column.length = other.length
  /-- A row is empty in both, or holds trees of the same shape. -/
  rows : ∀ row, Option.Rel Expression.SameShape (column.formula? row)
    (other.formula? row)

variable {column other : Column}

/-- A filled row is filled with a tree of the same shape. -/
theorem SameShape.exists_of_some (h : column.SameShape other) {row : Nat}
    {e : Expression} (he : column.formula? row = some e) :
    ∃ e', other.formula? row = some e' ∧ e.SameShape e' := by
  have hrow := h.rows row
  rw [he] at hrow
  cases hrow' : other.formula? row with
  | none => rw [hrow'] at hrow; cases hrow
  | some e' =>
    rw [hrow'] at hrow
    cases hrow with
    | some hshape => exact ⟨e', rfl, hshape⟩

theorem SameShape.formula?_of_none (h : column.SameShape other) {row : Nat}
    (hnone : column.formula? row = none) : other.formula? row = none := by
  have hrow := h.rows row
  rw [hnone] at hrow
  cases hrow' : other.formula? row with
  | none => rfl
  | some e' => rw [hrow'] at hrow; cases hrow

/-- **A row has the same log** in columns of the same shape, whatever rows are
being evaluated. The induction is on the evaluation of the row. -/
theorem SameShape.log_follow_eq (h : column.SameShape other)
    (chain : List Nat) (row : Nat) :
    (column.follow chain row).log = (other.follow chain row).log := by
  induction chain, row using follow.induct column with
  | case1 chain row hmem => rw [follow_of_mem hmem, follow_of_mem hmem]
  | case2 chain row hmem e he ih =>
    obtain ⟨e', he', hshape⟩ := h.exists_of_some he
    rw [follow_of_some hmem he, follow_of_some hmem he', h.length]
    exact hshape.log_evalWith_eq ih
  | case3 chain row hmem hnone =>
    rw [follow_of_none hmem hnone,
      follow_of_none hmem (h.formula?_of_none hnone)]

/-- A row that is asked for has the same log in columns of the same shape. -/
theorem SameShape.log_valueAt_eq (h : column.SameShape other) (row : Nat) :
    (column.valueAt row).log = (other.valueAt row).log := by
  cases he : column.formula? row with
  | some e =>
    obtain ⟨e', he', -⟩ := h.exists_of_some he
    rw [valueAt_of_some he, valueAt_of_some he', h.log_follow_eq]
  | none =>
    rw [(not_cyclic_of_none he).1,
      (not_cyclic_of_none (h.formula?_of_none he)).1]

/-- **Nothing is short-circuited.** In two columns of the same shape, two
expressions of the same shape leave the same records, in the same order, and so
does each row that is asked for. What the literals are, which operators and
functions are applied to what they come to, and where one of these fails, has
no part in it. -/
theorem log_eq_of_sameShape (h : column.SameShape other) {e e' : Expression}
    (he : e.SameShape e') :
    (column.eval e).log = (other.eval e').log
      ∧ ∀ row, (column.valueAt row).log = (other.valueAt row).log := by
  refine ⟨?_, h.log_valueAt_eq⟩
  rw [eval, eval, h.length]
  exact he.log_evalWith_eq (h.log_follow_eq [])

/-- In the one column the first row is `A1+SUM(A0:A2)` and the second is a
division by zero. In the other the operator and the function are others, the
function does not exist, and the second row is `5*7`. The right operand and
all rows of the range are looked up in both. -/
theorem log_eq_of_sameShape_failing :
    let column : Column :=
      [some (.arith .add (.reference 'A' 1)
        (.call "SUM" (.range (.reference 'A' 0) (.reference 'A' 2)))),
       some (.arith .div (.number 1) (.number 0)), none]
    let other : Column :=
      [some (.arith .sub (.reference 'A' 1)
        (.call "MAX" (.range (.reference 'A' 0) (.reference 'A' 2)))),
       some (.arith .mul (.number 5) (.number 7)), none]
    column.SameShape other
      ∧ (column.eval (.arith .mul (.reference 'A' 1) (.reference 'A' 0))).log
        = (other.eval (.arith .div (.reference 'A' 1) (.reference 'A' 0))).log
      ∧ (column.eval (.arith .mul (.reference 'A' 1) (.reference 'A' 0))).log
        = [.cycle 0 [0], .noFormula 2]
      ∧ (column.valueAt 0).log = (other.valueAt 0).log := by
  intro column other
  have hrange : (Expression.range (.reference 'A' 0) (.reference 'A' 2)).SameShape
      (.range (.reference 'A' 0) (.reference 'A' 2)) :=
    .range (.reference _ _) (.reference _ _)
  have hshape : column.SameShape other := by
    refine ⟨rfl, fun row => ?_⟩
    match row with
    | 0 => exact .some (.arith _ _ (.reference _ _) (.call _ _ hrange))
    | 1 => exact .some (.arith _ _ (.number _ _) (.number _ _))
    | 2 => exact .none
    | _ + 3 => exact .none
  obtain ⟨heval, hrows⟩ := log_eq_of_sameShape hshape
    (.arith .mul .div (.reference 'A' 1) (.reference 'A' 0))
  exact ⟨hshape, heval, by cbv, hrows 0⟩

end Column

end FormulaColumn
