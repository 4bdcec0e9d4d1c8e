import FormulaColumn.Evaluation

/-!
# What rows come to

The evaluator computes a value and keeps a log. What the value is does not
depend on the log, so it has a description of its own: the value of an
expression where row `s` has the value `lookup s`
(`Expression.valueWith`), and the value of a row that is referred to while
the rows of a chain are being evaluated (`Column.rowValue`).

The second is given by three equations, one for each way to follow a
reference, and the value of an expression with rows looked up in one state is
the first with the rows' values in that state. Statements about values are
proved from these equations.
-/

namespace FormulaColumn

namespace Expression

/-- **The value of an expression** in a column of `rows` rows, where the row
`s` has the value `lookup s`. -/
def valueWith (rows : Nat) (lookup : Nat → Value) : Expression → Value
  | number value => .int value
  | reference column row =>
    if column = Column.letter then
      lookup row.toNat
    else
      .error .couldNotEvaluate
  | arith op left right =>
    .arith op (left.valueWith rows lookup) (right.valueWith rows lookup)
  | range first last =>
    match rangeRows? first last with
    | none => .error .invalidRange
    | some (lo, hi) =>
      if hi < rows then
        .list ((List.range' lo (hi + 1 - lo)).map lookup)
      else
        .error .invalidReference
  | call function argument =>
    .call function (argument.valueWith rows lookup)

section Equations

variable {rows : Nat} {lookup : Nat → Value}

theorem valueWith_reference (row : UInt64) :
    (reference Column.letter row).valueWith rows lookup = lookup row.toNat :=
  if_pos rfl

theorem valueWith_otherColumn {c : Char} (h : c ≠ Column.letter)
    (row : UInt64) :
    (reference c row).valueWith rows lookup = .error .couldNotEvaluate :=
  if_neg h

theorem valueWith_range_of_none {first last : Expression}
    (h : rangeRows? first last = none) :
    (range first last).valueWith rows lookup = .error .invalidRange := by
  rw [valueWith, h]

/-- **A range that ends before the column does** has the values of its
rows. -/
theorem valueWith_range_of_lt {first last : Expression} {lo hi : Nat}
    (h : rangeRows? first last = some (lo, hi)) (hhi : hi < rows) :
    (range first last).valueWith rows lookup
      = .list ((List.range' lo (hi + 1 - lo)).map lookup) := by
  rw [valueWith, h]
  exact if_pos hhi

theorem valueWith_range_of_not_lt {first last : Expression} {lo hi : Nat}
    (h : rangeRows? first last = some (lo, hi)) (hhi : ¬ hi < rows) :
    (range first last).valueWith rows lookup = .error .invalidReference := by
  rw [valueWith, h]
  exact if_neg hhi

/-- **What a range comes to** is an error or the list of the values of its
rows, and which of the two it is does not depend on these. -/
theorem valueWith_range_cases (rows : Nat) (first last : Expression) :
    (∃ cause, (cause = .invalidRange ∨ cause = .invalidReference)
      ∧ ∀ lookup, (range first last).valueWith rows lookup = .error cause)
      ∨ ∃ lo hi, rangeRows? first last = some (lo, hi) ∧ hi < rows
        ∧ ∀ lookup, (range first last).valueWith rows lookup
          = .list ((List.range' lo (hi + 1 - lo)).map lookup) := by
  cases hrows : rangeRows? first last with
  | none =>
    exact Or.inl ⟨_, Or.inl rfl, fun _ => valueWith_range_of_none hrows⟩
  | some ends =>
    by_cases hhi : ends.2 < rows
    · exact Or.inr ⟨_, _, rfl, hhi, fun _ => valueWith_range_of_lt hrows hhi⟩
    · exact Or.inl
        ⟨_, Or.inr rfl, fun _ => valueWith_range_of_not_lt hrows hhi⟩

end Equations

/-- **The evaluator computes the value** of an expression, whatever it
records on the way. -/
theorem value_evalWith (rows : Nat) (lookup : Nat → Logged Value)
    (e : Expression) :
    (e.evalWith rows lookup).value
      = e.valueWith rows (fun row => (lookup row).value) := by
  induction e with
  | number value => rfl
  | reference column row =>
    unfold evalWith valueWith
    split <;> rfl
  | arith op left right ihleft ihright =>
    rw [valueWith, ← ihleft, ← ihright]
    rfl
  | range first last _ _ =>
    unfold evalWith valueWith
    cases rangeRows? first last with
    | none => rfl
    | some ends =>
      dsimp only
      by_cases h : ends.2 < rows
      · rw [if_pos h, if_pos h, Logged.value_bind, Logged.value_pure,
          Logged.value_mapM]
      · rw [if_neg h, if_neg h]
        rfl
  | call function argument ih =>
    rw [valueWith, ← ih]
    rfl

end Expression

namespace Column

/-- **The value of a row that is referred to** while the rows of `chain` are
being evaluated. -/
def rowValue (column : Column) (chain : List Nat) (row : Nat) : Value :=
  (column.follow chain row).value

theorem rowValue_of_mem {column : Column} {chain : List Nat} {row : Nat}
    (h : row ∈ chain) :
    column.rowValue chain row = .error .cyclicReference := by
  rw [rowValue, follow_of_mem h]

theorem rowValue_of_none {column : Column} {chain : List Nat} {row : Nat}
    (hchain : row ∉ chain) (h : column.formula? row = none) :
    column.rowValue chain row = .error .invalidReference := by
  rw [rowValue, follow_of_none hchain h]

/-- **A row with a formula has the value of its expression**, with the row
on the chain. -/
theorem rowValue_of_some {column : Column} {chain : List Nat} {row : Nat}
    {e : Expression} (hchain : row ∉ chain)
    (h : column.formula? row = some e) :
    column.rowValue chain row
      = e.valueWith column.length (column.rowValue (row :: chain)) := by
  rw [rowValue, follow_of_some hchain h, Expression.value_evalWith]
  rfl

theorem value_eval (column : Column) (e : Expression) :
    (column.eval e).value
      = e.valueWith column.length (column.rowValue []) :=
  Expression.value_evalWith _ _ e

/-- **The value shown in a filled row** is what a reference to the row comes
to where nothing is being evaluated. -/
theorem value_valueAt {column : Column} {row : Nat} {e : Expression}
    (h : column.formula? row = some e) :
    (column.valueAt row).value = column.rowValue [] row := by
  have hcell : column[row]? = some (some e) := Option.join_eq_some_iff.mp h
  rw [rowValue_of_some List.not_mem_nil h, valueAt, hcell]
  exact Expression.value_evalWith _ _ e

/-- **A row without a formula** is shown as an error of its own, and nothing
is recorded about it. -/
theorem valueAt_of_none {column : Column} {row : Nat}
    (h : column.formula? row = none) :
    column.valueAt row = pure (.error .couldNotEvaluate)
      ∨ column.valueAt row = pure (.error .invalidReference) := by
  unfold valueAt
  split
  next e he =>
    rw [formula?, he] at h
    cases h
  next => exact Or.inl rfl
  next => exact Or.inr rfl

theorem value_values (column : Column) :
    column.values.value
      = (List.range column.length).map fun row => (column.valueAt row).value :=
  Logged.value_mapM _ _

/-- **The value shown in a filled row**, read off the values shown. -/
theorem getElem?_value_values {column : Column} {row : Nat} {e : Expression}
    (h : column.formula? row = some e) :
    column.values.value[row]? = some (column.rowValue [] row) := by
  rw [value_values, List.getElem?_map,
    List.getElem?_range (lt_length_of_formula? h), ← value_valueAt h]
  rfl

end Column

end FormulaColumn
