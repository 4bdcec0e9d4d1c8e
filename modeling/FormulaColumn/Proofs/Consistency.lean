import FormulaColumn.Proofs.Lookups
import FormulaColumn.Proofs.Placement

/-!
# The values shown agree with each other

The value shown in a row is computed by evaluating every row it refers to
anew, and a row that is met again is a cyclic reference. So within the
evaluation of one row, another row is evaluated with more rows on the chain
than it is for itself, and on a cycle it may well come to something else.
What is shown is consistent all the same: each value is the value of the
row's expression with the references read off the values shown
(`Column.Consistent`).

The proof reads a cyclic reference as *not known*: a value **approximates**
another if it is a cyclic reference or the same. In the tree of a text the
leftmost operand without an integer decides, so evaluating such a tree is
monotone in the rows it looks up, and a longer chain makes every row less
known. That gives one half: a row that is not a cyclic reference is what the
values shown make of it. For the other half, a row that is a cyclic reference
by itself is one under every chain. It may then be left out of every chain,
for wherever the guard would find it, its evaluation would find a cycle too.
-/

namespace FormulaColumn

namespace Value

/-- **A value is known as far as another**: it is the other one, or a cyclic
reference. -/
def Approximates (v w : Value) : Prop :=
  v = .error .cyclicReference ∨ v = w

theorem Approximates.refl (v : Value) : v.Approximates v := Or.inr rfl

theorem approximates_cyclic (w : Value) :
    (error .cyclicReference).Approximates w := Or.inl rfl

theorem Approximates.antisymm {v w : Value} (h : v.Approximates w)
    (h' : w.Approximates v) : v = w := by
  rcases h with rfl | rfl
  · exact h'.elim Eq.symm Eq.symm
  · rfl

/-- **An operation is monotone**: the leftmost error decides, so an unknown
operand makes the result unknown unless an error stands before it. -/
theorem Approximates.arith {op : ArithOp} {v v' w w' : Value}
    (hleft : v.Approximates v') (hright : w.Approximates w') :
    (Value.arith op v w).Approximates (Value.arith op v' w') := by
  rcases hleft with rfl | rfl
  · exact approximates_cyclic _
  · rcases hright with rfl | rfl
    · cases v with
      | int n => exact approximates_cyclic _
      | list items => exact approximates_cyclic _
      | error cause => exact .refl _
    · exact .refl _

/-- **A function on a range is monotone**: it stops at the first value that
is unknown, unless it has stopped before. -/
theorem Approximates.fold {function : Aggregate} {lookup lookup' : Nat → Value}
    (h : ∀ s, (lookup s).Approximates (lookup' s)) (rows : List Nat)
    (start : Int64) :
    (ofExcept (function.fold start (rows.map lookup))).Approximates
      (ofExcept (function.fold start (rows.map lookup'))) := by
  induction rows generalizing start with
  | nil => exact .refl _
  | cons row rows ih =>
    rw [List.map_cons, List.map_cons, Aggregate.fold_cons, Aggregate.fold_cons]
    rcases h row with hrow | hrow
    · rw [hrow]
      exact approximates_cyclic _
    · rw [hrow]
      cases Aggregate.operand (lookup' row) with
      | error cause => exact .refl _
      | ok n =>
        show (ofExcept (function.combine start n >>= _)).Approximates
          (ofExcept (function.combine start n >>= _))
        cases function.combine start n with
        | error cause => exact .refl _
        | ok current => exact ih current

/-- A function applied to a range is monotone, whatever its name. -/
theorem Approximates.call {function : String} {lookup lookup' : Nat → Value}
    (h : ∀ s, (lookup s).Approximates (lookup' s)) (rows : List Nat) :
    (Value.call function (.list (rows.map lookup))).Approximates
      (Value.call function (.list (rows.map lookup'))) := by
  unfold Value.call
  dsimp only
  cases Aggregate.ofName? function with
  | none => exact .refl _
  | some aggregate => exact .fold h rows _

end Value

namespace Expression

/-- **The value of an expression is monotone** in the rows it looks up, if
ranges stand only where functions take them. -/
theorem valueWith_approximates {rows : Nat} {lookup lookup' : Nat → Value}
    (h : ∀ s, (lookup s).Approximates (lookup' s)) {e : Expression}
    (he : e.RangesPlaced) :
    (e.valueWith rows lookup).Approximates (e.valueWith rows lookup') := by
  induction e with
  | number value => exact .refl _
  | reference column row =>
    by_cases hcolumn : column = Column.letter
    · subst hcolumn
      rw [valueWith_reference, valueWith_reference]
      exact h row.toNat
    · rw [valueWith_otherColumn hcolumn, valueWith_otherColumn hcolumn]
      exact .refl _
  | arith op left right ihleft ihright =>
    exact .arith (ihleft he.1) (ihright he.2)
  | range first last _ _ => exact absurd he not_false
  | call function argument _ =>
    obtain ⟨c, first, d, last, rfl⟩ := isReferenceRange_iff.mp he
    show (Value.call function ((range _ _).valueWith rows lookup)).Approximates
      (Value.call function ((range _ _).valueWith rows lookup'))
    rcases valueWith_range_cases rows (reference c first) (reference d last)
      with ⟨cause, -, hvalue⟩ | ⟨lo, hi, -, -, hvalue⟩
    · rw [hvalue, hvalue]
      exact .refl _
    · rw [hvalue, hvalue]
      exact .call h _

end Expression

namespace Column

variable {column : Column}

/-! ## Longer chains -/

/-- **A longer chain makes every row less known**: where a row on it is met,
what would have been evaluated is a cyclic reference. -/
theorem rowValue_approximates (hplaced : column.RangesPlaced)
    {chain chain' : List Nat} (hsub : chain ⊆ chain') (row : Nat) :
    (column.rowValue chain' row).Approximates
      (column.rowValue chain row) := by
  induction chain', row using follow.induct column generalizing chain with
  | case1 chain' row hmem =>
    rw [rowValue_of_mem hmem]
    exact Value.approximates_cyclic _
  | case2 chain' row hmem e he ih =>
    rw [rowValue_of_some hmem he,
      rowValue_of_some (fun h => hmem (hsub h)) he]
    refine Expression.valueWith_approximates (fun next => ih next ?_)
      (hplaced row e he)
    exact List.cons_subset_cons row hsub
  | case3 chain' row hmem hnone =>
    rw [rowValue_of_none hmem hnone,
      rowValue_of_none (fun h => hmem (hsub h)) hnone]
    exact .refl _

/-- The value of a row depends on which rows are being evaluated, and not on
their order. -/
theorem rowValue_congr_chain (hplaced : column.RangesPlaced)
    {chain chain' : List Nat} (hsub : chain ⊆ chain') (hsub' : chain' ⊆ chain)
    (row : Nat) : column.rowValue chain row = column.rowValue chain' row :=
  (rowValue_approximates hplaced hsub' row).antisymm
    (rowValue_approximates hplaced hsub row)

theorem rowValue_eq_cyclic (hplaced : column.RangesPlaced) {row : Nat}
    (h : column.rowValue [] row = .error .cyclicReference)
    (chain : List Nat) :
    column.rowValue chain row = .error .cyclicReference := by
  rcases rowValue_approximates hplaced (List.nil_subset chain) row with h' | h'
  · exact h'
  · exact h'.trans h

/-- **A row that is a cyclic reference by itself may be left out** of every
chain: where it would be found there, it comes to the same. -/
theorem rowValue_cons_of_cyclic (hplaced : column.RangesPlaced) {row : Nat}
    (hcyclic : column.rowValue [] row = .error .cyclicReference)
    (chain : List Nat) (other : Nat) :
    column.rowValue (row :: chain) other = column.rowValue chain other := by
  induction chain, other using follow.induct column with
  | case1 chain other hmem =>
    rw [rowValue_of_mem hmem, rowValue_of_mem (List.mem_cons_of_mem _ hmem)]
  | case2 chain other hmem e he ih =>
    by_cases hother : other = row
    · -- found on the one chain, evaluated on the other: a cycle either way
      subst hother
      rw [rowValue_of_mem List.mem_cons_self, rowValue_eq_cyclic hplaced hcyclic]
    · have hmem' : other ∉ row :: chain := by
        rw [List.mem_cons, not_or]
        exact ⟨hother, hmem⟩
      rw [rowValue_of_some hmem he, rowValue_of_some hmem' he]
      refine congrArg (e.valueWith column.length) (funext fun next => ?_)
      -- the two rows stand on the chain in the other order
      rw [← ih next]
      exact rowValue_congr_chain hplaced
        (List.Perm.swap row other chain).subset
        (List.Perm.swap other row chain).subset next
  | case3 chain other hmem hnone =>
    -- a row that is not filled is no cyclic reference
    have hother : other ≠ row := by
      rintro rfl
      rw [rowValue_of_none List.not_mem_nil hnone] at hcyclic
      cases hcyclic
    have hmem' : other ∉ row :: chain := by
      rw [List.mem_cons, not_or]
      exact ⟨hother, hmem⟩
    rw [rowValue_of_none hmem hnone, rowValue_of_none hmem' hnone]

/-- **A filled row is what its expression comes to** where each row has its
own value. -/
theorem rowValue_eq_valueWith (hplaced : column.RangesPlaced) {row : Nat}
    {e : Expression} (h : column.formula? row = some e) :
    column.rowValue [] row
      = e.valueWith column.length (column.rowValue []) := by
  have happrox : (column.rowValue [] row).Approximates
      (e.valueWith column.length (column.rowValue [])) := by
    rw [rowValue_of_some List.not_mem_nil h]
    exact Expression.valueWith_approximates
      (rowValue_approximates hplaced (List.nil_subset _)) (hplaced row e h)
  rcases happrox with hcyclic | hknown
  · refine (rowValue_of_some List.not_mem_nil h).trans ?_
    refine congrArg (e.valueWith column.length) (funext fun next => ?_)
    exact rowValue_cons_of_cyclic hplaced hcyclic [] next
  · exact hknown

/-! ## The values shown -/

/-- **A row as it is read off a list of values**: the value in its place if
the row holds a formula, and an invalid reference otherwise. -/
def readOff (column : Column) (values : List Value) (row : Nat) : Value :=
  if column.isFilled row then
    values[row]?.getD (.error .invalidReference)
  else
    .error .invalidReference

/-- **Values that agree with each other**: the value of each filled row is
what its expression comes to with the rows it refers to read off the
values. -/
def Consistent (column : Column) (values : List Value) : Prop :=
  ∀ row e, column.formula? row = some e →
    values[row]? = some (e.valueWith column.length (column.readOff values))

/-- Reading a row off the values shown gives the row's value. -/
theorem readOff_values (row : Nat) :
    column.readOff column.values.value row = column.rowValue [] row := by
  unfold readOff isFilled
  cases h : column.formula? row with
  | none =>
    rw [rowValue_of_none List.not_mem_nil h]
    rfl
  | some e =>
    rw [getElem?_value_values h]
    rfl

/-- **The values shown in a column are consistent**, if ranges stand only
where functions take them. -/
theorem consistent_values (hplaced : column.RangesPlaced) :
    column.Consistent column.values.value := by
  intro row e h
  rw [getElem?_value_values h, rowValue_eq_valueWith hplaced h]
  refine congrArg (fun lookup => some (e.valueWith column.length lookup)) ?_
  exact funext fun next => (readOff_values next).symm

/-- **In a column without cycles there is one consistent list of values**, on
the filled rows. -/
theorem Consistent.unique (hacyclic : column.Acyclic) {values values' : List Value}
    (h : column.Consistent values) (h' : column.Consistent values') {row : Nat}
    (hfilled : column.isFilled row = true) : values[row]? = values'[row]? := by
  revert hfilled
  refine hacyclic.induction (motive := fun row => column.isFilled row = true →
    values[row]? = values'[row]?) (fun row ih hfilled => ?_) row
  obtain ⟨e, he⟩ := Option.isSome_iff_exists.mp hfilled
  rw [h row e he, h' row e he]
  refine congrArg some (Expression.valueWith_congr fun next hnext => ?_)
  unfold readOff
  by_cases hnextFilled : column.isFilled next = true
  · rw [if_pos hnextFilled, if_pos hnextFilled, ih next ⟨e, he, hnext⟩ hnextFilled]
  · rw [if_neg hnextFilled, if_neg hnextFilled]

/-- **The values shown for texts agree with each other**, cycles included.
The rows of the column hold what their texts are read as; the value shown in
each such row is what its expression comes to with every reference read off
the values shown; and where no row reaches itself, no other values are
consistent. -/
theorem valuesOfTexts_consistent (texts : List String) :
    (∀ row e, (ofTexts texts).value.formula? row = some e
        ↔ ∃ source, texts[row]? = some source
          ∧ (readFormula source).value = .ok e)
      ∧ (ofTexts texts).value.Consistent (valuesOfTexts texts).value
      ∧ ((ofTexts texts).value.Acyclic →
        ∀ values, (ofTexts texts).value.Consistent values →
          ∀ row, (ofTexts texts).value.isFilled row = true →
            values[row]? = (valuesOfTexts texts).value[row]?) := by
  have hconsistent := consistent_values (rangesPlaced_ofTexts texts)
  refine ⟨fun row e => formula?_ofTexts_eq_some_iff, hconsistent, ?_⟩
  intro hacyclic values hvalues row hfilled
  exact hvalues.unique hacyclic hconsistent hfilled

end Column

end FormulaColumn
