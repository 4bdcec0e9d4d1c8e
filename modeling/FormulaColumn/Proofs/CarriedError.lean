import FormulaColumn.Aggregate

/-!
# Errors that a value carries

A value carries an error if it is the error, or a list with an item that
carries it. An operation or a function without an error in its result had
none in what it was applied to, so an error is never lost on the way up; and
the results of operations and functions bring up no error of their own
except those of arithmetic, of operands that are no integers and of functions
that do not exist. Both are statements about one operation, and they hold of
whole expressions by induction.
-/

namespace FormulaColumn

namespace Value

/-- **A value carries an error**: it is the error, or a list of which an
item carries it. -/
inductive Carries (cause : CellError) : Value → Prop where
  /-- An error carries itself. -/
  | error : Carries cause (.error cause)
  /-- A list carries the errors of its items. -/
  | item {items : List Value} {item : Value} :
    item ∈ items → Carries cause item → Carries cause (.list items)

/-- **A value has an error**, at some depth. -/
def HasError (v : Value) : Prop := ∃ cause, v.Carries cause

theorem not_hasError_int (n : Int64) : ¬ (int n).HasError := by
  rintro ⟨cause, h⟩
  cases h

theorem hasError_error (cause : CellError) : (error cause).HasError :=
  ⟨cause, .error⟩

/-- A list has an error exactly if one of its items has. -/
theorem hasError_list_iff {items : List Value} :
    (list items).HasError ↔ ∃ item ∈ items, item.HasError := by
  constructor
  · rintro ⟨cause, h⟩
    cases h with
    | item hmem hitem => exact ⟨_, hmem, cause, hitem⟩
  · rintro ⟨item, hmem, cause, hitem⟩
    exact ⟨cause, .item hmem hitem⟩

/-- The result of a computation with integers is an integer, or carries the
error that it failed with and no other. -/
theorem carries_ofExcept_iff {result : Except CellError Int64}
    {cause : CellError} :
    (ofExcept result).Carries cause ↔ result = .error cause := by
  cases result with
  | ok n => exact iff_of_false (fun h => by cases h) (fun h => by cases h)
  | error other =>
    constructor
    · intro h
      cases h
      rfl
    · rintro ⟨⟩
      exact .error

/-! ## Operations -/

/-- **The operands of an operation without an error** are integers. -/
theorem exists_of_not_hasError_arith {op : ArithOp} {v w : Value}
    (h : ¬ (Value.arith op v w).HasError) :
    (∃ n, v = int n) ∧ ∃ m, w = int m := by
  cases v with
  | error cause => exact absurd (hasError_error cause) h
  | list items =>
    cases w with
    | error cause => exact absurd (hasError_error cause) h
    | int m => exact absurd (hasError_error .invalidOperands) h
    | list items' => exact absurd (hasError_error .invalidOperands) h
  | int n =>
    cases w with
    | error cause => exact absurd (hasError_error cause) h
    | list items => exact absurd (hasError_error .invalidOperands) h
    | int m => exact ⟨⟨n, rfl⟩, m, rfl⟩

/-- An integer fails to be narrowed by an overflow only. -/
theorem eq_overflow_of_checked {n : Int} {cause : CellError}
    (h : checked n = .error cause) : cause = .overflow := by
  unfold checked at h
  cases hn : int64? n with
  | some x => rw [hn] at h; cases h
  | none => rw [hn] at h; cases h; rfl

/-- **What arithmetic fails with** is a division by zero or an overflow. -/
theorem eq_of_apply_eq_error {op : ArithOp} {n m : Int64} {cause : CellError}
    (h : op.apply n m = .error cause) :
    cause = .divisionByZero ∨ cause = .overflow := by
  unfold ArithOp.apply at h
  cases hexact : op.exact n.toInt m.toInt with
  | ok exact =>
    rw [hexact] at h
    exact Or.inr (eq_overflow_of_checked h)
  | error other =>
    rw [hexact] at h
    cases h
    cases op with
    | div =>
      replace hexact : (if m.toInt = 0 then Except.error CellError.divisionByZero
        else Except.ok (n.toInt.tdiv m.toInt)) = .error cause := hexact
      split at hexact
      · cases hexact
        exact Or.inl rfl
      · cases hexact
    | add => cases hexact
    | sub => cases hexact
    | mul => cases hexact

/-- **A cyclic reference in the result of an operation** was in an
operand. -/
theorem carries_cyclic_of_arith {op : ArithOp} {v w : Value}
    (h : (Value.arith op v w).Carries .cyclicReference) :
    v.Carries .cyclicReference ∨ w.Carries .cyclicReference := by
  cases v with
  | error cause =>
    exact Or.inl h
  | list items =>
    cases w with
    | error cause => exact Or.inr h
    | int m => cases h
    | list items' => cases h
  | int n =>
    cases w with
    | error cause => exact Or.inr h
    | list items => cases h
    | int m =>
      -- arithmetic on integers brings up errors of its own, but not this one
      rcases eq_of_apply_eq_error (carries_ofExcept_iff.mp h) with h' | h'
      · cases h'
      · cases h'

/-! ## Functions -/

/-- **The values a function takes** without failing are integers. -/
theorem exists_of_fold_eq_ok {function : Aggregate} {start total : Int64}
    {items : List Value} (h : function.fold start items = .ok total) :
    ∀ item ∈ items, ∃ n, item = int n := by
  induction items generalizing start with
  | nil => exact List.forall_mem_nil _
  | cons item items ih =>
    rw [Aggregate.fold_cons] at h
    cases item with
    | int n =>
      cases hcombine : function.combine start n with
      | ok current =>
        rw [show Aggregate.operand (int n) = .ok n from rfl] at h
        replace h : function.combine start n >>= _ = _ := h
        rw [hcombine] at h
        exact List.forall_mem_cons.mpr ⟨⟨n, rfl⟩, ih h⟩
      | error cause =>
        replace h : function.combine start n >>= _ = _ := h
        rw [hcombine] at h
        cases h
    | list items' => cases h
    | error cause => cases h

/-- A function takes one more integer, or fails by an overflow. -/
theorem eq_overflow_of_combine {function : Aggregate} {start n : Int64}
    {cause : CellError} (h : function.combine start n = .error cause) :
    cause = .overflow := by
  cases function with
  | sum => exact eq_overflow_of_checked h
  | min => cases h

/-- **What a function fails with**: an error among the values, a value that
is a list, or an overflow. -/
theorem of_fold_eq_error {function : Aggregate} {start : Int64}
    {items : List Value} {cause : CellError}
    (h : function.fold start items = .error cause) :
    error cause ∈ items
      ∨ (cause = .invalidOperands ∧ ∃ items', list items' ∈ items)
      ∨ cause = .overflow := by
  induction items generalizing start with
  | nil => cases h
  | cons item items ih =>
    rw [Aggregate.fold_cons] at h
    cases item with
    | int n =>
      replace h : function.combine start n >>= _ = _ := h
      cases hcombine : function.combine start n with
      | ok current =>
        rw [hcombine] at h
        rcases ih h with hmem | ⟨hcause, items', hmem⟩ | hcause
        · exact Or.inl (List.mem_cons_of_mem _ hmem)
        · exact Or.inr (Or.inl ⟨hcause, items', List.mem_cons_of_mem _ hmem⟩)
        · exact Or.inr (Or.inr hcause)
      | error other =>
        rw [hcombine] at h
        cases h
        exact Or.inr (Or.inr (eq_overflow_of_combine hcombine))
    | list items' =>
      cases h
      exact Or.inr (Or.inl ⟨rfl, items', List.mem_cons_self⟩)
    | error other =>
      cases h
      exact Or.inl List.mem_cons_self

/-- **The argument of a call without an error** has none. -/
theorem not_hasError_of_call {function : String} {v : Value}
    (h : ¬ (Value.call function v).HasError) : ¬ v.HasError := by
  cases v with
  | int n => exact not_hasError_int n
  | error cause => exact absurd (hasError_error cause) h
  | list items =>
    unfold Value.call at h
    cases hname : Aggregate.ofName? function with
    | none =>
      rw [hname] at h
      exact absurd (hasError_error _) h
    | some aggregate =>
      rw [hname] at h
      -- a function that does not fail has taken all the items
      rw [hasError_list_iff]
      rintro ⟨item, hmem, hitem⟩
      cases hfold : aggregate.fold aggregate.seed items with
      | ok total =>
        obtain ⟨n, rfl⟩ := exists_of_fold_eq_ok hfold item hmem
        exact not_hasError_int n hitem
      | error cause =>
        exact h ⟨cause, carries_ofExcept_iff.mpr hfold⟩

/-- **A cyclic reference in the result of a call** was in the argument. -/
theorem carries_cyclic_of_call {function : String} {v : Value}
    (h : (Value.call function v).Carries .cyclicReference) :
    v.Carries .cyclicReference := by
  cases v with
  | int n => cases h
  | error cause => exact h
  | list items =>
    unfold Value.call at h
    cases hname : Aggregate.ofName? function with
    | none =>
      rw [hname] at h
      cases h
    | some aggregate =>
      rw [hname] at h
      rcases of_fold_eq_error (carries_ofExcept_iff.mp h)
        with hmem | ⟨h', -⟩ | h'
      · exact .item hmem .error
      · cases h'
      · cases h'

end Value

end FormulaColumn
