import FormulaColumn.Proofs.CarriedError
import FormulaColumn.Proofs.Lookups

/-!
# Evaluation without a guard

The evaluator keeps the chain of the rows it is evaluating, and a row that it
meets again is a cyclic reference. What an expression comes to can also be
said without a chain: a reference to a filled row comes to whatever the row's
expression comes to, by a finite derivation (`Column.ComesTo`). Such a
derivation need not exist, since rows may refer to each other in a circle.

The guard is **transparent**: where there is a derivation, the evaluator
gives its value, and where there is none, the value it gives has an error
(`Column.eval_transparent`).

For the first half, a finite derivation never meets a row twice on the way
down, for a row that reaches itself has no finite derivation; so no reference
it follows is into a row that is being evaluated. The second half goes the
other way: an operation or a function whose result has no error was applied
to values without one, so an evaluation whose value has no error met no row
twice, and its steps are a derivation.
-/

namespace FormulaColumn

namespace Column

open Relation (ReflTransGen TransGen)

/-- **What an expression comes to**, by the rules of the evaluator with a
reference into a filled row always followed. -/
inductive ComesTo (column : Column) : Expression → Value → Prop where
  /-- A literal comes to its integer. -/
  | number (n : Int64) : ComesTo column (.number n) (.int n)
  /-- A reference to another column is not evaluated. -/
  | otherColumn {c : Char} {row : UInt64} :
    c ≠ letter → ComesTo column (.reference c row) (.error .couldNotEvaluate)
  /-- A reference to a filled row comes to what the row's expression does. -/
  | filled {row : UInt64} {e : Expression} {v : Value} :
    column.formula? row.toNat = some e → ComesTo column e v →
    ComesTo column (.reference letter row) v
  /-- A reference to a row that is not filled is invalid. -/
  | unfilled {row : UInt64} :
    column.formula? row.toNat = none →
    ComesTo column (.reference letter row) (.error .invalidReference)
  /-- An operation is applied to what its operands come to. -/
  | arith {op : ArithOp} {left right : Expression} {v w : Value} :
    ComesTo column left v → ComesTo column right w →
    ComesTo column (.arith op left right) (.arith op v w)
  /-- Ends that are not references to the column in ascending order are no
  range. -/
  | invalidRange {first last : Expression} :
    Expression.rangeRows? first last = none →
    ComesTo column (.range first last) (.error .invalidRange)
  /-- A range that ends past the last row is an invalid reference. -/
  | pastEnd {first last : Expression} {lo hi : Nat} :
    Expression.rangeRows? first last = some (lo, hi) → column.length ≤ hi →
    ComesTo column (.range first last) (.error .invalidReference)
  /-- A range comes to what references to its rows come to. -/
  | range {first last : UInt64} {values : Nat → Value} :
    first ≤ last → last.toNat < column.length →
    (∀ row, first ≤ row → row ≤ last →
      ComesTo column (.reference letter row) (values row.toNat)) →
    ComesTo column (.range (.reference letter first) (.reference letter last))
      (.list ((List.range' first.toNat
        (last.toNat + 1 - first.toNat)).map values))
  /-- A function is applied to what its argument comes to. -/
  | call {function : String} {argument : Expression} {v : Value} :
    ComesTo column argument v →
    ComesTo column (.call function argument) (.call function v)

variable {column : Column}

/-! ## A derivation gives the value -/

/-- **What has a finite derivation looks up no row that reaches itself.**

The derivation of such a row would hold one of a row that it looks up on its
way to itself, and that row reaches itself too. -/
theorem ComesTo.not_cyclic {e : Expression} {v : Value}
    (h : column.ComesTo e v) :
    ∀ s, e.LooksUp column.length s → ¬ TransGen column.Asks s s := by
  induction h with
  | number n => exact fun s hs => absurd hs not_false
  | otherColumn hcolumn => exact fun s hs => absurd hs.1 hcolumn
  | filled hrow _ ih =>
    rintro s ⟨-, rfl⟩ hcycle
    obtain ⟨next, ⟨e', hrow', hlooks⟩, hback⟩ := TransGen.head'_iff.mp hcycle
    cases hrow.symm.trans hrow'
    -- the next row on the circle is looked up by the row's expression
    exact ih next hlooks (TransGen.tail' hback ⟨_, hrow, hlooks⟩)
  | unfilled hrow =>
    rintro s ⟨-, rfl⟩ hcycle
    obtain ⟨next, ⟨e', hrow', -⟩, -⟩ := TransGen.head'_iff.mp hcycle
    cases hrow.symm.trans hrow'
  | arith _ _ ihleft ihright =>
    intro s hs
    exact hs.elim (ihleft s) (ihright s)
  | invalidRange hrows =>
    rintro s ⟨lo, hi, hrows', -⟩
    cases hrows.symm.trans hrows'
  | pastEnd hrows hend =>
    rintro s ⟨lo, hi, hrows', hlt, -⟩
    cases hrows.symm.trans hrows'
    exact absurd hlt (Nat.not_lt.mpr hend)
  | range hle hlt _ ih =>
    rintro s ⟨lo, hi, hrows, -, hlo, hhi⟩
    cases (rangeRows?_reference hle).symm.trans hrows
    obtain ⟨row, rfl, hfirst, hlast⟩ := exists_row_of_between hlo hhi
    exact ih row hfirst hlast row.toNat ⟨rfl, rfl⟩
  | call _ ih => exact ih

/-- **What an expression comes to is its value** under every chain of rows
that it does not reach. -/
theorem ComesTo.valueWith_eq {e : Expression} {v : Value}
    (h : column.ComesTo e v) :
    ∀ chain : List Nat,
      (∀ x ∈ chain, ∀ s, e.LooksUp column.length s →
        ¬ ReflTransGen column.Asks s x) →
      e.valueWith column.length (column.rowValue chain) = v := by
  induction h with
  | number n => exact fun _ _ => rfl
  | otherColumn hcolumn =>
    exact fun _ _ => Expression.valueWith_otherColumn hcolumn _
  | @filled row e v hrow hcomes ih =>
    intro chain hchain
    have hmem : row.toNat ∉ chain := fun hmem =>
      hchain row.toNat hmem row.toNat ⟨rfl, rfl⟩ .refl
    rw [Expression.valueWith_reference, rowValue_of_some hmem hrow]
    refine ih _ (List.forall_mem_cons.mpr ⟨fun s hs hreach => ?_, ?_⟩)
    · -- the row would reach itself
      exact (ComesTo.filled hrow hcomes).not_cyclic row.toNat ⟨rfl, rfl⟩
        (TransGen.head' ⟨e, hrow, hs⟩ hreach)
    · intro x hx s hs hreach
      exact hchain x hx row.toNat ⟨rfl, rfl⟩ (.head ⟨e, hrow, hs⟩ hreach)
  | @unfilled row hrow =>
    intro chain hchain
    have hmem : row.toNat ∉ chain := fun hmem =>
      hchain row.toNat hmem row.toNat ⟨rfl, rfl⟩ .refl
    rw [Expression.valueWith_reference, rowValue_of_none hmem hrow]
  | arith _ _ ihleft ihright =>
    intro chain hchain
    rw [Expression.valueWith,
      ihleft chain fun x hx s hs => hchain x hx s (Or.inl hs),
      ihright chain fun x hx s hs => hchain x hx s (Or.inr hs)]
  | invalidRange hrows =>
    exact fun _ _ => Expression.valueWith_range_of_none hrows
  | pastEnd hrows hend =>
    exact fun _ _ =>
      Expression.valueWith_range_of_not_lt hrows (Nat.not_lt.mpr hend)
  | @range first last values hle hlt _ ih =>
    intro chain hchain
    rw [Expression.valueWith_range_of_lt (rangeRows?_reference hle) hlt]
    refine congrArg Value.list (List.map_congr_left fun s hs => ?_)
    obtain ⟨hlo, hhi⟩ := Expression.mem_range'_iff.mp hs
    obtain ⟨row, rfl, hfirst, hlast⟩ := exists_row_of_between hlo hhi
    refine (Expression.valueWith_reference row).symm.trans
      (ih row hfirst hlast chain ?_)
    rintro x hx s ⟨-, rfl⟩
    exact hchain x hx row.toNat
      ⟨_, _, rangeRows?_reference hle, hlt, hlo, hhi⟩
  | call _ ih =>
    intro chain hchain
    rw [Expression.valueWith, ih chain hchain]

/-- **What an expression comes to carries no cyclic reference**: no rule
brings one up. -/
theorem ComesTo.not_carries_cyclic {e : Expression} {v : Value}
    (h : column.ComesTo e v) : ¬ v.Carries .cyclicReference := by
  induction h with
  | number n => exact fun hv => by cases hv
  | otherColumn _ => exact fun hv => by cases hv
  | filled _ _ ih => exact ih
  | unfilled _ => exact fun hv => by cases hv
  | arith _ _ ihleft ihright =>
    exact fun hv => (Value.carries_cyclic_of_arith hv).elim ihleft ihright
  | invalidRange _ => exact fun hv => by cases hv
  | pastEnd _ _ => exact fun hv => by cases hv
  | range _ _ _ ih =>
    intro hv
    cases hv with
    | item hmem hitem =>
      obtain ⟨s, hs, rfl⟩ := List.mem_map.mp hmem
      obtain ⟨hlo, hhi⟩ := Expression.mem_range'_iff.mp hs
      obtain ⟨row, rfl, hfirst, hlast⟩ := exists_row_of_between hlo hhi
      exact ih row hfirst hlast hitem
  | call _ ih => exact fun hv => ih (Value.carries_cyclic_of_call hv)

/-! ## A value without an error has a derivation -/

/-- **A value without an error is derived**, if the rows are looked up in a
way that derives theirs. -/
theorem comesTo_valueWith {lookup : Nat → Value}
    (hlookup : ∀ s, ¬ (lookup s).HasError →
      ∃ e, column.formula? s = some e ∧ column.ComesTo e (lookup s))
    {e : Expression} (h : ¬ (e.valueWith column.length lookup).HasError) :
    column.ComesTo e (e.valueWith column.length lookup) := by
  induction e with
  | number n => exact .number n
  | reference c row =>
    by_cases hcolumn : c = letter
    · subst hcolumn
      rw [Expression.valueWith_reference] at h ⊢
      obtain ⟨e, hrow, hcomes⟩ := hlookup row.toNat h
      exact .filled hrow hcomes
    · rw [Expression.valueWith_otherColumn hcolumn]
      exact .otherColumn hcolumn
  | arith op left right ihleft ihright =>
    rw [Expression.valueWith] at h ⊢
    -- the operands came to integers, so neither has an error
    obtain ⟨⟨n, hleft⟩, m, hright⟩ := Value.exists_of_not_hasError_arith h
    refine .arith (ihleft ?_) (ihright ?_)
    · rw [hleft]
      exact Value.not_hasError_int n
    · rw [hright]
      exact Value.not_hasError_int m
  | range first last _ _ =>
    cases hrows : Expression.rangeRows? first last with
    | none =>
      rw [Expression.valueWith_range_of_none hrows]
      exact .invalidRange hrows
    | some ends =>
      obtain ⟨lo, hi⟩ := ends
      obtain ⟨from', to', rfl, rfl, hle, rfl, rfl⟩ := exists_of_rangeRows? hrows
      by_cases hlt : to'.toNat < column.length
      · rw [Expression.valueWith_range_of_lt hrows hlt] at h ⊢
        refine .range hle hlt fun row hfirst hlast => ?_
        have hmem : row.toNat
            ∈ List.range' from'.toNat (to'.toNat + 1 - from'.toNat) := by
          rw [Expression.mem_range'_iff]
          exact ⟨UInt64.le_iff_toNat_le.mp hfirst,
            UInt64.le_iff_toNat_le.mp hlast⟩
        -- an item of a list without errors has none
        have hitem : ¬ (lookup row.toNat).HasError := fun herror =>
          h (Value.hasError_list_iff.mpr
            ⟨_, List.mem_map_of_mem hmem, herror⟩)
        obtain ⟨e, hrow, hcomes⟩ := hlookup row.toNat hitem
        exact .filled hrow hcomes
      · rw [Expression.valueWith_range_of_not_lt hrows hlt]
        exact .pastEnd hrows (Nat.not_lt.mp hlt)
  | call function argument ih =>
    rw [Expression.valueWith] at h ⊢
    exact .call (ih (Value.not_hasError_of_call h))

/-- **A row whose value has no error is filled, and its expression comes to
that value**, whatever rows are being evaluated. The induction is on the
evaluation of the row. -/
theorem comesTo_rowValue {chain : List Nat} {row : Nat}
    (h : ¬ (column.rowValue chain row).HasError) :
    ∃ e, column.formula? row = some e
      ∧ column.ComesTo e (column.rowValue chain row) := by
  induction chain, row using follow.induct column with
  | case1 chain row hmem =>
    -- the guard gives an error, so it is not met
    rw [rowValue_of_mem hmem] at h
    exact absurd (Value.hasError_error _) h
  | case2 chain row hmem e he ih =>
    rw [rowValue_of_some hmem he] at h ⊢
    exact ⟨e, he, comesTo_valueWith (fun next => ih next) h⟩
  | case3 chain row hmem hnone =>
    rw [rowValue_of_none hmem hnone] at h
    exact absurd (Value.hasError_error _) h

/-! ## The guard -/

/-- **The guard against cycles is transparent**, in every column and for
every expression. What an expression comes to without the guard is what the
evaluator gives, and no cyclic reference is in it; and if it comes to nothing
without the guard, the evaluator gives an error, or a list that has one. -/
theorem eval_transparent (column : Column) (e : Expression) :
    (∀ v, column.ComesTo e v →
        (column.eval e).value = v ∧ ¬ v.Carries .cyclicReference)
      ∧ ((¬ ∃ v, column.ComesTo e v) → (column.eval e).value.HasError) := by
  rw [value_eval]
  refine ⟨fun v h => ⟨?_, h.not_carries_cyclic⟩, fun hnone => ?_⟩
  · exact h.valueWith_eq [] (List.forall_mem_nil _)
  · refine Classical.byContradiction fun herror => hnone ?_
    exact ⟨_, comesTo_valueWith (fun _ => comesTo_rowValue) herror⟩

end Column

end FormulaColumn
