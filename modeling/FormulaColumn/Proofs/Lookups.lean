import FormulaColumn.Proofs.RowValue
import Mathlib.Logic.Relation

/-!
# Which rows are looked up

The value of an expression depends on the values of the rows it looks up, and
which ones these are can be read off the expression and the number of rows of
the column (`Expression.LooksUp`): the row of each reference to the column,
and all the rows of each range, if the range is one and ends before the
column does. The references that are the ends of a range are not looked up as
references.

The rows of a column that look each other up are the edges of a graph,
`Column.Asks`. Where it has no cycle, a statement about all rows may be
proved by assuming it of the rows that are looked up
(`Column.Acyclic.induction`): going from a row to one that it looks up cannot
go on forever, since the rows on the way are filled and different.
-/

namespace FormulaColumn

namespace Expression

/-- **The rows that an expression looks up**, in a column of `rows` rows. -/
def LooksUp (rows : Nat) : Expression → Nat → Prop
  | number _, _ => False
  | reference column row, s => column = Column.letter ∧ row.toNat = s
  | arith _ left right, s => left.LooksUp rows s ∨ right.LooksUp rows s
  | range first last, s =>
    ∃ lo hi, rangeRows? first last = some (lo, hi) ∧ hi < rows
      ∧ lo ≤ s ∧ s ≤ hi
  | call _ argument, s => argument.LooksUp rows s

/-- The rows from one to another. -/
theorem mem_range'_iff {lo hi row : Nat} :
    row ∈ List.range' lo (hi + 1 - lo) ↔ lo ≤ row ∧ row ≤ hi := by
  rw [List.mem_range'_1]
  omega

/-- **The value of an expression depends on the rows it looks up**, and on
no others. -/
theorem valueWith_congr {rows : Nat} {lookup lookup' : Nat → Value}
    {e : Expression} (h : ∀ s, e.LooksUp rows s → lookup s = lookup' s) :
    e.valueWith rows lookup = e.valueWith rows lookup' := by
  induction e with
  | number value => rfl
  | reference column row =>
    by_cases hcolumn : column = Column.letter
    · subst hcolumn
      rw [valueWith_reference, valueWith_reference, h row.toNat ⟨rfl, rfl⟩]
    · rw [valueWith_otherColumn hcolumn, valueWith_otherColumn hcolumn]
  | arith op left right ihleft ihright =>
    rw [valueWith, valueWith, ihleft fun s hs => h s (Or.inl hs),
      ihright fun s hs => h s (Or.inr hs)]
  | range first last _ _ =>
    rcases valueWith_range_cases rows first last with
      ⟨cause, -, hvalue⟩ | ⟨lo, hi, hrows, hhi, hvalue⟩
    · rw [hvalue, hvalue]
    · rw [hvalue, hvalue]
      refine congrArg Value.list (List.map_congr_left fun s hs => ?_)
      obtain ⟨hlo, hle⟩ := mem_range'_iff.mp hs
      exact h s ⟨lo, hi, hrows, hhi, hlo, hle⟩
  | call function argument ih => rw [valueWith, valueWith, ih h]

end Expression

namespace Column

/-! ## The rows of a range -/

/-- The rows between two references, by their numbers. -/
theorem rangeRows?_reference {first last : UInt64} (h : first ≤ last) :
    Expression.rangeRows? (.reference letter first) (.reference letter last)
      = some (first.toNat, last.toNat) :=
  if_pos ⟨rfl, rfl, h⟩

/-- The ends of a range with rows are references to the column. -/
theorem exists_of_rangeRows? {first last : Expression} {lo hi : Nat}
    (h : Expression.rangeRows? first last = some (lo, hi)) :
    ∃ from' to' : UInt64, first = .reference letter from'
      ∧ last = .reference letter to' ∧ from' ≤ to'
      ∧ from'.toNat = lo ∧ to'.toNat = hi := by
  unfold Expression.rangeRows? at h
  split at h
  next c from' d to' =>
    split at h
    next hends =>
      obtain ⟨rfl, rfl, hle⟩ := hends
      cases h
      exact ⟨from', to', rfl, rfl, hle, rfl, rfl⟩
    next => cases h
  next => cases h

/-- The rows of a range are in ascending order. -/
theorem le_of_rangeRows? {first last : Expression} {lo hi : Nat}
    (h : Expression.rangeRows? first last = some (lo, hi)) : lo ≤ hi := by
  obtain ⟨from', to', -, -, hle, rfl, rfl⟩ := exists_of_rangeRows? h
  exact UInt64.le_iff_toNat_le.mp hle

/-- A number between two rows is a row. -/
theorem exists_row_of_between {first last : UInt64} {s : Nat}
    (hlo : first.toNat ≤ s) (hhi : s ≤ last.toNat) :
    ∃ row : UInt64, row.toNat = s ∧ first ≤ row ∧ row ≤ last := by
  have hs : (UInt64.ofNat s).toNat = s :=
    UInt64.toNat_ofNat_of_lt' (Nat.lt_of_le_of_lt hhi last.toNat_lt)
  refine ⟨UInt64.ofNat s, hs, ?_, ?_⟩
  · rw [UInt64.le_iff_toNat_le, hs]
    exact hlo
  · rw [UInt64.le_iff_toNat_le, hs]
    exact hhi

/-! ## The graph of the rows -/

/-- **One row looks up another**: the expression of the one does. -/
def Asks (column : Column) (row next : Nat) : Prop :=
  ∃ e, column.formula? row = some e ∧ e.LooksUp column.length next

/-- No row reaches itself along the rows that are looked up. -/
def Acyclic (column : Column) : Prop :=
  ∀ row, ¬ Relation.TransGen column.Asks row row

/-- **In a column without cycles**, what holds of a row as soon as it holds
of the rows it looks up holds of all rows.

The induction is on the evaluation of the row. Its chain holds rows that
reach the row at hand, so that a row on the chain would reach itself. -/
theorem Acyclic.induction {column : Column} (hacyclic : column.Acyclic)
    {motive : Nat → Prop}
    (step : ∀ row, (∀ next, column.Asks row next → motive next) → motive row)
    (row : Nat) : motive row := by
  have hchain : ∀ (chain : List Nat) (row : Nat),
      (∀ x ∈ chain, Relation.TransGen column.Asks x row) → motive row := by
    intro chain row
    induction chain, row using follow.induct column with
    | case1 chain row hmem =>
      intro hreach
      -- a row on the chain reaches the row at hand, which is itself
      exact absurd (hreach row hmem) (hacyclic row)
    | case2 chain row hmem e he ih =>
      intro hreach
      refine step row fun next hnext => ih next ?_
      refine List.forall_mem_cons.mpr ⟨.single hnext, fun x hx => ?_⟩
      exact (hreach x hx).tail hnext
    | case3 chain row hmem hnone =>
      intro hreach
      refine step row fun next hnext => ?_
      -- a row that is not filled looks up nothing
      obtain ⟨e, he, -⟩ := hnext
      rw [hnone] at he
      cases he
  exact hchain [] row (List.forall_mem_nil _)

end Column

end FormulaColumn
