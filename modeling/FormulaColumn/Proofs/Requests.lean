import FormulaColumn.Proofs.Lookups

/-!
# What an evaluation asks for

The log of an evaluation is the logs of what it asks for, one after the other:
the rows that it looks up, and the cells of other columns, each of which is a
record of its own. What an expression asks for, and in which order, is read
off the expression and the number of rows of the column
(`Expression.requests`). Neither the operators nor the values of operands have
a part in it, since both operands of an operator are always evaluated and a
function looks at its argument when all of it is there.
-/

namespace FormulaColumn

/-- **Something an evaluation asks for.** -/
inductive Request where
  /-- The value of a row. -/
  | row (s : Nat)
  /-- A cell of another column, which has no value. -/
  | otherColumn (column : Char) (number : UInt64)

/-- What is recorded about a request, where the rows have these logs. -/
def Request.log (rowLog : Nat → List LogRecord) : Request → List LogRecord
  | row s => rowLog s
  | otherColumn column number => [.otherColumn column number]

namespace Expression

/-- **What the evaluation of an expression asks for**, in order, in a column
of `rows` rows. -/
def requests (rows : Nat) : Expression → List Request
  | number _ => []
  | reference column row =>
    if column = Column.letter then [.row row.toNat] else [.otherColumn column row]
  | arith _ left right => left.requests rows ++ right.requests rows
  | range first last =>
    match rangeRows? first last with
    | none => []
    | some (lo, hi) =>
      if hi < rows then (List.range' lo (hi + 1 - lo)).map .row else []
  | call _ argument => argument.requests rows

/-- **The log of an evaluation** is that of its requests, one after the
other. -/
theorem log_evalWith (rows : Nat) (lookup : Nat → Logged Value)
    (e : Expression) :
    (e.evalWith rows lookup).log
      = (e.requests rows).flatMap (Request.log fun s => (lookup s).log) := by
  induction e with
  | number value => rfl
  | reference column row =>
    unfold evalWith requests
    by_cases hcolumn : column = Column.letter
    · rw [if_pos hcolumn, if_pos hcolumn]
      exact (List.append_nil _).symm
    · rw [if_neg hcolumn, if_neg hcolumn]
      rfl
  | arith op left right ihleft ihright =>
    rw [requests, List.flatMap_append, ← ihleft, ← ihright]
    simp only [evalWith, Logged.log_bind, Logged.log_pure, List.append_nil]
  | range first last _ _ =>
    unfold evalWith requests
    cases rangeRows? first last with
    | none => rfl
    | some ends =>
      dsimp only
      by_cases hhi : ends.2 < rows
      · rw [if_pos hhi, if_pos hhi, List.flatMap_map, Logged.log_bind,
          Logged.log_mapM, Logged.log_pure, List.append_nil]
        rfl
      · rw [if_neg hhi, if_neg hhi]
        rfl
  | call function argument ih =>
    rw [requests, ← ih]
    simp only [evalWith, Logged.log_bind, Logged.log_pure, List.append_nil]

/-- **The rows that are asked for** are those that are looked up. -/
theorem row_mem_requests_iff {rows s : Nat} {e : Expression} :
    Request.row s ∈ e.requests rows ↔ e.LooksUp rows s := by
  induction e with
  | number value => simp [requests, LooksUp]
  | reference column row =>
    unfold requests
    by_cases hcolumn : column = Column.letter
    · rw [if_pos hcolumn, List.mem_singleton, Request.row.injEq]
      exact ⟨fun h => ⟨hcolumn, h.symm⟩, fun h => h.2.symm⟩
    · rw [if_neg hcolumn]
      exact iff_of_false (by simp) fun h => hcolumn h.1
  | arith op left right ihleft ihright =>
    rw [requests, List.mem_append, ihleft, ihright, LooksUp]
  | range first last _ _ =>
    unfold requests
    cases hrows : rangeRows? first last with
    | none =>
      refine iff_of_false (by simp) ?_
      rintro ⟨_, _, hrows', -⟩
      cases hrows.symm.trans hrows'
    | some ends =>
      obtain ⟨lo, hi⟩ := ends
      dsimp only
      by_cases hhi : hi < rows
      · rw [if_pos hhi, List.mem_map]
        constructor
        · rintro ⟨_, hmem, ⟨⟩⟩
          exact ⟨lo, hi, hrows, hhi, mem_range'_iff.mp hmem⟩
        · rintro ⟨_, _, hrows', -, hmem⟩
          cases hrows.symm.trans hrows'
          exact ⟨s, mem_range'_iff.mpr hmem, rfl⟩
      · rw [if_neg hhi]
        refine iff_of_false (by simp) ?_
        rintro ⟨_, _, hrows', hhi', -⟩
        cases hrows.symm.trans hrows'
        exact hhi hhi'
  | call function argument ih => exact ih

end Expression

end FormulaColumn
