import FormulaColumn.Proofs.Locality

/-!
# A formula on its own and in the column

A formula can be evaluated in a column that it is not a cell of, and it can be
added to the column as its last row. The two differ in more than the place of
the formula. In the column there is one row more, which references and ranges
may end at; and the new row is under evaluation, so that it is on every chain
and would be a cyclic reference where it is met.

Neither is noticed unless the new row is asked for
(`Column.getLast?_valuesOfTexts_append`): by the formula, or by a row that it
reaches. That is read off the column without the formula, so nothing has to be
known of how the formula would be reached from itself. The two evaluations see
the same cells and the same rows on their chains, on everything that the
formula reaches (`Column.valueWith_rowValue_congr`).
-/

namespace FormulaColumn

open Relation (ReflTransGen)

namespace Column

variable {column other : Column}

/-- **A row that is mentioned on the way from an expression**: by the
expression, or by a row that it reaches by one mention or more. -/
def MentionedFrom (column : Column) (e : Expression) (t : Nat) : Prop :=
  ∃ s, e.Mentions s ∧ ReflTransGen column.Mentions s t

/-- What holds of the rows that an expression mentions, and of the rows that a
row mentions if it holds of that row, holds of all rows on the way from the
expression. -/
theorem MentionedFrom.invariant {P : Nat → Prop} {e : Expression} {t : Nat}
    (h : column.MentionedFrom e t) (hstart : ∀ s, e.Mentions s → P s)
    (hstep : ∀ r s, P r → column.Mentions r s → P s) : P t := by
  obtain ⟨s, hs, hst⟩ := h
  induction hst with
  | refl => exact hstart s hs
  | tail _ hmention ih => exact hstep _ _ ih hmention

/-- **An expression comes to the same** in two columns that agree on the cells
it reaches, under two chains that agree on which of these are being
evaluated. -/
theorem valueWith_rowValue_congr {chain chain' : List Nat} {e : Expression}
    (h : ∀ t, column.MentionedFrom e t →
      column[t]? = other[t]? ∧ (t ∈ chain ↔ t ∈ chain')) :
    e.valueWith column.length (column.rowValue chain)
      = e.valueWith other.length (other.rowValue chain') := by
  have hrows : ∀ s, e.Mentions s → (s < column.length ↔ s < other.length) := by
    intro s hs
    rw [← Nat.not_le, ← Nat.not_le, ← List.getElem?_eq_none_iff,
      ← List.getElem?_eq_none_iff, (h s ⟨s, hs, .refl⟩).1]
  rw [Expression.valueWith_congr_rows hrows]
  refine Expression.valueWith_congr fun s hs => rowValue_congr fun t ht => ?_
  exact h t ⟨s, hs.mentions, ht⟩

/-- The last of the values of texts is that of the last row. -/
theorem getLast?_valuesOfTexts_concat (texts : List String) (source : String) :
    (valuesOfTexts (texts ++ [source])).value.getLast?
      = some ((ofTexts (texts ++ [source])).value.valueAt texts.length).value := by
  show (ofTexts (texts ++ [source])).value.values.value.getLast? = _
  rw [value_values, length_value_ofTexts, List.length_append,
    List.length_singleton, List.range_succ, List.map_append, List.map_singleton,
    List.getLast?_concat]

/-- **A formula comes to the same on its own and as the last row of the
column**, if the place of the new row is not mentioned by the formula or by a
row that the formula reaches. -/
theorem getLast?_valuesOfTexts_append {texts : List String} {source : String}
    {e : Expression} (hread : (readFormula source).value = .ok e)
    (h : ¬ (ofTexts texts).value.MentionedFrom e texts.length) :
    (valuesOfTexts (texts ++ [source])).value.getLast?
      = some ((ofTexts texts).value.eval e).value := by
  have hrow : (ofTexts (texts ++ [source])).value.formula? texts.length
      = some e :=
    formula?_ofTexts_eq_some_iff.mpr ⟨source, List.getElem?_concat_length, hread⟩
  rw [getLast?_valuesOfTexts_concat, value_valueAt hrow,
    rowValue_of_some List.not_mem_nil hrow, value_eval]
  refine congrArg some (valueWith_rowValue_congr fun t ht => ?_).symm
  have hne : t ≠ texts.length := by
    rintro rfl
    exact h ht
  refine ⟨(getElem?_ofTexts_append source hne).symm, ?_⟩
  rw [List.mem_singleton]
  exact iff_of_false List.not_mem_nil hne

/-- Below a cell that refers to itself stand `2` and `A1*3`. The formula
`SUM(A1:A2)+A2` does not reach the first cell, nor the one after the last. -/
theorem getLast?_valuesOfTexts_append_sum :
    let e := Expression.arith .add
      (.call "SUM" (.range (.reference 'A' 1) (.reference 'A' 2)))
      (.reference 'A' 2)
    (readFormula "SUM(A1:A2)+A2").value = .ok e
      ∧ ¬ (ofTexts ["A0", "2", "A1*3"]).value.MentionedFrom e 3
      ∧ (valuesOfTexts ["A0", "2", "A1*3", "SUM(A1:A2)+A2"]).value.getLast?
        = some ((ofTexts ["A0", "2", "A1*3"]).value.eval e).value
      ∧ ((ofTexts ["A0", "2", "A1*3"]).value.eval e).value = .int 14 := by
  intro e
  have hread : (readFormula "SUM(A1:A2)+A2").value = .ok e :=
    readFormula_of_within 50 rfl rfl
  have hself : (readFormula "A0").value = .ok (.reference 'A' 0) :=
    readFormula_of_within 50 rfl rfl
  have htwo : (readFormula "2").value = .ok (.number 2) :=
    readFormula_of_within 50 rfl rfl
  have hproduct : (readFormula "A1*3").value
      = .ok (.arith .mul (.reference 'A' 1) (.number 3)) :=
    readFormula_of_within 50 rfl rfl
  have hcolumn : (ofTexts ["A0", "2", "A1*3"]).value
      = [some (.reference 'A' 0), some (.number 2),
        some (.arith .mul (.reference 'A' 1) (.number 3))] := by
    rw [value_ofTexts, List.map_cons, List.map_cons, List.map_singleton, hself,
      htwo, hproduct]
    rfl
  -- the rows on the way from the formula are the last two
  have hreach : ∀ t, (ofTexts ["A0", "2", "A1*3"]).value.MentionedFrom e t →
      t = 1 ∨ t = 2 := by
    rw [hcolumn]
    intro t ht
    refine ht.invariant (P := fun t => t = 1 ∨ t = 2) (fun s hs => ?_)
      fun r s hr hmention => ?_
    · rcases hs with hrange | ⟨-, rfl⟩
      · obtain ⟨hlo, hhi⟩ :=
          (Expression.mentions_range_iff (by decide)).mp hrange
        change 1 ≤ s at hlo
        change s ≤ 2 at hhi
        omega
      · exact .inr rfl
    · obtain ⟨e', he', hs⟩ := hmention
      rcases hr with rfl | rfl
      · -- `2` mentions no row
        cases he'
        exact absurd hs not_false
      · cases he'
        obtain ⟨-, rfl⟩ | hnumber := hs
        · exact .inl rfl
        · exact absurd hnumber not_false
  have hnot : ¬ (ofTexts ["A0", "2", "A1*3"]).value.MentionedFrom e 3 := by
    intro h
    have := hreach 3 h
    omega
  have hlast := @getLast?_valuesOfTexts_append ["A0", "2", "A1*3"] _ e hread hnot
  refine ⟨hread, hnot, hlast, ?_⟩
  rw [hcolumn]
  with_unfolding_all rfl

/-- In the column `A0` refers to itself, and on its own to no row. -/
example :
    (valuesOfTexts ["A0"]).value.getLast? = some (.error .cyclicReference)
      ∧ ((ofTexts []).value.eval (.reference 'A' 0)).value
        = .error .invalidReference := by
  cbv

end Column

end FormulaColumn
