import FormulaColumn.Proofs.Unguarded

/-!
# What a row depends on

An expression **mentions** a row if a reference to the row stands anywhere in
it, or a range that spans the row. Mentioning is a matter of the tree alone:
a range mentions its rows also where it ends past the column, and the ends of
a range are mentioned also where they are in the wrong order. The rows that
are looked up (`Expression.LooksUp`) are among the rows that are mentioned,
and in general they are fewer.

A row **depends on** the rows that are reached from it by one mention or
more. A row on the way has to be filled to mention anything.

**No error is masked** (`Column.not_hasError_of_dependsOn`): where the value
of a row has no error, neither has the value of any row it depends on, and
all of these are filled and on no cycle. For such a row there is a finite
derivation of its value, and a derivation of a value without an error holds
one for every row that is mentioned. So between rows without errors to
mention and to look up are the same, and a derivation looks up no row that
reaches itself.
-/

namespace FormulaColumn

open Relation (ReflTransGen TransGen)

namespace Expression

/-- **The rows that an expression mentions**: those of its references to the
column, wherever they stand, and those between the two ends of a range. -/
def Mentions : Expression → Nat → Prop
  | number _, _ => False
  | reference column row, s => column = Column.letter ∧ row.toNat = s
  | arith _ left right, s => left.Mentions s ∨ right.Mentions s
  | range first last, s =>
    (first.Mentions s ∨ last.Mentions s)
      ∨ ∃ lo hi : UInt64, first = reference Column.letter lo
        ∧ last = reference Column.letter hi ∧ lo.toNat ≤ s ∧ s ≤ hi.toNat
  | call _ argument, s => argument.Mentions s

/-- The rows that a range in ascending order mentions are those from one end
to the other. -/
theorem mentions_range_iff {first last : UInt64} (h : first ≤ last) {s : Nat} :
    (range (reference Column.letter first)
        (reference Column.letter last)).Mentions s
      ↔ first.toNat ≤ s ∧ s ≤ last.toNat := by
  have hle : first.toNat ≤ last.toNat := UInt64.le_iff_toNat_le.mp h
  constructor
  · rintro ((⟨-, rfl⟩ | ⟨-, rfl⟩) | ⟨lo, hi, ⟨⟩, ⟨⟩, hlo, hhi⟩)
    · exact ⟨Nat.le_refl _, hle⟩
    · exact ⟨hle, Nat.le_refl _⟩
    · exact ⟨hlo, hhi⟩
  · rintro ⟨hlo, hhi⟩
    exact Or.inr ⟨first, last, rfl, rfl, hlo, hhi⟩

end Expression

namespace Column

/-- **One row mentions another**: the expression of the one does. -/
def Mentions (column : Column) (row s : Nat) : Prop :=
  ∃ e, column.formula? row = some e ∧ e.Mentions s

/-- **One row depends on another**: it mentions the other, or a row that
depends on the other. -/
def DependsOn (column : Column) : Nat → Nat → Prop :=
  TransGen column.Mentions

/-- **A row that comes to a value without an error**, by a finite
derivation. -/
def Clear (column : Column) (row : Nat) : Prop :=
  ∃ e v, column.formula? row = some e ∧ column.ComesTo e v ∧ ¬ v.HasError

variable {column : Column}

/-- **What is mentioned is looked up, and comes to no error**, where an
expression comes to a value without one. -/
theorem ComesTo.of_mentions {e : Expression} {v : Value}
    (h : column.ComesTo e v) (hv : ¬ v.HasError) {s : Nat}
    (hs : e.Mentions s) : e.LooksUp column.length s ∧ column.Clear s := by
  induction h with
  | number n => exact absurd hs not_false
  | otherColumn _ => exact absurd (Value.hasError_error _) hv
  | @filled row e v hrow hcomes _ =>
    obtain ⟨-, rfl⟩ := hs
    exact ⟨⟨rfl, rfl⟩, e, v, hrow, hcomes, hv⟩
  | unfilled _ => exact absurd (Value.hasError_error _) hv
  | arith _ _ ihleft ihright =>
    -- the operands came to integers, so neither has an error
    obtain ⟨⟨n, rfl⟩, m, rfl⟩ := Value.exists_of_not_hasError_arith hv
    rcases hs with hs | hs
    · exact (ihleft (Value.not_hasError_int n) hs).imp_left Or.inl
    · exact (ihright (Value.not_hasError_int m) hs).imp_left Or.inr
  | invalidRange _ => exact absurd (Value.hasError_error _) hv
  | pastEnd _ _ => exact absurd (Value.hasError_error _) hv
  | @range first last values hle hlt hitems ih =>
    obtain ⟨hlo, hhi⟩ := (Expression.mentions_range_iff hle).mp hs
    obtain ⟨row, rfl, hfirst, hlast⟩ := exists_row_of_between hlo hhi
    -- an item of a list without errors has none
    have hitem : ¬ (values row.toNat).HasError := fun herror =>
      hv (Value.hasError_list_iff.mpr
        ⟨_, List.mem_map_of_mem (Expression.mem_range'_iff.mpr ⟨hlo, hhi⟩),
          herror⟩)
    exact ⟨⟨_, _, rangeRows?_reference hle, hlt, hlo, hhi⟩,
      (ih row hfirst hlast hitem ⟨rfl, rfl⟩).2⟩
  | call _ ih => exact ih (Value.not_hasError_of_call hv) hs

/-! ## Rows without errors -/

/-- A row whose shown value has no error comes to a value without one. -/
theorem clear_of_valueAt {row : Nat}
    (h : ¬ (column.valueAt row).value.HasError) : column.Clear row := by
  cases hrow : column.formula? row with
  | none =>
    refine absurd ?_ h
    rcases valueAt_of_none hrow with hvalue | hvalue
    · rw [hvalue]
      exact Value.hasError_error _
    · rw [hvalue]
      exact Value.hasError_error _
  | some e =>
    rw [value_valueAt hrow] at h
    obtain ⟨e', hrow', hcomes⟩ := comesTo_rowValue h
    exact ⟨e', _, hrow', hcomes, h⟩

theorem ComesTo.value_valueAt_eq {row : Nat} {e : Expression} {v : Value}
    (hrow : column.formula? row = some e) (h : column.ComesTo e v) :
    (column.valueAt row).value = v := by
  rw [value_valueAt hrow, rowValue_of_some List.not_mem_nil hrow]
  refine h.valueWith_eq [row] ?_
  refine List.forall_mem_cons.mpr ⟨fun s hs hreach => ?_, List.forall_mem_nil _⟩
  -- a row that is looked up and reaches this one reaches itself
  exact h.not_cyclic s hs (TransGen.tail' hreach ⟨e, hrow, hs⟩)

theorem Clear.not_hasError {row : Nat} (h : column.Clear row) :
    ¬ (column.valueAt row).value.HasError := by
  obtain ⟨e, v, hrow, hcomes, hv⟩ := h
  rw [hcomes.value_valueAt_eq hrow]
  exact hv

theorem Clear.isFilled {row : Nat} (h : column.Clear row) :
    row < column.length ∧ column.isFilled row = true := by
  obtain ⟨e, v, hrow, -⟩ := h
  refine ⟨lt_length_of_formula? hrow, ?_⟩
  rw [Column.isFilled, hrow]
  rfl

/-- **Whatever a row without an error depends on** is reached along rows that
are looked up, and comes to no error. -/
theorem Clear.of_dependsOn {row s : Nat} (h : column.Clear row)
    (hs : column.DependsOn row s) :
    TransGen column.Asks row s ∧ column.Clear s := by
  have hmention : ∀ {row s : Nat}, column.Clear row → column.Mentions row s →
      column.Asks row s ∧ column.Clear s := by
    rintro row s ⟨e, v, hrow, hcomes, hv⟩ ⟨e', hrow', hs⟩
    cases hrow.symm.trans hrow'
    obtain ⟨hlooks, hclear⟩ := hcomes.of_mentions hv hs
    exact ⟨⟨e, hrow, hlooks⟩, hclear⟩
  induction hs with
  | single hs => exact (hmention h hs).imp_left TransGen.single
  | tail _ hs ih =>
    obtain ⟨hreach, hclear⟩ := ih
    exact (hmention hclear hs).imp_left hreach.tail

/-- **A row without an error does not depend on itself.** -/
theorem Clear.not_dependsOn_self {row : Nat} (h : column.Clear row) :
    ¬ column.DependsOn row row := by
  intro hself
  obtain ⟨next, ⟨e, hrow, hlooks⟩, hback⟩ :=
    TransGen.head'_iff.mp (h.of_dependsOn hself).1
  obtain ⟨e', v, hrow', hcomes, -⟩ := h
  cases hrow.symm.trans hrow'
  exact hcomes.not_cyclic next hlooks (TransGen.tail' hback ⟨e, hrow, hlooks⟩)

/-! ## Errors spread -/

/-- **No error is masked from a dependent.** If the value shown in a row has
no error, then the row does not depend on itself, and every row it depends
on exists, is filled, is shown without an error, and does not depend on
itself either. -/
theorem not_hasError_of_dependsOn {row : Nat}
    (h : ¬ (column.valueAt row).value.HasError) :
    ¬ column.DependsOn row row
      ∧ ∀ s, column.DependsOn row s →
        s < column.length ∧ column.isFilled s = true
          ∧ ¬ (column.valueAt s).value.HasError
          ∧ ¬ column.DependsOn s s := by
  have hclear : column.Clear row := clear_of_valueAt h
  refine ⟨hclear.not_dependsOn_self, fun s hs => ?_⟩
  have hclear' : column.Clear s := (hclear.of_dependsOn hs).2
  exact ⟨hclear'.isFilled.1, hclear'.isFilled.2, hclear'.not_hasError,
    hclear'.not_dependsOn_self⟩

/-- A product of a cell and the sum of that product: `2`, `A0*3` and
`SUM(A1:A1)`. The sum is `6`, and it depends on the first row through the
second. -/
theorem not_hasError_of_dependsOn_sum :
    let column : Column :=
      [some (.number 2),
       some (.arith .mul (.reference 'A' 0) (.number 3)),
       some (.call "SUM" (.range (.reference 'A' 1) (.reference 'A' 1)))]
    ¬ (column.valueAt 2).value.HasError ∧ column.DependsOn 2 0
      ∧ ¬ (column.valueAt 0).value.HasError ∧ ¬ column.DependsOn 0 0 := by
  intro column
  have hproduct : column.ComesTo (.reference 'A' 1) (.int 6) :=
    .filled rfl (.arith (.filled rfl (.number 2)) (.number 3))
  have hrange : column.ComesTo (.range (.reference 'A' 1) (.reference 'A' 1))
      (.list ((List.range' 1 1).map fun _ => .int 6)) := by
    refine .range (by decide) (by decide) fun row hlo hhi => ?_
    rw [UInt64.le_antisymm hhi hlo]
    exact hproduct
  have hvalue : ¬ (column.valueAt 2).value.HasError := by
    rw [ComesTo.value_valueAt_eq rfl (.call hrange)]
    exact Value.not_hasError_int 6
  have hsum : column.Mentions 2 1 :=
    ⟨_, rfl, Or.inr ⟨1, 1, rfl, rfl, by decide, by decide⟩⟩
  have hcell : column.Mentions 1 0 := ⟨_, rfl, Or.inl ⟨rfl, rfl⟩⟩
  have hdepends : column.DependsOn 2 0 := .tail (.single hsum) hcell
  obtain ⟨-, -, herror, hself⟩ :=
    (not_hasError_of_dependsOn hvalue).2 0 hdepends
  exact ⟨hvalue, hdepends, herror, hself⟩

end Column

end FormulaColumn
