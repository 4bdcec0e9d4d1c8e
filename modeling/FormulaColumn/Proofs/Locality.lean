import FormulaColumn.Proofs.Dependence
import FormulaColumn.Proofs.History

/-!
# Edits are local

An edit evaluates every row again, and all that it changes is the rows that
depend on the edited one (`Start.history_edit_local`). Which rows these are is
told by the expressions before the edit: the new text may bring up a cycle,
break one, or fill a cell that was empty, and none of this is seen from a row
that does not reach the edited row.

Two columns give a row the same value if they agree on every cell that the
row reaches in one of them (`Column.rowValue_congr`). A cell that is reached
in the other column is then reached in this one too, so nothing has to be
known of the new expression. To agree on a cell is to agree on whether the row
exists as well, and that is what makes the statement one for both kinds of
edit. An added row makes the column longer, and a range is checked against
the length of the column; but a range mentions its last row, so a range that
ends at the new row belongs to a row that depends on it.

A row that asks for rows past the new one gets no answer, before and after
(`Expression.ReachesPast`).
-/

namespace FormulaColumn

open Relation (ReflTransGen TransGen)

namespace Expression

/-! ## What an expression mentions -/

/-- **A row that is looked up is mentioned.** -/
theorem LooksUp.mentions {rows s : Nat} {e : Expression}
    (h : e.LooksUp rows s) : e.Mentions s := by
  induction e with
  | number value => exact h
  | reference column row => exact h
  | arith op left right ihleft ihright => exact h.imp ihleft ihright
  | range first last _ _ =>
    obtain ⟨lo, hi, hrows, -, hlo, hhi⟩ := h
    obtain ⟨from', to', rfl, rfl, -, rfl, rfl⟩ :=
      Column.exists_of_rangeRows? hrows
    exact Or.inr ⟨from', to', rfl, rfl, hlo, hhi⟩
  | call function argument ih => exact ih h

/-- **The number of rows matters** to an expression only by which of the rows
it mentions exist. -/
theorem valueWith_congr_rows {rows rows' : Nat} {lookup : Nat → Value}
    {e : Expression} (h : ∀ s, e.Mentions s → (s < rows ↔ s < rows')) :
    e.valueWith rows lookup = e.valueWith rows' lookup := by
  induction e with
  | number value => rfl
  | reference column row => rfl
  | arith op left right ihleft ihright =>
    rw [valueWith, valueWith, ihleft fun s hs => h s (Or.inl hs),
      ihright fun s hs => h s (Or.inr hs)]
  | range first last _ _ =>
    cases hrows : rangeRows? first last with
    | none => rw [valueWith_range_of_none hrows, valueWith_range_of_none hrows]
    | some ends =>
      obtain ⟨lo, hi⟩ := ends
      obtain ⟨from', to', rfl, rfl, -, rfl, rfl⟩ :=
        Column.exists_of_rangeRows? hrows
      -- a range mentions its last row
      have hlast : to'.toNat < rows ↔ to'.toNat < rows' :=
        h _ (Or.inl (Or.inr ⟨rfl, rfl⟩))
      by_cases hhi : to'.toNat < rows
      · rw [valueWith_range_of_lt hrows hhi,
          valueWith_range_of_lt hrows (hlast.mp hhi)]
      · rw [valueWith_range_of_not_lt hrows hhi,
          valueWith_range_of_not_lt hrows (mt hlast.mpr hhi)]
  | call function argument ih => rw [valueWith, valueWith, ih h]

/-- **An expression that asks first for a row past the last one**, in a
column of `rows` rows: the row of its leftmost reference, or the last row of
its leftmost range. -/
def ReachesPast (rows : Nat) : Expression → Prop
  | number _ => False
  | reference column row => column = Column.letter ∧ rows ≤ row.toNat
  | arith _ left _ => left.ReachesPast rows
  | range first last => ∃ lo hi, rangeRows? first last = some (lo, hi) ∧ rows ≤ hi
  | call _ argument => argument.ReachesPast rows

/-- What reaches past a row reaches past the rows before it. -/
theorem ReachesPast.mono {rows rows' : Nat} (hle : rows ≤ rows')
    {e : Expression} (h : e.ReachesPast rows') : e.ReachesPast rows := by
  induction e with
  | number value => exact h
  | reference column row => exact ⟨h.1, Nat.le_trans hle h.2⟩
  | arith op left right ihleft _ => exact ihleft h
  | range first last _ _ =>
    obtain ⟨lo, hi, hrows, hhi⟩ := h
    exact ⟨lo, hi, hrows, Nat.le_trans hle hhi⟩
  | call function argument ih => exact ih h

/-- **An expression that asks first for a row past the last one is an invalid
reference**: the leftmost error decides. -/
theorem ReachesPast.valueWith_eq {rows : Nat} {lookup : Nat → Value}
    (hlookup : ∀ s, rows ≤ s → lookup s = .error .invalidReference)
    {e : Expression} (h : e.ReachesPast rows) :
    e.valueWith rows lookup = .error .invalidReference := by
  induction e with
  | number value => exact absurd h not_false
  | reference column row =>
    obtain ⟨rfl, hrow⟩ := h
    rw [valueWith_reference, hlookup _ hrow]
  | arith op left right ihleft _ => rw [valueWith, ihleft h]; rfl
  | range first last _ _ =>
    obtain ⟨lo, hi, hrows, hhi⟩ := h
    exact valueWith_range_of_not_lt hrows (Nat.not_lt.mpr hhi)
  | call function argument ih => rw [valueWith, ih h]; rfl

end Expression

namespace Column

variable {column other : Column}

/-! ## Columns that agree on what a row reaches -/

/-- **A row has the same value** in two columns that agree on the cells it
reaches, under two chains that agree on which of these are being evaluated.
The induction is on the evaluation of the row. -/
theorem rowValue_congr {chain chain' : List Nat} {row : Nat}
    (h : ∀ s, ReflTransGen column.Mentions row s →
      column[s]? = other[s]? ∧ (s ∈ chain ↔ s ∈ chain')) :
    column.rowValue chain row = other.rowValue chain' row := by
  induction chain, row using follow.induct column generalizing chain' with
  | case1 chain row hmem =>
    rw [rowValue_of_mem hmem, rowValue_of_mem ((h row .refl).2.mp hmem)]
  | case2 chain row hmem e he ih =>
    obtain ⟨hcell, hchain⟩ := h row .refl
    have he' : other.formula? row = some e := by
      rw [formula?, ← hcell]
      exact he
    have hreach : ∀ s, e.Mentions s → ∀ t, ReflTransGen column.Mentions s t →
        ReflTransGen column.Mentions row t :=
      fun s hs t ht => .head ⟨e, he, hs⟩ ht
    rw [rowValue_of_some hmem he, rowValue_of_some (mt hchain.mpr hmem) he']
    have hrows : ∀ s, e.Mentions s → (s < column.length ↔ s < other.length) := by
      intro s hs
      rw [← Nat.not_le, ← Nat.not_le, ← List.getElem?_eq_none_iff,
        ← List.getElem?_eq_none_iff, (h s (hreach s hs s .refl)).1]
    rw [Expression.valueWith_congr_rows hrows]
    refine Expression.valueWith_congr fun s hs => ih s fun t ht => ?_
    obtain ⟨hcell', hchain'⟩ := h t (hreach s hs.mentions t ht)
    refine ⟨hcell', ?_⟩
    rw [List.mem_cons, List.mem_cons, hchain']
  | case3 chain row hmem hnone =>
    obtain ⟨hcell, hchain⟩ := h row .refl
    have hnone' : other.formula? row = none := by
      rw [formula?, ← hcell]
      exact hnone
    rw [rowValue_of_none hmem hnone,
      rowValue_of_none (mt hchain.mpr hmem) hnone']

/-- **A row is shown alike** in two columns that agree on the cells it
reaches. -/
theorem value_valueAt_congr {row : Nat}
    (h : ∀ s, ReflTransGen column.Mentions row s → column[s]? = other[s]?) :
    (column.valueAt row).value = (other.valueAt row).value := by
  have hcell : column[row]? = other[row]? := h row .refl
  cases he : column.formula? row with
  | some e =>
    have he' : other.formula? row = some e := by
      rw [formula?, ← hcell]
      exact he
    rw [value_valueAt he, value_valueAt he']
    exact rowValue_congr fun s hs => ⟨h s hs, Iff.rfl⟩
  | none =>
    -- a row without a formula is shown by its cell alone
    unfold valueAt
    rw [← hcell]
    unfold formula? at he
    cases hrow : column[row]? with
    | none => rfl
    | some cell =>
      cases cell with
      | none => rfl
      | some e => rw [hrow] at he; cases he

/-- What a row reaches without depending on `s` is not `s`. -/
theorem ne_of_not_dependsOn {row s t : Nat} (hne : row ≠ s)
    (h : ¬ column.DependsOn row s) (ht : ReflTransGen column.Mentions row t) :
    t ≠ s := by
  rintro rfl
  rcases Relation.reflTransGen_iff_eq_or_transGen.mp ht with heq | hdepends
  · exact hne heq.symm
  · exact h hdepends

/-- **A row past the last one is an invalid reference** to every other. -/
theorem value_valueAt_of_reachesPast {row : Nat} {e : Expression}
    (he : column.formula? row = some e) (h : e.ReachesPast column.length) :
    (column.valueAt row).value = .error .invalidReference := by
  have hrow : row < column.length := lt_length_of_formula? he
  rw [value_valueAt he, rowValue_of_some List.not_mem_nil he]
  refine h.valueWith_eq fun s hs => ?_
  have hnone : column.formula? s = none := by
    rw [formula?, List.getElem?_eq_none hs]
    rfl
  refine rowValue_of_none ?_ hnone
  rw [List.mem_singleton]
  omega

/-! ## Columns of edited texts -/

/-- Replacing a text changes no other cell. -/
theorem getElem?_ofTexts_set {texts : List String} {row s : Nat}
    (text : String) (h : s ≠ row) :
    (ofTexts (texts.set row text)).value[s]? = (ofTexts texts).value[s]? := by
  rw [value_ofTexts, value_ofTexts, List.map_set, List.getElem?_set_ne h.symm]

/-- Adding a text changes no cell but the new one. -/
theorem getElem?_ofTexts_append {texts : List String} {s : Nat}
    (text : String) (h : s ≠ texts.length) :
    (ofTexts (texts ++ [text])).value[s]? = (ofTexts texts).value[s]? := by
  rw [value_ofTexts, value_ofTexts, List.getElem?_map, List.getElem?_map]
  refine congrArg (Option.map _) ?_
  rcases Nat.lt_or_gt_of_ne h with hlt | hgt
  · exact List.getElem?_append_left hlt
  · -- past the new text there is nothing in either list
    rw [List.getElem?_eq_none (Nat.le_of_lt hgt), List.getElem?_eq_none]
    rw [List.length_append]
    exact hgt

end Column

namespace Sheet

/-! ## The values shown after an edit -/

/-- **A value shown in a fresh sheet** is the one of its row. -/
theorem value?_fresh {texts : List String} {row : Nat}
    (h : row < texts.length) :
    (fresh texts).value? row
      = some ((Column.ofTexts texts).value.valueAt row).value := by
  show (Column.ofTexts texts).value.values.value[row]? = _
  rw [Column.value_values, List.getElem?_map, Column.length_value_ofTexts,
    List.getElem?_range h]
  rfl

theorem value?_fresh_of_le {texts : List String} {row : Nat}
    (h : texts.length ≤ row) : (fresh texts).value? row = none := by
  refine List.getElem?_eq_none ?_
  rw [(upToDate_fresh texts).length_values]
  exact h

/-- **Replacing a text** changes no row that does not depend on it. -/
theorem value?_fresh_set {texts : List String} {row q : Nat} (text : String)
    (hne : q ≠ row) (h : ¬ (Column.ofTexts texts).value.DependsOn q row) :
    (fresh (texts.set row text)).value? q = (fresh texts).value? q := by
  have hlength : (texts.set row text).length = texts.length :=
    List.length_set
  by_cases hq : q < texts.length
  · rw [value?_fresh hq, value?_fresh (hlength.symm ▸ hq)]
    refine congrArg some (Column.value_valueAt_congr fun s hs => ?_).symm
    exact (Column.getElem?_ofTexts_set text
      (Column.ne_of_not_dependsOn hne h hs)).symm
  · have hle : texts.length ≤ q := Nat.not_lt.mp hq
    rw [value?_fresh_of_le hle, value?_fresh_of_le (hlength.symm ▸ hle)]

/-- **Adding a row** changes no row that does not depend on the place of the
new one. -/
theorem value?_fresh_append {texts : List String} {q : Nat} (text : String)
    (hq : q < texts.length)
    (h : ¬ (Column.ofTexts texts).value.DependsOn q texts.length) :
    (fresh (texts ++ [text])).value? q = (fresh texts).value? q := by
  rw [value?_fresh hq,
    value?_fresh (by rw [List.length_append]; exact Nat.lt_add_right _ hq)]
  refine congrArg some (Column.value_valueAt_congr fun s hs => ?_).symm
  exact (Column.getElem?_ofTexts_append text
    (Column.ne_of_not_dependsOn (Nat.ne_of_lt hq) h hs)).symm

/-- **A row that asks first for a row past the end** is shown as an invalid
reference. -/
theorem value?_fresh_of_reachesPast {texts : List String} {q : Nat}
    {e : Expression} (he : (Column.ofTexts texts).value.formula? q = some e)
    (h : e.ReachesPast texts.length) :
    (fresh texts).value? q = some (.error .invalidReference) := by
  have hlength : (Column.ofTexts texts).value.length = texts.length :=
    Column.length_value_ofTexts texts
  have hq : q < texts.length := hlength ▸ Column.lt_length_of_formula? he
  rw [value?_fresh hq,
    Column.value_valueAt_of_reachesPast he (by rw [hlength]; exact h)]

end Sheet

namespace Start

/-- **Edits are local**, in every sheet that a history leads to, where
dependence is that of the expressions before the edit. A text that is
replaced changes no other row unless the row depends on the edited one; a row
that is added changes no row unless it depends on the place of the new one;
and a row that asks first for rows past the new one is an invalid reference
as before. -/
theorem history_edit_local (start : Start) (edits : List Edit)
    (text : String) :
    let sheet := (start.history edits).value.current
    (∀ row, row < sheet.size →
        ∃ edited, sheet.replace row text = .ok edited
          ∧ ∀ q, q ≠ row → ¬ sheet.column.DependsOn q row →
            edited.value.value? q = sheet.value? q)
      ∧ (∀ q, q < sheet.size → ¬ sheet.column.DependsOn q sheet.size →
        (sheet.append text).value.value? q = sheet.value? q)
      ∧ (∀ q e, sheet.expression? q = some e →
        e.ReachesPast (sheet.size + 1) →
        sheet.value? q = some (.error .invalidReference)
          ∧ (sheet.append text).value.value? q
            = some (.error .invalidReference)) := by
  obtain ⟨texts, htexts⟩ :
      ∃ texts, (start.history edits).value.current = Sheet.fresh texts :=
    ⟨_, congrArg Versions.current (value_history start edits)⟩
  rw [htexts]
  refine ⟨fun row hrow => ?_, fun q hq h => ?_, fun q e he h => ⟨?_, ?_⟩⟩
  · obtain ⟨edited, hedited, hvalue⟩ := Sheet.replace_fresh hrow text
    refine ⟨edited, hedited, fun q hne h => ?_⟩
    rw [hvalue]
    exact Sheet.value?_fresh_set text hne h
  · rw [Sheet.value_append_fresh]
    exact Sheet.value?_fresh_append text hq h
  · exact Sheet.value?_fresh_of_reachesPast he (h.mono (Nat.le_succ _))
  · have hq : q < texts.length :=
      Column.length_value_ofTexts texts ▸ Column.lt_length_of_formula? he
    have he' : (Column.ofTexts (texts ++ [text])).value.formula? q = some e := by
      rw [Column.formula?,
        Column.getElem?_ofTexts_append text (Nat.ne_of_lt hq)]
      exact he
    rw [Sheet.value_append_fresh]
    refine Sheet.value?_fresh_of_reachesPast he' ?_
    rw [List.length_append]
    exact h

end Start

end FormulaColumn
