import FormulaColumn.Proofs.CarriedError
import FormulaColumn.Proofs.EnteredFrames
import FormulaColumn.Proofs.History
import FormulaColumn.Proofs.ReadWords

/-!
# What formulas come to

The evaluator takes any tree, and there are trees that come to a list, trees
that put a list where an integer is taken, and trees that apply a function to
an integer. A formula has none of them, since its ranges stand where functions
take them, so what it comes to is an integer or one of the other errors
(`Value.OfFormula`); and where the error is that a function does not exist,
the name is a run of letters other than the names that do.

That is so for each row if it is so for the rows that are looked up, and those
that are being evaluated are cyclic references. So it holds of every row of a
column of formulas, whatever rows refer to each other
(`Column.Readable.ofFormula_rowValue`), of the items of every list that a
function takes on the way (`Column.ShowsFormulas.operands_of_reaches`), and of
every value that a sheet shows.
-/

namespace FormulaColumn

open Relation (ReflTransGen)

/-! ## Values of formulas -/

/-- **An error that a formula can come to.** -/
def CellError.OfFormula : CellError → Prop
  | invalidOperands => False
  | invalidArgument => False
  | unknownFunction name =>
    name.toList ≠ [] ∧ (∀ c ∈ name.toList, 'A' ≤ c ∧ c ≤ 'Z')
      ∧ name ≠ "SUM" ∧ name ≠ "MIN"
  | invalidReference => True
  | couldNotEvaluate => True
  | invalidRange => True
  | divisionByZero => True
  | overflow => True
  | cyclicReference => True

/-- **A value that a formula can come to**: an integer or an error, and no
list. -/
def Value.OfFormula : Value → Prop
  | int _ => True
  | list _ => False
  | error cause => cause.OfFormula

namespace Value

/-- The result of a computation with integers is one of a formula if what it
may fail with is. -/
theorem ofFormula_ofExcept {result : Except CellError Int64}
    (h : ∀ cause, result = .error cause → cause.OfFormula) :
    (ofExcept result).OfFormula := by
  cases result with
  | ok n => trivial
  | error cause => exact h cause rfl

/-- **Operators keep values those of formulas.** -/
theorem OfFormula.arith {op : ArithOp} {v w : Value} (hv : v.OfFormula)
    (hw : w.OfFormula) : (Value.arith op v w).OfFormula := by
  cases v with
  | list items => exact hv.elim
  | error cause => exact hv
  | int n =>
    cases w with
    | list items => exact hw.elim
    | error cause => exact hw
    | int m =>
      refine ofFormula_ofExcept fun cause hcause => ?_
      rcases eq_of_apply_eq_error hcause with rfl | rfl <;> trivial

/-- A function fails on values of formulas with an error of formulas. -/
theorem ofFormula_of_fold_eq_error {function : Aggregate} {start : Int64}
    {items : List Value} {cause : CellError}
    (hitems : ∀ item ∈ items, item.OfFormula)
    (h : function.fold start items = .error cause) : cause.OfFormula := by
  rcases of_fold_eq_error h with hmem | ⟨-, items', hmem⟩ | rfl
  · exact hitems _ hmem
  · -- no value of a formula is a list
    exact (hitems _ hmem).elim
  · trivial

/-- A run of letters that is the name of no function is in an error of
formulas. -/
theorem ofFormula_unknownFunction {name : String}
    (hname : Token.Legible (.name name))
    (hnone : Aggregate.ofName? name = none) :
    (CellError.unknownFunction name).OfFormula := by
  obtain ⟨hne, hupper⟩ := hname
  unfold Aggregate.ofName? at hnone
  split at hnone
  next => cases hnone
  next hsum =>
    split at hnone
    next => cases hnone
    next hmin =>
      refine ⟨hne, fun c hc => ?_, hsum, hmin⟩
      exact of_decide_eq_true (hupper c hc)

/-- **Functions applied to values of formulas** come to one. -/
theorem ofFormula_call {function : String} {items : List Value}
    (hname : Token.Legible (.name function))
    (hitems : ∀ item ∈ items, item.OfFormula) :
    (Value.call function (.list items)).OfFormula := by
  unfold Value.call
  cases hfunction : Aggregate.ofName? function with
  | none => exact ofFormula_unknownFunction hname hfunction
  | some aggregate =>
    exact ofFormula_ofExcept fun _ => ofFormula_of_fold_eq_error hitems

end Value

/-! ## Expressions of formulas -/

/-- **Formulas come to what formulas can come to**, if the rows they look up
do. -/
theorem Expression.ofFormula_valueWith {rows : Nat} {lookup : Nat → Value}
    (hlookup : ∀ s, (lookup s).OfFormula) {e : Expression}
    (hplaced : e.RangesPlaced) (hwords : e.EachWord Token.Legible) :
    (e.valueWith rows lookup).OfFormula := by
  induction e with
  | number value => trivial
  | reference column row =>
    by_cases hcolumn : column = Column.letter
    · subst hcolumn
      rw [valueWith_reference]
      exact hlookup _
    · rw [valueWith_otherColumn hcolumn]
      trivial
  | arith op left right ihleft ihright =>
    exact (ihleft hplaced.1 hwords.1).arith (ihright hplaced.2 hwords.2)
  | range first last _ _ => exact hplaced.elim
  | call function argument _ =>
    obtain ⟨c, first, d, last, rfl⟩ := isReferenceRange_iff.mp hplaced
    rw [valueWith]
    rcases valueWith_range_cases rows (reference c first) (reference d last)
      with ⟨cause, hcause, hvalue⟩ | ⟨lo, hi, -, -, hvalue⟩
    · rw [hvalue]
      rcases hcause with rfl | rfl <;> trivial
    · rw [hvalue]
      exact Value.ofFormula_call hwords.1
        (List.forall_mem_map.mpr fun s _ => hlookup s)

namespace Column

variable {column : Column}

/-- **A column of trees that formulas have**: the ranges stand where functions
take them, and the words are made of the characters they are read from. -/
structure Readable (column : Column) : Prop where
  /-- The ranges of each row are in place. -/
  placed : column.RangesPlaced
  /-- The words of each row are legible. -/
  words : ∀ row e, column.formula? row = some e → e.EachWord Token.Legible

/-- A column of texts is readable. -/
theorem readable_ofTexts (texts : List String) :
    (ofTexts texts).value.Readable where
  placed := rangesPlaced_ofTexts texts
  words row e h := by
    obtain ⟨source, -, hread⟩ := formula?_ofTexts_eq_some_iff.mp h
    exact eachWord_of_readFormula hread

/-- **Every row comes to what a formula can come to**, whatever rows are being
evaluated. The induction is on the evaluation of the row. -/
theorem Readable.ofFormula_rowValue (h : column.Readable) (chain : List Nat)
    (row : Nat) : (column.rowValue chain row).OfFormula := by
  induction chain, row using follow.induct column with
  | case1 chain row hmem =>
    rw [rowValue_of_mem hmem]
    trivial
  | case2 chain row hmem e he ih =>
    rw [rowValue_of_some hmem he]
    exact Expression.ofFormula_valueWith ih (h.placed row e he)
      (h.words row e he)
  | case3 chain row hmem hnone =>
    rw [rowValue_of_none hmem hnone]
    trivial

/-- **Every row shows what a formula can come to.** -/
theorem Readable.ofFormula_valueAt (h : column.Readable) (row : Nat) :
    (column.valueAt row).value.OfFormula := by
  cases he : column.formula? row with
  | some e =>
    rw [value_valueAt he]
    exact h.ofFormula_rowValue [] row
  | none =>
    rcases valueAt_of_none he with hvalue | hvalue
    · rw [hvalue]
      trivial
    · rw [hvalue]
      trivial

/-! ## Columns and sheets of texts -/

/-- **Values that a column of formulas shows**, one for each row, where the
column was evaluated without a list in the wrong place. -/
structure ShowsFormulas (column : Column) (values : List Value) : Prop where
  /-- There is one value for each row. -/
  length : values.length = column.length
  /-- The values are in the order of the rows. -/
  rows : ∀ row, row < column.length →
    values[row]? = some (column.valueAt row).value
  /-- Each value is one that a formula can come to. -/
  kinds : ∀ v ∈ values, v.OfFormula
  /-- A list that a function is applied to, anywhere in the evaluation of a
  row, has an item, and each of its items is an integer or an error. -/
  operands : ∀ row e chain function argument items,
    column.formula? row = some e →
    ReflTransGen column.Enters (.ofRow row e)
      ⟨chain, .call function argument⟩ →
    (Frame.run ⟨chain, argument⟩ column).value = .list items →
    items ≠ [] ∧ ∀ item ∈ items, item.OfFormula

/-- **The values of a readable column** are those of formulas. -/
theorem Readable.showsFormulas (h : column.Readable) :
    column.ShowsFormulas column.values.value where
  length := by rw [value_values, List.length_map, List.length_range]
  rows row hrow := by
    rw [value_values, List.getElem?_map, List.getElem?_range hrow]
    rfl
  kinds := by
    rw [value_values]
    exact List.forall_mem_map.mpr fun row _ => h.ofFormula_valueAt row
  operands := by
    intro row e chain function argument items he hreach hitems
    have hplaced : Frame.Placed ⟨chain, .call function argument⟩ :=
      placed_of_reflTransGen h.placed hreach (Or.inl (h.placed row e he))
    obtain ⟨hne, hrows⟩ := items_of_placed hplaced hitems
    refine ⟨hne, fun item hitem => ?_⟩
    obtain ⟨s, rfl⟩ := hrows item hitem
    exact h.ofFormula_rowValue chain s

/-- **A list that a function is applied to**, at any moment of the evaluation of
a row, has an item, and each of its items is an integer or an error. -/
theorem ShowsFormulas.operands_of_reaches {values : List Value}
    (h : column.ShowsFormulas values) {row : Nat} {e : Expression}
    (he : column.formula? row = some e) {function : String} {items : List Value}
    {tasks : List Task} {chain : List Nat} {log : List LogRecord}
    (hreach : column.Reaches ⟨.enter e, [], [row], []⟩
      ⟨.give (.list items), .applyCall function :: tasks, chain, log⟩) :
    items ≠ [] ∧ ∀ item ∈ items, item.OfFormula := by
  have hstart : column.Reaches
      ⟨.enter (Frame.ofRow row e).e, [], (Frame.ofRow row e).chain, []⟩
      ⟨.give (.list items), .applyCall function :: tasks, chain, log⟩ := hreach
  obtain ⟨argument, hcall, hitems⟩ := exists_call_of_applied hstart
  exact h.operands row e chain function argument items he hcall hitems

end Column

/-- **Columns of texts show an integer or an error in each row**, and sheets
do so after every history. There is one value for each text, in the order of
the texts, and it is no list, no operand that was refused and no argument that
was refused; a function that does not exist has letters for a name. And the
lists that functions are applied to on the way hold such values only, and at
least one. -/
theorem values_ofFormula :
    (∀ texts : List String,
      (Column.ofTexts texts).value.length = texts.length
        ∧ (Column.ofTexts texts).value.ShowsFormulas
          (Column.valuesOfTexts texts).value)
      ∧ ∀ (start : Start) (edits : List Edit),
        let sheet := (start.history edits).value.current
        sheet.column.length = sheet.texts.length
          ∧ sheet.column.ShowsFormulas sheet.values := by
  have hshows : ∀ texts : List String,
      (Column.ofTexts texts).value.ShowsFormulas
        (Column.ofTexts texts).value.values.value :=
    fun texts => (Column.readable_ofTexts texts).showsFormulas
  refine ⟨fun texts => ⟨Column.length_value_ofTexts texts, hshows texts⟩,
    fun start edits => ?_⟩
  rw [show (start.history edits).value.current
      = Sheet.fresh (start.textsAfter edits).current from
    congrArg Versions.current (Start.value_history start edits)]
  exact ⟨Column.length_value_ofTexts _, hshows _⟩

end FormulaColumn
