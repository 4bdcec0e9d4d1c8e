import FormulaColumn.Proofs.Placement
import FormulaColumn.Proofs.RowValue

/-!
# The first failure decides

The evaluator does everything and then says which error counts. There is a
simpler way to say what a formula comes to: work from left to right, and
abandon the formula at the first failure (`Expression.attemptWith`). The right
operand is not evaluated if the left one has failed. A function looks at its
range and then at its name, before it looks up a row; and it takes the rows one
at a time, so that it looks up none after the one it fails at.

Both come to the same on every column of texts
(`Column.valuesOfTexts_eq_attempts`). An attempt is a computation with a log
(`Attempt`), so that what it leaves out is seen: its log is a beginning of the
log of the evaluation, and all of it if the attempt does not fail. This is what
is carried through references (`Attempt.CutsShort`), and it is kept by each way
to put computations together. The fold of a function and the list of its range
meet there: an item that has been evaluated in vain is one after the item that
the fold stops at.

It is a statement about formulas. In a tree with a list for an operand the
error of the right operand wins over the list, and a range that no function
takes has no integer.
-/

namespace FormulaColumn

/-- **A computation that is abandoned at its first failure**, with the records
up to there. -/
abbrev Attempt : Type → Type := ExceptT CellError Logged

namespace Attempt

variable {α β : Type}

/-- One record. -/
def record (entry : LogRecord) : Attempt Unit :=
  ExceptT.lift (Logged.record entry)

/-- What has been computed without a record. -/
def ofExcept (result : Except CellError α) : Attempt α :=
  ExceptT.mk (pure result)

theorem run_bind_of_ok {x : Attempt α} {f : α → Attempt β} {a : α}
    {log : List LogRecord} (h : x.run = ⟨.ok a, log⟩) :
    (x >>= f).run = ⟨(f a).run.value, log ++ (f a).run.log⟩ := by
  rw [ExceptT.run_bind, h]
  rfl

/-- **An attempt is abandoned** where a part of it fails. -/
theorem run_bind_of_error {x : Attempt α} {f : α → Attempt β}
    {cause : CellError} {log : List LogRecord}
    (h : x.run = ⟨.error cause, log⟩) :
    (x >>= f).run = ⟨.error cause, log⟩ := by
  rw [ExceptT.run_bind, h]
  exact congrArg (Logged.mk _) (List.append_nil log)

end Attempt

/-! ## The evaluator that stops early -/

namespace Expression

/-- **The rows of a range**, in a column of `rows` rows, or why there are
none. -/
def rowsOfRange (rows : Nat) (first last : Expression) :
    Except CellError (List Nat) :=
  match rangeRows? first last with
  | none => .error .invalidRange
  | some (lo, hi) =>
    if hi < rows then .ok (List.range' lo (hi + 1 - lo))
    else .error .invalidReference

/-- **An expression, abandoned at its first failure**, in a column of `rows`
rows that are looked up by `lookup`. A range that no function takes has no
integer, and a function of anything but a range has none; formulas have
neither. -/
def attemptWith (rows : Nat) (lookup : Nat → Attempt Int64) :
    Expression → Attempt Int64
  | number value => pure value
  | reference column row =>
    if column = Column.letter then
      lookup row.toNat
    else do
      Attempt.record (.otherColumn column row)
      throw .couldNotEvaluate
  | arith op left right => do
    let n ← left.attemptWith rows lookup
    let m ← right.attemptWith rows lookup
    Attempt.ofExcept (op.apply n m)
  | range _ _ => throw .invalidOperands
  | call function (range first last) => do
    let span ← Attempt.ofExcept (rowsOfRange rows first last)
    match Aggregate.ofName? function with
    | some aggregate =>
      span.foldlM (fun current row => do
        let n ← lookup row
        Attempt.ofExcept (aggregate.combine current n)) aggregate.seed
    | none => throw (.unknownFunction function)
  | call _ argument => do
    let _ ← argument.attemptWith rows lookup
    throw .invalidArgument

end Expression

namespace Column

/-- **A row that is referred to, abandoned at its first failure**, while the
rows of `chain` are being evaluated, the innermost first. -/
def attemptRow (column : Column) (chain : List Nat) (row : Nat) :
    Attempt Int64 :=
  if row ∈ chain then do
    Attempt.record (.cycle row chain.reverse)
    throw .cyclicReference
  else
    match _ : column.formula? row with
    | some e =>
      e.attemptWith column.length fun next => attemptRow column (row :: chain) next
    | none => do
      Attempt.record (.noFormula row)
      throw .invalidReference
termination_by (column.unvisited chain).length
decreasing_by exact length_unvisited_cons_lt (by assumption) (by assumption)

theorem attemptRow_of_mem {column : Column} {chain : List Nat} {row : Nat}
    (h : row ∈ chain) :
    (column.attemptRow chain row).run
      = ⟨.error .cyclicReference, [.cycle row chain.reverse]⟩ := by
  rw [attemptRow, if_pos h]
  rfl

theorem attemptRow_of_none {column : Column} {chain : List Nat} {row : Nat}
    (hchain : row ∉ chain) (h : column.formula? row = none) :
    (column.attemptRow chain row).run
      = ⟨.error .invalidReference, [.noFormula row]⟩ := by
  rw [attemptRow, if_neg hchain]
  split
  next e he => rw [h] at he; exact absurd he (by simp)
  next => rfl

/-- **A row with a formula is its expression**, attempted with the row on the
chain. -/
theorem attemptRow_of_some {column : Column} {chain : List Nat} {row : Nat}
    {e : Expression} (hchain : row ∉ chain)
    (h : column.formula? row = some e) :
    column.attemptRow chain row
      = e.attemptWith column.length (column.attemptRow (row :: chain)) := by
  rw [attemptRow, if_neg hchain]
  split
  next e' he => rw [Option.some.inj (h.symm.trans he)]
  next he => rw [h] at he; exact absurd he (by simp)

/-- **The value shown in a row, abandoned at its first failure.** -/
def attemptAt (column : Column) (row : Nat) : Attempt Int64 :=
  match column[row]? with
  | some (some e) => e.attemptWith column.length (column.attemptRow [row])
  | some none => throw .couldNotEvaluate
  | none => throw .invalidReference

end Column

/-! ## Attempts cut evaluations short -/

namespace Attempt

/-- **An attempt cuts an evaluation short**: it comes to the same integer, with
the same records, or it fails with the error that the evaluation comes to, and
its records are a beginning of those of the evaluation. -/
def CutsShort (attempt : Attempt Int64) (full : Logged Value) : Prop :=
  (∃ n, attempt.run = ⟨.ok n, full.log⟩ ∧ full.value = .int n)
    ∨ ∃ cause log, attempt.run = ⟨.error cause, log⟩
      ∧ full.value = .error cause ∧ log <+: full.log

theorem CutsShort.value_eq {attempt : Attempt Int64} {full : Logged Value}
    (h : attempt.CutsShort full) :
    full.value = .ofExcept attempt.run.value := by
  rcases h with ⟨n, hrun, hvalue⟩ | ⟨cause, log, hrun, hvalue, -⟩
  · rw [hrun, hvalue]
    rfl
  · rw [hrun, hvalue]
    rfl

theorem CutsShort.log_isPrefix {attempt : Attempt Int64} {full : Logged Value}
    (h : attempt.CutsShort full) : attempt.run.log <+: full.log := by
  rcases h with ⟨n, hrun, -⟩ | ⟨cause, log, hrun, -, hlog⟩
  · have hlog : attempt.run.log = full.log := congrArg Logged.log hrun
    exact hlog ▸ List.prefix_rfl
  · rw [hrun]
    exact hlog

theorem CutsShort.log_eq {attempt : Attempt Int64} {full : Logged Value}
    (h : attempt.CutsShort full) {n : Int64}
    (hn : attempt.run.value = .ok n) : attempt.run.log = full.log := by
  rcases h with ⟨m, hrun, -⟩ | ⟨cause, log, hrun, -⟩
  · rw [hrun]
  · rw [hrun] at hn
    cases hn

theorem cutsShort_of_error {attempt : Attempt Int64} {full : Logged Value}
    {cause : CellError} (hrun : attempt.run = ⟨.error cause, []⟩)
    (hvalue : full.value = .error cause) : attempt.CutsShort full :=
  Or.inr ⟨cause, [], hrun, hvalue, List.nil_prefix⟩

/-- What is computed without a record is not cut short. -/
theorem cutsShort_ofExcept (result : Except CellError Int64) :
    CutsShort (ofExcept result) (pure (.ofExcept result)) := by
  cases result with
  | ok n => exact Or.inl ⟨n, rfl, rfl⟩
  | error cause => exact cutsShort_of_error rfl rfl

/-- **Going on**: an attempt goes on with the integer of its first part where
the evaluation goes on with its value, and where the first part has failed, the
evaluation comes to its error whatever it does next. -/
theorem CutsShort.bind {first : Attempt Int64} {full : Logged Value}
    {next : Int64 → Attempt Int64} {fullNext : Value → Logged Value}
    (hfirst : first.CutsShort full)
    (hnext : ∀ n, (next n).CutsShort (fullNext (.int n)))
    (herror : ∀ cause, (fullNext (.error cause)).value = .error cause) :
    CutsShort (first >>= next) (full >>= fullNext) := by
  rcases hfirst with ⟨n, hrun, hvalue⟩ | ⟨cause, log, hrun, hvalue, hlog⟩
  · unfold CutsShort
    rw [run_bind_of_ok hrun, Logged.value_bind, Logged.log_bind, hvalue]
    rcases hnext n with ⟨m, hrun', hvalue'⟩ | ⟨cause, log, hrun', hvalue', hlog⟩
    · rw [hrun']
      exact Or.inl ⟨m, rfl, hvalue'⟩
    · rw [hrun']
      exact Or.inr ⟨cause, _, rfl, hvalue',
        (List.prefix_append_right_inj _).mpr hlog⟩
  · refine Or.inr ⟨cause, log, run_bind_of_error hrun, ?_,
      hlog.trans (List.prefix_append _ _)⟩
    rw [Logged.value_bind, hvalue]
    exact herror cause

/-- **Functions**: an attempt looks up no row after the one that the function
fails at. The induction is on the rows. -/
theorem cutsShort_fold (function : Aggregate) {lookup : Nat → Attempt Int64}
    {full : Nat → Logged Value} (h : ∀ s, (lookup s).CutsShort (full s))
    (rows : List Nat) (start : Int64) :
    CutsShort
      (rows.foldlM (fun current row => do
        let n ← lookup row
        ofExcept (function.combine current n)) start)
      (do
        let items ← rows.mapM full
        pure (.ofExcept (function.fold start items))) := by
  induction rows generalizing start with
  | nil => exact cutsShort_ofExcept (.ok start)
  | cons row rows ih =>
    rw [List.foldlM_cons, List.mapM_cons]
    simp only [bind_assoc, pure_bind]
    refine (h row).bind (fun n => ?_) fun cause => rfl
    cases hcombine : function.combine start n with
    | error cause =>
      refine cutsShort_of_error rfl ?_
      rw [Logged.value_bind, Logged.value_pure, Aggregate.fold_cons]
      show Value.ofExcept (function.combine start n >>= _) = _
      rw [hcombine]
      rfl
    | ok current =>
      have hfold : ∀ items : List Value,
          function.fold start (.int n :: items) = function.fold current items := by
        intro items
        rw [Aggregate.fold_cons]
        show function.combine start n >>= _ = _
        rw [hcombine]
        rfl
      simp only [hfold]
      exact ih current

end Attempt

namespace Expression

/-- A range is evaluated by looking up all of its rows, if it has rows. -/
theorem evalWith_range (rows : Nat) (lookup : Nat → Logged Value)
    (first last : Expression) :
    (range first last).evalWith rows lookup
      = match rowsOfRange rows first last with
        | .ok span => do
          let items ← span.mapM lookup
          pure (.list items)
        | .error cause => pure (.error cause) := by
  unfold evalWith rowsOfRange
  cases rangeRows? first last with
  | none => rfl
  | some ends =>
    dsimp only
    by_cases hhi : ends.2 < rows
    · rw [if_pos hhi, if_pos hhi]
    · rw [if_neg hhi, if_neg hhi]

/-- **An attempt at a formula cuts its evaluation short**, if the attempts at
the rows that it looks up do. -/
theorem cutsShort_evalWith {rows : Nat} {attempt : Nat → Attempt Int64}
    {lookup : Nat → Logged Value} (h : ∀ s, (attempt s).CutsShort (lookup s))
    {e : Expression} (hplaced : e.RangesPlaced) :
    (e.attemptWith rows attempt).CutsShort (e.evalWith rows lookup) := by
  induction e with
  | number value => exact Attempt.cutsShort_ofExcept (.ok value)
  | reference c row =>
    unfold attemptWith evalWith
    by_cases hc : c = Column.letter
    · rw [if_pos hc, if_pos hc]
      exact h row.toNat
    · rw [if_neg hc, if_neg hc]
      exact Or.inr ⟨_, _, rfl, rfl, List.prefix_rfl⟩
  | arith op left right ihleft ihright =>
    refine (ihleft hplaced.1).bind (fun n => ?_) fun cause => rfl
    refine (ihright hplaced.2).bind (fun m => ?_) fun cause => rfl
    exact Attempt.cutsShort_ofExcept (op.apply n m)
  | range first last _ _ => exact hplaced.elim
  | call function argument _ =>
    obtain ⟨c, first, d, last, rfl⟩ := isReferenceRange_iff.mp hplaced
    unfold attemptWith
    rw [evalWith, evalWith_range]
    cases rowsOfRange rows (reference c first) (reference d last) with
    | error cause => exact Attempt.cutsShort_of_error rfl rfl
    | ok span =>
      simp only [bind_assoc, pure_bind]
      show Attempt.CutsShort (match Aggregate.ofName? function with
        | some aggregate => _
        | none => _) _
      cases hname : Aggregate.ofName? function with
      | none =>
        -- the name is looked at before any row is
        refine Attempt.cutsShort_of_error rfl ?_
        rw [Logged.value_bind, Logged.value_pure, Value.call, hname]
      | some aggregate =>
        have hcall : ∀ items, Value.call function (.list items)
            = .ofExcept (aggregate.fold aggregate.seed items) := by
          intro items
          rw [Value.call, hname]
          rfl
        simp only [hcall]
        exact Attempt.cutsShort_fold aggregate h span aggregate.seed

end Expression

namespace Column

variable {column : Column}

/-- **An attempt at a row cuts its evaluation short**, whatever rows are being
evaluated. The induction is on the evaluation of the row. -/
theorem cutsShort_follow (hplaced : column.RangesPlaced) (chain : List Nat)
    (row : Nat) :
    (column.attemptRow chain row).CutsShort (column.follow chain row) := by
  induction chain, row using follow.induct column with
  | case1 chain row hmem =>
    rw [follow_of_mem hmem]
    exact Or.inr ⟨_, _, attemptRow_of_mem hmem, rfl, List.prefix_rfl⟩
  | case2 chain row hmem e he ih =>
    rw [follow_of_some hmem he, attemptRow_of_some hmem he]
    exact Expression.cutsShort_evalWith ih (hplaced row e he)
  | case3 chain row hmem hnone =>
    rw [follow_of_none hmem hnone]
    exact Or.inr ⟨_, _, attemptRow_of_none hmem hnone, rfl, List.prefix_rfl⟩

/-- **An attempt at a row that is asked for cuts its evaluation short.** -/
theorem cutsShort_valueAt (hplaced : column.RangesPlaced) (row : Nat) :
    (column.attemptAt row).CutsShort (column.valueAt row) := by
  unfold attemptAt valueAt
  cases hcell : column[row]? with
  | none => exact Attempt.cutsShort_of_error rfl rfl
  | some cell =>
    cases cell with
    | none => exact Attempt.cutsShort_of_error rfl rfl
    | some e =>
      refine Expression.cutsShort_evalWith (cutsShort_follow hplaced [row]) ?_
      refine hplaced row e ?_
      rw [formula?, hcell]
      rfl

/-- **The first failure decides**, in every row of every column of texts. What
is shown is what comes out of abandoning each formula at its first failure,
from left to right. And that leaves out nothing but an end of the evaluation:
the records of the attempt are the first ones of the evaluation, and all of
them if the attempt does not fail. -/
theorem valuesOfTexts_eq_attempts (texts : List String) :
    (valuesOfTexts texts).value
        = (List.range texts.length).map (fun row =>
            .ofExcept ((ofTexts texts).value.attemptAt row).run.value)
      ∧ ∀ row, ((ofTexts texts).value.attemptAt row).run.log
            <+: ((ofTexts texts).value.valueAt row).log
          ∧ ∀ n, ((ofTexts texts).value.attemptAt row).run.value = .ok n →
            ((ofTexts texts).value.attemptAt row).run.log
              = ((ofTexts texts).value.valueAt row).log := by
  have hrow : ∀ row, ((ofTexts texts).value.attemptAt row).CutsShort
      ((ofTexts texts).value.valueAt row) :=
    cutsShort_valueAt (rangesPlaced_ofTexts texts)
  refine ⟨?_, fun row => ⟨(hrow row).log_isPrefix, fun n => (hrow row).log_eq⟩⟩
  show (ofTexts texts).value.values.value = _
  rw [value_values, length_value_ofTexts]
  exact List.map_congr_left fun row _ => (hrow row).value_eq

/-- In `1/0+A9` the reference is left out, and what it would have recorded. -/
example :
    let column : Column := [some (.arith .add
      (.arith .div (.number 1) (.number 0)) (.reference 'A' 9))]
    (column.attemptAt 0).run = ⟨.error .divisionByZero, []⟩
      ∧ column.valueAt 0 = ⟨.error .divisionByZero, [.noFormula 9]⟩ := by
  cbv

end Column

end FormulaColumn
