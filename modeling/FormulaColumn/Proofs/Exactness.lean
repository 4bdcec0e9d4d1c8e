import FormulaColumn.Proofs.ExactValue
import FormulaColumn.Proofs.Lookups
import Mathlib.Data.List.Forall2

/-!
# Integer results are exact

The evaluator computes on 64-bit integers, and an overflow is the only way in
which this shows. Compare a value with the one that the same evaluation gives
on unbounded integers (`Column.exactEval`): the two have the same shape, and
at every position the same integer or the same error, except where the
machine has an overflow (`Column.eval_exact`). And there is an overflow only
where the exact evaluation came across an integer that no 64-bit integer
equals.

Both are one statement about one relation. Values **agree unless**
(`Value.AgreesUnless`) something holds: a position with an overflow is let
pass, but only if it does hold. With `True` for it every overflow passes, with
`False` none does and the values are the same, and the induction goes through
with the truth in between, that an integer outside the range was met.

An overflow then needs no care at all: an operation hands on the overflow of
its left operand before it looks at the other, and a sum that stops at one
has looked at nothing behind it, so what the exact evaluation makes of the
rest does not matter.
-/

namespace FormulaColumn

/-- An integer in the range of the 64-bit integers. -/
def FitsInt64 (n : Int) : Prop :=
  Int64.minValue.toInt ≤ n ∧ n ≤ Int64.maxValue.toInt

/-- **An integer is narrowed to itself, or does not fit.** -/
theorem checked_eq_ok_or (n : Int) :
    (∃ x : Int64, checked n = .ok x ∧ x.toInt = n)
      ∨ checked n = .error .overflow ∧ ¬ FitsInt64 n := by
  unfold checked
  cases h : int64? n with
  | some x => exact Or.inl ⟨x, rfl, int64?_eq_some_iff.mp h⟩
  | none =>
    refine Or.inr ⟨rfl, fun hfits => ?_⟩
    rcases int64?_eq_none_iff.mp h with hlow | hhigh
    · exact Int.not_lt.mpr hfits.1 hlow
    · exact Int.not_le.mpr hhigh hfits.2

namespace Value

/-! ## Agreement -/

/-- **A value agrees with an exact one unless** `lost` holds: position for
position they are the same, and where the value has an overflow, `lost`
holds and the exact value may be anything. A list that agrees has items. -/
inductive AgreesUnless (lost : Prop) : Value → ExactValue → Prop where
  /-- An integer agrees with its value. -/
  | int (n : Int64) : AgreesUnless lost (.int n) (.int n.toInt)
  /-- Lists agree item by item. -/
  | list {items : List Value} {items' : List ExactValue} :
    items ≠ [] → List.Forall₂ (AgreesUnless lost) items items' →
    AgreesUnless lost (.list items) (.list items')
  /-- An error agrees with itself. -/
  | error (cause : CellError) : AgreesUnless lost (.error cause) (.error cause)
  /-- An overflow stands for anything. -/
  | overflow {w : ExactValue} :
    lost → AgreesUnless lost (.error .overflow) w

theorem AgreesUnless.eq_int {lost : Prop} {n : Int64} {w : ExactValue}
    (h : AgreesUnless lost (.int n) w) : w = .int n.toInt := by
  cases h
  rfl

mutual

/-- A value on unbounded integers. -/
def exact : Value → ExactValue
  | int n => .int n.toInt
  | list items => .list (exactItems items)
  | error cause => .error cause

/-- The items of a list on unbounded integers. -/
def exactItems : List Value → List ExactValue
  | [] => []
  | item :: items => item.exact :: exactItems items

end

mutual

/-- **Values that agree without exception** are the same. -/
theorem AgreesUnless.exact_eq : {v : Value} → {w : ExactValue} →
    AgreesUnless False v w → v.exact = w
  | .int n, _, h => by
    cases h
    rfl
  | .list items, _, h => by
    cases h with
    | list _ hitems => exact congrArg ExactValue.list (exactItems_eq hitems)
  | .error cause, _, h => by
    cases h with
    | error => rfl
    | overflow hlost => exact absurd hlost not_false

/-- Lists that agree without exception are the same. -/
theorem exactItems_eq : {items : List Value} → {items' : List ExactValue} →
    List.Forall₂ (AgreesUnless False) items items' →
    exactItems items = items'
  | [], _, h => by
    cases h
    rfl
  | item :: items, _, h => by
    cases h with
    | cons hitem hitems =>
      exact congr (congrArg List.cons hitem.exact_eq) (exactItems_eq hitems)

end

variable {lost : Prop}

/-! ## Operations -/

/-- The machine result of an operation is the exact one, or the exact one
does not fit. -/
theorem agreesUnless_apply {op : ArithOp} {a b : Int64}
    (hlost : ∀ n, op.exact a.toInt b.toInt = .ok n → ¬ FitsInt64 n → lost) :
    AgreesUnless lost (ofExcept (op.apply a b))
      (.ofExcept (op.exact a.toInt b.toInt)) := by
  unfold ArithOp.apply
  cases hexact : op.exact a.toInt b.toInt with
  | error cause => exact .error cause
  | ok n =>
    show AgreesUnless lost (ofExcept (checked n)) (.int n)
    rcases checked_eq_ok_or n with ⟨x, hx, rfl⟩ | ⟨hover, hfits⟩
    · rw [hx]
      exact .int x
    · rw [hover]
      exact .overflow (hlost n hexact hfits)

/-- **Operations keep agreement**, if a result that does not fit is
excused. -/
theorem AgreesUnless.arith {op : ArithOp} {v w : Value} {v' w' : ExactValue}
    (hleft : AgreesUnless lost v v') (hright : AgreesUnless lost w w')
    (hlost : ∀ a b n, v' = .int a → w' = .int b → op.exact a b = .ok n →
      ¬ FitsInt64 n → lost) :
    AgreesUnless lost (Value.arith op v w) (ExactValue.arith op v' w') := by
  cases hleft with
  | error cause => exact .error cause
  | overflow h => exact .overflow h
  | int a =>
    cases hright with
    | int b => exact agreesUnless_apply fun n => hlost _ _ n rfl rfl
    | list _ _ => exact .error _
    | error cause => exact .error cause
    | overflow h => exact .overflow h
  | list _ _ =>
    cases hright with
    | int b => exact .error _
    | list _ _ => exact .error _
    | error cause => exact .error cause
    | overflow h => exact .overflow h

/-! ## Functions -/

theorem operands_int (n : Int) (items : List ExactValue)
    (f : List Int → Except CellError Int) :
    ((.int n :: items).mapM ExactValue.operand >>= f)
      = (items.mapM ExactValue.operand >>= fun ns => f (n :: ns)) := by
  rw [List.mapM_cons]
  cases items.mapM ExactValue.operand <;> rfl

/-- **A sum agrees with the true one**, from whatever it starts with, if a
partial sum that does not fit is excused. -/
theorem agreesUnless_fold_sum {items : List Value} {items' : List ExactValue}
    (h : List.Forall₂ (AgreesUnless lost) items items') (start : Int64)
    (hlost : ∀ ns : List Int, ns.map ExactValue.int <+: items' →
      ¬ FitsInt64 (start.toInt + ns.sum) → lost) :
    AgreesUnless lost (ofExcept (Aggregate.sum.fold start items))
      (.ofExcept (items'.mapM ExactValue.operand >>= fun ns =>
        .ok (start.toInt + ns.sum))) := by
  induction h generalizing start with
  | nil =>
    show AgreesUnless lost (.int start) (.int (start.toInt + 0))
    rw [Int.add_zero]
    exact .int start
  | @cons item item' items items' hitem _ ih =>
    rw [Aggregate.fold_cons]
    cases hitem with
    | list _ _ => exact .error _
    | error cause => exact .error cause
    | overflow h => exact .overflow h
    | int n =>
      rw [operands_int]
      show AgreesUnless lost
        (ofExcept (checked (start.toInt + n.toInt) >>= fun current =>
          Aggregate.sum.fold current items)) _
      rcases checked_eq_ok_or (start.toInt + n.toInt) with
        ⟨current, hcurrent, hsum⟩ | ⟨hover, hfits⟩
      · -- the sum goes on from the partial sum, and so does the true one
        have hassoc : ∀ ns : List Int,
            start.toInt + (n.toInt :: ns).sum = current.toInt + ns.sum := by
          intro ns
          rw [List.sum_cons, ← Int.add_assoc, hsum]
        rw [hcurrent]
        simp only [hassoc]
        refine ih current fun ns hns hfits => hlost (n.toInt :: ns) ?_ ?_
        · exact List.cons_prefix_cons.mpr ⟨rfl, hns⟩
        · rw [hassoc]
          exact hfits
      · rw [hover]
        refine .overflow (hlost [n.toInt] ?_ ?_)
        · exact List.cons_prefix_cons.mpr ⟨rfl, List.nil_prefix⟩
        · rw [List.sum_cons, List.sum_nil, Int.add_zero]
          exact hfits

/-- The smaller of two integers, on unbounded integers. -/
theorem toInt_min (a b : Int64) :
    (if b < a then b else a).toInt = min a.toInt b.toInt := by
  by_cases h : b < a
  · rw [if_pos h]
    rw [Int64.lt_iff_toInt_lt] at h
    omega
  · rw [if_neg h]
    rw [Int64.lt_iff_toInt_lt] at h
    omega

/-- **A minimum agrees with the true one**, from whatever it starts with. -/
theorem agreesUnless_fold_min {items : List Value} {items' : List ExactValue}
    (h : List.Forall₂ (AgreesUnless lost) items items') (start : Int64) :
    AgreesUnless lost (ofExcept (Aggregate.min.fold start items))
      (.ofExcept (items'.mapM ExactValue.operand >>= fun ns =>
        .ok (ns.foldl min start.toInt))) := by
  induction h generalizing start with
  | nil => exact .int start
  | @cons item item' items items' hitem _ ih =>
    rw [Aggregate.fold_cons]
    cases hitem with
    | list _ _ => exact .error _
    | error cause => exact .error cause
    | overflow h => exact .overflow h
    | int n =>
      rw [operands_int]
      show AgreesUnless lost
        (ofExcept (Aggregate.min.fold (if n < start then n else start) items))
        (.ofExcept (items'.mapM ExactValue.operand >>= fun ns =>
          .ok (ns.foldl min (min start.toInt n.toInt))))
      rw [← toInt_min]
      exact ih _

/-- **The minimum of some values** agrees with the true one. What the fold
starts with is no smaller than the first value, and so it never shows. -/
theorem agreesUnless_min {items : List Value} {items' : List ExactValue}
    (hne : items ≠ []) (h : List.Forall₂ (AgreesUnless lost) items items') :
    AgreesUnless lost (Aggregate.min.apply items)
      (.ofExcept (items'.mapM ExactValue.operand >>= Aggregate.min.exact)) := by
  unfold Aggregate.apply
  cases h with
  | nil => exact absurd rfl hne
  | @cons item item' items items' hitem hitems =>
    rw [Aggregate.fold_cons]
    cases hitem with
    | list _ _ => exact .error _
    | error cause => exact .error cause
    | overflow h => exact .overflow h
    | int n =>
      have hseed : (if n < Int64.maxValue then n else Int64.maxValue) = n := by
        rw [← Int64.toInt_inj, toInt_min, Int64.toInt_maxValue]
        have hn := n.toInt_lt
        omega
      rw [operands_int]
      show AgreesUnless lost
        (ofExcept (Aggregate.min.fold
          (if n < Int64.maxValue then n else Int64.maxValue) items))
        (.ofExcept (items'.mapM ExactValue.operand >>= fun ns =>
          .ok (ns.foldl min n.toInt)))
      rw [hseed]
      exact agreesUnless_fold_min hitems n

/-- **Functions keep agreement**, if a partial sum that does not fit is
excused. -/
theorem AgreesUnless.call {function : String} {v : Value} {v' : ExactValue}
    (h : AgreesUnless lost v v')
    (hlost : ∀ (items' : List ExactValue) (ns : List Int), v' = .list items' →
      Aggregate.ofName? function = some .sum →
      ns.map ExactValue.int <+: items' → ¬ FitsInt64 ns.sum → lost) :
    AgreesUnless lost (Value.call function v) (ExactValue.call function v') := by
  cases h with
  | int n => exact .error _
  | error cause => exact .error cause
  | overflow h => exact .overflow h
  | @list items items' hne hitems =>
    unfold Value.call ExactValue.call
    dsimp only
    cases hname : Aggregate.ofName? function with
    | none => exact .error _
    | some aggregate =>
      cases aggregate with
      | min => exact agreesUnless_min hne hitems
      | sum =>
        have hzero : ∀ ns : List Int, (0 : Int64).toInt + ns.sum = ns.sum :=
          fun ns => Int.zero_add _
        have hsum := agreesUnless_fold_sum hitems 0 fun ns hns hfits =>
          hlost items' ns rfl hname hns (hzero ns ▸ hfits)
        simp only [hzero] at hsum
        exact hsum

end Value

/-! ## Expressions -/

/-- **Expressions keep agreement** of the rows they look up, if what is met
on the way and does not fit is excused. -/
theorem Expression.agreesUnless_valueWith {column : Column} {chain : List Nat}
    {lost : Prop}
    (hrow : ∀ s, (∀ e n, s ∉ chain → column.formula? s = some e →
        column.Meets (s :: chain) e n → ¬ FitsInt64 n → lost) →
      (column.rowValue chain s).AgreesUnless lost (column.exactRow chain s))
    {e : Expression}
    (hlost : ∀ n, column.Meets chain e n → ¬ FitsInt64 n → lost) :
    (e.valueWith column.length (column.rowValue chain)).AgreesUnless lost
      (e.exactWith column.length (column.exactRow chain)) := by
  induction e with
  | number value => exact .int value
  | reference c row =>
    by_cases hc : c = Column.letter
    · subst hc
      rw [valueWith_reference, exactWith, if_pos rfl]
      exact hrow _ fun e n hchain he hn =>
        hlost n (.row hchain he hn)
    · rw [valueWith_otherColumn hc, exactWith, if_neg hc]
      exact .error _
  | arith op left right ihleft ihright =>
    refine .arith (ihleft fun n hn => hlost n (.left hn))
      (ihright fun n hn => hlost n (.right hn)) ?_
    exact fun a b n ha hb hn => hlost n (.result ha hb hn)
  | range first last _ _ =>
    unfold exactWith
    cases hrows : rangeRows? first last with
    | none =>
      rw [valueWith_range_of_none hrows]
      exact .error _
    | some ends =>
      obtain ⟨lo, hi⟩ := ends
      by_cases hhi : hi < column.length
      · rw [valueWith_range_of_lt hrows hhi]
        dsimp only
        rw [if_pos hhi]
        have hle : lo ≤ hi := Column.le_of_rangeRows? hrows
        refine .list ?_ ?_
        · rw [Ne, List.map_eq_nil_iff, List.range'_eq_nil_iff]
          omega
        · rw [List.forall₂_map_left_iff, List.forall₂_map_right_iff,
            List.forall₂_same]
          intro s hs
          obtain ⟨hlo, hshi⟩ := mem_range'_iff.mp hs
          exact hrow s fun e n hchain he hn =>
            hlost n (.item hrows hhi hlo hshi hchain he hn)
      · rw [valueWith_range_of_not_lt hrows hhi]
        dsimp only
        rw [if_neg hhi]
        exact .error _
  | call function argument ih =>
    refine .call (ih fun n hn => hlost n (.argument hn)) ?_
    exact fun items' ns hitems hname hns =>
      hlost _ (.partialSum hitems hname hns)

namespace Column

/-- **A row agrees with its exact value**, if what is met in it and does not
fit is excused. The induction is on the evaluation of the row. -/
theorem agreesUnless_rowValue {column : Column} {lost : Prop}
    {chain : List Nat} {row : Nat}
    (hlost : ∀ e n, row ∉ chain → column.formula? row = some e →
      column.Meets (row :: chain) e n → ¬ FitsInt64 n → lost) :
    (column.rowValue chain row).AgreesUnless lost
      (column.exactRow chain row) := by
  induction chain, row using follow.induct column with
  | case1 chain row hmem =>
    rw [rowValue_of_mem hmem, exactRow_of_mem hmem]
    exact .error _
  | case2 chain row hmem e he ih =>
    rw [rowValue_of_some hmem he, exactRow_of_some hmem he]
    exact Expression.agreesUnless_valueWith (fun s hs => ih s hs)
      fun n hn => hlost e n hmem he hn
  | case3 chain row hmem hnone =>
    rw [rowValue_of_none hmem hnone, exactRow_of_none hmem hnone]
    exact .error _

/-- **Integer results are exact**, in every column and for every expression.
The value agrees with the one on unbounded integers, position for position,
unless it has an overflow there, and then the exact evaluation met an integer
that does not fit; in particular an integer that is the result is the exact
result. Where the exact evaluation meets only integers that fit, the two
values are the same. -/
theorem eval_exact (column : Column) (e : Expression) :
    (column.eval e).value.AgreesUnless
        (∃ n, column.Meets [] e n ∧ ¬ FitsInt64 n) (column.exactEval e)
      ∧ (∀ n, (column.eval e).value = .int n →
        column.exactEval e = .int n.toInt)
      ∧ ((∀ n, column.Meets [] e n → FitsInt64 n) →
        (column.eval e).value.exact = column.exactEval e) := by
  have hagrees : ∀ lost : Prop,
      (∀ n, column.Meets [] e n → ¬ FitsInt64 n → lost) →
      (column.eval e).value.AgreesUnless lost (column.exactEval e) := by
    intro lost hlost
    rw [value_eval]
    exact Expression.agreesUnless_valueWith
      (fun s hs => agreesUnless_rowValue hs) hlost
  refine ⟨hagrees _ fun n hn hfits => ⟨n, hn, hfits⟩, fun n hn => ?_,
    fun hfits => ?_⟩
  · have hint := hagrees True fun _ _ _ => trivial
    rw [hn] at hint
    exact hint.eq_int
  · exact (hagrees False fun n hn hnot => hnot (hfits n hn)).exact_eq

end Column

end FormulaColumn
