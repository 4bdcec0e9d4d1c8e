import FormulaColumn.Proofs.Exactness
import Mathlib.Order.Nat

/-!
# What a function makes of a list

A function goes through a list once, with an integer so far, and it may stop
in three ways: at an error, at a list, and, if it is the sum, at an integer
with which the sum is too large or too small. What it comes to is said here
without the loop, by the positions of the list.

A position **offends** if the item at it has one of these kinds
(`Aggregate.Offends`); whether an integer does is a question about the exact
sum up to it, so a sum that fits in the end may offend on the way. Before the
leftmost offending position the function has taken integers only, and what it
has is their sum or the least of them (`Aggregate.HasAfter`): this is the
invariant of the loop, and it is kept by each item that does not offend. At the
leftmost offending position the function stops, so what comes after it is not
looked at. Where no position offends, the invariant at the end of the list is
the result.
-/

namespace FormulaColumn

namespace Aggregate

/-- **The exact sum** of the integers among some values. -/
def total (items : List Value) : Int :=
  ((items.filterMap Value.asInt).map Int64.toInt).sum

/-- **A position offends**, with an error: it is where a function stops if it
comes there. -/
inductive Offends (function : Aggregate) (items : List Value) (i : Nat) :
    CellError → Prop where
  /-- An error is handed on. -/
  | error {cause : CellError} :
    items[i]? = some (.error cause) → Offends function items i cause
  /-- A list is no operand. -/
  | list {inner : List Value} :
    items[i]? = some (.list inner) → Offends function items i .invalidOperands
  /-- An integer with which the sum does not fit. -/
  | overflow {n : Int64} :
    function = sum → items[i]? = some (.int n) →
    ¬ FitsInt64 (total (items.take (i + 1))) → Offends function items i .overflow

/-- **The leftmost position that offends**, and its error. -/
structure StopsAt (function : Aggregate) (items : List Value) (i : Nat)
    (cause : CellError) : Prop where
  /-- The position offends. -/
  offends : function.Offends items i cause
  /-- No position before it does. -/
  leftmost : ∀ j < i, ∀ other, ¬ function.Offends items j other

/-- **What a function has after some integers**: their sum, or the least of
them. After none, a minimum is the largest integer there is. -/
def HasAfter : Aggregate → List Value → Int64 → Prop
  | sum, items, n => n.toInt = total items
  | min, items, n =>
    (∀ m, .int m ∈ items → n ≤ m)
      ∧ (.int n ∈ items ∨ items = [] ∧ n = Int64.maxValue)

variable {function : Aggregate} {items : List Value} {i : Nat}
  {cause : CellError}

/-! ## One more item -/

theorem total_concat (items : List Value) (n : Int64) :
    total (items ++ [.int n]) = total items + n.toInt := by
  simp [total, Value.asInt]

theorem fold_append (start : Int64) (items items' : List Value) :
    function.fold start (items ++ items')
      = function.fold start items >>= fun current =>
          function.fold current items' :=
  List.foldlM_append

/-- The items up to a position are those before it and the one at it. -/
theorem take_succ_of_getElem? {item : Value} (h : items[i]? = some item) :
    items.take (i + 1) = items.take i ++ [item] := by
  rw [List.take_add_one, h]
  rfl

theorem fitsInt64_toInt (n : Int64) : FitsInt64 n.toInt := by
  have hlow := n.le_toInt
  have hhigh := n.toInt_lt
  rw [FitsInt64, Int64.toInt_minValue, Int64.toInt_maxValue]
  omega

/-- **An item that does not offend** is an integer. -/
theorem exists_int_of_not_offends (hi : i < items.length)
    (h : ∀ cause, ¬ function.Offends items i cause) :
    ∃ n, items[i]? = some (.int n) := by
  have hitem : items[i]? = some items[i] := List.getElem?_eq_getElem hi
  cases hkind : items[i] with
  | int n => exact ⟨n, hkind ▸ hitem⟩
  | list inner => exact absurd (.list (hkind ▸ hitem)) (h .invalidOperands)
  | error cause => exact absurd (.error (hkind ▸ hitem)) (h cause)

theorem HasAfter.toInt_add {current : Int64} (h : sum.HasAfter items current)
    (n : Int64) : current.toInt + n.toInt = total (items ++ [.int n]) := by
  rw [total_concat, show current.toInt = total items from h]

/-- A sum that does not fit is an overflow. -/
theorem HasAfter.combine_eq_overflow {current n : Int64}
    (h : sum.HasAfter items current)
    (hover : ¬ FitsInt64 (total (items ++ [.int n]))) :
    sum.combine current n = .error .overflow := by
  rw [← h.toInt_add] at hover
  rcases checked_eq_ok_or (current.toInt + n.toInt) with
    ⟨next, -, hfits⟩ | ⟨hchecked, -⟩
  · exact absurd (hfits ▸ fitsInt64_toInt next) hover
  · exact hchecked

/-- **The invariant is kept by one more integer**, if it does not offend: the
function goes on, and has what it should. -/
theorem HasAfter.combine {current n : Int64}
    (h : function.HasAfter items current)
    (hfits : function = sum → FitsInt64 (total (items ++ [.int n]))) :
    ∃ next, function.combine current n = .ok next
      ∧ function.HasAfter (items ++ [.int n]) next := by
  cases function with
  | sum =>
    rcases checked_eq_ok_or (current.toInt + n.toInt) with
      ⟨next, hnext, htotal⟩ | ⟨-, hover⟩
    · exact ⟨next, hnext, htotal.trans (h.toInt_add n)⟩
    · exact absurd (h.toInt_add n ▸ hfits rfl) hover
  | min =>
    obtain ⟨hleast, hmem⟩ := h
    refine ⟨_, rfl, fun m hm => ?_, Or.inl ?_⟩
    · rw [Int64.le_iff_toInt_le, Value.toInt_min]
      rcases List.mem_append.mp hm with hm | hm
      · have hle := Int64.le_iff_toInt_le.mp (hleast m hm)
        omega
      · cases List.mem_singleton.mp hm
        omega
    · by_cases hlt : n < current
      · rw [if_pos hlt]
        exact List.mem_append_right _ List.mem_cons_self
      · rw [if_neg hlt]
        rcases hmem with hmem | ⟨rfl, rfl⟩
        · exact List.mem_append_left _ hmem
        · -- an integer that is not below the largest one is the largest one
          have hmax : n = Int64.maxValue := by
            rw [Int64.lt_iff_toInt_lt] at hlt
            rw [← Int64.toInt_inj, Int64.toInt_maxValue]
            rw [Int64.toInt_maxValue] at hlt
            have hn := n.toInt_lt
            omega
          rw [hmax]
          exact List.mem_cons_self

/-! ## The function up to a position -/

/-- **The invariant of the loop**: if no position before `i` offends, the
function takes the items before it, and has their sum or the least of them.
The induction is on the position. -/
theorem exists_fold_take (hi : i ≤ items.length)
    (h : ∀ j < i, ∀ cause, ¬ function.Offends items j cause) :
    ∃ current, function.fold function.seed (items.take i) = .ok current
      ∧ function.HasAfter (items.take i) current := by
  induction i with
  | zero =>
    refine ⟨function.seed, rfl, ?_⟩
    cases function with
    | sum => rfl
    | min => exact ⟨fun m hm => absurd hm List.not_mem_nil, Or.inr ⟨rfl, rfl⟩⟩
  | succ i ih =>
    obtain ⟨current, hfold, hhas⟩ := ih (by omega) fun j hj => h j (by omega)
    obtain ⟨n, hn⟩ := exists_int_of_not_offends hi (h i (Nat.lt_succ_self i))
    have htake := take_succ_of_getElem? hn
    have hfits : function = sum →
        FitsInt64 (total (items.take i ++ [.int n])) := by
      intro hsum
      rw [← htake]
      exact Classical.byContradiction fun hover =>
        h i (Nat.lt_succ_self i) .overflow (.overflow hsum hn hover)
    obtain ⟨next, hnext, hhas'⟩ := hhas.combine hfits
    refine ⟨next, ?_, htake ▸ hhas'⟩
    rw [htake, fold_append, hfold]
    show function.combine current n >>= _ = _
    rw [hnext]
    rfl

/-- A function goes through the items before a position, then the item at it,
and then the others. -/
theorem fold_eq_of_getElem? {item : Value} (hitem : items[i]? = some item)
    (start : Int64) :
    function.fold start items
      = function.fold start (items.take i) >>= fun current =>
          function.fold current (item :: items.drop (i + 1)) := by
  obtain ⟨hi, rfl⟩ := List.getElem?_eq_some_iff.mp hitem
  rw [← List.drop_eq_getElem_cons hi, ← fold_append, List.take_append_drop]

/-- A position that offends is one of the list. -/
theorem Offends.exists_getElem? (h : function.Offends items i cause) :
    ∃ item, items[i]? = some item := by
  cases h with
  | error hitem => exact ⟨_, hitem⟩
  | list hitem => exact ⟨_, hitem⟩
  | overflow _ hitem _ => exact ⟨_, hitem⟩

/-- **A function stops at the leftmost position that offends**, with its
error. -/
theorem StopsAt.apply_eq (h : function.StopsAt items i cause) :
    function.apply items = .error cause := by
  obtain ⟨item, hitem⟩ := h.offends.exists_getElem?
  obtain ⟨hi, -⟩ := List.getElem?_eq_some_iff.mp hitem
  obtain ⟨current, hfold, hhas⟩ :=
    exists_fold_take (Nat.le_of_lt hi) h.leftmost
  have hstop : ∀ item, items[i]? = some item →
      function.fold function.seed items
        = function.fold current (item :: items.drop (i + 1)) := by
    intro item hitem
    rw [fold_eq_of_getElem? hitem, hfold]
    rfl
  unfold apply
  cases h.offends with
  | error hitem =>
    rw [hstop _ hitem]
    rfl
  | list hitem =>
    rw [hstop _ hitem]
    rfl
  | @overflow n hsum hitem hover =>
    subst hsum
    rw [take_succ_of_getElem? hitem] at hover
    rw [hstop _ hitem]
    show Value.ofExcept (sum.combine current n >>= _) = _
    rw [hhas.combine_eq_overflow hover]
    rfl

/-! ## The list as a whole -/

/-- Whether a position offends depends on the items up to it only. -/
theorem Offends.congr {items' : List Value} {j : Nat}
    (h : function.Offends items j cause) (hj : j ≤ i)
    (hsame : items'.take (i + 1) = items.take (i + 1)) :
    function.Offends items' j cause := by
  have hitem : items'[j]? = items[j]? := by
    rw [← List.getElem?_take_of_lt (Nat.lt_succ_of_le hj), hsame,
      List.getElem?_take_of_lt (Nat.lt_succ_of_le hj)]
  have htake : items'.take (j + 1) = items.take (j + 1) := by
    have htwice : ∀ l : List Value, (l.take (i + 1)).take (j + 1)
        = l.take (j + 1) := by
      intro l
      rw [List.take_take, Nat.min_eq_left (Nat.succ_le_succ hj)]
    rw [← htwice, hsame, htwice]
  cases h with
  | error h => exact .error (hitem.trans h)
  | list h => exact .list (hitem.trans h)
  | overflow hsum h hover => exact .overflow hsum (hitem.trans h) (htake ▸ hover)

/-- **What comes after the position where a function stops** does not
matter. -/
theorem StopsAt.congr {items' : List Value} (h : function.StopsAt items i cause)
    (hsame : items'.take (i + 1) = items.take (i + 1)) :
    function.StopsAt items' i cause where
  offends := h.offends.congr le_rfl hsame
  leftmost j hj other hother :=
    h.leftmost j hj other (hother.congr (Nat.le_of_lt hj) hsame.symm)

/-- **A function stops somewhere**, or no position offends. -/
theorem exists_stopsAt_or (function : Aggregate) (items : List Value) :
    (∃ i cause, function.StopsAt items i cause)
      ∨ ∀ i cause, ¬ function.Offends items i cause := by
  classical
  by_cases h : ∃ i cause, function.Offends items i cause
  · obtain ⟨cause, hcause⟩ := Nat.find_spec h
    refine Or.inl ⟨Nat.find h, cause, hcause, fun j hj other hother => ?_⟩
    exact Nat.find_min h hj ⟨other, hother⟩
  · exact Or.inr fun i cause hcause => h ⟨i, cause, hcause⟩

/-- **No position offends** in a list of integers only, of which each partial
sum fits if the function is the sum. -/
theorem forall_not_offends_iff :
    (∀ i cause, ¬ function.Offends items i cause)
      ↔ (∀ item ∈ items, ∃ n, item = .int n)
        ∧ (function = sum →
          ∀ i ≤ items.length, FitsInt64 (total (items.take i))) := by
  constructor
  · intro h
    have hint : ∀ i < items.length, ∃ n, items[i]? = some (.int n) :=
      fun i hi => exists_int_of_not_offends hi (h i)
    refine ⟨fun item hitem => ?_, fun hsum i hi => ?_⟩
    · obtain ⟨i, hi, rfl⟩ := List.getElem_of_mem hitem
      obtain ⟨n, hn⟩ := hint i hi
      exact ⟨n, Option.some.inj ((List.getElem?_eq_getElem hi).symm.trans hn)⟩
    · cases i with
      | zero => exact fitsInt64_toInt 0
      | succ i =>
        obtain ⟨n, hn⟩ := hint i hi
        exact Classical.byContradiction fun hover =>
          h i .overflow (.overflow hsum hn hover)
  · rintro ⟨hint, hfits⟩ i cause (h | h | ⟨hsum, h, hover⟩)
    · obtain ⟨n, hn⟩ := hint _ (List.mem_of_getElem? h)
      cases hn
    · obtain ⟨n, hn⟩ := hint _ (List.mem_of_getElem? h)
      cases hn
    · obtain ⟨hi, -⟩ := List.getElem?_eq_some_iff.mp h
      exact hover (hfits hsum (i + 1) hi)

/-- A function has one integer at most after some integers. -/
theorem HasAfter.unique {n m : Int64} (hn : function.HasAfter items n)
    (hm : function.HasAfter items m) : n = m := by
  cases function with
  | sum => exact Int64.toInt_inj.mp (hn.trans hm.symm)
  | min =>
    obtain ⟨hleast, hmem⟩ := hn
    obtain ⟨hleast', hmem'⟩ := hm
    rcases hmem with hmem | ⟨rfl, rfl⟩
    · rcases hmem' with hmem' | ⟨rfl, -⟩
      · exact Int64.le_antisymm (hleast m hmem') (hleast' n hmem)
      · exact absurd hmem List.not_mem_nil
    · rcases hmem' with hmem' | ⟨-, rfl⟩
      · exact absurd hmem' List.not_mem_nil
      · rfl

/-- Where no position offends, a function comes to what it has after the whole
list. -/
theorem exists_apply_eq_int
    (h : ∀ i cause, ¬ function.Offends items i cause) :
    ∃ n, function.apply items = .int n ∧ function.HasAfter items n := by
  obtain ⟨n, hfold, hhas⟩ := exists_fold_take (le_refl items.length)
    fun j _ => h j
  rw [List.take_length] at hfold hhas
  refine ⟨n, ?_, hhas⟩
  rw [apply, hfold]
  rfl

/-- **A function comes to an integer exactly if no position offends**, and
then to what it has after the whole list. -/
theorem apply_eq_int_iff {n : Int64} :
    function.apply items = .int n
      ↔ (∀ i cause, ¬ function.Offends items i cause)
        ∧ function.HasAfter items n := by
  constructor
  · intro h
    rcases exists_stopsAt_or function items with ⟨i, cause, hstop⟩ | hnone
    · cases h.symm.trans hstop.apply_eq
    · obtain ⟨m, hm, hhas⟩ := exists_apply_eq_int hnone
      cases h.symm.trans hm
      exact ⟨hnone, hhas⟩
  · rintro ⟨hnone, hhas⟩
    obtain ⟨m, hm, hhas'⟩ := exists_apply_eq_int hnone
    rw [hm, hhas.unique hhas']

/-- **A function comes to an error exactly if it stops** with this error, at
some position. -/
theorem apply_eq_error_iff :
    function.apply items = .error cause
      ↔ ∃ i, function.StopsAt items i cause := by
  constructor
  · intro h
    rcases exists_stopsAt_or function items with ⟨i, other, hstop⟩ | hnone
    · cases h.symm.trans hstop.apply_eq
      exact ⟨i, hstop⟩
    · obtain ⟨n, hn, -⟩ := exists_apply_eq_int hnone
      cases h.symm.trans hn
  · rintro ⟨i, hstop⟩
    exact hstop.apply_eq

/-- **The outcome of a function on a list of values.** The sum is the integer
`n` exactly if all values are integers, every partial sum from the left fits
in 64 bits, and `n` is the sum of all. The minimum is `n` exactly if all values
are integers and `n` is the least of them, or the largest integer if there are
none. In every other case there is a leftmost position that offends, and it
decides: the result is its error, whatever comes after it. -/
theorem apply_outcome (items : List Value) :
    (∀ n, sum.apply items = .int n
        ↔ (∀ item ∈ items, ∃ m, item = .int m)
          ∧ (∀ i ≤ items.length, FitsInt64 (total (items.take i)))
          ∧ n.toInt = total items)
      ∧ (∀ n, min.apply items = .int n
        ↔ (∀ item ∈ items, ∃ m, item = .int m)
          ∧ (∀ m, .int m ∈ items → n ≤ m)
          ∧ (.int n ∈ items ∨ items = [] ∧ n = Int64.maxValue))
      ∧ ∀ function : Aggregate,
        ((∃ n, function.apply items = .int n)
            ∨ ∃ i cause, function.StopsAt items i cause)
          ∧ (∀ cause, function.apply items = .error cause
            ↔ ∃ i, function.StopsAt items i cause)
          ∧ ∀ i cause, function.StopsAt items i cause →
            ∀ items' : List Value, items'.take (i + 1) = items.take (i + 1) →
              function.apply items' = .error cause := by
  refine ⟨fun n => ?_, fun n => ?_, fun function => ⟨?_, fun cause => ?_, ?_⟩⟩
  · rw [apply_eq_int_iff, forall_not_offends_iff, and_assoc]
    simp only [true_implies]
    rfl
  · rw [apply_eq_int_iff, forall_not_offends_iff, and_assoc]
    simp only [reduceCtorEq, false_implies, true_and]
    rfl
  · rcases exists_stopsAt_or function items with hstop | hnone
    · exact Or.inr hstop
    · obtain ⟨n, hn, -⟩ := exists_apply_eq_int hnone
      exact Or.inl ⟨n, hn⟩
  · exact apply_eq_error_iff
  · intro i cause hstop items' hsame
    exact (hstop.congr hsame).apply_eq

/-- A sum that fits in the end may overflow on the way, and then the error
after it does not show. -/
example : sum.apply [.int Int64.maxValue, .int 1, .int (-1), .error .divisionByZero]
    = .error .overflow := rfl

end Aggregate

end FormulaColumn
