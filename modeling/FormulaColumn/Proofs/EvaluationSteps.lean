import FormulaColumn.Proofs.Lookups
import Mathlib.Data.List.Nodup
import Mathlib.Data.List.Perm.Subperm

/-!
# Evaluation, one step at a time

The evaluation of an expression is a recursion that hands the chain of the
rows under evaluation down, so it cannot leave a chain behind that differs
from the one it was given. Here there is one chain for the whole evaluation,
and it is changed: a row is put on it where a reference is followed, and it is
taken off where the value of the row is there. What waits for a value is a
list of tasks, and a step looks at nothing but what is to be done next
(`Column.step`).

Nothing in a step says that steps come to an end, or that a row is taken off
when it should be. Both are proved from **coming back** (`Column.ComesBack`):
an expression that is evaluated, and a row that is looked up, come to the value
and the records that the recursion gives them, with the same tasks and the same
chain as before, whatever these are. So every run ends
(`Column.wellFounded_step`), and a look-up of the right operand sees the chain
that the left operand was evaluated with.

The guard keeps the chain what it should be (`Column.Guarded`): no row is on it
twice, and all of its rows are filled. So a chain is never longer than the
filled rows are many, however the rows refer to each other.
-/

namespace FormulaColumn

open Relation (ReflTransGen)

/-! ## Steps -/

/-- **What is done with a value** that an evaluation waits for. -/
inductive Task where
  /-- It is the value of a left operand: evaluate the right one. -/
  | evalRight (op : ArithOp) (right : Expression)
  /-- It is the value of a right operand: apply the operator. -/
  | applyArith (op : ArithOp) (left : Value)
  /-- It is the value of an argument: apply the function. -/
  | applyCall (function : String)
  /-- It is the value of a row of a range, after those of the rows before it:
  look up the rows that are left. -/
  | collect (before : List Value) (rows : List Nat)
  /-- It is the value of the row that was put on the chain last: take the row
  off. -/
  | leave

/-- **What an evaluation does next.** -/
inductive Action where
  /-- Evaluate an expression. -/
  | enter (e : Expression)
  /-- Look up a row that is referred to. -/
  | lookUp (row : Nat)
  /-- Give a value to the innermost task. -/
  | give (v : Value)

/-- **An evaluation between two steps.** -/
structure Moment where
  /-- What is done next. -/
  action : Action
  /-- What waits for the value of the action, the innermost first. -/
  tasks : List Task
  /-- The rows under evaluation, the innermost first. -/
  chain : List Nat
  /-- What has been recorded. -/
  log : List LogRecord

/-- How many rows are left when the tasks are done: as many references are
being followed. -/
def Moment.depth (m : Moment) : Nat :=
  m.tasks.countP fun task => task matches .leave

namespace Column

/-- **The next step of an evaluation**, if it has not ended. -/
def step (column : Column) : Moment → Option Moment
  | ⟨.enter (.number n), tasks, chain, log⟩ =>
    some ⟨.give (.int n), tasks, chain, log⟩
  | ⟨.enter (.reference c row), tasks, chain, log⟩ =>
    if c = letter then
      some ⟨.lookUp row.toNat, tasks, chain, log⟩
    else
      some ⟨.give (.error .couldNotEvaluate), tasks, chain,
        log ++ [.otherColumn c row]⟩
  | ⟨.enter (.arith op left right), tasks, chain, log⟩ =>
    some ⟨.enter left, .evalRight op right :: tasks, chain, log⟩
  | ⟨.enter (.range first last), tasks, chain, log⟩ =>
    match Expression.rangeRows? first last with
    | none => some ⟨.give (.error .invalidRange), tasks, chain, log⟩
    | some (lo, hi) =>
      if hi < column.length then
        some ⟨.lookUp lo, .collect [] (List.range' (lo + 1) (hi - lo)) :: tasks,
          chain, log⟩
      else
        some ⟨.give (.error .invalidReference), tasks, chain, log⟩
  | ⟨.enter (.call function argument), tasks, chain, log⟩ =>
    some ⟨.enter argument, .applyCall function :: tasks, chain, log⟩
  | ⟨.lookUp row, tasks, chain, log⟩ =>
    if row ∈ chain then
      some ⟨.give (.error .cyclicReference), tasks, chain,
        log ++ [.cycle row chain.reverse]⟩
    else
      match column.formula? row with
      | some e => some ⟨.enter e, .leave :: tasks, row :: chain, log⟩
      | none =>
        some ⟨.give (.error .invalidReference), tasks, chain,
          log ++ [.noFormula row]⟩
  | ⟨.give v, .evalRight op right :: tasks, chain, log⟩ =>
    some ⟨.enter right, .applyArith op v :: tasks, chain, log⟩
  | ⟨.give v, .applyArith op left :: tasks, chain, log⟩ =>
    some ⟨.give (.arith op left v), tasks, chain, log⟩
  | ⟨.give v, .applyCall function :: tasks, chain, log⟩ =>
    some ⟨.give (.call function v), tasks, chain, log⟩
  | ⟨.give v, .collect before (row :: rows) :: tasks, chain, log⟩ =>
    some ⟨.lookUp row, .collect (before ++ [v]) rows :: tasks, chain, log⟩
  | ⟨.give v, .collect before [] :: tasks, chain, log⟩ =>
    some ⟨.give (.list (before ++ [v])), tasks, chain, log⟩
  | ⟨.give v, .leave :: tasks, chain, log⟩ =>
    some ⟨.give v, tasks, chain.tail, log⟩
  | ⟨.give _, [], _, _⟩ => none

variable {column : Column}

/-- One moment of an evaluation is reached from another. -/
abbrev Reaches (column : Column) : Moment → Moment → Prop :=
  ReflTransGen fun m m' => column.step m = some m'

/-- **An evaluation ends** where a value is there and no task waits for it, and
nowhere else. -/
theorem step_eq_none_iff {m : Moment} :
    column.step m = none ↔ (∃ v, m.action = .give v) ∧ m.tasks = [] := by
  fun_cases step column m <;> simp

/-! ## Coming back -/

/-- **An action comes back** with a value and records: they are reached from
it, with the tasks that wait and the chain as they were before. -/
def ComesBack (column : Column) (chain : List Nat) (action : Action)
    (result : Logged Value) : Prop :=
  ∀ tasks log, column.Reaches ⟨action, tasks, chain, log⟩
    ⟨.give result.value, tasks, chain, log ++ result.log⟩

/-- An action that gives a value at once comes back with it. -/
theorem comesBack_of_step {chain : List Nat} {action : Action}
    {result : Logged Value}
    (h : ∀ tasks log, column.step ⟨action, tasks, chain, log⟩
      = some ⟨.give result.value, tasks, chain, log ++ result.log⟩) :
    column.ComesBack chain action result :=
  fun tasks log => .single (h tasks log)

/-- **The rows of a range come back** one after the other, if each of them
does. -/
theorem reaches_collect {chain : List Nat} {lookup : Nat → Logged Value}
    (hlookup : ∀ row, column.ComesBack chain (.lookUp row) (lookup row))
    (row : Nat) (rows : List Nat) (before : List Value) (tasks : List Task)
    (log : List LogRecord) :
    column.Reaches ⟨.lookUp row, .collect before rows :: tasks, chain, log⟩
      ⟨.give (.list (before ++ (row :: rows).map fun s => (lookup s).value)),
        tasks, chain, log ++ (row :: rows).flatMap fun s => (lookup s).log⟩ := by
  induction rows generalizing row before log with
  | nil =>
    have hrow := hlookup row (.collect before [] :: tasks) log
    have hlist : column.step ⟨.give (lookup row).value,
        .collect before [] :: tasks, chain, log ++ (lookup row).log⟩
          = some ⟨.give (.list (before ++ [(lookup row).value])), tasks, chain,
            log ++ (lookup row).log⟩ := rfl
    simpa using hrow.tail hlist
  | cons next rows ih =>
    have hrow := hlookup row (.collect before (next :: rows) :: tasks) log
    have hnext : column.step ⟨.give (lookup row).value,
        .collect before (next :: rows) :: tasks, chain,
        log ++ (lookup row).log⟩
          = some ⟨.lookUp next,
            .collect (before ++ [(lookup row).value]) rows :: tasks, chain,
            log ++ (lookup row).log⟩ := rfl
    have hrest := ih next (before ++ [(lookup row).value])
      (log ++ (lookup row).log)
    simpa using (hrow.tail hnext).trans hrest

theorem range'_eq_cons {lo hi : Nat} (hle : lo ≤ hi) :
    List.range' lo (hi + 1 - lo) = lo :: List.range' (lo + 1) (hi - lo) := by
  rw [show hi + 1 - lo = (hi - lo) + 1 by omega, List.range'_succ]

/-- A range that ends before the column does is looked up from its first row
on. -/
theorem step_range_of_lt {first last : Expression} {lo hi : Nat}
    (hrows : Expression.rangeRows? first last = some (lo, hi))
    (hhi : hi < column.length) {chain : List Nat} (tasks : List Task)
    (log : List LogRecord) :
    column.step ⟨.enter (.range first last), tasks, chain, log⟩
      = some ⟨.lookUp lo, .collect [] (List.range' (lo + 1) (hi - lo)) :: tasks,
        chain, log⟩ := by
  simp [step, hrows, hhi]

/-- A row that holds a formula and is not being evaluated is followed. -/
theorem step_lookUp_of_some {chain : List Nat} {row : Nat} {e : Expression}
    (hmem : row ∉ chain) (he : column.formula? row = some e) (tasks : List Task)
    (log : List LogRecord) :
    column.step ⟨.lookUp row, tasks, chain, log⟩
      = some ⟨.enter e, .leave :: tasks, row :: chain, log⟩ := by
  simp [step, hmem, he]

/-- **An expression comes back** with its value, if the rows do that are looked
up. The induction is on the expression: a right operand is evaluated with the
chain that the left one came back with. -/
theorem comesBack_enter {chain : List Nat} {lookup : Nat → Logged Value}
    (hlookup : ∀ row, column.ComesBack chain (.lookUp row) (lookup row))
    (e : Expression) :
    column.ComesBack chain (.enter e) (e.evalWith column.length lookup) := by
  induction e with
  | number n =>
    refine comesBack_of_step fun tasks log => ?_
    simp [step, Expression.evalWith]
  | reference c row =>
    by_cases hc : c = letter
    · intro tasks log
      have hfollow : column.step ⟨.enter (.reference c row), tasks, chain, log⟩
          = some ⟨.lookUp row.toNat, tasks, chain, log⟩ := if_pos hc
      rw [Expression.evalWith, if_pos hc]
      exact .head hfollow (hlookup row.toNat tasks log)
    · refine comesBack_of_step fun tasks log => ?_
      simp [step, Expression.evalWith, hc]
  | arith op left right ihleft ihright =>
    intro tasks log
    have hleft := ihleft (.evalRight op right :: tasks) log
    have hright := ihright
      (.applyArith op (left.evalWith column.length lookup).value :: tasks)
      (log ++ (left.evalWith column.length lookup).log)
    refine .head (b := ⟨.enter left, .evalRight op right :: tasks, chain, log⟩)
      rfl (hleft.trans (.head rfl (hright.tail ?_)))
    simp [step, Expression.evalWith]
  | range first last _ _ =>
    cases hrows : Expression.rangeRows? first last with
    | none =>
      refine comesBack_of_step fun tasks log => ?_
      simp [step, Expression.evalWith, hrows]
    | some ends =>
      obtain ⟨lo, hi⟩ := ends
      by_cases hhi : hi < column.length
      · intro tasks log
        have hlist := reaches_collect hlookup lo
          (List.range' (lo + 1) (hi - lo)) [] tasks log
        rw [← range'_eq_cons (le_of_rangeRows? hrows)] at hlist
        refine .head (step_range_of_lt hrows hhi tasks log) ?_
        simpa [Expression.evalWith, hrows, hhi] using hlist
      · refine comesBack_of_step fun tasks log => ?_
        simp [step, Expression.evalWith, hrows, hhi]
  | call function argument ih =>
    intro tasks log
    refine .head (b := ⟨.enter argument, .applyCall function :: tasks, chain, log⟩)
      rfl ((ih (.applyCall function :: tasks) log).tail ?_)
    simp [step, Expression.evalWith]

/-- **A row that is looked up comes back** with its value, whatever rows are
under evaluation. The induction is on the evaluation of the row: a row that is
followed is put on the chain, its expression comes back with it there, and it
is taken off. -/
theorem comesBack_lookUp (column : Column) (chain : List Nat) (row : Nat) :
    column.ComesBack chain (.lookUp row) (column.follow chain row) := by
  induction chain, row using follow.induct column with
  | case1 chain row hmem =>
    refine comesBack_of_step fun tasks log => ?_
    rw [follow_of_mem hmem]
    exact if_pos hmem
  | case2 chain row hmem e he ih =>
    intro tasks log
    rw [follow_of_some hmem he]
    exact .head (step_lookUp_of_some hmem he tasks log)
      ((comesBack_enter ih e (.leave :: tasks) log).tail rfl)
  | case3 chain row hmem hnone =>
    refine comesBack_of_step fun tasks log => ?_
    rw [follow_of_none hmem hnone]
    simp [step, hmem, hnone]

/-! ## Every evaluation ends -/

/-- **Whatever waits for a value** is done in the end. The induction is on the
tasks: what a task starts comes back to the tasks after it. -/
theorem exists_end_of_give (column : Column) (v : Value) (tasks : List Task)
    (chain : List Nat) (log : List LogRecord) :
    ∃ m, column.Reaches ⟨.give v, tasks, chain, log⟩ m
      ∧ column.step m = none := by
  induction tasks generalizing v chain log with
  | nil => exact ⟨_, .refl, rfl⟩
  | cons task tasks ih =>
    cases task with
    | evalRight op right =>
      have hright := comesBack_enter (column.comesBack_lookUp chain) right
        (.applyArith op v :: tasks) log
      obtain ⟨m, hm, hend⟩ := ih _ chain _
      exact ⟨m, .head rfl (hright.trans (.head rfl hm)), hend⟩
    | applyArith op left =>
      obtain ⟨m, hm, hend⟩ := ih (.arith op left v) chain log
      exact ⟨m, .head rfl hm, hend⟩
    | applyCall function =>
      obtain ⟨m, hm, hend⟩ := ih (.call function v) chain log
      exact ⟨m, .head rfl hm, hend⟩
    | collect before rows =>
      cases rows with
      | nil =>
        obtain ⟨m, hm, hend⟩ := ih (.list (before ++ [v])) chain log
        exact ⟨m, .head rfl hm, hend⟩
      | cons row rows =>
        have hrows := reaches_collect (column.comesBack_lookUp chain) row rows
          (before ++ [v]) tasks log
        obtain ⟨m, hm, hend⟩ := ih _ chain _
        exact ⟨m, .head rfl (hrows.trans hm), hend⟩
    | leave =>
      obtain ⟨m, hm, hend⟩ := ih v chain.tail log
      exact ⟨m, .head rfl hm, hend⟩

/-- From every moment an end is reached. -/
theorem exists_end (column : Column) (m : Moment) :
    ∃ m', column.Reaches m m' ∧ column.step m' = none := by
  obtain ⟨action, tasks, chain, log⟩ := m
  cases action with
  | enter e =>
    obtain ⟨m', hm', hend⟩ := column.exists_end_of_give _ tasks chain _
    exact ⟨m', (comesBack_enter (column.comesBack_lookUp chain) e tasks log).trans hm',
      hend⟩
  | lookUp row =>
    obtain ⟨m', hm', hend⟩ := column.exists_end_of_give _ tasks chain _
    exact ⟨m', (column.comesBack_lookUp chain row tasks log).trans hm', hend⟩
  | give v => exact column.exists_end_of_give v tasks chain log

/-- **No evaluation goes on forever.** A moment has one next moment, so the
steps to an end that is reached are all the steps there are. -/
theorem wellFounded_step (column : Column) :
    WellFounded fun m' m => column.step m = some m' := by
  refine ⟨fun m => ?_⟩
  obtain ⟨last, hreach, hend⟩ := column.exists_end m
  induction hreach using ReflTransGen.head_induction_on with
  | refl =>
    refine ⟨_, fun m' hm' => ?_⟩
    rw [hend] at hm'
    cases hm'
  | head hstep _ ih =>
    refine ⟨_, fun m' hm' => ?_⟩
    cases hstep.symm.trans hm'
    exact ih

/-! ## The chain -/

/-- The rows that hold a formula. -/
def filledRows (column : Column) : List Nat :=
  (List.range column.length).filter column.isFilled

/-- **The chain of an evaluation that started with `outer` rows under
evaluation**: no row is on it twice, its rows hold a formula, and it has a row
for each reference that is being followed. -/
structure Guarded (column : Column) (outer : Nat) (m : Moment) : Prop where
  /-- No row is on the chain twice. -/
  nodup : m.chain.Nodup
  /-- The rows on the chain exist and hold a formula. -/
  filled : ∀ row ∈ m.chain, row < column.length ∧ column.isFilled row = true
  /-- Each reference that is being followed has put a row on the chain. -/
  length : m.chain.length = outer + m.depth

/-- **What a step does to the chain**: it leaves it as it is, or puts a row on
it that holds a formula and was not on it, or takes the last one off. -/
theorem chain_of_step {m m' : Moment} (h : column.step m = some m') :
    (m'.chain = m.chain ∧ m'.depth = m.depth)
      ∨ (∃ row e, row ∉ m.chain ∧ column.formula? row = some e
        ∧ m'.chain = row :: m.chain ∧ m'.depth = m.depth + 1)
      ∨ (m'.chain = m.chain.tail ∧ m.depth = m'.depth + 1) := by
  revert h
  fun_cases step column m
  case case10 row tasks chain log hmem e he =>
    rintro ⟨⟩
    exact Or.inr (Or.inl ⟨row, e, hmem, he, rfl, List.countP_cons_of_pos rfl⟩)
  case case17 v tasks chain log =>
    rintro ⟨⟩
    exact Or.inr (Or.inr ⟨rfl, List.countP_cons_of_pos rfl⟩)
  case case18 => exact fun h => nomatch h
  -- no other step changes the chain
  all_goals
    rintro ⟨⟩
    exact Or.inl ⟨rfl, rfl⟩

/-- **A step keeps the chain guarded.** -/
theorem Guarded.step {outer : Nat} {m m' : Moment} (h : column.Guarded outer m)
    (hstep : column.step m = some m') : column.Guarded outer m' := by
  have hlength := h.length
  rcases chain_of_step hstep with
    ⟨hchain, hdepth⟩ | ⟨row, e, hmem, he, hchain, hdepth⟩ | ⟨hchain, hdepth⟩
  · exact ⟨hchain ▸ h.nodup, hchain ▸ h.filled, by rw [hchain, hdepth, hlength]⟩
  · refine ⟨?_, ?_, ?_⟩
    · rw [hchain]
      exact List.nodup_cons.mpr ⟨hmem, h.nodup⟩
    · rw [hchain]
      refine List.forall_mem_cons.mpr ⟨⟨lt_length_of_formula? he, ?_⟩, h.filled⟩
      rw [isFilled, he]
      rfl
    · rw [hchain, hdepth, List.length_cons, hlength, Nat.add_assoc]
  · refine ⟨?_, ?_, ?_⟩
    · rw [hchain]
      exact h.nodup.tail
    · rw [hchain]
      exact fun row hrow => h.filled row (List.mem_of_mem_tail hrow)
    · rw [hchain, List.length_tail]
      omega

/-- **What a run keeps** if every step does: the chain is guarded. -/
theorem Guarded.of_reaches {outer : Nat} {m m' : Moment}
    (h : column.Guarded outer m) (hreach : column.Reaches m m') :
    column.Guarded outer m' := by
  induction hreach with
  | refl => exact h
  | tail _ hstep ih => exact ih.step hstep

/-- **A guarded chain is no longer than the filled rows are many.** -/
theorem Guarded.length_le {outer : Nat} {m : Moment}
    (h : column.Guarded outer m) :
    m.chain.length ≤ column.filledRows.length := by
  refine (List.subperm_of_subset h.nodup fun row hrow => ?_).length_le
  obtain ⟨hlt, hfilled⟩ := h.filled row hrow
  exact List.mem_filter.mpr ⟨List.mem_range.mpr hlt, hfilled⟩

/-- **How an evaluation starts**, and with how many rows under evaluation: with
any expression and none, or with the expression of a row that is asked for, and
this row. -/
inductive Starts (column : Column) : Nat → Moment → Prop where
  /-- An expression is evaluated. -/
  | expression (e : Expression) : Starts column 0 ⟨.enter e, [], [], []⟩
  /-- A row is asked for. -/
  | row {row : Nat} {e : Expression} :
    column.formula? row = some e → Starts column 1 ⟨.enter e, [], [row], []⟩

/-- An evaluation starts with a guarded chain. -/
theorem Starts.guarded {outer : Nat} {m : Moment} (h : column.Starts outer m) :
    column.Guarded outer m := by
  cases h with
  | expression e => exact ⟨.nil, List.forall_mem_nil _, rfl⟩
  | @row row e he =>
    refine ⟨List.nodup_singleton row, ?_, rfl⟩
    refine List.forall_mem_singleton.mpr ⟨lt_length_of_formula? he, ?_⟩
    rw [isFilled, he]
    rfl

/-- **Evaluation ends, however the rows of a column refer to each other.** No
run goes on forever, and a run ends with a value that nothing waits for. An
expression that is evaluated and a row that is looked up leave the chain as it
was before, and come to the value and the records of the recursion. At every
moment of an evaluation the rows on the chain are different and hold a formula;
there is one for each reference that is being followed, so references nest no
deeper than there are filled rows. -/
theorem evaluation_ends (column : Column) :
    (WellFounded fun m' m => column.step m = some m')
      ∧ (∀ m, column.step m = none
        ↔ (∃ v, m.action = .give v) ∧ m.tasks = [])
      ∧ (∀ chain e, column.ComesBack chain (.enter e)
        (e.evalWith column.length (column.follow chain)))
      ∧ (∀ chain row, column.ComesBack chain (.lookUp row)
        (column.follow chain row))
      ∧ ∀ outer start m, column.Starts outer start → column.Reaches start m →
        m.chain.Nodup
          ∧ (∀ row ∈ m.chain, row < column.length ∧ column.isFilled row = true)
          ∧ m.chain.length = outer + m.depth
          ∧ m.chain.length ≤ column.filledRows.length := by
  refine ⟨column.wellFounded_step, fun m => step_eq_none_iff,
    fun chain => comesBack_enter (column.comesBack_lookUp chain),
    column.comesBack_lookUp, fun outer start m hstart hreach => ?_⟩
  have h : column.Guarded outer m := hstart.guarded.of_reaches hreach
  exact ⟨h.nodup, h.filled, h.length, h.length_le⟩

end Column

end FormulaColumn
