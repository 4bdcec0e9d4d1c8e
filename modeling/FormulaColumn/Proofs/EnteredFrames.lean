import FormulaColumn.Proofs.EvaluationSteps
import FormulaColumn.Proofs.Frames

/-!
# The frames of an evaluation

A frame enters another if it evaluates its expression as part of its own
(`Column.Enters`). That is a relation on expressions and chains, and nothing in
it is evaluated. Here it is compared with the evaluation that goes one step at
a time: the frames that are reached from the first one are the expressions that
come to be evaluated, each with the chain that it is evaluated with
(`Column.reflTransGen_enters_iff`), so none is missing and none is too many.

What comes next in an evaluation is decided by the tasks that wait, so the
invariant of its steps speaks of them: the expressions and rows in the tasks
are those of frames that are reached, and the value that is waited for is the
value of the frame that it comes from (`Column.Entered`). So whatever a function
is applied to on the way is the value of the argument of a call that is reached
(`Column.exists_call_of_applied`).
-/

namespace FormulaColumn

open Relation (ReflTransGen)

namespace Column

variable {column : Column}

/-! ## What is entered is evaluated -/

/-- Every row of a range is looked up. -/
theorem exists_reaches_lookUp (column : Column) {chain : List Nat} {s row : Nat}
    {rows : List Nat} (h : s ∈ row :: rows) (before : List Value)
    (tasks : List Task) (log : List LogRecord) :
    ∃ tasks' log', column.Reaches
      ⟨.lookUp row, .collect before rows :: tasks, chain, log⟩
      ⟨.lookUp s, tasks', chain, log'⟩ := by
  induction rows generalizing row before log with
  | nil =>
    cases List.mem_singleton.mp h
    exact ⟨_, _, .refl⟩
  | cons next rows ih =>
    rcases List.mem_cons.mp h with rfl | hrest
    · exact ⟨_, _, .refl⟩
    · obtain ⟨tasks', log', hreach⟩ :=
        ih hrest (before ++ [(column.follow chain row).value])
          (log ++ (column.follow chain row).log)
      have hrow := column.comesBack_lookUp chain row
        (.collect before (next :: rows) :: tasks) log
      exact ⟨tasks', log', hrow.trans (.head rfl hreach)⟩

/-- **A frame that is entered is evaluated**, with its own chain. -/
theorem Enters.exists_reaches {frame next : Frame} (h : column.Enters frame next)
    (tasks : List Task) (log : List LogRecord) :
    ∃ tasks' log', column.Reaches ⟨.enter frame.e, tasks, frame.chain, log⟩
      ⟨.enter next.e, tasks', next.chain, log'⟩ := by
  cases h with
  | left => exact ⟨_, _, .single rfl⟩
  | @right chain op left right =>
    have hleft := comesBack_enter (column.comesBack_lookUp chain) left
      (.evalRight op right :: tasks) log
    exact ⟨_, _, .head rfl (hleft.tail rfl)⟩
  | argument => exact ⟨_, _, .single rfl⟩
  | @row chain row e hmem he =>
    have hrow : column.step ⟨.enter (.reference letter row), tasks, chain, log⟩
        = some ⟨.lookUp row.toNat, tasks, chain, log⟩ := by
      simp [step]
    exact ⟨_, _, .head hrow (.single (step_lookUp_of_some hmem he tasks log))⟩
  | @item chain first last e lo hi s hrows hhi hlo hle hmem he =>
    have hmem' : s ∈ lo :: List.range' (lo + 1) (hi - lo) := by
      rw [← range'_eq_cons (le_of_rangeRows? hrows)]
      exact Expression.mem_range'_iff.mpr ⟨hlo, hle⟩
    obtain ⟨tasks', log', hreach⟩ :=
      column.exists_reaches_lookUp hmem' [] tasks log
    exact ⟨_, _, .head (step_range_of_lt hrows hhi tasks log)
      (hreach.tail (step_lookUp_of_some hmem he tasks' log'))⟩

/-! ## What is evaluated is entered -/

/-- The value that an action comes to. -/
def actionValue (column : Column) (chain : List Nat) : Action → Value
  | .enter e => e.valueWith column.length (column.rowValue chain)
  | .lookUp row => column.rowValue chain row
  | .give v => v

/-- What is followed from a row is a frame that is reached, unless the row is
being evaluated or holds no formula. -/
def RowEntered (column : Column) (start : Frame) (chain : List Nat) (row : Nat) :
    Prop :=
  ∀ e, row ∉ chain → column.formula? row = some e →
    ReflTransGen column.Enters start ⟨row :: chain, e⟩

/-- An action is that of a frame that is reached. -/
def ActionEntered (column : Column) (start : Frame) (chain : List Nat) :
    Action → Prop
  | .enter e => ReflTransGen column.Enters start ⟨chain, e⟩
  | .lookUp row => column.RowEntered start chain row
  | .give _ => True

/-- **Tasks are those of frames that are reached**, if the value that they wait
for is this one: what they evaluate later is such a frame, and a function is
applied to the value of its argument. -/
def Awaits (column : Column) (start : Frame) :
    List Task → List Nat → Value → Prop
  | [], _, _ => True
  | .evalRight op right :: tasks, chain, v =>
    ReflTransGen column.Enters start ⟨chain, right⟩
      ∧ column.Awaits start tasks chain
        (.arith op v (right.valueWith column.length (column.rowValue chain)))
  | .applyArith op left :: tasks, chain, v =>
    column.Awaits start tasks chain (.arith op left v)
  | .applyCall function :: tasks, chain, v =>
    (∃ argument, ReflTransGen column.Enters start ⟨chain, .call function argument⟩
        ∧ argument.valueWith column.length (column.rowValue chain) = v)
      ∧ column.Awaits start tasks chain (.call function v)
  | .collect before rows :: tasks, chain, v =>
    (∀ row ∈ rows, column.RowEntered start chain row)
      ∧ column.Awaits start tasks chain
        (.list (before ++ v :: rows.map (column.rowValue chain)))
  | .leave :: tasks, chain, v => column.Awaits start tasks chain.tail v

/-- **A moment of an evaluation that started with a frame**: what is done next
and what waits are those of frames that are reached. -/
structure Entered (column : Column) (start : Frame) (m : Moment) : Prop where
  /-- What is done next is that of a frame that is reached. -/
  action : column.ActionEntered start m.chain m.action
  /-- What waits for its value is that of frames that are reached. -/
  tasks : column.Awaits start m.tasks m.chain (column.actionValue m.chain m.action)

/-- A value that is given at once is given to the same tasks. -/
theorem Entered.of_give {start : Frame} {m : Moment} (h : column.Entered start m)
    {v : Value} (hv : column.actionValue m.chain m.action = v)
    (log : List LogRecord) : column.Entered start ⟨.give v, m.tasks, m.chain, log⟩ :=
  ⟨trivial, hv ▸ h.tasks⟩

/-- A range that is evaluated has its rows looked up. -/
theorem Entered.of_range {start : Frame} {first last : Expression} {lo hi : Nat}
    {tasks : List Task} {chain : List Nat} {log : List LogRecord}
    (h : column.Entered start ⟨.enter (.range first last), tasks, chain, log⟩)
    (hrows : Expression.rangeRows? first last = some (lo, hi))
    (hhi : hi < column.length) :
    column.Entered start
      ⟨.lookUp lo, .collect [] (List.range' (lo + 1) (hi - lo)) :: tasks, chain,
        log⟩ := by
  have hsplit := range'_eq_cons (le_of_rangeRows? hrows)
  have hentered : ∀ row ∈ lo :: List.range' (lo + 1) (hi - lo),
      column.RowEntered start chain row := by
    intro row hrow e hmem he
    rw [← hsplit] at hrow
    obtain ⟨hlo, hle⟩ := Expression.mem_range'_iff.mp hrow
    exact h.action.tail (.item hrows hhi hlo hle hmem he)
  obtain ⟨hfirst, hothers⟩ := List.forall_mem_cons.mp hentered
  refine ⟨hfirst, hothers, ?_⟩
  have htasks := h.tasks
  rw [actionValue, Expression.valueWith_range_of_lt hrows hhi, hsplit] at htasks
  exact htasks

/-- **A step leads to frames that are entered.** There is one case for each
step. -/
theorem Entered.step {start : Frame} {m m' : Moment} (h : column.Entered start m)
    (hstep : column.step m = some m') : column.Entered start m' := by
  revert hstep
  fun_cases Column.step column m <;> rintro ⟨⟩
  case case1 => exact h.of_give rfl _
  case case2 row tasks chain log =>
    have htasks := h.tasks
    rw [actionValue, Expression.valueWith_reference] at htasks
    exact ⟨fun e hmem he => h.action.tail (.row hmem he), htasks⟩
  case case3 c row tasks chain log hc =>
    refine h.of_give ?_ _
    show (Expression.reference c row).valueWith column.length _ = _
    exact Expression.valueWith_otherColumn hc row
  case case4 =>
    exact ⟨h.action.tail .left, h.action.tail .right, h.tasks⟩
  case case5 hrows => exact h.of_give (Expression.valueWith_range_of_none hrows) _
  case case6 hrows hhi => exact h.of_range hrows hhi
  case case7 hrows hhi =>
    exact h.of_give (Expression.valueWith_range_of_not_lt hrows hhi) _
  case case8 =>
    exact ⟨h.action.tail .argument, ⟨_, h.action, rfl⟩, h.tasks⟩
  case case9 hmem => exact h.of_give (rowValue_of_mem hmem) _
  case case10 hmem e he =>
    have htasks := h.tasks
    rw [actionValue, rowValue_of_some hmem he] at htasks
    exact ⟨h.action e hmem he, htasks⟩
  case case11 hmem hnone => exact h.of_give (rowValue_of_none hmem hnone) _
  case case12 => exact ⟨h.tasks.1, h.tasks.2⟩
  case case13 => exact ⟨trivial, h.tasks⟩
  case case14 => exact ⟨trivial, h.tasks.2⟩
  case case15 v before row rows tasks chain log =>
    obtain ⟨hrow, hrows⟩ := List.forall_mem_cons.mp h.tasks.1
    refine ⟨hrow, hrows, ?_⟩
    rw [List.append_assoc]
    exact h.tasks.2
  case case16 => exact ⟨trivial, h.tasks.2⟩
  case case17 => exact ⟨trivial, h.tasks⟩

/-- **Every moment of an evaluation** is one of frames that are reached. -/
theorem entered_of_reaches {start : Frame} {m : Moment}
    (h : column.Reaches ⟨.enter start.e, [], start.chain, []⟩ m) :
    column.Entered start m := by
  induction h with
  | refl => exact ⟨.refl, trivial⟩
  | tail _ hstep ih => exact ih.step hstep

/-! ## The frames and the evaluation -/

/-- **The frames that are reached from a frame are the ones that are evaluated**
on the way to its value, each with its own chain. -/
theorem reflTransGen_enters_iff {start frame : Frame} :
    ReflTransGen column.Enters start frame
      ↔ ∃ tasks log, column.Reaches ⟨.enter start.e, [], start.chain, []⟩
          ⟨.enter frame.e, tasks, frame.chain, log⟩ := by
  constructor
  · intro h
    induction h with
    | refl => exact ⟨_, _, .refl⟩
    | tail _ hstep ih =>
      obtain ⟨tasks, log, hreach⟩ := ih
      obtain ⟨tasks', log', hnext⟩ := hstep.exists_reaches tasks log
      exact ⟨tasks', log', hreach.trans hnext⟩
  · rintro ⟨tasks, log, hreach⟩
    exact (entered_of_reaches hreach).action

/-- **Whatever a function is applied to** is the value of the argument of a call
that is reached. -/
theorem exists_call_of_applied {start : Frame} {function : String} {v : Value}
    {tasks : List Task} {chain : List Nat} {log : List LogRecord}
    (h : column.Reaches ⟨.enter start.e, [], start.chain, []⟩
      ⟨.give v, .applyCall function :: tasks, chain, log⟩) :
    ∃ argument, ReflTransGen column.Enters start ⟨chain, .call function argument⟩
      ∧ (Frame.run ⟨chain, argument⟩ column).value = v := by
  obtain ⟨⟨argument, hcall, hvalue⟩, -⟩ := (entered_of_reaches h).tasks
  exact ⟨argument, hcall, (Frame.value_run _ _).trans hvalue⟩

end Column

end FormulaColumn
