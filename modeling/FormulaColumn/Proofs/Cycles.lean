import FormulaColumn.Proofs.CarriedError
import FormulaColumn.Proofs.Requests
import FormulaColumn.Proofs.RowValue
import Mathlib.Data.List.Chain
import Mathlib.Data.List.Nodup

/-!
# Which cycles are recorded

A row that is met again while it is being evaluated is recorded, together with
the rows under evaluation. The evaluation of a row goes along **live edges**
(`Column.Live`): from a row to the filled rows that its expression looks up.

The record is **sound**: the rows under evaluation are a path of live edges
from the row that was asked for, no row is on it twice, and the edge from its
last row leads back to one of its rows (`Column.Loop`). That is an invariant
of the evaluation (`Column.Trail`): a row is put on the chain when an edge
into it is followed, and it is taken off again before the next edge is.

And it is **complete**: where a cycle can be reached, one is recorded. For an
evaluation does everything, whatever an operand came to. So if no cycle is
recorded in the evaluation of a row, none is recorded in that of the rows it
looks up, and a row is on a cycle, or leads to one, only if one of these does.

A cyclic reference is brought up by the guard alone, which records it.
-/

namespace FormulaColumn

open Relation (ReflTransGen TransGen)

namespace Expression

/-! ## Records and errors come from the rows that are looked up -/

/-- **The cycles that are recorded** while an expression is evaluated are those
of the rows it looks up. -/
theorem cycle_mem_log_evalWith_iff {rows : Nat} {lookup : Nat → Logged Value}
    {e : Expression} {s : Nat} {path : List Nat} :
    LogRecord.cycle s path ∈ (e.evalWith rows lookup).log
      ↔ ∃ next, e.LooksUp rows next
        ∧ LogRecord.cycle s path ∈ (lookup next).log := by
  rw [log_evalWith, List.mem_flatMap]
  constructor
  · rintro ⟨request, hrequest, h⟩
    cases request with
    | row next => exact ⟨next, row_mem_requests_iff.mp hrequest, h⟩
    | otherColumn column number => cases List.mem_singleton.mp h
  · rintro ⟨next, hnext, h⟩
    exact ⟨.row next, row_mem_requests_iff.mpr hnext, h⟩

/-- **A cyclic reference in the value of an expression** is in the value of a
row that it looks up. -/
theorem exists_of_carries_cyclic {rows : Nat} {lookup : Nat → Value}
    {e : Expression}
    (h : (e.valueWith rows lookup).Carries .cyclicReference) :
    ∃ next, e.LooksUp rows next ∧ (lookup next).Carries .cyclicReference := by
  induction e with
  | number value => cases h
  | reference c row =>
    by_cases hc : c = Column.letter
    · subst hc
      rw [valueWith_reference] at h
      exact ⟨_, ⟨rfl, rfl⟩, h⟩
    · rw [valueWith_otherColumn hc] at h
      cases h
  | arith op left right ihleft ihright =>
    rcases Value.carries_cyclic_of_arith h with hleft | hright
    · obtain ⟨next, hnext, hcyclic⟩ := ihleft hleft
      exact ⟨next, Or.inl hnext, hcyclic⟩
    · obtain ⟨next, hnext, hcyclic⟩ := ihright hright
      exact ⟨next, Or.inr hnext, hcyclic⟩
  | range first last _ _ =>
    rcases valueWith_range_cases rows first last with
      ⟨cause, hcause, hvalue⟩ | ⟨lo, hi, hrows, hhi, hvalue⟩
    · -- a range brings up errors of its own, but not this one
      rw [hvalue] at h
      rcases hcause with rfl | rfl <;> cases h
    · rw [hvalue] at h
      cases h with
      | item hmem hitem =>
        obtain ⟨next, hnext, rfl⟩ := List.mem_map.mp hmem
        obtain ⟨hlo, hle⟩ := mem_range'_iff.mp hnext
        exact ⟨next, ⟨lo, hi, hrows, hhi, hlo, hle⟩, hitem⟩
  | call function argument ih => exact ih (Value.carries_cyclic_of_call h)

end Expression

namespace Column

variable {column : Column}

/-! ## Live edges -/

/-- **A live edge**: the one row looks up the other, and the other is
filled. -/
def Live (column : Column) (row next : Nat) : Prop :=
  column.Asks row next ∧ column.isFilled next = true

/-- **A path that leads back into itself**: it starts at `origin`, its rows
are different, there is a live edge from each of them to the next, and there
is one from the last of them to `s`, which is a row of the path. -/
structure Loop (column : Column) (origin : Nat) (path : List Nat) (s : Nat) :
    Prop where
  /-- The path starts at `origin`. -/
  first : path.head? = some origin
  /-- No row is on the path twice. -/
  nodup : path.Nodup
  /-- There is a live edge from each row to the next. -/
  live : path.IsChain column.Live
  /-- There is a live edge from the last row to `s`. -/
  closes : ∃ last ∈ path.getLast?, column.Live last s
  /-- The path has passed through `s`. -/
  mem : s ∈ path

/-- The first row of a path reaches its last row. -/
theorem reflTransGen_of_isChain {path : List Nat} {first last : Nat}
    (h : path.IsChain column.Live) (hfirst : path.head? = some first)
    (hlast : path.getLast? = some last) :
    ReflTransGen column.Live first last := by
  have hne : path ≠ [] := by
    rintro rfl
    cases hfirst
  rw [List.head?_eq_some_head hne] at hfirst
  rw [List.getLast?_eq_some_getLast hne] at hlast
  cases hfirst
  cases hlast
  exact List.relationReflTransGen_of_exists_isChain path h hne

/-- **A path that leads back into itself reaches a cycle.** -/
theorem Loop.exists_cycle {origin s : Nat} {path : List Nat}
    (h : column.Loop origin path s) :
    ReflTransGen column.Live origin s ∧ TransGen column.Live s s := by
  obtain ⟨last, hlast, hcloses⟩ := h.closes
  obtain ⟨before, after, rfl⟩ := List.append_of_mem h.mem
  obtain ⟨hbefore, hafter⟩ := List.isChain_split.mp h.live
  rw [List.getLast?_append_cons] at hlast
  constructor
  · -- along the path up to `s`
    have hfirst : (before ++ [s]).head? = some origin := by
      rw [← h.first]
      cases before <;> rfl
    exact reflTransGen_of_isChain hbefore hfirst List.getLast?_concat
  · -- along the rest of the path, and from its last row back
    exact TransGen.tail' (reflTransGen_of_isChain hafter rfl hlast) hcloses

/-! ## What is recorded is a cycle -/

/-- **The rows under evaluation lead from `origin` to a row** that is referred
to. They are filled, no row is among them twice, and there is a live edge to
each of them from the one before; the innermost, which stands first, looks up
the row that is referred to. -/
structure Trail (column : Column) (origin : Nat) (chain : List Nat)
    (row : Nat) : Prop where
  /-- The evaluation started at `origin`. -/
  first : (row :: chain).getLast? = some origin
  /-- The rows under evaluation are filled. -/
  filled : ∀ s ∈ chain, column.isFilled s = true
  /-- No row is evaluated within itself. -/
  nodup : chain.Nodup
  /-- There is a live edge to each row from the one outside it. -/
  live : chain.IsChain fun next row => column.Live row next
  /-- The innermost row looks up the row that is referred to. -/
  asks : ∀ innermost ∈ chain.head?, column.Asks innermost row

theorem trail_nil (column : Column) (origin : Nat) :
    column.Trail origin [] origin where
  first := rfl
  filled := List.forall_mem_nil _
  nodup := .nil
  live := .nil
  asks := by simp

/-- **Following an edge keeps the trail**: a filled row that was not under
evaluation is, while a row that it looks up is evaluated. -/
theorem Trail.cons {origin row next : Nat} {chain : List Nat}
    {e : Expression} (h : column.Trail origin chain row) (hmem : row ∉ chain)
    (he : column.formula? row = some e) (hnext : e.LooksUp column.length next) :
    column.Trail origin (row :: chain) next := by
  have hfilled : column.isFilled row = true := by
    rw [isFilled, he]
    rfl
  exact
    { first := h.first
      filled := List.forall_mem_cons.mpr ⟨hfilled, h.filled⟩
      nodup := List.nodup_cons.mpr ⟨hmem, h.nodup⟩
      live := List.isChain_cons.mpr
        ⟨fun innermost hin => ⟨h.asks innermost hin, hfilled⟩, h.live⟩
      asks := by
        rintro _ ⟨⟩
        exact ⟨e, he, hnext⟩ }

/-- **A trail to a row under evaluation leads back into itself**, told from the
outermost row on. -/
theorem Trail.loop {origin row : Nat} {chain : List Nat}
    (h : column.Trail origin chain row) (hmem : row ∈ chain) :
    column.Loop origin chain.reverse row := by
  obtain ⟨innermost, outer, rfl⟩ :=
    List.exists_cons_of_ne_nil (List.ne_nil_of_mem hmem)
  exact
    { first := by
        rw [List.head?_reverse, ← h.first, List.getLast?_cons_cons]
      nodup := List.nodup_reverse.mpr h.nodup
      live := List.isChain_reverse.mpr h.live
      closes := by
        refine ⟨innermost, ?_, h.asks innermost rfl, h.filled row hmem⟩
        rw [List.getLast?_reverse]
        rfl
      mem := List.mem_reverse.mpr hmem }

/-- **Every cycle that is recorded is one**, and the record tells the way to
it. The induction is on the evaluation of the row. -/
theorem loop_of_mem_log_follow {origin row s : Nat} {chain path : List Nat}
    (htrail : column.Trail origin chain row)
    (h : LogRecord.cycle s path ∈ (column.follow chain row).log) :
    column.Loop origin path s := by
  induction chain, row using follow.induct column with
  | case1 chain row hmem =>
    rw [follow_of_mem hmem] at h
    cases List.mem_singleton.mp h
    exact htrail.loop hmem
  | case2 chain row hmem e he ih =>
    rw [follow_of_some hmem he, Expression.cycle_mem_log_evalWith_iff] at h
    obtain ⟨next, hnext, hrecord⟩ := h
    exact ih next (htrail.cons hmem he hnext) hrecord
  | case3 chain row hmem hnone =>
    rw [follow_of_none hmem hnone] at h
    cases List.mem_singleton.mp h

/-! ## Every cycle is recorded -/

/-- A row leads to a cycle only along a live edge. -/
theorem not_cyclic_of_forall_live {row : Nat}
    (h : ∀ next, column.Live row next → ∀ p, ReflTransGen column.Live next p →
      ¬ TransGen column.Live p p) :
    ∀ p, ReflTransGen column.Live row p → ¬ TransGen column.Live p p := by
  intro p hp hcycle
  rcases Relation.ReflTransGen.cases_head hp with rfl | ⟨next, hnext, hreach⟩
  · obtain ⟨next, hnext, hback⟩ := TransGen.head'_iff.mp hcycle
    exact h next hnext row hback hcycle
  · exact h next hnext p hreach hcycle

/-- **Where no cycle is recorded, none can be reached**, whatever rows are
being evaluated. The induction is on the evaluation of the row. -/
theorem not_cyclic_of_log_follow {chain : List Nat} {row : Nat}
    (h : ∀ s path, LogRecord.cycle s path ∉ (column.follow chain row).log) :
    ∀ p, ReflTransGen column.Live row p → ¬ TransGen column.Live p p := by
  induction chain, row using follow.induct column with
  | case1 chain row hmem =>
    refine absurd ?_ (h row chain.reverse)
    rw [follow_of_mem hmem]
    exact List.mem_singleton_self _
  | case2 chain row hmem e he ih =>
    refine not_cyclic_of_forall_live fun next hnext => ih next ?_
    obtain ⟨⟨e', he', hlooks⟩, -⟩ := hnext
    cases he.symm.trans he'
    -- a cycle that is recorded for the next row is recorded for this one
    intro s path hrecord
    refine h s path ?_
    rw [follow_of_some hmem he, Expression.cycle_mem_log_evalWith_iff]
    exact ⟨next, hlooks, hrecord⟩
  | case3 chain row hmem hnone =>
    refine not_cyclic_of_forall_live fun next hnext => ?_
    obtain ⟨⟨e, he, -⟩, -⟩ := hnext
    rw [hnone] at he
    cases he

/-! ## Cyclic references -/

/-- **A cyclic reference was recorded** where it came up. The induction is on
the evaluation of the row. -/
theorem exists_cycle_of_carries {chain : List Nat} {row : Nat}
    (h : (column.rowValue chain row).Carries .cyclicReference) :
    ∃ s path, LogRecord.cycle s path ∈ (column.follow chain row).log := by
  induction chain, row using follow.induct column with
  | case1 chain row hmem =>
    refine ⟨row, chain.reverse, ?_⟩
    rw [follow_of_mem hmem]
    exact List.mem_singleton_self _
  | case2 chain row hmem e he ih =>
    rw [rowValue_of_some hmem he] at h
    obtain ⟨next, hlooks, hcyclic⟩ := Expression.exists_of_carries_cyclic h
    obtain ⟨s, path, hrecord⟩ := ih next hcyclic
    refine ⟨s, path, ?_⟩
    rw [follow_of_some hmem he, Expression.cycle_mem_log_evalWith_iff]
    exact ⟨next, hlooks, hrecord⟩
  | case3 chain row hmem hnone =>
    rw [rowValue_of_none hmem hnone] at h
    cases h

/-! ## Rows that are asked for -/

theorem valueAt_of_some {row : Nat} {e : Expression}
    (h : column.formula? row = some e) :
    column.valueAt row = column.follow [] row := by
  have hcell : column[row]? = some (some e) := Option.join_eq_some_iff.mp h
  rw [follow_of_some List.not_mem_nil h, valueAt, hcell]

theorem not_cyclic_of_none {row : Nat} (h : column.formula? row = none) :
    (column.valueAt row).log = []
      ∧ ¬ (column.valueAt row).value.Carries .cyclicReference := by
  rcases valueAt_of_none h with hvalue | hvalue
  · rw [hvalue]
    exact ⟨rfl, fun h => by cases h⟩
  · rw [hvalue]
    exact ⟨rfl, fun h => by cases h⟩

/-- **Cycles are recorded exactly where they are**, for every row of every
column. A cycle is recorded in the evaluation of a row if and only if one can
be reached from it along live edges; what is recorded is a path that starts
at the row and leads back into itself; and a cyclic reference in the result
was recorded. -/
theorem cycle_recorded_iff (column : Column) (row : Nat) :
    ((∃ s path, LogRecord.cycle s path ∈ (column.valueAt row).log)
        ↔ ∃ p, ReflTransGen column.Live row p ∧ TransGen column.Live p p)
      ∧ (∀ s path, LogRecord.cycle s path ∈ (column.valueAt row).log →
        column.Loop row path s)
      ∧ ((column.valueAt row).value.Carries .cyclicReference →
        ∃ s path, LogRecord.cycle s path ∈ (column.valueAt row).log) := by
  cases he : column.formula? row with
  | some e =>
    rw [valueAt_of_some he]
    have hloop : ∀ s path,
        LogRecord.cycle s path ∈ (column.follow [] row).log →
        column.Loop row path s :=
      fun s path => loop_of_mem_log_follow (trail_nil column row)
    refine ⟨⟨?_, ?_⟩, hloop, exists_cycle_of_carries⟩
    · rintro ⟨s, path, h⟩
      exact ⟨s, (hloop s path h).exists_cycle⟩
    · rintro ⟨p, hreach, hcycle⟩
      refine Classical.byContradiction fun hnone => ?_
      refine not_cyclic_of_log_follow (fun s path h => hnone ⟨s, path, h⟩) p
        hreach hcycle
  | none =>
    obtain ⟨hlog, hcyclic⟩ := not_cyclic_of_none he
    have hrecord : ∀ s path,
        LogRecord.cycle s path ∉ (column.valueAt row).log := by
      intro s path h
      rw [hlog] at h
      cases h
    refine ⟨⟨?_, ?_⟩, fun s path h => absurd h (hrecord s path),
      fun h => absurd h hcyclic⟩
    · rintro ⟨s, path, h⟩
      exact absurd h (hrecord s path)
    · rintro ⟨p, hreach, hcycle⟩
      -- no edge leads out of a row that is not filled
      refine absurd hcycle (not_cyclic_of_forall_live ?_ p hreach)
      rintro next ⟨⟨e, he', -⟩, -⟩
      cases he.symm.trans he'

end Column

end FormulaColumn
