/-!
# Grammars

A grammar here is a description of an ordered-choice recognizer, kept as
data: which item to take, what comes first, what to try next. Descriptions
are trees, so a statement about all of them is an induction on the tree, and
an analysis of them (which ones may match without consuming, which rules
they reach at their start) is a recursion.

`Grammar τ ρ α` recognizes a start of a list of `τ` and yields a value of
type `α`. Recursion goes through **named rules**: a table of rules numbered
by `Fin k` has a body for each, rule `i` yields a value of type `ρ i`, and a
description may say `rule i` anywhere. Descriptions without rules are
`Pattern`s.

The constructors are the forms with a behaviour of their own. What can be
said with them is defined below: `map`, the two one-sided sequences,
`between`, `optional`, `many1`, `choice`.

What a description matches is said in `FormulaColumn.GrammarRun`.
-/

namespace FormulaColumn

/-- **A description of a recognizer** over lists of `τ`, with rules `Fin k`
of value types `ρ`, yielding an `α`. -/
inductive Grammar (τ : Type) {k : Nat} (ρ : Fin k → Type) : Type → Type 1 where
  /-- Matches the empty start and yields `value`. -/
  | pure {α : Type} (value : α) : Grammar τ ρ α
  /-- Matches nothing. -/
  | fail {α : Type} : Grammar τ ρ α
  /-- Matches one item that `f` maps to a value, and yields that value. -/
  | select {α : Type} (f : τ → Option α) : Grammar τ ρ α
  /-- Matches the empty start where no input is left. -/
  | endOfInput : Grammar τ ρ Unit
  /-- Matches `p` and then `q` on what is left, and yields both values. -/
  | seq {α β : Type} (p : Grammar τ ρ α) (q : Grammar τ ρ β) :
      Grammar τ ρ (α × β)
  /-- Matches what `p` matches, and where `p` does not match, what `q`
  matches from the same start. -/
  | orElse {α : Type} (p q : Grammar τ ρ α) : Grammar τ ρ α
  /-- Matches `p` as often as it matches and consumes something. It always
  matches, and it never gives an item back. -/
  | many {α : Type} (p : Grammar τ ρ α) : Grammar τ ρ (List α)
  /-- Matches what `p` matches if `f` maps the value of `p` to a value. -/
  | tryMap {α β : Type} (f : α → Option β) (p : Grammar τ ρ α) : Grammar τ ρ β
  /-- Matches what the body of rule `i` matches. -/
  | rule (i : Fin k) : Grammar τ ρ (ρ i)

/-- A description that uses no rules. -/
abbrev Pattern (τ : Type) : Type → Type 1 := @Grammar τ 0 Fin.elim0

namespace Grammar

variable {τ : Type} {k : Nat} {ρ : Fin k → Type} {α β γ : Type}

/-! ## Single items -/

/-- Matches one item for which `accepts` holds. -/
def satisfy (accepts : τ → Bool) : Grammar τ ρ τ :=
  select fun item => if accepts item then some item else none

/-- Matches the item `expected`. -/
def literal [DecidableEq τ] (expected : τ) : Grammar τ ρ τ :=
  satisfy fun item => item == expected

/-! ## Values -/

/-- Matches what `p` matches and yields the image of its value. -/
def map (f : α → β) (p : Grammar τ ρ α) : Grammar τ ρ β :=
  tryMap (fun value => some (f value)) p

/-! ## Sequences -/

/-- `p` and then `q`, yielding the value of `p`. -/
def seqLeft (p : Grammar τ ρ α) (q : Grammar τ ρ β) : Grammar τ ρ α :=
  map Prod.fst (seq p q)

/-- `p` and then `q`, yielding the value of `q`. -/
def seqRight (p : Grammar τ ρ α) (q : Grammar τ ρ β) : Grammar τ ρ β :=
  map Prod.snd (seq p q)

/-- `p` enclosed by `opening` and `closing`, yielding the value of `p`. -/
def between (opening : Grammar τ ρ β) (p : Grammar τ ρ α)
    (closing : Grammar τ ρ γ) : Grammar τ ρ α :=
  seqLeft (seqRight opening p) closing

/-! ## Choices and repetitions -/

/-- The first of the alternatives that matches. -/
def choice (alternatives : List (Grammar τ ρ α)) : Grammar τ ρ α :=
  alternatives.foldl orElse fail

/-- `p` where it matches, and nothing otherwise. -/
def optional (p : Grammar τ ρ α) : Grammar τ ρ (Option α) :=
  orElse (map some p) (pure none)

/-- `p` once and then as often as it matches and consumes something. The
first match is kept also where it consumes nothing. -/
def many1 (p : Grammar τ ρ α) : Grammar τ ρ (List α) :=
  map (fun values => values.1 :: values.2) (seq p (many p))

end Grammar

end FormulaColumn
