import FormulaColumn.Proofs.Placement
import FormulaColumn.Proofs.PrintedTokens

/-!
# What comes next in a formula

Which token may follow in a formula depends on what was read so far, and
apart from closing parentheses on little of it: an operand or an operator is
expected, or some place within a call. `Expects.next` is this dependence, and
`Expects.after` follows it through a sequence of tokens. A derived sum leads
from where an operand is expected to where an operator is, so a sequence that
is not followed to its end is no formula, whatever stands after it.

For the tokens of a tree this decides: they are followed to the end exactly if
the tree has no negative literal and its ranges stand where functions take
them. A sign is read as an operator, which is not expected where an operand
is; and `:` is expected after the first reference in a call and nowhere else.
-/

namespace FormulaColumn

namespace Expression

/-- **A property of each word of a tree**: of its literals, its references
and the names of its functions. -/
def EachWord (P : Token → Prop) : Expression → Prop
  | number value => P (.number value)
  | reference column row => P (.reference column row)
  | arith _ left right => left.EachWord P ∧ right.EachWord P
  | range first last => first.EachWord P ∧ last.EachWord P
  | call function argument => P (.name function) ∧ argument.EachWord P

/-- A property of tokens between parentheses. -/
theorem forall_mem_parenthesizeIf {P : Token → Prop} {tokens : List Token}
    (hopen : P (.punctuation '(')) (hclose : P (.punctuation ')'))
    (needed : Bool) (h : ∀ t ∈ tokens, P t) :
    ∀ t ∈ parenthesizeIf needed tokens, P t := by
  cases needed with
  | false => exact h
  | true =>
    refine List.forall_mem_append.mpr ⟨?_, ?_⟩
    · exact List.forall_mem_cons.mpr ⟨hopen, h⟩
    · exact List.forall_mem_singleton.mpr hclose

/-- **What holds of the words of a tree holds of its tokens**, if it holds of
parentheses and operators. -/
theorem forall_mem_tokens {P : Token → Prop}
    (hopen : P (.punctuation '(')) (hclose : P (.punctuation ')'))
    (hoperator : ∀ op : Operator, P (.operator op.symbol)) {e : Expression}
    (h : e.EachWord P) : ∀ t ∈ e.tokens, P t := by
  induction e with
  | number value => exact List.forall_mem_singleton.mpr h
  | reference column row => exact List.forall_mem_singleton.mpr h
  | arith op left right ihleft ihright =>
    refine List.forall_mem_append.mpr ⟨?_, List.forall_mem_cons.mpr ⟨?_, ?_⟩⟩
    · exact forall_mem_parenthesizeIf hopen hclose _ (ihleft h.1)
    · exact hoperator (.arith op)
    · exact forall_mem_parenthesizeIf hopen hclose _ (ihright h.2)
  | range first last ihfirst ihlast =>
    refine List.forall_mem_append.mpr ⟨?_, List.forall_mem_cons.mpr ⟨?_, ?_⟩⟩
    · exact forall_mem_parenthesizeIf hopen hclose _ (ihfirst h.1)
    · exact hoperator .range
    · exact forall_mem_parenthesizeIf hopen hclose _ (ihlast h.2)
  | call function argument ih =>
    refine List.forall_mem_cons.mpr ⟨h.1, ?_⟩
    exact forall_mem_parenthesizeIf hopen hclose true (ih h.2)

end Expression

namespace FormulaGrammar

/-- **What is expected next** in a formula. -/
inductive Expects where
  /-- An operand: at the start, and after an operator or a parenthesis. -/
  | operand
  /-- An operator on integers, or what ends a formula or closes it. -/
  | operator
  /-- The opening parenthesis of a call. -/
  | opening
  /-- The first reference of a call. -/
  | first
  /-- The operator of a range. -/
  | colon
  /-- The last reference of a call. -/
  | last
  /-- The closing parenthesis of a call. -/
  | closing
  deriving DecidableEq

namespace Expects

/-- **What is expected after a token**, if the token was. -/
def next : Expects → Token → Option Expects
  | operand, .number _ => some operator
  | operand, .reference _ _ => some operator
  | operand, .punctuation c => if c = '(' then some operand else none
  | operand, .name _ => some opening
  | operator, .operator c => if c = ':' then none else some operand
  | operator, .punctuation c => if c = ')' then some operator else none
  | opening, .punctuation c => if c = '(' then some first else none
  | first, .reference _ _ => some colon
  | colon, .operator c => if c = ':' then some last else none
  | last, .reference _ _ => some closing
  | closing, .punctuation c => if c = ')' then some operator else none
  | _, _ => none

/-- **What is expected after tokens**, if each was expected where it
stands. -/
def after : Expects → List Token → Option Expects
  | state, [] => some state
  | state, t :: tokens => (state.next t).bind fun state' => after state' tokens

/-- After tokens after tokens. -/
theorem after_append (state : Expects) (tokens tokens' : List Token) :
    state.after (tokens ++ tokens')
      = (state.after tokens).bind fun state' => state'.after tokens' := by
  induction tokens generalizing state with
  | nil => rfl
  | cons t tokens ih =>
    rw [List.cons_append, after, after]
    cases state.next t with
    | none => rfl
    | some state' => exact ih state'

theorem next_arith (state : Expects) (op : ArithOp) :
    state.next (.operator op.symbol)
      = if state = operator then some operand else none := by
  cases state <;> cases op <;> rfl

end Expects

/-! ## Derived sequences -/

/-- Links are followed if their operands are. -/
theorem after_links {links : List Link}
    (h : ∀ link ∈ links, Expects.operand.after link.tokens = some .operator) :
    Expects.operator.after (links.flatMap Link.written) = some .operator := by
  induction links with
  | nil => rfl
  | cons link links ih =>
    obtain ⟨hlink, hlinks⟩ := List.forall_mem_cons.mp h
    rw [List.flatMap_cons, Link.written, List.cons_append, Expects.after,
      Expects.next_arith, if_pos rfl, Option.bind_some, Expects.after_append,
      hlink, Option.bind_some, ih hlinks]

/-- **A derived sequence is followed to its end**, from where an operand is
expected to where an operator is. -/
theorem after_of_derives {phrase : Phrase} {tokens : List Token}
    {e : Expression} (h : Derives phrase tokens e) :
    Expects.operand.after tokens = some .operator := by
  induction h with
  | number value => rfl
  | reference column row => rfl
  | call function c d first last => rfl
  | @parenthesized tokens e _ ih =>
    show Expects.operand.after (tokens ++ [.punctuation ')']) = _
    rw [Expects.after_append, ih]
    rfl
  | product _ _ _ ihfirst ihlinks =>
    rw [Expects.after_append, ihfirst, Option.bind_some, after_links ihlinks]
  | sum _ _ _ ihfirst ihlinks =>
    rw [Expects.after_append, ihfirst, Option.bind_some, after_links ihlinks]

/-! ## What the text of a tree is scanned to -/

end FormulaGrammar

namespace Expression

/-- **The tokens that the text of a tree is scanned to.** -/
def readBack (e : Expression) : List Token := e.tokens.flatMap Token.readBack

theorem readBack_number_of_neg {n : Int64} (h : n < 0) :
    (number n).readBack = [.operator '-', .number (-n)] := by
  show (if n < 0 then _ else _) ++ [] = _
  rw [if_pos h]
  rfl

theorem readBack_number_of_nonneg {n : Int64} (h : ¬ n < 0) :
    (number n).readBack = [.number n] := by
  show (if n < 0 then _ else _) ++ [] = _
  rw [if_neg h]
  rfl

theorem readBack_parenthesizeIf (needed : Bool) (tokens : List Token) :
    (parenthesizeIf needed tokens).flatMap Token.readBack
      = parenthesizeIf needed (tokens.flatMap Token.readBack) := by
  cases needed with
  | false => rfl
  | true =>
    rw [parenthesizeIf, if_pos rfl, parenthesize, List.flatMap_append]
    rfl

theorem readBack_arith (op : ArithOp) (left right : Expression) :
    (arith op left right).readBack
      = parenthesizeIf (left.strength < op.strength) left.readBack
        ++ .operator op.symbol
        :: parenthesizeIf (right.strength ≤ op.strength) right.readBack := by
  unfold readBack
  rw [tokens, List.flatMap_append, List.flatMap_cons,
    readBack_parenthesizeIf, readBack_parenthesizeIf]
  rfl

theorem readBack_range (first last : Expression) :
    (range first last).readBack
      = parenthesizeIf (first.strength < Operator.range.strength) first.readBack
        ++ .operator ':'
        :: parenthesizeIf (last.strength ≤ Operator.range.strength)
          last.readBack := by
  unfold readBack
  rw [tokens, List.flatMap_append, List.flatMap_cons,
    readBack_parenthesizeIf, readBack_parenthesizeIf]
  rfl

theorem readBack_call (function : String) (argument : Expression) :
    (call function argument).readBack
      = .name function :: parenthesize argument.readBack := by
  unfold readBack
  rw [tokens, List.flatMap_cons]
  exact congrArg (Token.name function :: ·)
    (readBack_parenthesizeIf true argument.tokens)

end Expression

namespace FormulaGrammar

open Expression (parenthesizeIf)

/-- What is expected after a tree in the place of a call's argument, where
only a reference or a range of two is. -/
def afterArgument : Expression → Option Expects
  | .reference _ _ => some .colon
  | .range (.reference _ _) (.reference _ _) => some .closing
  | _ => none

/-- The end of a range is a reference. -/
theorem after_last (e : Expression) :
    Expects.last.after
        (parenthesizeIf (e.strength ≤ Operator.range.strength) e.readBack)
      = match e with
        | .reference _ _ => some .closing
        | _ => none := by
  cases e with
  | number n =>
    by_cases hn : n < 0
    · rw [Expression.readBack_number_of_neg hn]
      rfl
    · rw [Expression.readBack_number_of_nonneg hn]
      rfl
  | reference column row => rfl
  | arith op left right => cases op <;> rfl
  | range first last => rfl
  | call function argument => rfl

/-- Within a call no operator on integers is expected. -/
theorem ne_operator_of_afterArgument {e : Expression} {state : Expects}
    (h : afterArgument e = some state) : state ≠ .operator := by
  unfold afterArgument at h
  split at h
  · cases h
    exact Expects.noConfusion
  · cases h
    exact Expects.noConfusion
  · cases h

/-- **Within a call only a range of two references** is followed as far as
the closing parenthesis. -/
theorem after_readBack_argument (e : Expression) :
    Expects.first.after e.readBack = afterArgument e := by
  induction e with
  | number n =>
    by_cases hn : n < 0
    · rw [Expression.readBack_number_of_neg hn]
      rfl
    · rw [Expression.readBack_number_of_nonneg hn]
      rfl
  | reference column row => rfl
  | arith op left right ihleft _ =>
    rw [Expression.readBack_arith, Expects.after_append]
    cases decide (left.strength < op.strength) with
    | true => rfl
    | false =>
      show ((Expects.first.after left.readBack).bind _) = none
      rw [ihleft]
      cases h : afterArgument left with
      | none => rfl
      | some state =>
        -- an operator on integers is not expected anywhere in a call
        rw [Option.bind_some, Expects.after, Expects.next_arith,
          if_neg (ne_operator_of_afterArgument h)]
        rfl
  | range first last ihfirst _ =>
    rw [Expression.readBack_range, Expects.after_append]
    cases first with
    | number n =>
      show ((Expects.first.after (Expression.number n).readBack).bind _) = none
      rw [ihfirst]
      rfl
    | reference column row =>
      -- the reference and `:` are expected, and then another reference is
      refine (after_last last).trans ?_
      cases last <;> rfl
    | arith op left right => cases op <;> rfl
    | range first last' =>
      show ((Expects.first.after (Expression.range first last').readBack).bind _)
        = none
      rw [ihfirst]
      unfold afterArgument
      split
      next heq => cases heq
      next => rfl
      next => rfl
    | call function argument => rfl
  | call function argument _ => rfl

/-- **Parentheses make no difference** to what is expected after an operand,
and do not make an operand of what is none. -/
theorem after_parenthesizeIf {tokens : List Token} {result : Option Expects}
    (needed : Bool) (h : Expects.operand.after tokens = result)
    (hresult : result = some .operator ∨ result = none) :
    Expects.operand.after (parenthesizeIf needed tokens) = result := by
  cases needed with
  | false => exact h
  | true =>
    show Expects.operand.after (tokens ++ [.punctuation ')']) = _
    rw [Expects.after_append, h]
    rcases hresult with rfl | rfl
    · rfl
    · rfl

/-- **The tokens of a tree are followed to their end** exactly if it has no
negative literal and its ranges stand where functions take them. -/
theorem after_readBack (e : Expression) :
    (e.EachWord Token.Unsigned ∧ e.RangesPlaced
        ∧ Expects.operand.after e.readBack = some .operator)
      ∨ ¬ (e.EachWord Token.Unsigned ∧ e.RangesPlaced)
        ∧ Expects.operand.after e.readBack = none := by
  induction e with
  | number n =>
    by_cases hn : n < 0
    · -- the sign stands where an operand is expected
      rw [Expression.readBack_number_of_neg hn]
      refine Or.inr ⟨fun h => ?_, rfl⟩
      exact absurd hn (Int64.not_lt.mpr h.1)
    · rw [Expression.readBack_number_of_nonneg hn]
      exact Or.inl ⟨Int64.not_lt.mp hn, trivial, rfl⟩
  | reference column row => exact Or.inl ⟨trivial, trivial, rfl⟩
  | arith op left right ihleft ihright =>
    rw [Expression.readBack_arith, Expects.after_append]
    rcases ihleft with ⟨hsign, hplaced, hleft⟩ | ⟨hnot, hleft⟩
    · rw [after_parenthesizeIf _ hleft (Or.inl rfl), Option.bind_some,
        Expects.after, Expects.next_arith, if_pos rfl, Option.bind_some]
      rcases ihright with ⟨hsign', hplaced', hright⟩ | ⟨hnot, hright⟩
      · exact Or.inl ⟨⟨hsign, hsign'⟩, ⟨hplaced, hplaced'⟩,
          after_parenthesizeIf _ hright (Or.inl rfl)⟩
      · exact Or.inr ⟨fun h => hnot ⟨h.1.2, h.2.2⟩,
          after_parenthesizeIf _ hright (Or.inr rfl)⟩
    · rw [after_parenthesizeIf _ hleft (Or.inr rfl)]
      exact Or.inr ⟨fun h => hnot ⟨h.1.1, h.2.1⟩, rfl⟩
  | range first last ihfirst _ =>
    rw [Expression.readBack_range, Expects.after_append]
    refine Or.inr ⟨fun h => h.2, ?_⟩
    -- after an operand no `:` is expected, and without one nothing is
    rcases ihfirst with ⟨_, _, hfirst⟩ | ⟨_, hfirst⟩
    · rw [after_parenthesizeIf _ hfirst (Or.inl rfl)]
      rfl
    · rw [after_parenthesizeIf _ hfirst (Or.inr rfl)]
      rfl
  | call function argument _ =>
    have hafter : Expects.operand.after (argument.call function).readBack
        = (afterArgument argument).bind
            fun state => state.after [.punctuation ')'] := by
      rw [Expression.readBack_call, ← after_readBack_argument]
      exact Expects.after_append .first argument.readBack [.punctuation ')']
    rw [hafter]
    by_cases h : argument.IsReferenceRange
    · obtain ⟨c, first, d, last, rfl⟩ := Expression.isReferenceRange_iff.mp h
      exact Or.inl ⟨⟨trivial, trivial, trivial⟩, trivial, rfl⟩
    · refine Or.inr ⟨fun h' => h h'.2, ?_⟩
      unfold afterArgument
      split
      · rfl
      · exact absurd trivial h
      · rfl

end FormulaGrammar

end FormulaColumn
