import FormulaColumn.Operator
import FormulaColumn.Token

/-!
# Expressions

The tree of a formula, and the formula of a tree. The trees are all that can
be built, not only what a formula can say: a literal may be negative, a
function may be applied to anything, and the ends of a range may be any
expressions.

A tree is written as a sequence of tokens, with parentheses only where the
tree would otherwise be read differently: around a left operand that binds
weaker than its operator, and around a right operand that does not bind
tighter. The text of the tree is the text of these tokens, one after the
other without white space.
-/

namespace FormulaColumn

/-- **The tree of a formula.** -/
inductive Expression where
  /-- An integer literal. -/
  | number (value : Int64)
  /-- A reference to the cell in row `row` of column `column`. -/
  | reference (column : Char) (row : UInt64)
  /-- An operator on integers between two operands. -/
  | arith (op : ArithOp) (left right : Expression)
  /-- The cells from `first` to `last`. -/
  | range (first last : Expression)
  /-- A function, by its name, applied to an argument. -/
  | call (function : String) (argument : Expression)
  deriving DecidableEq, Repr

namespace Expression

/-- How strongly a tree binds: as its operator does, and tighter than every
operator where it has none. -/
def strength : Expression → Nat
  | arith op _ _ => op.strength
  | range _ _ => Operator.range.strength
  | number _ => 4
  | reference _ _ => 4
  | call _ _ => 4

/-- Tokens between parentheses. -/
def parenthesize (tokens : List Token) : List Token :=
  Token.punctuation '(' :: tokens ++ [Token.punctuation ')']

/-- Tokens between parentheses where `needed` holds, and as they are
otherwise. -/
def parenthesizeIf (needed : Bool) (tokens : List Token) : List Token :=
  if needed then parenthesize tokens else tokens

/-- **The tokens of a tree**, with the parentheses it needs. -/
def tokens : Expression → List Token
  | number value => [Token.number value]
  | reference column row => [Token.reference column row]
  | arith op left right =>
    parenthesizeIf (left.strength < op.strength) left.tokens
      ++ Token.operator op.symbol
      :: parenthesizeIf (right.strength ≤ op.strength) right.tokens
  | range first last =>
    parenthesizeIf (first.strength < Operator.range.strength) first.tokens
      ++ Token.operator Operator.range.symbol
      :: parenthesizeIf (last.strength ≤ Operator.range.strength) last.tokens
  | call function argument =>
    Token.name function :: parenthesize argument.tokens

/-- **The text of a tree.** -/
def text (e : Expression) : String :=
  String.ofList (e.tokens.flatMap Token.chars)

end Expression

end FormulaColumn
