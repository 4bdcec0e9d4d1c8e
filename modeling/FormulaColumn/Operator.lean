/-!
# Operators

Four operators compute with integers, and `:` joins the two ends of a range.
They differ in what they may stand between and in what they mean, so the
arithmetic ones are a type of their own. How strongly an operator binds
decides which parentheses a formula can do without.
-/

namespace FormulaColumn

/-- **The operators on integers.** -/
inductive ArithOp where
  /-- Addition. -/
  | add
  /-- Subtraction. -/
  | sub
  /-- Multiplication. -/
  | mul
  /-- Division, truncating toward zero. -/
  | div
  deriving DecidableEq, Repr

/-- The operators a formula may contain. -/
inductive Operator where
  /-- An operator on integers. -/
  | arith (op : ArithOp)
  /-- The operator between the two ends of a range. -/
  | range
  deriving DecidableEq, Repr

/-- The symbol of an operator on integers. -/
def ArithOp.symbol : ArithOp → Char
  | add => '+'
  | sub => '-'
  | mul => '*'
  | div => '/'

/-- How strongly an operator on integers binds. -/
def ArithOp.strength : ArithOp → Nat
  | add => 1
  | sub => 1
  | mul => 2
  | div => 2

namespace Operator

/-- The symbol of an operator. -/
def symbol : Operator → Char
  | arith op => op.symbol
  | range => ':'

/-- How strongly an operator binds; the higher binds tighter. -/
def strength : Operator → Nat
  | arith op => op.strength
  | range => 3

/-- The operator of a symbol. -/
def ofSymbol? (c : Char) : Option Operator :=
  if c = '+' then some (arith .add)
  else if c = '-' then some (arith .sub)
  else if c = '*' then some (arith .mul)
  else if c = '/' then some (arith .div)
  else if c = ':' then some range
  else none

/-- **An operator is told by its symbol.** -/
theorem ofSymbol?_eq_some_iff {c : Char} {op : Operator} :
    ofSymbol? c = some op ↔ c = op.symbol := by
  constructor
  · intro h
    grind [ofSymbol?, Operator.symbol, ArithOp.symbol]
  · rintro rfl
    cases op with
    | arith op => cases op <;> rfl
    | range => rfl

end Operator

end FormulaColumn
