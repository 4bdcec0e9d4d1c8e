import FormulaColumn.Expression
import FormulaColumn.GrammarRun

/-!
# The grammar of formulas

A formula is a sum:

* a sum is products with `+` or `-` between them;
* a product is primitives with `*` or `/` between them;
* a primitive is a number, a reference, a function applied to a range of two
  references, or a sum in parentheses.

A chain of operands is a tree that leans to the left. A range is nothing a
primitive can be, so ranges stand only where a function takes them.

The only recursion is the sum in parentheses, and the parenthesis is consumed
before the sum is entered, so the grammar has no left recursion.
-/

namespace FormulaColumn

namespace FormulaGrammar

/-- Descriptions over tokens with one rule, the sum. -/
abbrev Part : Type → Type 1 := @Grammar Token 1 fun _ => Expression

/-- The rule of a sum. -/
def nested : Fin 1 := ⟨0, Nat.one_pos⟩

/-! ## Tokens -/

/-- The number of a number token. -/
def numberValue? : Token → Option Int64
  | .number value => some value
  | _ => none

/-- The expression of a reference token. -/
def referenceExpression? : Token → Option Expression
  | .reference column row => some (.reference column row)
  | _ => none

/-- The text of a name token. -/
def nameText? : Token → Option String
  | .name text => some text
  | _ => none

/-- The symbol of an operator on integers, yielding the operator. -/
def symbol (op : ArithOp) : Part ArithOp :=
  .map (fun _ => op) (.literal (Token.operator op.symbol))

/-- `p` in parentheses. -/
def parenthesized {α : Type} (p : Part α) : Part α :=
  .between (.literal (Token.punctuation '(')) p
    (.literal (Token.punctuation ')'))

/-! ## Rules -/

/-- A literal. -/
def number : Part Expression :=
  .map Expression.number (.select numberValue?)

/-- A reference. -/
def reference : Part Expression := .select referenceExpression?

/-- Two references with `:` between them. -/
def range : Part Expression :=
  .map (fun ends => .range ends.1 ends.2)
    (.seq
      (.seqLeft reference (.literal (Token.operator Operator.range.symbol)))
      reference)

/-- A function applied to a range. -/
def call : Part Expression :=
  .map (fun found => .call found.1 found.2)
    (.seq (.select nameText?) (parenthesized range))

/-- A primitive. The sum in parentheses is the rule. -/
def primitive : Part Expression :=
  .choice [number, reference, call, parenthesized (.rule nested)]

/-- **A chain of operands as a tree** that leans to the left. -/
def foldChain (first : Expression)
    (rest : List (ArithOp × Expression)) : Expression :=
  rest.foldl (fun left next => .arith next.1 left next.2) first

/-- Operands with one of the operators between them. -/
def chain (operators : List ArithOp) (operand : Part Expression) :
    Part Expression :=
  .map (fun found => foldChain found.1 found.2)
    (.seq operand (.many (.seq (.choice (operators.map symbol)) operand)))

/-- A product. -/
def product : Part Expression := chain [.mul, .div] primitive

/-- A sum. -/
def sum : Part Expression := chain [.add, .sub] product

/-- The table of rules: the sum. -/
def rules : Grammar.Rules Token fun _ : Fin 1 => Expression := fun _ => sum

/-- **A formula**: a sum and nothing after it. -/
def formula : Part Expression := .seqLeft (.rule nested) .endOfInput

end FormulaGrammar

/-- **The tree of a sequence of tokens**, if they are a formula. -/
def Expression.ofTokens? (tokens : List Token) : Option Expression :=
  (Grammar.run FormulaGrammar.rules FormulaGrammar.formula
    tokens).toOption.map Prod.fst

end FormulaColumn
