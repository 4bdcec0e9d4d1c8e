import FormulaColumn.Numeral

/-!
# Tokens

The words of a formula: integer literals, operators, references to cells,
parentheses and function names. A reference is one word, so that `A1` is a
cell and not the name `A` before the number `1`.

A token keeps the characters it is about, whether or not a text would
scan to it: `operator '^'` is a token that no formula contains. Which
tokens a text has is said in `FormulaColumn.TokenPattern`.
-/

namespace FormulaColumn

/-- **A word of a formula.** -/
inductive Token where
  /-- An integer literal. -/
  | number (value : Int64)
  /-- An operator, by its symbol. -/
  | operator (symbol : Char)
  /-- A reference to the cell in row `row` of column `column`. -/
  | reference (column : Char) (row : UInt64)
  /-- A parenthesis. -/
  | punctuation (symbol : Char)
  /-- The name of a function. -/
  | name (text : String)
  deriving DecidableEq, Repr

namespace Token

/-- The characters of a token. -/
def chars : Token → List Char
  | number value => Numeral.ofInt value.toInt
  | operator symbol => [symbol]
  | reference column row => column :: Numeral.ofNat row.toNat
  | punctuation symbol => [symbol]
  | name text => text.toList

/-- The text of a token. -/
def text (token : Token) : String := String.ofList token.chars

end Token

end FormulaColumn
