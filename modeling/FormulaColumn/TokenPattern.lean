import FormulaColumn.GrammarRun
import FormulaColumn.Token
import FormulaColumn.WhiteSpace

/-!
# The forms of a token

At each position of a formula the forms of a token are tried in a fixed
order: number, operator, reference, parenthesis, function name. Each takes as
many characters as it can, and none is shortened afterwards to make room for
a different reading. A run of digits too large for the integer it would write
is no token at all.

Digits and letters are the ASCII ones; white space is Unicode's.
-/

namespace FormulaColumn

namespace TokenPattern

/-- The symbols of the operators. -/
def operatorSymbols : List Char := ['*', '/', '+', '-', ':']

/-- The symbols of the parentheses. -/
def punctuationSymbols : List Char := ['(', ')']

/-- Any run of white space, possibly empty. -/
def whiteSpaces : Pattern Char (List Char) :=
  .many (.satisfy isWhiteSpace)

/-- A run of at least one digit. -/
def digits : Pattern Char (List Char) :=
  .many1 (.satisfy Char.isDigit)

/-- An uppercase letter. -/
def uppercase : Pattern Char Char :=
  .satisfy Char.isUpper

/-- An integer literal: a run of digits whose value fits. -/
def number : Pattern Char Token :=
  .tryMap (fun run => (int64? (Numeral.value run)).map Token.number) digits

/-- An operator. -/
def operator : Pattern Char Token :=
  .map Token.operator (.satisfy fun c => operatorSymbols.contains c)

/-- A reference: one letter, and directly after it a run of digits whose
value fits. -/
def reference : Pattern Char Token :=
  .tryMap
    (fun found => (uint64? (Numeral.value found.2)).map
      (Token.reference found.1))
    (.seq uppercase digits)

/-- A parenthesis. -/
def punctuation : Pattern Char Token :=
  .map Token.punctuation (.satisfy fun c => punctuationSymbols.contains c)

/-- A function name: a run of at least one letter. -/
def functionName : Pattern Char Token :=
  .map (fun run => Token.name (String.ofList run)) (.many1 uppercase)

/-- **A token.** The reference stands before the name, or else a name would
take its letter. -/
def token : Pattern Char Token :=
  .choice [number, operator, reference, punctuation, functionName]

/-- **A sequence of tokens**, with white space before, between and after
them. -/
def sequence : Pattern Char (List Token) :=
  .seqLeft (.many (.seqRight whiteSpaces token)) whiteSpaces

end TokenPattern

end FormulaColumn
