import FormulaColumn.GrammarRun
import FormulaColumn.JsonToken

/-!
# Scanning JSON tokens

Reading is freer than writing: a token is read in any of its forms. A
surrogate that is not one of a pair is no character.

An integer is written without leading zeros and without a fraction or an
exponent. Zero has no minus sign: `-0` is a number in JSON, but it is not an
integer.
-/

namespace FormulaColumn

namespace JsonPattern

open JsonToken (isBlank isPlain escapeLetter? hexValue? ofUnit? ofSurrogates?)

/-- Any run of blanks, possibly empty. -/
def blanks : Pattern Char (List Char) := .many (.satisfy isBlank)

/-! ## Characters of a string -/

/-- A hexadecimal digit, yielding its value. -/
def hexDigit : Pattern Char Nat := .select hexValue?

/-- An escaped code unit: a backslash, `u` and four hexadecimal digits. -/
def codeUnit : Pattern Char Nat :=
  .seqRight (.seq (.literal '\\') (.literal 'u'))
    (.map
      (fun ds => 0x1000 * ds.1.1 + 0x100 * ds.1.2 + 0x10 * ds.2.1 + ds.2.2)
      (.seq (.seq hexDigit hexDigit) (.seq hexDigit hexDigit)))

/-- **A character of a string.** -/
def character : Pattern Char Char :=
  .choice
    [.satisfy isPlain,
     .seqRight (.literal '\\') (.select escapeLetter?),
     .tryMap ofUnit? codeUnit,
     .tryMap (fun units => ofSurrogates? units.1 units.2)
       (.seq codeUnit codeUnit)]

/-! ## Tokens -/

/-- A sign that is a token by itself. -/
def sign (c : Char) (token : JsonToken) : Pattern Char JsonToken :=
  .map (fun _ => token) (.literal c)

/-- A string. -/
def string : Pattern Char JsonToken :=
  .map (fun run => JsonToken.string (String.ofList run))
    (.between (.literal '\"') (.many character) (.literal '\"'))

/-- The integer of a sign and a run of digits: it is written in the one way
that an integer is. -/
def integer? (negative : Bool) (digits : List Char) : Option Int64 :=
  let magnitude : Int := Numeral.value digits
  if digits.head? = some '0' ∧ (digits ≠ ['0'] ∨ negative) then none
  else int64? (if negative then -magnitude else magnitude)

/-- An integer. -/
def integer : Pattern Char JsonToken :=
  .tryMap
    (fun found => (integer? found.1.isSome found.2).map JsonToken.integer)
    (.seq (.optional (.literal '-')) (.many1 (.satisfy Char.isDigit)))

/-- The word `null`. -/
def null : Pattern Char JsonToken :=
  .map (fun _ => JsonToken.null)
    (.seq (.seq (.literal 'n') (.literal 'u'))
      (.seq (.literal 'l') (.literal 'l')))

/-- **A token.** -/
def token : Pattern Char JsonToken :=
  .choice
    [sign '\x7b' .beginObject, sign '\x7d' .endObject, sign '[' .beginArray,
     sign ']' .endArray, sign ':' .colon, sign ',' .comma, string, integer,
     null]

/-- **A sequence of tokens**, with blanks before, between and after them. -/
def sequence : Pattern Char (List JsonToken) :=
  .seqLeft (.many (.seqRight blanks token)) blanks

end JsonPattern

/-- **The tokens of a JSON text**, if it is tokens to its end. -/
def jsonTokens? (text : List Char) : Option (List JsonToken) :=
  match JsonPattern.sequence.run text with
  | some (tokens, []) => some tokens
  | _ => none

end FormulaColumn
