import FormulaColumn.Numeral

/-!
# JSON tokens

The words of a JSON text, as far as values are written with them: the
brackets and separators, strings, integers that fit 64 bits, and `null`.

A token has more than one form. Between the quotes of a string, a character
may stand for itself, or be escaped by a letter, by its code unit in four
hexadecimal digits, or by the two surrogates of a character outside the basic
plane; and between tokens there may be blanks. `JsonToken.Form` and
`JsonToken.Spaced` say what the texts of tokens are.

A writer has one form for each token. It escapes the quote, the backslash and
the control characters, some of these by a letter and the others by their code
unit, and every other character stands for itself.
-/

namespace FormulaColumn

/-- **A word of a JSON text.** -/
inductive JsonToken where
  /-- The start of an object. -/
  | beginObject
  /-- The end of an object. -/
  | endObject
  /-- The start of an array. -/
  | beginArray
  /-- The end of an array. -/
  | endArray
  /-- The sign between the name of a member and its value. -/
  | colon
  /-- The sign between two members or two elements. -/
  | comma
  /-- A string. -/
  | string (text : String)
  /-- An integer. -/
  | integer (n : Int64)
  /-- The word `null`. -/
  | null
  deriving DecidableEq, Repr

namespace JsonToken

/-! ## The forms of a character -/

/-- A blank between tokens. -/
def isBlank (c : Char) : Bool :=
  c == ' ' || c == '\n' || c == '\t' || c == '\r'

/-- Whether a character may stand for itself in a string. -/
def isPlain (c : Char) : Bool :=
  c != '\"' && c != '\\' && 0x20 ≤ c.toNat

/-- The character that a letter after a backslash writes. -/
def escapeLetter? (c : Char) : Option Char :=
  if c = '\"' ∨ c = '\\' ∨ c = '/' then some c
  else if c = 'b' then some '\x08'
  else if c = 'f' then some '\x0c'
  else if c = 'n' then some '\n'
  else if c = 'r' then some '\r'
  else if c = 't' then some '\t'
  else none

/-- The value of a hexadecimal digit. -/
def hexValue? (c : Char) : Option Nat :=
  if '0' ≤ c ∧ c ≤ '9' then some (c.toNat - '0'.toNat)
  else if 'a' ≤ c ∧ c ≤ 'f' then some (10 + (c.toNat - 'a'.toNat))
  else if 'A' ≤ c ∧ c ≤ 'F' then some (10 + (c.toNat - 'A'.toNat))
  else none

/-- The character of a code unit that is no surrogate. -/
def ofUnit? (unit : Nat) : Option Char :=
  if 0xD800 ≤ unit ∧ unit ≤ 0xDFFF then none else some (Char.ofNat unit)

/-- The character of a high and a low surrogate. -/
def ofSurrogates? (high low : Nat) : Option Char :=
  if 0xD800 ≤ high ∧ high ≤ 0xDBFF ∧ 0xDC00 ≤ low ∧ low ≤ 0xDFFF then
    some (Char.ofNat (0x10000 + 0x400 * (high - 0xD800) + (low - 0xDC00)))
  else
    none

/-- **An escaped code unit**: a backslash, `u` and four hexadecimal digits. -/
inductive UnitForm : Nat → List Char → Prop where
  /-- The digits have these values, the highest first. -/
  | digits {a b c d : Char} {w x y z : Nat} :
    hexValue? a = some w → hexValue? b = some x → hexValue? c = some y →
    hexValue? d = some z →
    UnitForm (0x1000 * w + 0x100 * x + 0x10 * y + z) ['\\', 'u', a, b, c, d]

/-- **The forms of a character** in a string. -/
inductive CharForm (c : Char) : List Char → Prop where
  /-- It stands for itself. -/
  | plain : isPlain c = true → CharForm c [c]
  /-- It is escaped by a letter. -/
  | letter {letter : Char} :
    escapeLetter? letter = some c → CharForm c ['\\', letter]
  /-- It is escaped by its code unit. -/
  | unit {n : Nat} {form : List Char} :
    UnitForm n form → ofUnit? n = some c → CharForm c form
  /-- It is escaped by its surrogates. -/
  | surrogates {high low : Nat} {form form' : List Char} :
    UnitForm high form → UnitForm low form' → ofSurrogates? high low = some c →
    CharForm c (form ++ form')

/-! ## The forms of a token -/

/-- The signs, each with the token that it is. -/
def signs : List (Char × JsonToken) :=
  [('\x7b', .beginObject), ('\x7d', .endObject), ('[', .beginArray),
   (']', .endArray), (':', .colon), (',', .comma)]

/-- **The forms of the characters** of a string, one after the other. -/
inductive CharsForm : List Char → List Char → Prop where
  /-- There are no characters left. -/
  | nil : CharsForm [] []
  /-- A character stands before the others. -/
  | cons {c : Char} {form text rest : List Char} :
    CharForm c form → CharsForm text rest → CharsForm (c :: text) (form ++ rest)

/-- **The forms of a token.** An integer has one: it is written in decimal,
without leading zeros. -/
inductive Form : JsonToken → List Char → Prop where
  /-- A sign is a token by itself. -/
  | sign {c : Char} {t : JsonToken} : (c, t) ∈ signs → Form t [c]
  /-- A string stands between quotes. -/
  | string {text : String} {body : List Char} :
    CharsForm text.toList body → Form (.string text) ('\"' :: body ++ ['\"'])
  /-- An integer is its numeral. -/
  | integer (n : Int64) : Form (.integer n) (Numeral.ofInt n.toInt)
  /-- The word `null` is its letters. -/
  | null : Form .null "null".toList

/-- **A text of these tokens**, each in one of its forms: each stands after some
blanks, and there may be blanks at the end. -/
inductive Spaced (Form : JsonToken → List Char → Prop) :
    List JsonToken → List Char → Prop where
  /-- No tokens are written as blanks. -/
  | nil {blanks : List Char} :
    (∀ c ∈ blanks, isBlank c = true) → Spaced Form [] blanks
  /-- A token is written after blanks and before the other tokens. -/
  | cons {blanks form rest : List Char} {t : JsonToken} {tokens : List JsonToken} :
    (∀ c ∈ blanks, isBlank c = true) → Form t form → Spaced Form tokens rest →
    Spaced Form (t :: tokens) (blanks ++ (form ++ rest))

theorem Spaced.mono {Form Form' : JsonToken → List Char → Prop}
    (hform : ∀ t form, Form t form → Form' t form) {tokens : List JsonToken}
    {text : List Char} (h : Spaced Form tokens text) : Spaced Form' tokens text := by
  induction h with
  | nil hblanks => exact .nil hblanks
  | cons hblanks ht _ ih => exact .cons hblanks (hform _ _ ht) ih

/-! ## Writing tokens -/

/-- The characters that a writer escapes by a letter, each with its letter. -/
def escapeLetters : List (Char × Char) :=
  [('\"', '\"'), ('\\', '\\'), ('\x08', 'b'), ('\x0c', 'f'), ('\n', 'n'),
   ('\r', 'r'), ('\t', 't')]

/-- A code unit below 256 in four lowercase hexadecimal digits. -/
def codeUnit (n : Nat) : List Char :=
  ['\\', 'u', '0', '0', Nat.digitChar (n / 16), Nat.digitChar (n % 16)]

/-- **One character of a string**, as it is written. -/
def escape (c : Char) : List Char :=
  if c = '\"' ∨ c = '\\' then ['\\', c]
  else if c = '\x08' then ['\\', 'b']
  else if c = '\x0c' then ['\\', 'f']
  else if c = '\n' then ['\\', 'n']
  else if c = '\r' then ['\\', 'r']
  else if c = '\t' then ['\\', 't']
  else if c.toNat < 0x20 then codeUnit c.toNat
  else [c]

/-- The characters of a token, written with a way to escape characters. -/
def charsWith (escape : Char → List Char) : JsonToken → List Char
  | beginObject => ['\x7b']
  | endObject => ['\x7d']
  | beginArray => ['[']
  | endArray => [']']
  | colon => [':']
  | comma => [',']
  | string text => '\"' :: text.toList.flatMap escape ++ ['\"']
  | integer n => Numeral.ofInt n.toInt
  | null => "null".toList

end JsonToken

end FormulaColumn
