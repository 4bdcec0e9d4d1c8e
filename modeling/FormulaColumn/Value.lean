import FormulaColumn.Numeral

/-!
# Values

What evaluating an expression gives. Errors are values like the others: they
are stored in cells, handed to functions and shown. A list is the value of a
range, and it exists only between the range and the function applied to it,
unless an expression uses a range in some other place.
-/

namespace FormulaColumn

/-- **Why an expression has no integer value.** -/
inductive CellError where
  /-- A reference to a row that does not exist or holds no formula. -/
  | invalidReference
  /-- A cell without a formula, or a reference to another column. -/
  | couldNotEvaluate
  /-- A list where an operator or a function takes integers. -/
  | invalidOperands
  /-- A range whose ends are not references in ascending order. -/
  | invalidRange
  /-- A function applied to an integer. -/
  | invalidArgument
  /-- A function that does not exist. -/
  | unknownFunction (name : String)
  /-- A division by zero. -/
  | divisionByZero
  /-- A result that no 64-bit integer has. -/
  | overflow
  /-- A cell whose value depends on itself. -/
  | cyclicReference
  deriving DecidableEq, Repr

/-- **What evaluating an expression gives.** -/
inductive Value where
  /-- An integer. -/
  | int (n : Int64)
  /-- The values of the rows of a range, in ascending order. -/
  | list (items : List Value)
  /-- An error. -/
  | error (cause : CellError)

/-- **Induction on values**: what holds of a list if it holds of its items,
and of integers and errors, holds of every value. -/
@[elab_as_elim]
theorem Value.induction {motive : Value → Prop} (int : ∀ n, motive (.int n))
    (list : ∀ items, (∀ v ∈ items, motive v) → motive (.list items))
    (error : ∀ cause, motive (.error cause)) : ∀ v, motive v
  | .int n => int n
  | .list items => list items fun v _ => Value.induction int list error v
  | .error cause => error cause

/-- The message of an error, for a reader. -/
def CellError.message : CellError → String
  | invalidReference => "invalid reference"
  | couldNotEvaluate => "could not evaluate expression"
  | invalidOperands => "invalid operands for integer operator"
  | invalidRange => "invalid range"
  | invalidArgument => "invalid function argument"
  | unknownFunction name => "unknown function " ++ name
  | divisionByZero => "division by zero"
  | overflow => "integer overflow"
  | cyclicReference => "cyclic reference"

/-- The errors that have nothing to say but what they are. -/
def CellError.plainErrors : List CellError :=
  [.invalidReference, .couldNotEvaluate, .invalidOperands, .invalidRange,
   .invalidArgument, .divisionByZero, .overflow, .cyclicReference]

/-- An error has nothing to say, or is about a function by its name. -/
theorem CellError.mem_plainErrors_or (cause : CellError) :
    cause ∈ plainErrors ∨ ∃ name, cause = .unknownFunction name := by
  cases cause with
  | unknownFunction name => exact Or.inr ⟨name, rfl⟩
  | _ => exact Or.inl (by decide)

namespace Value

/-- The integer of an integer value. -/
def asInt : Value → Option Int64
  | int n => some n
  | list _ => none
  | error _ => none

/-- Whether a value is an error. A list of errors is not one. -/
def isError : Value → Bool
  | int _ => false
  | list _ => false
  | error _ => true

/-! ## The text of a value -/

mutual

/-- The characters of a value: an integer in decimal, a list in brackets
with its items separated, and an error by its message. -/
def chars : Value → List Char
  | int n => Numeral.ofInt n.toInt
  | list items => '[' :: itemsChars items ++ [']']
  | error cause => "Error: ".toList ++ cause.message.toList

/-- The characters of the items of a list, with a comma and a space between
them. -/
def itemsChars : List Value → List Char
  | [] => []
  | [item] => chars item
  | item :: next :: items =>
    chars item ++ ", ".toList ++ itemsChars (next :: items)

end

/-- **The text of a value**, as a cell shows it. -/
def text (value : Value) : String := String.ofList value.chars

end Value

end FormulaColumn
