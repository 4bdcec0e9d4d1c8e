import FormulaColumn.JsonTree
import FormulaColumn.Value

/-!
# Values as JSON

A value is written as an object with one member, whose name says which kind
of value it is. An error is written by the name of its kind, and one that has
something to say, as an object with one member in turn. The text has no
blanks.
-/

namespace FormulaColumn

/-- The name of the kind of an error. -/
def CellError.kind : CellError → String
  | invalidReference => "InvalidReference"
  | couldNotEvaluate => "CouldNotEvaluate"
  | invalidOperands => "InvalidOperands"
  | invalidRange => "InvalidRange"
  | invalidArgument => "InvalidArgument"
  | unknownFunction _ => "UnknownFunction"
  | divisionByZero => "DivisionByZero"
  | overflow => "Overflow"
  | cyclicReference => "CyclicReference"

/-- **The kinds of value.** -/
inductive ValueKind where
  /-- Integers. -/
  | int
  /-- Lists. -/
  | list
  /-- Errors. -/
  | error
  deriving DecidableEq, Repr

namespace ValueKind

/-- The name of a kind of value. -/
def name : ValueKind → String
  | int => "Int"
  | list => "List"
  | error => "Error"

/-- The kinds of value, in order. -/
def all : List ValueKind := [int, list, error]

/-- The kind of value of a name. -/
def ofName? (text : String) : Option ValueKind :=
  all.find? fun kind => kind.name == text

/-- **A kind is found by its name.** -/
@[simp] theorem ofName?_name (kind : ValueKind) :
    ofName? kind.name = some kind := by
  cases kind <;> decide

end ValueKind

/-- The tree of an error. -/
def CellError.jsonTree (cause : CellError) : JsonTree :=
  match cause with
  | unknownFunction name => .object cause.kind (.string name)
  | _ => .string cause.kind

namespace Value

mutual

/-- **The tree of a value.** -/
def jsonTree : Value → JsonTree
  | int n => .object ValueKind.int.name (.integer n)
  | list items => .object ValueKind.list.name (.array (itemsJsonTrees items))
  | error cause => .object ValueKind.error.name cause.jsonTree

/-- The trees of the items of a list. -/
def itemsJsonTrees : List Value → List JsonTree
  | [] => []
  | item :: items => jsonTree item :: itemsJsonTrees items

end

theorem itemsJsonTrees_eq_map (items : List Value) :
    itemsJsonTrees items = items.map jsonTree := by
  induction items with
  | nil => rfl
  | cons item items ih => rw [itemsJsonTrees, ih, List.map_cons]

end Value

/-- The text of a tree, without blanks. -/
def JsonTree.text (tree : JsonTree) : String :=
  String.ofList (tree.tokens.flatMap (JsonToken.charsWith JsonToken.escape))

end FormulaColumn
