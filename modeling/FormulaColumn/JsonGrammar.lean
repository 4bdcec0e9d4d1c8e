import FormulaColumn.JsonLibrary
import FormulaColumn.JsonPattern

/-!
# Reading values from JSON

A text is scanned to tokens, the tokens are read as a tree, and the value of
the tree is looked for. The kind of an error that has nothing to say may be an
object too, with `null` as its content; nothing is written so.

A text whose brackets nest deeper than a fixed limit is refused before its
form is looked at.

This makes a library and a form of values of the kind that is asked for
(`JsonLibrary.builtin`, `ValueForm.builtin`).
-/

namespace FormulaColumn

namespace JsonGrammar

/-! ## Trees -/

/-- Descriptions over JSON tokens with one rule, the tree. -/
abbrev Part : Type → Type 1 := @Grammar JsonToken 1 fun _ => JsonTree

/-- The rule of a tree. -/
def nested : Fin 1 := ⟨0, Nat.one_pos⟩

/-- The tree of a token that is one by itself. -/
def leaf? : JsonToken → Option JsonTree
  | .null => some .null
  | .integer n => some (.integer n)
  | .string text => some (.string text)
  | _ => none

/-- The text of a string token. -/
def stringText? : JsonToken → Option String
  | .string text => some text
  | _ => none

/-- The items of an array. -/
def items : Part (List JsonTree) :=
  .map (fun found => found.elim [] fun trees => trees.1 :: trees.2)
    (.optional
      (.seq (.rule nested)
        (.many (.seqRight (.literal .comma) (.rule nested)))))

/-- An array. -/
def array : Part JsonTree :=
  .map JsonTree.array (.between (.literal .beginArray) items (.literal .endArray))

/-- The member of an object: its name and its content. -/
def member : Part (String × JsonTree) :=
  .seq (.select stringText?) (.seqRight (.literal .colon) (.rule nested))

/-- An object. -/
def object : Part JsonTree :=
  .map (fun member => JsonTree.object member.1 member.2)
    (.between (.literal .beginObject) member (.literal .endObject))

/-- **A tree.** -/
def tree : Part JsonTree := .choice [.select leaf?, array, object]

/-- The table of rules: the tree. -/
def rules : Grammar.Rules JsonToken fun _ : Fin 1 => JsonTree := fun _ => tree

/-- A tree and nothing after it. -/
def document : Part JsonTree := .seqLeft (.rule nested) .endOfInput

/-- Whether the brackets of a text nest at most `depth` deep. -/
def nestsWithin : Nat → List JsonToken → Bool
  | _, [] => true
  | 0, .beginObject :: _ => false
  | 0, .beginArray :: _ => false
  | depth + 1, .beginObject :: tokens => nestsWithin depth tokens
  | depth + 1, .beginArray :: tokens => nestsWithin depth tokens
  | depth, .endObject :: tokens => nestsWithin (depth + 1) tokens
  | depth, .endArray :: tokens => nestsWithin (depth + 1) tokens
  | depth, _ :: tokens => nestsWithin depth tokens

/-- The error that has nothing to say, by the name of its kind. -/
def plainError? (kind : String) : Option CellError :=
  CellError.plainErrors.find? fun cause => cause.kind == kind

end JsonGrammar

/-- **The tree of a sequence of JSON tokens**, if they are those of one. -/
def JsonTree.ofTokens? (tokens : List JsonToken) : Option JsonTree :=
  if JsonGrammar.nestsWithin JsonLibrary.depthLimit tokens then
    (Grammar.run JsonGrammar.rules JsonGrammar.document tokens).toOption.map
      Prod.fst
  else
    none

/-- **The tree of a JSON text**, if it is the text of one. -/
def JsonTree.ofText? (text : String) : Option JsonTree :=
  (jsonTokens? text.toList).bind JsonTree.ofTokens?

/-! ## Values -/

/-- The error of a tree, if it is the tree of one. -/
def CellError.ofJsonTree? : JsonTree → Option CellError
  | .string kind => JsonGrammar.plainError? kind
  | .object kind .null => JsonGrammar.plainError? kind
  | .object kind (.string text) =>
    if kind = "UnknownFunction" then some (.unknownFunction text) else none
  | _ => none

namespace Value

mutual

/-- **The value of a tree**, if it is the tree of one. -/
def ofJsonTree? : JsonTree → Option Value
  | .object tag content =>
    (ValueKind.ofName? tag).bind fun kind => ofJsonContent? kind content
  | _ => none

/-- The value of a kind that has a tree for its content, if there is one. -/
def ofJsonContent? (kind : ValueKind) (content : JsonTree) : Option Value :=
  match kind, content with
  | .int, .integer n => some (.int n)
  | .list, .array items => (itemsOfJsonTrees? items).map list
  | .error, content => (CellError.ofJsonTree? content).map error
  | _, _ => none

/-- The values of trees, if each is the tree of one. -/
def itemsOfJsonTrees? : List JsonTree → Option (List Value)
  | [] => some []
  | item :: items => do
    let value ← ofJsonTree? item
    let values ← itemsOfJsonTrees? items
    pure (value :: values)

end

theorem itemsOfJsonTrees?_eq_mapM (items : List JsonTree) :
    itemsOfJsonTrees? items = items.mapM ofJsonTree? := by
  induction items with
  | nil => rfl
  | cons item items ih => rw [itemsOfJsonTrees?, ih, List.mapM_cons]

end Value

/-! ## The library and the form that run -/

/-- **A JSON library**: it writes the text of a tree, and reads texts by the
grammar of trees. It is the one that runs where no other is given. -/
def JsonLibrary.builtin : JsonLibrary where
  escape := JsonToken.escape
  print := JsonTree.text
  parse := JsonTree.ofText?

/-- **A form of values**: it gives a value its tree and finds the value of a
tree. It is the one that runs where no other is given. -/
def ValueForm.builtin : ValueForm where
  ofValue := Value.jsonTree
  ofError := CellError.jsonTree
  value? := Value.ofJsonTree?
  content? := Value.ofJsonContent?
  error? := CellError.ofJsonTree?

namespace Value

/-- The JSON text of a value, as the library that runs writes it. -/
def toJson (value : Value) : String := JsonLibrary.builtin.write .builtin value

/-- The value of a JSON text, if the library that runs reads one. -/
def ofJson? (text : String) : Option Value :=
  JsonLibrary.builtin.read .builtin text

end Value

end FormulaColumn
