import FormulaColumn.JsonForm

/-!
# What is asked of a JSON library

Values leave as JSON texts and come back from them, and what writes and reads
the texts is not part of this library. There are two parts of it. A
`JsonLibrary` writes trees as texts and reads texts as trees; it knows nothing
of values. A `ValueForm` gives a value its tree, and finds the value of a
tree; it knows nothing of texts.

What is relied on is named here, part by part and form by form. A library
writes without blanks and escapes the characters of strings in the usual way,
and it reads the texts of a tree that does not nest too deep
(`JsonLibrary.Lawful`). A form tags a value with the name of its kind, an
error with the name of its own, and looks a tag up among the names
(`ValueForm.Lawful`). That a value comes back is not asked of either.
-/

namespace FormulaColumn

/-! ## Trees and texts -/

/-- **A library that writes and reads JSON texts.** -/
structure JsonLibrary where
  /-- How it writes a character of a string. -/
  escape : Char → List Char
  /-- The text that it writes for a tree. -/
  print : JsonTree → String
  /-- The tree that it reads a text as, if it can read it. -/
  parse : String → Option JsonTree

namespace JsonLibrary

/-- How many brackets of a text may be open at once. -/
def depthLimit : Nat := 127

/-- **What a JSON library is relied on for.** -/
structure Lawful (library : JsonLibrary) : Prop where
  /-- Quotes, backslashes and five of the control characters are escaped by a
  letter. -/
  escape_letter : ∀ c letter, (c, letter) ∈ JsonToken.escapeLetters →
    library.escape c = ['\\', letter]
  /-- The other control characters are escaped by their code unit. -/
  escape_control : ∀ c : Char, c.toNat < 0x20 →
    (∀ letter, (c, letter) ∉ JsonToken.escapeLetters) →
    library.escape c = JsonToken.codeUnit c.toNat
  /-- Every other character stands for itself. -/
  escape_other : ∀ c : Char, 0x20 ≤ c.toNat →
    (∀ letter, (c, letter) ∉ JsonToken.escapeLetters) →
    library.escape c = [c]
  /-- Nothing is written as `null`. -/
  print_null : library.print .null = "null"
  /-- An integer is written in decimal. -/
  print_integer : ∀ n : Int64,
    library.print (.integer n) = String.ofList (Numeral.ofInt n.toInt)
  /-- A string is written between quotes, character by character. -/
  print_string : ∀ text : String,
    library.print (.string text)
      = "\"" ++ String.ofList (text.toList.flatMap library.escape) ++ "\""
  /-- An array is written in brackets, with commas between its items. -/
  print_array : ∀ items,
    library.print (.array items)
      = "[" ++ ",".intercalate (items.map library.print) ++ "]"
  /-- An object is written in braces, its member as a name and a content. -/
  print_object : ∀ name content,
    library.print (.object name content)
      = "\x7b" ++ library.print (.string name) ++ ":" ++ library.print content
        ++ "\x7d"
  /-- A text of a tree is read as the tree, if not too many brackets are open
  at once. -/
  parse_text : ∀ (tree : JsonTree) (text : String),
    tree.WrittenAs text.toList → tree.depth ≤ depthLimit →
    library.parse text = some tree

end JsonLibrary

/-! ## Values and trees -/

/-- **A form of values as JSON trees.** -/
structure ValueForm where
  /-- The tree of a value. -/
  ofValue : Value → JsonTree
  /-- The tree of an error. -/
  ofError : CellError → JsonTree
  /-- The value of a tree, if it is the tree of one. -/
  value? : JsonTree → Option Value
  /-- The value of a kind that has a tree for its content, if there is one. -/
  content? : ValueKind → JsonTree → Option Value
  /-- The error of a tree, if it is the tree of one. -/
  error? : JsonTree → Option CellError

/-- **What a form of values is relied on for**: the name of the kind is the tag
of an object that has the content for its member. -/
structure ValueForm.Lawful (form : ValueForm) : Prop where
  /-- An integer is tagged. -/
  ofValue_int : ∀ n,
    form.ofValue (.int n) = .object ValueKind.int.name (.integer n)
  /-- A list is tagged, and its items are an array. -/
  ofValue_list : ∀ items,
    form.ofValue (.list items)
      = .object ValueKind.list.name (.array (items.map form.ofValue))
  /-- An error is tagged. -/
  ofValue_error : ∀ cause,
    form.ofValue (.error cause)
      = .object ValueKind.error.name (form.ofError cause)
  /-- An error that has nothing to say is the name of its kind. -/
  ofError_plain : ∀ cause ∈ CellError.plainErrors,
    form.ofError cause = .string cause.kind
  /-- An error that has something to say is tagged. -/
  ofError_unknownFunction : ∀ name,
    form.ofError (.unknownFunction name)
      = .object (CellError.unknownFunction name).kind (.string name)
  /-- The tag of an object is looked up among the names of the kinds, and the
  member is the content of a value of that kind. -/
  value?_object : ∀ tag content,
    form.value? (.object tag content)
      = (ValueKind.ofName? tag).bind fun kind => form.content? kind content
  /-- The content of an integer is the integer. -/
  content?_int : ∀ n, form.content? .int (.integer n) = some (.int n)
  /-- The content of a list is the array of its items. -/
  content?_list : ∀ items,
    form.content? .list (.array items)
      = (items.mapM form.value?).map Value.list
  /-- The content of an error is the tree of the error. -/
  content?_error : ∀ content,
    form.content? .error content = (form.error? content).map Value.error
  /-- A string is looked up among the names of the errors that have nothing to
  say. -/
  error?_string : ∀ kind,
    form.error? (.string kind)
      = CellError.plainErrors.find? fun cause => cause.kind == kind
  /-- An object with the tag of an unknown function has the name of the
  function for its member. -/
  error?_unknownFunction : ∀ name,
    form.error? (.object (CellError.unknownFunction name).kind (.string name))
      = some (.unknownFunction name)

/-! ## Values and texts -/

namespace JsonLibrary

variable (library : JsonLibrary) (form : ValueForm)

/-- **The text of a value** that a library writes in a form. -/
def write (v : Value) : String := library.print (form.ofValue v)

/-- **The value of a text** that a library reads in a form. -/
def read (text : String) : Option Value := (library.parse text).bind form.value?

/-- **A text that a library writes for a value, with blanks** before, between
and after its tokens. -/
def Respaces (v : Value) (text : String) : Prop :=
  JsonToken.Spaced
    (fun t chars => chars = t.charsWith library.escape)
    (form.ofValue v).tokens text.toList

end JsonLibrary

end FormulaColumn
