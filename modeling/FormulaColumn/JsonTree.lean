import FormulaColumn.JsonToken

/-!
# JSON trees

What a JSON text says, as far as values are written with it: `null`, an
integer, a string, an array of trees, or an object. An object has one member
here, since none with more of them is the form of a value.
-/

namespace FormulaColumn

/-- **What a JSON text says.** -/
inductive JsonTree where
  /-- Nothing. -/
  | null
  /-- An integer. -/
  | integer (n : Int64)
  /-- A string. -/
  | string (text : String)
  /-- An array. -/
  | array (items : List JsonTree)
  /-- An object with one member. -/
  | object (name : String) (content : JsonTree)

namespace JsonTree

/-- **Induction on trees**: what holds of an array if it holds of its items, of
an object if it holds of its content, and of the other trees, holds of every
tree. -/
@[elab_as_elim]
theorem induction {motive : JsonTree → Prop} (null : motive .null)
    (integer : ∀ n, motive (.integer n)) (string : ∀ text, motive (.string text))
    (array : ∀ items, (∀ tree ∈ items, motive tree) → motive (.array items))
    (object : ∀ name content, motive content → motive (.object name content)) :
    ∀ tree, motive tree
  | .null => null
  | .integer n => integer n
  | .string text => string text
  | .array items => array items fun tree _ =>
    induction null integer string array object tree
  | .object name content =>
    object name content (induction null integer string array object content)

mutual

/-- **The tokens of a tree.** -/
def tokens : JsonTree → List JsonToken
  | null => [.null]
  | integer n => [.integer n]
  | string text => [.string text]
  | array items => .beginArray :: itemsTokens items ++ [.endArray]
  | object name content =>
    [.beginObject, .string name, .colon] ++ tokens content ++ [.endObject]

/-- The tokens of the items of an array, with commas between them. -/
def itemsTokens : List JsonTree → List JsonToken
  | [] => []
  | [item] => tokens item
  | item :: next :: items =>
    tokens item ++ .comma :: itemsTokens (next :: items)

end

mutual

/-- How many brackets of a tree are open at once. -/
def depth : JsonTree → Nat
  | null => 0
  | integer _ => 0
  | string _ => 0
  | array items => itemsDepth items + 1
  | object _ content => depth content + 1

/-- How many brackets of the items of an array are open at once. -/
def itemsDepth : List JsonTree → Nat
  | [] => 0
  | item :: items => max (depth item) (itemsDepth items)

end

/-- An item is no deeper than all items. -/
theorem depth_le_itemsDepth {items : List JsonTree} {tree : JsonTree}
    (h : tree ∈ items) : tree.depth ≤ itemsDepth items := by
  induction items with
  | nil => cases h
  | cons item items ih =>
    rw [itemsDepth]
    rcases List.mem_cons.mp h with rfl | hmem
    · exact Nat.le_max_left _ _
    · exact Nat.le_trans (ih hmem) (Nat.le_max_right _ _)

/-- **A text says what a tree is**: it has its tokens, each in any of its forms,
with any blanks before, between and after them. -/
def WrittenAs (tree : JsonTree) (text : List Char) : Prop :=
  JsonToken.Spaced JsonToken.Form tree.tokens text

end JsonTree

end FormulaColumn
