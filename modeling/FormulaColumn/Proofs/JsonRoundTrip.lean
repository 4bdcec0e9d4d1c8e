import FormulaColumn.Proofs.JsonReading

/-!
# Values read back from their JSON text

A value is written by a JSON library and read by it, and comes back, also with
blanks between the tokens of its text, as long as its lists nest at most 60
deep; and no two values have the same text, however deep their lists nest
(`JsonLibrary.read_write`). The library and the form of values are any that are
what they are relied on for (`JsonLibrary.Lawful`, `ValueForm.Lawful`). The
ones that run here are (`JsonLibrary.lawful_builtin`,
`ValueForm.lawful_builtin`).

A library is asked to write strings in one way and to read them in all, so
what is proved of it first is that it writes tokens in forms that are read
(`JsonLibrary.Lawful.form_charsWith`), character by character. A form of values
is asked to look tags up by their names, and a value is found again since no
two kinds have the same name (`ValueForm.Lawful.value?_ofValue`). Each list
takes two brackets, and what is no list takes at most two, which is how 60
lists stay below the limit.
-/

namespace FormulaColumn

namespace JsonToken

/-! ## Written characters -/

theorem escapeLetter?_of_mem {c letter : Char} (h : (c, letter) ∈ escapeLetters) :
    escapeLetter? letter = some c := by
  have hall : ∀ entry ∈ escapeLetters, escapeLetter? entry.2 = some entry.1 := by
    decide
  exact hall (c, letter) h

theorem hexValue?_digitChar {n : Nat} (h : n < 16) :
    hexValue? n.digitChar = some n := by
  have hall : ∀ m < 16, hexValue? (Nat.digitChar m) = some m := by decide
  exact hall n h

/-- A code unit below 256 is escaped by its digits. -/
theorem unitForm_codeUnit {n : Nat} (h : n < 0x100) : UnitForm n (codeUnit n) := by
  have hform := UnitForm.digits (hexValue?_digitChar (n := 0) (by decide))
    (hexValue?_digitChar (n := 0) (by decide))
    (hexValue?_digitChar (n := n / 16) (by omega))
    (hexValue?_digitChar (n := n % 16) (by omega))
  rwa [show 0x1000 * 0 + 0x100 * 0 + 0x10 * (n / 16) + n % 16 = n by omega] at hform

/-- What needs no letter and is no control character may stand for itself. -/
theorem isPlain_of_not_mem {c : Char} (hcode : 0x20 ≤ c.toNat)
    (h : ∀ letter, (c, letter) ∉ escapeLetters) : isPlain c = true := by
  have hquote : c ≠ '\"' := by
    rintro rfl
    exact h '\"' (by decide)
  have hbackslash : c ≠ '\\' := by
    rintro rfl
    exact h '\\' (by decide)
  simp [isPlain, hquote, hbackslash, hcode]

/-- Tokens may be written with the same blanks before each of them, or with
none. -/
theorem spaced_flatMap (chars : JsonToken → List Char) {gap : List Char}
    (hgap : ∀ c ∈ gap, isBlank c = true) (tokens : List JsonToken) :
    Spaced (fun t form => form = chars t) tokens
      (tokens.flatMap fun t => gap ++ chars t) := by
  induction tokens with
  | nil => exact .nil (List.forall_mem_nil _)
  | cons t tokens ih =>
    rw [List.flatMap_cons, List.append_assoc]
    exact .cons hgap rfl ih

end JsonToken

/-! ## Libraries -/

/-- **The text of items with commas between them** has their tokens. -/
theorem JsonTree.toList_intercalate {chars : JsonToken → List Char}
    (hcomma : chars .comma = [',']) {print : JsonTree → String}
    {items : List JsonTree}
    (h : ∀ t ∈ items, (print t).toList = t.tokens.flatMap chars) :
    (",".intercalate (items.map print)).toList = (itemsTokens items).flatMap chars := by
  rw [String.toList_intercalate, List.map_map]
  induction items with
  | nil => rfl
  | cons item items ih =>
    obtain ⟨hitem, hitems⟩ := List.forall_mem_cons.mp h
    cases items with
    | nil =>
      show [(print item).toList].flatten = item.tokens.flatMap chars
      rw [List.flatten_singleton, hitem]
    | cons next items =>
      have hrest := ih hitems
      rw [List.map_cons] at hrest
      rw [List.map_cons, List.map_cons, List.intercalate_cons_cons, hrest,
        itemsTokens, List.flatMap_append, List.flatMap_cons, hcomma,
        Function.comp_apply, hitem, List.append_assoc]
      rfl

namespace JsonLibrary

variable {library : JsonLibrary} {form : ValueForm}

/-- **A library writes a character in one of its forms.** -/
theorem Lawful.charForm_escape (h : library.Lawful) (c : Char) :
    JsonToken.CharForm c (library.escape c) := by
  by_cases hletter : ∃ letter, (c, letter) ∈ JsonToken.escapeLetters
  · obtain ⟨letter, hmem⟩ := hletter
    rw [h.escape_letter c letter hmem]
    exact .letter (JsonToken.escapeLetter?_of_mem hmem)
  · have hnone := not_exists.mp hletter
    by_cases hcontrol : c.toNat < 0x20
    · rw [h.escape_control c hcontrol hnone]
      refine .unit (JsonToken.unitForm_codeUnit (by omega)) ?_
      rw [JsonToken.ofUnit?, if_neg (by omega), Char.ofNat_toNat]
    · rw [h.escape_other c (Nat.not_lt.mp hcontrol) hnone]
      exact .plain (JsonToken.isPlain_of_not_mem (Nat.not_lt.mp hcontrol) hnone)

theorem Lawful.charsForm_flatMap (h : library.Lawful) (text : List Char) :
    JsonToken.CharsForm text (text.flatMap library.escape) := by
  induction text with
  | nil => exact .nil
  | cons c text ih =>
    rw [List.flatMap_cons]
    exact .cons (h.charForm_escape c) ih

/-- **A library writes a token in one of its forms.** -/
theorem Lawful.form_charsWith (h : library.Lawful) (t : JsonToken) :
    JsonToken.Form t (t.charsWith library.escape) := by
  cases t with
  | string text => exact .string (h.charsForm_flatMap text.toList)
  | integer n => exact .integer n
  | null => exact .null
  | _ => exact .sign (by decide)

/-- **A library writes the tokens of a tree** one after the other. -/
theorem Lawful.toList_print (h : library.Lawful) (t : JsonTree) :
    (library.print t).toList
      = t.tokens.flatMap (JsonToken.charsWith library.escape) := by
  have hstring (text : String) : (library.print (.string text)).toList
      = (JsonToken.string text).charsWith library.escape := by
    rw [h.print_string]
    simp [JsonToken.charsWith]
  induction t using JsonTree.induction with
  | null =>
    rw [h.print_null]
    simp [JsonTree.tokens, JsonToken.charsWith]
  | integer n =>
    rw [h.print_integer]
    simp [JsonTree.tokens, JsonToken.charsWith]
  | string text =>
    rw [hstring]
    simp [JsonTree.tokens]
  | array items ih =>
    rw [h.print_array, String.toList_append, String.toList_append,
      JsonTree.toList_intercalate rfl ih]
    simp [JsonTree.tokens, JsonToken.charsWith]
  | object name content ih =>
    rw [h.print_object]
    simp [JsonTree.tokens, JsonToken.charsWith, hstring, ih]

/-- **A text with blanks between its tokens** is a text of the same tree. -/
theorem Lawful.writtenAs_of_respaces (h : library.Lawful) {v : Value}
    {text : String} (htext : library.Respaces form v text) :
    (form.ofValue v).WrittenAs text.toList :=
  htext.mono fun t _ hform => hform ▸ h.form_charsWith t

/-- The text of a value has no blanks, which are some blanks. -/
theorem Lawful.respaces_write (h : library.Lawful) (v : Value) :
    library.Respaces form v (library.write form v) := by
  unfold Respaces write
  rw [h.toList_print]
  exact JsonToken.spaced_flatMap _ (List.forall_mem_nil _) _

end JsonLibrary

/-! ## Forms of values -/

namespace Value

mutual

/-- **How deep the lists of a value nest.** -/
def nesting : Value → Nat
  | int _ => 0
  | list items => itemsNesting items + 1
  | error _ => 0

/-- How deep the lists of the items of a list nest. -/
def itemsNesting : List Value → Nat
  | [] => 0
  | item :: items => max (nesting item) (itemsNesting items)

end

/-- The lists of an item nest no deeper than those of all items. -/
theorem nesting_le_itemsNesting {items : List Value} {v : Value}
    (h : v ∈ items) : v.nesting ≤ itemsNesting items := by
  induction items with
  | nil => cases h
  | cons item items ih =>
    rw [itemsNesting]
    rcases List.mem_cons.mp h with rfl | hmem
    · exact Nat.le_max_left _ _
    · exact (ih hmem).trans (Nat.le_max_right _ _)

end Value

theorem JsonTree.itemsDepth_le {items : List JsonTree} {bound : Nat}
    (h : ∀ t ∈ items, t.depth ≤ bound) : itemsDepth items ≤ bound := by
  induction items with
  | nil => exact Nat.zero_le _
  | cons item items ih =>
    obtain ⟨hitem, hitems⟩ := List.forall_mem_cons.mp h
    exact max_le hitem (ih hitems)

namespace ValueForm

variable {form : ValueForm}

/-- **An error is found again**: no two errors that have nothing to say have
kinds of the same name. -/
theorem Lawful.error?_ofError (h : form.Lawful) (cause : CellError) :
    form.error? (form.ofError cause) = some cause := by
  rcases CellError.mem_plainErrors_or cause with hplain | ⟨name, rfl⟩
  · have hall : ∀ cause ∈ CellError.plainErrors,
        (CellError.plainErrors.find? fun other => other.kind == cause.kind)
          = some cause := by decide
    rw [h.ofError_plain cause hplain, h.error?_string]
    exact hall cause hplain
  · rw [h.ofError_unknownFunction]
    exact h.error?_unknownFunction name

/-- What is found of the content of a value is found of the value by its tag. -/
theorem Lawful.value?_tagged (h : form.Lawful) {kind : ValueKind}
    {content : JsonTree} :
    form.value? (.object kind.name content) = form.content? kind content := by
  rw [h.value?_object, ValueKind.ofName?_name]
  rfl

/-- **A value is found again** from its tree. The induction is on the value: the
items of a list are found one after the other. -/
theorem Lawful.value?_ofValue (h : form.Lawful) (v : Value) :
    form.value? (form.ofValue v) = some v := by
  induction v using Value.induction with
  | int n => rw [h.ofValue_int, h.value?_tagged, h.content?_int]
  | list items ih =>
    have hitems : (items.map form.ofValue).mapM form.value? = some items := by
      rw [List.mapM_map]
      induction items with
      | nil => rfl
      | cons item items ihitems =>
        obtain ⟨hitem, hothers⟩ := List.forall_mem_cons.mp ih
        rw [List.mapM_cons, Function.comp_apply, hitem, ihitems hothers]
        rfl
    rw [h.ofValue_list, h.value?_tagged, h.content?_list, hitems]
    rfl
  | error cause =>
    rw [h.ofValue_error, h.value?_tagged, h.content?_error, h.error?_ofError]
    rfl

/-- An error has at most one bracket open. -/
theorem Lawful.depth_ofError_le (h : form.Lawful) (cause : CellError) :
    (form.ofError cause).depth ≤ 1 := by
  rcases CellError.mem_plainErrors_or cause with hplain | ⟨name, rfl⟩
  · rw [h.ofError_plain cause hplain]
    exact Nat.zero_le 1
  · rw [h.ofError_unknownFunction]
    exact Nat.le_refl 1

/-- **Each list takes two brackets**, and what is no list takes at most two. -/
theorem Lawful.depth_ofValue_le (h : form.Lawful) (v : Value) :
    (form.ofValue v).depth ≤ 2 * v.nesting + 2 := by
  induction v using Value.induction with
  | int n =>
    rw [h.ofValue_int]
    exact Nat.le_succ 1
  | list items ih =>
    have hitems : JsonTree.itemsDepth (items.map form.ofValue)
        ≤ 2 * Value.itemsNesting items + 2 := by
      refine JsonTree.itemsDepth_le (List.forall_mem_map.mpr fun v hv => ?_)
      have hle := Value.nesting_le_itemsNesting hv
      exact (ih v hv).trans (by omega)
    rw [h.ofValue_list, Value.nesting]
    show JsonTree.itemsDepth (items.map form.ofValue) + 1 + 1 ≤ _
    omega
  | error cause =>
    rw [h.ofValue_error]
    exact Nat.succ_le_succ (h.depth_ofError_le cause)

end ValueForm

/-! ## The library and the form that run -/

theorem JsonToken.escape_of_not_mem {c : Char}
    (h : ∀ letter, (c, letter) ∉ escapeLetters) :
    escape c = if c.toNat < 0x20 then codeUnit c.toNat else [c] := by
  have hne : ∀ entry ∈ escapeLetters, c ≠ entry.1 := by
    rintro entry hentry rfl
    exact h entry.2 hentry
  simp only [escapeLetters, List.forall_mem_cons] at hne
  simp [escape, hne]

/-- **The library that runs here is lawful.** -/
theorem JsonLibrary.lawful_builtin : builtin.Lawful where
  escape_letter c letter hmem := by
    have hall : ∀ entry ∈ JsonToken.escapeLetters,
        JsonToken.escape entry.1 = ['\\', entry.2] := by decide
    exact hall (c, letter) hmem
  escape_control c hcontrol hnone :=
    (JsonToken.escape_of_not_mem hnone).trans (if_pos hcontrol)
  escape_other c hother hnone :=
    (JsonToken.escape_of_not_mem hnone).trans (if_neg (Nat.not_lt.mpr hother))
  print_null := by decide
  print_integer n := by
    simp [builtin, JsonTree.text, JsonTree.tokens, JsonToken.charsWith]
  print_string text := by
    rw [← String.toList_inj]
    simp [builtin, JsonTree.text, JsonTree.tokens, JsonToken.charsWith]
  print_array items := by
    have hitems : (",".intercalate (items.map JsonTree.text)).toList
        = (JsonTree.itemsTokens items).flatMap
          (JsonToken.charsWith JsonToken.escape) :=
      JsonTree.toList_intercalate rfl fun _ _ => String.toList_ofList
    rw [← String.toList_inj]
    simp [builtin, JsonTree.text, JsonTree.tokens, JsonToken.charsWith, hitems]
  print_object name content := by
    rw [← String.toList_inj]
    simp [builtin, JsonTree.text, JsonTree.tokens, JsonToken.charsWith]
  parse_text _ _ := JsonTree.ofText?_of_writtenAs

/-- **The form of values that runs here is lawful.** -/
theorem ValueForm.lawful_builtin : builtin.Lawful where
  ofValue_int _ := rfl
  ofValue_list items :=
    congrArg (fun trees => JsonTree.object ValueKind.list.name (.array trees))
      (Value.itemsJsonTrees_eq_map items)
  ofValue_error _ := rfl
  ofError_plain cause hplain := by
    cases cause with
    | unknownFunction name => simp [CellError.plainErrors] at hplain
    | _ => rfl
  ofError_unknownFunction _ := rfl
  value?_object _ _ := rfl
  content?_int _ := rfl
  content?_list items :=
    congrArg (Option.map Value.list) (Value.itemsOfJsonTrees?_eq_mapM items)
  content?_error content := by cases content <;> rfl
  error?_string _ := rfl
  error?_unknownFunction _ := rfl

namespace JsonLibrary

/-- **A value is read back from its text**, if its lists nest at most 60 deep,
also with blanks before, between and after the tokens of the text. The text has
the tokens of the value and nothing else, and no other value has the same text,
however deep the lists nest. -/
theorem read_write {library : JsonLibrary} {form : ValueForm}
    (hlibrary : library.Lawful) (hform : form.Lawful) (v : Value) :
    (v.nesting ≤ 60 →
        library.read form (library.write form v) = some v
          ∧ ∀ text, library.Respaces form v text →
            library.read form text = some v)
      ∧ (library.write form v).toList
        = (form.ofValue v).tokens.flatMap (JsonToken.charsWith library.escape)
      ∧ ∀ w, library.write form w = library.write form v → w = v := by
  have hread : v.nesting ≤ 60 → ∀ text, library.Respaces form v text →
      library.read form text = some v := by
    intro hnesting text htext
    have hdepth : (form.ofValue v).depth ≤ depthLimit :=
      (hform.depth_ofValue_le v).trans (show 2 * v.nesting + 2 ≤ 127 by omega)
    rw [read, hlibrary.parse_text _ _ (hlibrary.writtenAs_of_respaces htext) hdepth]
    exact hform.value?_ofValue v
  refine ⟨fun hnesting => ⟨hread hnesting _ (hlibrary.respaces_write v),
    hread hnesting⟩, hlibrary.toList_print _, fun w hsame => ?_⟩
  -- both values have trees that the text is a text of
  have hv : (form.ofValue v).WrittenAs (library.write form v).toList :=
    hlibrary.writtenAs_of_respaces (hlibrary.respaces_write v)
  have hw : (form.ofValue w).WrittenAs (library.write form v).toList :=
    hsame ▸ hlibrary.writtenAs_of_respaces (hlibrary.respaces_write w)
  have htree : form.ofValue w = form.ofValue v := JsonTree.eq_of_writtenAs hw hv
  have hfound := hform.value?_ofValue w
  rw [htree, hform.value?_ofValue] at hfound
  exact (Option.some.inj hfound).symm

/-- A list with both limits of the integers, and in a list in it a function
whose name has characters of every kind that is escaped, and others, is read
from its text; and a list is, from its text with a blank before each token. -/
theorem read_write_nested :
    builtin.Lawful ∧ ValueForm.builtin.Lawful
      ∧ builtin.read .builtin
          ("\x7b\"List\":[\x7b\"Int\":-9223372036854775808\x7d,"
            ++ "\x7b\"List\":[\x7b\"Error\":\x7b\"UnknownFunction\":"
            ++ "\"\\\"\\\\\\b\\f\\n\\r\\t\\u0001\\u001fÄ/😀\"\x7d\x7d]\x7d,"
            ++ "\x7b\"Error\":\"Overflow\"\x7d,"
            ++ "\x7b\"Int\":9223372036854775807\x7d]\x7d")
        = some (.list [.int Int64.minValue,
            .list [.error (.unknownFunction "\"\\\x08\x0c\n\r\t\x01\x1fÄ/😀")],
            .error .overflow, .int Int64.maxValue])
      ∧ builtin.read .builtin
          " \x7b \"List\" : [ \x7b \"Int\" : 6 \x7d , \x7b \"List\" : [ ] \x7d ] \x7d"
        = some (.list [.int 6, .list []]) := by
  have hnesting : (Value.list [.int Int64.minValue,
      .list [.error (.unknownFunction "\"\\\x08\x0c\n\r\t\x01\x1fÄ/😀")],
      .error .overflow, .int Int64.maxValue]).nesting ≤ 60 := by decide
  refine ⟨lawful_builtin, ValueForm.lawful_builtin, ?_, ?_⟩
  · refine Eq.trans (congrArg (builtin.read .builtin) ?_)
      ((read_write lawful_builtin ValueForm.lawful_builtin _).1 hnesting).1
    decide +kernel
  · have hblank : ∀ c ∈ [' '], JsonToken.isBlank c = true :=
      List.forall_mem_singleton.mpr rfl
    have hspaced := JsonToken.spaced_flatMap (JsonToken.charsWith JsonToken.escape)
      hblank (Value.list [.int 6, .list []]).jsonTree.tokens
    refine ((read_write lawful_builtin ValueForm.lawful_builtin _).1
      (show (Value.list [.int 6, .list []]).nesting ≤ 60 by decide)).2 _ ?_
    refine (congrArg (JsonToken.Spaced _ _) ?_).mpr hspaced
    decide +kernel

end JsonLibrary

end FormulaColumn
