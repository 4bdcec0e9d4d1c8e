import FormulaColumn.Proofs.Placement
import FormulaColumn.Proofs.RowValue
import FormulaColumn.Sheet

/-!
# Histories of a sheet

A sheet is made, edited, copied, edited further, and put back to a copy. What
it comes to after all this is the sheet that its texts would make if they
were entered all at once (`Start.history_current`). So nothing of the history
is left but the texts, and what has become of the texts is told by the
history alone: a text is replaced, a text is added, a list of texts is gone
back to (`Versions.editTexts`).

An edit reads one text and evaluates every row, and it leaves two of the three
lists of the sheet to be updated by hand; that is why there is something to
prove. The proof says what one edit does to a sheet made of its texts, and a
history is one edit after the other. An edit of a row that does not exist is
refused, and a history goes on from the sheet as it was.
-/

namespace FormulaColumn

/-- **What is done to a sheet**, step by step. -/
inductive Edit where
  /-- The text of a row is replaced. -/
  | replace (row : Nat) (text : String)
  /-- A row is added after the last one. -/
  | append (text : String)
  /-- A copy of the sheet is kept. -/
  | keep
  /-- The sheet is put back to one of the copies, where the one kept last has
  the number zero. Without such a copy it stays as it is. -/
  | goBack (copy : Nat)

/-- **How a sheet is made.** -/
inductive Start where
  /-- From a list of texts. -/
  | ofTexts (texts : List String)
  /-- With a number of blank rows. -/
  | blank (rows : Nat)
  /-- As the sheet to start with. -/
  | sample

/-- The sheet that is made. -/
def Start.sheet : Start → Logged Sheet
  | ofTexts texts => Sheet.ofTexts texts
  | blank rows => Sheet.blank rows
  | sample => Sheet.sample

/-- The texts of the sheet that is made. -/
def Start.texts : Start → List String
  | ofTexts texts => texts
  | blank rows => List.replicate rows ""
  | sample => ["1", "2", "3", "4", "5", "6", "7", "8", "9"]

/-- **Something under edit, with the copies kept of it**, the last one
first. -/
structure Versions (α : Type) where
  /-- What is being edited. -/
  current : α
  /-- The copies. -/
  copies : List α

namespace Versions

variable {α β : Type}

/-- A copy is kept. -/
def keep (versions : Versions α) : Versions α :=
  ⟨versions.current, versions.current :: versions.copies⟩

/-- One of the copies becomes current, and it stays a copy. -/
def goBack (versions : Versions α) (copy : Nat) : Versions α :=
  ⟨versions.copies[copy]?.getD versions.current, versions.copies⟩

/-- The image of everything. -/
def map (f : α → β) (versions : Versions α) : Versions β :=
  ⟨f versions.current, versions.copies.map f⟩

theorem map_keep (f : α → β) (versions : Versions α) :
    versions.keep.map f = (versions.map f).keep := rfl

theorem map_goBack (f : α → β) (versions : Versions α) (copy : Nat) :
    (versions.goBack copy).map f = (versions.map f).goBack copy := by
  unfold goBack map
  rw [List.getElem?_map]
  cases versions.copies[copy]? <;> rfl

/-! ## Edits of texts -/

/-- **What an edit makes of the texts**, and nothing is evaluated. Replacing
the text of a row that does not exist changes nothing. -/
def editTexts (versions : Versions (List String)) :
    Edit → Versions (List String)
  | .replace row text => ⟨versions.current.set row text, versions.copies⟩
  | .append text => ⟨versions.current ++ [text], versions.copies⟩
  | .keep => versions.keep
  | .goBack copy => versions.goBack copy

/-! ## Edits of a sheet -/

/-- **An edit of a sheet**, or why the sheet cannot be edited so. -/
def edit? (versions : Versions Sheet) :
    Edit → Except SheetError (Logged (Versions Sheet))
  | .replace row text =>
    match versions.current.replace row text with
    | .ok edited => .ok do
      let sheet ← edited
      pure ⟨sheet, versions.copies⟩
    | .error cause => .error cause
  | .append text => .ok do
    let sheet ← versions.current.append text
    pure ⟨sheet, versions.copies⟩
  | .keep => .ok (pure versions.keep)
  | .goBack copy => .ok (pure (versions.goBack copy))

/-- An edit of a sheet. What is refused is not done. -/
def edit (versions : Versions Sheet) (change : Edit) :
    Logged (Versions Sheet) :=
  match versions.edit? change with
  | .ok edited => edited
  | .error _ => pure versions

end Versions

/-- **The texts after a history**, and the copies kept of them. -/
def Start.textsAfter (start : Start) (edits : List Edit) :
    Versions (List String) :=
  edits.foldl Versions.editTexts ⟨start.texts, []⟩

/-- **A history**: a sheet is made, and edited step by step. -/
def Start.history (start : Start) (edits : List Edit) :
    Logged (Versions Sheet) := do
  let sheet ← start.sheet
  edits.foldlM Versions.edit ⟨sheet, []⟩

namespace Sheet

/-! ## The sheet of a list of texts -/

/-- **A sheet that is up to date**: its three lists have equal length, each
text stands beside the expression it is read as, if it is a formula, and the
values are those of the texts. -/
structure UpToDate (sheet : Sheet) : Prop where
  /-- There is a place for the expression of each text. -/
  length_column : sheet.column.length = sheet.texts.length
  /-- There is a value for each text. -/
  length_values : sheet.values.length = sheet.texts.length
  /-- The expression of a row is what its text is read as. -/
  expression : ∀ (row : Nat) (source : String),
    sheet.texts[row]? = some source →
    sheet.column[row]? = some (readFormula source).value.toOption
  /-- The values are those of the texts. -/
  values_eq : sheet.values = (Column.valuesOfTexts sheet.texts).value

/-- The sheet of a list of texts, without what was recorded on the way. -/
def fresh (texts : List String) : Sheet := (ofTexts texts).value

theorem fresh_eq (texts : List String) :
    fresh texts
      = ⟨texts, (Column.ofTexts texts).value,
          (Column.valuesOfTexts texts).value⟩ := rfl

theorem value_evaluated {texts : List String} {column : Column}
    (h : column = texts.map fun source => (readFormula source).value.toOption) :
    (evaluated texts column).value = fresh texts := by
  rw [fresh_eq, Column.valuesOfTexts, Logged.value_bind, Column.value_ofTexts,
    ← h]
  rfl

/-- **A fresh sheet is up to date.** -/
theorem upToDate_fresh (texts : List String) : (fresh texts).UpToDate where
  length_column := by
    rw [fresh_eq, Column.length_value_ofTexts]
  length_values := by
    rw [fresh_eq, Column.valuesOfTexts, Logged.value_bind,
      Column.value_values, Column.value_ofTexts]
    simp
  expression row source h := by
    replace h : texts[row]? = some source := h
    rw [fresh_eq, Column.value_ofTexts]
    show (texts.map _)[row]? = _
    rw [List.getElem?_map, h]
    rfl
  values_eq := rfl

/-! ## One edit -/

/-- **Replacing a text** in a fresh sheet makes the fresh sheet of the texts
with the new one. -/
theorem replace_fresh {texts : List String} {row : Nat}
    (h : row < texts.length) (text : String) :
    ∃ edited, (fresh texts).replace row text = .ok edited
      ∧ edited.value = fresh (texts.set row text) := by
  refine ⟨_, if_pos h, ?_⟩
  rw [Logged.value_bind, value_readCell]
  refine value_evaluated ?_
  rw [fresh_eq, Column.value_ofTexts, List.map_set]

theorem replace_of_le {sheet : Sheet} {row : Nat}
    (h : sheet.texts.length ≤ row) (text : String) :
    sheet.replace row text
      = .error (.noSuchRow row sheet.texts.length) :=
  if_neg (Nat.not_lt.mpr h)

/-- **Adding a row** to a fresh sheet makes the fresh sheet of the texts with
the new one after them. -/
theorem value_append_fresh (texts : List String) (text : String) :
    ((fresh texts).append text).value = fresh (texts ++ [text]) := by
  unfold append
  rw [Logged.value_bind, value_readCell]
  refine value_evaluated ?_
  rw [fresh_eq, Column.value_ofTexts, List.map_append]
  rfl

end Sheet

namespace Versions

theorem edit_of_le {versions : Versions Sheet} {row : Nat}
    (h : versions.current.texts.length ≤ row) (text : String) :
    versions.edit (.replace row text) = pure versions := by
  rw [edit, edit?, Sheet.replace_of_le h]

/-- **One edit** of fresh sheets makes the fresh sheets of the edited
texts. -/
theorem value_edit_map_fresh (versions : Versions (List String))
    (change : Edit) :
    ((versions.map Sheet.fresh).edit change).value
      = (versions.editTexts change).map Sheet.fresh := by
  cases change with
  | replace row text =>
    by_cases h : row < versions.current.length
    · obtain ⟨edited, hedited, hvalue⟩ := Sheet.replace_fresh h text
      rw [edit, edit?, map, hedited]
      show (⟨edited.value, _⟩ : Versions Sheet) = _
      rw [hvalue]
      rfl
    · have hle : versions.current.length ≤ row := Nat.not_lt.mp h
      have hrefused : (versions.map Sheet.fresh).edit (.replace row text)
          = pure (versions.map Sheet.fresh) := edit_of_le hle text
      rw [hrefused, editTexts, List.set_eq_of_length_le hle]
      rfl
  | append text =>
    show (⟨((Sheet.fresh versions.current).append text).value, _⟩
      : Versions Sheet) = _
    rw [Sheet.value_append_fresh]
    rfl
  | keep => exact (map_keep _ _).symm
  | goBack copy => exact (map_goBack _ _ _).symm

/-- **A run of edits** of fresh sheets makes the fresh sheets of the edited
texts. -/
theorem foldl_edit_map_fresh (versions : Versions (List String))
    (edits : List Edit) :
    edits.foldl (fun current change => (current.edit change).value)
        (versions.map Sheet.fresh)
      = (edits.foldl editTexts versions).map Sheet.fresh := by
  induction edits generalizing versions with
  | nil => rfl
  | cons change edits ih =>
    rw [List.foldl_cons, List.foldl_cons, value_edit_map_fresh, ih]

end Versions

/-! ## Histories -/

namespace Start

theorem value_sheet (start : Start) :
    start.sheet.value = Sheet.fresh start.texts := by
  cases start with
  | ofTexts texts => rfl
  | blank rows => rfl
  | sample => exact congrArg Sheet.fresh (by decide)

/-- **After a history** the sheet and its copies are those of the texts after
the history. -/
theorem value_history (start : Start) (edits : List Edit) :
    (start.history edits).value
      = (start.textsAfter edits).map Sheet.fresh := by
  unfold history
  rw [Logged.value_bind, Logged.value_foldlM, value_sheet]
  exact Versions.foldl_edit_map_fresh ⟨start.texts, []⟩ edits

theorem textsAfter_append (start : Start) (edits more : List Edit) :
    start.textsAfter (edits ++ more)
      = more.foldl Versions.editTexts (start.textsAfter edits) :=
  List.foldl_append

/-- **An edit that is refused** leaves nothing in a history, neither in the
sheet nor in the log. -/
theorem history_append_of_le {start : Start} {edits : List Edit} {row : Nat}
    (h : (start.textsAfter edits).current.length ≤ row) (text : String) :
    start.history (edits ++ [.replace row text]) = start.history edits := by
  have hrefused : (start.history edits).value.edit (.replace row text)
      = pure (start.history edits).value := by
    refine Versions.edit_of_le ?_ text
    rw [value_history]
    exact h
  have happend : start.history (edits ++ [.replace row text])
      = start.history edits >>= fun versions =>
          versions.edit (.replace row text) := by
    unfold history
    simp only [List.foldlM_append, List.foldlM_cons, List.foldlM_nil,
      bind_assoc, bind_pure]
  exact happend.trans (Logged.bind_eq_self hrefused)

/-- **A sheet is always the fresh sheet of its texts**, whatever its history.
Its texts are what the history makes of the texts it was made of, its lists
belong together, and a row that does not exist is not replaced, with nothing
changed and nothing recorded. So histories that end with the same texts end
with the same sheet: edits of two rows commute, the last one of a row counts,
and an edit that is taken back leaves no trace. -/
theorem history_current (start : Start) (edits : List Edit) :
    (start.history edits).value.current.texts
        = (start.textsAfter edits).current
      ∧ (start.history edits).value.current.UpToDate
      ∧ (start.history edits).value.current
        = (Sheet.ofTexts (start.textsAfter edits).current).value
      ∧ (∀ row text, (start.textsAfter edits).current.length ≤ row →
        (start.history edits).value.current.replace row text
            = .error (.noSuchRow row (start.textsAfter edits).current.length)
          ∧ start.history (edits ++ [.replace row text])
            = start.history edits)
      ∧ (∀ (start' : Start) (edits' : List Edit),
        (start'.textsAfter edits').current = (start.textsAfter edits).current →
        (start'.history edits').value.current
          = (start.history edits).value.current)
      ∧ (∀ row row' text text', row ≠ row' →
        (start.history (edits
            ++ [.replace row text, .replace row' text'])).value
          = (start.history (edits
            ++ [.replace row' text', .replace row text])).value)
      ∧ (∀ row text text',
        (start.history (edits
            ++ [.replace row text, .replace row text'])).value
          = (start.history (edits ++ [.replace row text'])).value)
      ∧ (∀ (row : Nat) (text old : String),
        (start.textsAfter edits).current[row]? = some old →
        (start.history (edits
            ++ [.replace row text, .replace row old])).value
          = (start.history edits).value) := by
  simp only [value_history]
  refine ⟨rfl, Sheet.upToDate_fresh _, rfl, fun row text h => ?_,
    fun start' edits' h => congrArg Sheet.fresh h, ?_, ?_, ?_⟩
  · exact ⟨Sheet.replace_of_le h text, history_append_of_le h text⟩
  · intro row row' text text' hne
    simp only [textsAfter_append, List.foldl_cons, List.foldl_nil,
      Versions.editTexts]
    rw [List.set_comm _ _ hne]
  · intro row text text'
    simp only [textsAfter_append, List.foldl_cons, List.foldl_nil,
      Versions.editTexts]
    rw [List.set_set]
  · intro row text old h
    obtain ⟨hrow, rfl⟩ := List.getElem?_eq_some_iff.mp h
    simp only [textsAfter_append, List.foldl_cons, List.foldl_nil,
      Versions.editTexts]
    rw [List.set_set, List.set_getElem_self]

end Start

end FormulaColumn
