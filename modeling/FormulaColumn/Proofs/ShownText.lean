import FormulaColumn.Proofs.CarriedError
import FormulaColumn.Proofs.Scanning

/-!
# The shown text of a value tells the value

A cell shows an integer in decimal, an error by its message and a list in
brackets, and nothing in the text says which of them it is. It need not: no
two values have the same text (`Value.text_eq_text_iff`).

Integers and errors are **words**, runs without a comma and without a bracket,
so a word ends where the first of these comes next, and a list is what starts
with a bracket. The text of a value can therefore be told from what follows
it, as long as a word cannot go on there (`Value.ToldByText`); within a list
this is a comma or the bracket at its end. That is the form in which the
induction on the value goes through.

The name of a function that does not exist is part of a message. Names are
made of letters where they come from formulas, and this has to be asked: a
name with a comma and a message in it shows as two items of a list.
-/

namespace FormulaColumn

open TokenPattern

/-- **Errors with the same message** are the same. -/
theorem CellError.message_injective : Function.Injective message := by
  have hplain : ∀ cause ∈ plainErrors, ∀ other ∈ plainErrors,
      cause.message = other.message → cause = other := by decide
  -- only the message that has a name starts with this letter
  have hfirst : ∀ cause ∈ plainErrors,
      cause.message.toList.head? ≠ some 'u' := by decide
  have hname : ∀ name,
      (unknownFunction name).message.toList.head? = some 'u' := by
    intro name
    show ("unknown function " ++ name).toList.head? = some 'u'
    rw [String.toList_append]
    rfl
  intro cause other h
  rcases mem_plainErrors_or cause with hcause | ⟨name, rfl⟩ <;>
    rcases mem_plainErrors_or other with hother | ⟨name', rfl⟩
  · exact hplain cause hcause other hother h
  · exact absurd (h ▸ hname name') (hfirst cause hcause)
  · exact absurd (h ▸ hname name) (hfirst other hother)
  · have hsame : "unknown function " ++ name = "unknown function " ++ name' := h
    rw [(String.append_right_inj _).mp hsame]

namespace Value

/-- **The names in a value are made of letters**: those of the functions that
do not exist, at any depth. A name may be empty. -/
def NamedInLetters (v : Value) : Prop :=
  ∀ name, v.Carries (.unknownFunction name) →
    ∀ c ∈ name.toList, 'A' ≤ c ∧ c ≤ 'Z'

@[simp] theorem namedInLetters_int (n : Int64) : (int n).NamedInLetters :=
  fun _ hname => nomatch hname

/-- The names in a list are those in its items. -/
@[simp] theorem namedInLetters_list_iff {items : List Value} :
    (list items).NamedInLetters ↔ ∀ item ∈ items, item.NamedInLetters := by
  constructor
  · exact fun h item hitem name hname => h name (.item hitem hname)
  · rintro h name (_ | ⟨hitem, hname⟩)
    exact h _ hitem name hname

/-- The name in the error of a function that does not exist. -/
@[simp] theorem namedInLetters_unknownFunction_iff {name : String} :
    (error (.unknownFunction name)).NamedInLetters
      ↔ ∀ c ∈ name.toList, 'A' ≤ c ∧ c ≤ 'Z' := by
  constructor
  · exact fun h => h name .error
  · rintro h _ ⟨⟩
    exact h

/-! ## Words -/

/-- **A character of a word**: no comma and no bracket. -/
def isWordChar (c : Char) : Bool := c != ',' && c != '[' && c != ']'

/-- The sign, the digits and the letters of names stand in words. -/
theorem isWordChar_of_toNat {c : Char} (hlow : 45 ≤ c.toNat)
    (hhigh : c.toNat ≤ 90) : isWordChar c = true := by
  have hne : ∀ d : Char, d.toNat < 45 ∨ 90 < d.toNat → (c != d) = true := by
    intro d hd
    refine bne_iff_ne.mpr ?_
    rintro rfl
    omega
  unfold isWordChar
  rw [hne ',' (by decide), hne '[' (by decide), hne ']' (by decide)]
  rfl

/-- An integer is a word. -/
theorem isWordChar_of_mem_ofInt {n : Int} {c : Char}
    (h : c ∈ Numeral.ofInt n) : isWordChar c = true := by
  have hdigits : c ∈ Numeral.ofNat n.natAbs → isWordChar c = true := by
    intro hc
    have hcode := isDigit_iff.mp (Numeral.isDigit_of_mem_ofNat hc)
    exact isWordChar_of_toNat (by omega) (by omega)
  by_cases hn : n < 0
  · rw [Numeral.ofInt_of_neg hn] at h
    rcases List.mem_cons.mp h with rfl | hc
    · rfl
    · exact hdigits hc
  · rw [Numeral.ofInt_of_nonneg (Int.not_lt.mp hn)] at h
    exact hdigits h

/-- The message of an error is a word, if the name in it is made of
letters. -/
theorem isWordChar_of_mem_message {cause : CellError}
    (h : (error cause).NamedInLetters) :
    ∀ c ∈ cause.message.toList, isWordChar c = true := by
  rcases CellError.mem_plainErrors_or cause with hplain | ⟨name, rfl⟩
  · have hall : CellError.plainErrors.all
        (fun cause => cause.message.toList.all isWordChar) = true := by decide
    exact List.all_eq_true.mp (List.all_eq_true.mp hall cause hplain)
  · have hstart : "unknown function ".toList.all isWordChar = true := by decide
    show ∀ c ∈ ("unknown function " ++ name).toList, isWordChar c = true
    rw [String.toList_append]
    refine List.forall_mem_append.mpr
      ⟨List.all_eq_true.mp hstart, fun c hc => ?_⟩
    obtain ⟨hlow, hhigh⟩ := namedInLetters_unknownFunction_iff.mp h c hc
    have hA : 65 ≤ c.toNat := hlow
    have hZ : c.toNat ≤ 90 := hhigh
    exact isWordChar_of_toNat (by omega) (by omega)

/-- **A value that is no list is a word**, up to where no word goes on. -/
theorem isRun_chars {v : Value} (hlist : ∀ items, v ≠ list items)
    (h : v.NamedInLetters) {rest : List Char}
    (hrest : StopsAt isWordChar rest) : IsRun isWordChar v.chars rest := by
  refine ⟨?_, hrest⟩
  cases v with
  | int n => exact fun c hc => isWordChar_of_mem_ofInt hc
  | list items => exact absurd rfl (hlist items)
  | error cause =>
    have hstart : "Error: ".toList.all isWordChar = true := by decide
    exact List.forall_mem_append.mpr
      ⟨List.all_eq_true.mp hstart, isWordChar_of_mem_message h⟩

/-- **Words tell their values.** An integer starts with a sign or a digit, and
an error with neither. -/
theorem eq_of_chars_eq {v w : Value} (hv : ∀ items, v ≠ list items)
    (hw : ∀ items, w ≠ list items) (h : v.chars = w.chars) : v = w := by
  have herror : ∀ (n : Int64) (cause : CellError),
      (int n).chars ≠ (error cause).chars := by
    intro n cause heq
    obtain ⟨c, cs, hcs, hc⟩ := Numeral.exists_ofInt_eq_cons n.toInt
    have hE : c = 'E' := (List.cons.inj (hcs.symm.trans heq)).1
    rw [hE] at hc
    exact absurd hc (by decide)
  cases v with
  | list items => exact absurd rfl (hv items)
  | int n =>
    cases w with
    | list items => exact absurd rfl (hw items)
    | int m =>
      have hnum : n.toInt = m.toInt := Numeral.ofInt_injective h
      rw [Int64.toInt_inj.mp hnum]
    | error cause => exact absurd h (herror n cause)
  | error cause =>
    cases w with
    | list items => exact absurd rfl (hw items)
    | int m => exact absurd h.symm (herror m cause)
    | error cause' =>
      have hmessage : cause.message = cause'.message :=
        String.toList_inj.mp (List.append_cancel_left h)
      rw [CellError.message_injective hmessage]

/-- **A list starts with a bracket**, and nothing else does. No value starts
with the bracket that ends a list. -/
theorem exists_chars_eq_cons (v : Value) :
    ∃ c cs, v.chars = c :: cs ∧ c ≠ ']'
      ∧ (c = '[' ↔ ∃ items, v = list items) := by
  cases v with
  | int n =>
    obtain ⟨c, cs, hcs, hc⟩ := Numeral.exists_ofInt_eq_cons n.toInt
    refine ⟨c, cs, hcs, ?_, iff_of_false ?_ (by simp)⟩ <;>
    · rintro rfl
      exact absurd hc (by decide)
  | list items =>
    exact ⟨'[', _, rfl, by decide, iff_of_true rfl ⟨items, rfl⟩⟩
  | error cause =>
    exact ⟨'E', _, rfl, by decide, iff_of_false (by decide) (by simp)⟩

/-! ## Values before a rest -/

/-- **A value is told by its text**, whatever follows it, if no word can go on
there: no other value can be read at the start of the same text. -/
def ToldByText (v : Value) : Prop :=
  ∀ {w : Value} {rest rest' : List Char}, w.NamedInLetters →
    StopsAt isWordChar rest → StopsAt isWordChar rest' →
    v.chars ++ rest = w.chars ++ rest' → v = w ∧ rest = rest'

theorem isList_iff_of_append_eq {v w : Value} {rest rest' : List Char}
    (h : v.chars ++ rest = w.chars ++ rest') :
    (∃ items, v = list items) ↔ ∃ items, w = list items := by
  obtain ⟨c, cs, hv, -, hlist⟩ := v.exists_chars_eq_cons
  obtain ⟨d, ds, hw, -, hlist'⟩ := w.exists_chars_eq_cons
  rw [hv, hw] at h
  rw [← hlist, ← hlist', (List.cons.inj h).1]

/-- A word is told by its text. -/
theorem toldByText_of_word {v : Value} (hlist : ∀ items, v ≠ list items)
    (hv : v.NamedInLetters) : v.ToldByText := by
  intro w rest rest' hw hrest hrest' h
  have hlist' : ∀ items, w ≠ list items := by
    intro items hitems
    obtain ⟨items', hitems'⟩ := (isList_iff_of_append_eq h).mpr ⟨items, hitems⟩
    exact hlist items' hitems'
  obtain ⟨hchars, hsame⟩ := (isRun_chars hlist hv hrest).append_inj
    (isRun_chars hlist' hw hrest') h
  exact ⟨eq_of_chars_eq hlist hlist' hchars, hsame⟩

/-! ## Lists -/

/-- The items of a list after the first one, each after a comma. -/
def othersChars (items : List Value) : List Char :=
  items.flatMap fun item => ", ".toList ++ item.chars

theorem othersChars_cons (item : Value) (items : List Value) :
    othersChars (item :: items)
      = ", ".toList ++ (item.chars ++ othersChars items) :=
  List.append_assoc _ _ _

theorem itemsChars_cons (item : Value) (items : List Value) :
    itemsChars (item :: items) = item.chars ++ othersChars items := by
  induction items generalizing item with
  | nil => rw [itemsChars, othersChars, List.flatMap_nil, List.append_nil]
  | cons next items ih =>
    rw [itemsChars, ih, othersChars_cons, List.append_assoc]

/-- No word goes on where an item ends. -/
theorem stopsAt_othersChars (items : List Value) (rest : List Char) :
    StopsAt isWordChar (othersChars items ++ ']' :: rest) := by
  cases items with
  | nil => exact stopsAt_cons rfl rest
  | cons item items => exact stopsAt_cons (c := ',') rfl _

/-- The others are told by their text, up to the bracket at the end of the
list, if each is told by its own. -/
theorem othersChars_append_inj {items items' : List Value}
    (hitems : ∀ item ∈ items, item.ToldByText)
    (hitems' : ∀ item ∈ items', item.NamedInLetters) {rest rest' : List Char}
    (h : othersChars items ++ ']' :: rest
      = othersChars items' ++ ']' :: rest') :
    items = items' ∧ rest = rest' := by
  induction items generalizing items' with
  | nil =>
    cases items' with
    | nil => exact ⟨rfl, (List.cons.inj h).2⟩
    | cons item' items' => exact absurd (List.cons.inj h).1 (by decide)
  | cons item items ih =>
    cases items' with
    | nil => exact absurd (List.cons.inj h).1 (by decide)
    | cons item' items' =>
      obtain ⟨hitem, hothers⟩ := List.forall_mem_cons.mp hitems
      obtain ⟨hitem', hothers'⟩ := List.forall_mem_cons.mp hitems'
      have hafter : item.chars ++ (othersChars items ++ ']' :: rest)
          = item'.chars ++ (othersChars items' ++ ']' :: rest') := by
        rw [othersChars_cons, othersChars_cons, List.append_assoc,
          List.append_assoc, List.append_assoc, List.append_assoc] at h
        exact List.append_cancel_left h
      obtain ⟨rfl, hsame⟩ := hitem hitem' (stopsAt_othersChars items rest)
        (stopsAt_othersChars items' rest') hafter
      obtain ⟨rfl, hrest⟩ := ih hothers hothers' hsame
      exact ⟨rfl, hrest⟩

/-- The items of a list are told by their text, up to the bracket at its
end. -/
theorem itemsChars_append_inj {items items' : List Value}
    (hitems : ∀ item ∈ items, item.ToldByText)
    (hitems' : ∀ item ∈ items', item.NamedInLetters) {rest rest' : List Char}
    (h : itemsChars items ++ ']' :: rest = itemsChars items' ++ ']' :: rest') :
    items = items' ∧ rest = rest' := by
  -- the bracket at the end does not start an item
  have hend : ∀ (item : Value) (others before after : List Char),
      ']' :: before ≠ item.chars ++ others ++ after := by
    intro item others before after heq
    obtain ⟨c, cs, hcs, hc, -⟩ := item.exists_chars_eq_cons
    rw [hcs] at heq
    exact hc (List.cons.inj heq).1.symm
  cases items with
  | nil =>
    cases items' with
    | nil => exact ⟨rfl, (List.cons.inj h).2⟩
    | cons item' items' =>
      rw [itemsChars_cons] at h
      exact absurd h (hend _ _ _ _)
  | cons item items =>
    cases items' with
    | nil =>
      rw [itemsChars_cons] at h
      exact absurd h.symm (hend _ _ _ _)
    | cons item' items' =>
      -- after a comma both lists of items are others
      refine othersChars_append_inj hitems hitems' ?_
      rw [itemsChars_cons, itemsChars_cons] at h
      rw [othersChars_cons, othersChars_cons, List.append_assoc ", ".toList,
        List.append_assoc ", ".toList, h]

/-- **Every value is told by its text**, if the names in it are made of
letters. The induction is on the value: a list is told by its brackets and its
items. -/
theorem toldByText {v : Value} (hv : v.NamedInLetters) : v.ToldByText := by
  induction v using Value.induction with
  | int n => exact toldByText_of_word (by simp) hv
  | error cause => exact toldByText_of_word (by simp) hv
  | list items ih =>
    intro w rest rest' hw _ _ h
    rw [namedInLetters_list_iff] at hv
    obtain ⟨items', rfl⟩ := (isList_iff_of_append_eq h).mp ⟨items, rfl⟩
    have hitems : itemsChars items ++ [']'] ++ rest
        = itemsChars items' ++ [']'] ++ rest' := (List.cons.inj h).2
    rw [List.append_assoc, List.append_assoc] at hitems
    obtain ⟨rfl, hrest⟩ := itemsChars_append_inj
      (fun item hitem => ih item hitem (hv item hitem))
      (namedInLetters_list_iff.mp hw) hitems
    exact ⟨rfl, hrest⟩

/-- **The shown text determines the value.** Two values, with lists nested to
any depth, have the same text only if they are the same, where the names of
the functions that do not exist are made of letters. -/
theorem text_eq_text_iff {v w : Value} (hv : v.NamedInLetters)
    (hw : w.NamedInLetters) : v.text = w.text ↔ v = w := by
  refine ⟨fun h => ?_, congrArg text⟩
  have hchars : v.chars ++ [] = w.chars ++ [] := by
    rw [List.append_nil, List.append_nil]
    exact String.ofList_injective h
  exact (toldByText hv hw (stopsAt_nil _) (stopsAt_nil _) hchars).1

/-- Two nested lists with the same words in the same order, which differ in
where the inner list ends: `[[-9223372036854775808, Error: unknown function ]]`
and `[[-9223372036854775808], Error: unknown function ]`. The name in them is
empty. -/
theorem text_eq_text_iff_nested :
    (list [list [int Int64.minValue, error (.unknownFunction "")]]).NamedInLetters
      ∧ (list [list [int Int64.minValue],
          error (.unknownFunction "")]).NamedInLetters
      ∧ (list [list [int Int64.minValue, error (.unknownFunction "")]]).text
        ≠ (list [list [int Int64.minValue],
          error (.unknownFunction "")]).text := by
  have hinside : (list [list [int Int64.minValue,
      error (.unknownFunction "")]]).NamedInLetters := by
    simp
  have houtside : (list [list [int Int64.minValue],
      error (.unknownFunction "")]).NamedInLetters := by
    simp
  refine ⟨hinside, houtside, fun h => ?_⟩
  cases (text_eq_text_iff hinside houtside).mp h

/-- A name with a comma and a message in it shows as two items. -/
example : (list [error (.unknownFunction "A, Error: unknown function B")]).text
    = (list [error (.unknownFunction "A"), error (.unknownFunction "B")]).text := by
  decide +kernel

end Value

end FormulaColumn
