import FormulaColumn.Proofs.TokenOrder

/-!
# The words of what is read

Tokens can be built from any characters, and names from any text. The tokens
that a text is scanned to are **written** in it, one after the other
(`Scan.exists_words`): what is matched as a token is one of its spellings. So
they are **legible** (`Scan.legible_tokens`): the characters of each token are
those that a token of its form is made of. A tree that is read from
a text has no words but those of its tokens (`Derives.eachWord`), so its words
are legible too; in particular the name of a function in it is a run of at
least one letter.
-/

namespace FormulaColumn

/-! ## The spellings of a token -/

/-- **How a token may be written** in a formula: a number is any run of digits
of its value, leading zeros included, and so is the row of a reference. -/
def Token.WrittenAs : Token → List Char → Prop
  | number n, run => run ≠ [] ∧ (∀ c ∈ run, c.isDigit = true)
    ∧ (Numeral.value run : Int) = n.toInt
  | operator symbol, run => run = [symbol] ∧ symbol ∈ TokenPattern.operatorSymbols
  | reference column row, run => ∃ digits, run = column :: digits
    ∧ column.isUpper = true ∧ digits ≠ [] ∧ (∀ c ∈ digits, c.isDigit = true)
    ∧ Numeral.value digits = row.toNat
  | punctuation symbol, run =>
    run = [symbol] ∧ symbol ∈ TokenPattern.punctuationSymbols
  | name text, run => run = text.toList ∧ run ≠ []
    ∧ ∀ c ∈ run, c.isUpper = true

/-- A token that is written in a formula is legible. -/
theorem Token.WrittenAs.legible {t : Token} {run : List Char}
    (h : t.WrittenAs run) : t.Legible := by
  cases t with
  | number n => trivial
  | operator symbol => exact h.2
  | reference column row =>
    obtain ⟨_, -, hletter, -⟩ := h
    exact hletter
  | punctuation symbol => exact h.2
  | name text =>
    obtain ⟨rfl, hletters⟩ := h
    exact hletters

/-- A token that is written has no sign. -/
theorem Token.WrittenAs.unsigned {t : Token} {run : List Char}
    (h : t.WrittenAs run) : t.Unsigned := by
  cases t with
  | number n =>
    refine Int64.le_iff_toInt_le.mpr ?_
    rw [← h.2.2]
    exact Int.natCast_nonneg _
  | operator symbol => trivial
  | reference column row => trivial
  | punctuation symbol => trivial
  | name text => trivial

/-! ## What is scanned -/

namespace TokenPattern

variable {R : (i : Fin 0) → List Char → @Fin.elim0 Type i → Prop}

theorem of_generates_symbol {symbols items : List Char} {c : Char}
    (h : (Grammar.satisfy fun c => symbols.contains c : Pattern Char Char).Generates
      R items c) : items = [c] ∧ c ∈ symbols :=
  (Grammar.generates_satisfy.mp h).imp_right List.contains_iff_mem.mp

/-- **What is matched as a run** is the run, of at least one character. -/
theorem of_generates_many1 {accepts : Char → Bool} {items run : List Char}
    (h : (Grammar.many1 (.satisfy accepts) : Pattern Char (List Char)).Generates
      R items run) : items = run ∧ run ≠ [] ∧ ∀ c ∈ run, accepts c = true := by
  obtain ⟨⟨c, rest⟩, ⟨first, second, hitems, hfirst, blocks, hsecond, hrest,
    hblocks⟩, rfl⟩ := Grammar.generates_map.mp h
  obtain ⟨rfl, hc⟩ := Grammar.generates_satisfy.mp hfirst
  -- each block of the repetition is the one character it yields
  have hblock : ∀ block ∈ blocks, block.1 = [block.2] ∧ accepts block.2 = true :=
    fun block hmem => Grammar.generates_satisfy.mp (hblocks block hmem)
  obtain rfl : rest = blocks.map Prod.snd := hrest
  have hsame : second = blocks.map Prod.snd := by
    rw [hsecond, List.map_eq_flatMap]
    exact List.flatMap_congr fun block hmem => (hblock block hmem).1
  refine ⟨hitems.trans (congrArg (c :: ·) hsame), List.cons_ne_nil _ _,
    List.forall_mem_cons.mpr ⟨hc, List.forall_mem_map.mpr fun block hmem => ?_⟩⟩
  exact (hblock block hmem).2

/-- **What is matched as a token is a spelling of it.** -/
theorem writtenAs_of_generates {items : List Char} {t : Token}
    (h : token.Generates R items t) : t.WrittenAs items := by
  obtain ⟨form, hform, h⟩ := Grammar.generates_choice.mp h
  simp only [List.mem_cons, List.not_mem_nil, or_false] at hform
  rcases hform with rfl | rfl | rfl | rfl | rfl
  · obtain ⟨run, hrun, hnumber⟩ := h
    obtain ⟨rfl, hne, hdigits⟩ := of_generates_many1 hrun
    obtain ⟨n, hn, rfl⟩ := Option.map_eq_some_iff.mp hnumber
    exact ⟨hne, hdigits, (int64?_eq_some_iff.mp hn).symm⟩
  · obtain ⟨c, hc, rfl⟩ := Grammar.generates_map.mp h
    exact of_generates_symbol hc
  · obtain ⟨⟨c, run⟩, ⟨first, second, rfl, hfirst, hrun⟩, hreference⟩ := h
    obtain ⟨rfl, hletter⟩ := Grammar.generates_satisfy.mp hfirst
    obtain ⟨rfl, hne, hdigits⟩ := of_generates_many1 hrun
    obtain ⟨row, hrow, rfl⟩ := Option.map_eq_some_iff.mp hreference
    exact ⟨_, rfl, hletter, hne, hdigits, (uint64?_eq_some_iff.mp hrow).symm⟩
  · obtain ⟨c, hc, rfl⟩ := Grammar.generates_map.mp h
    exact of_generates_symbol hc
  · obtain ⟨run, hrun, rfl⟩ := Grammar.generates_map.mp h
    obtain ⟨rfl, hletters⟩ := of_generates_many1 hrun
    exact ⟨String.toList_ofList.symm, hletters⟩

end TokenPattern

namespace Scan

/-- The tokens of items, without the white space before them. -/
theorem exists_words_of_items
    {R : (i : Fin 0) → List Char → @Fin.elim0 Type i → Prop}
    {items : List (List Char × Token)}
    (h : ∀ item ∈ items,
      (Grammar.seqRight TokenPattern.whiteSpaces TokenPattern.token).Generates R
        item.1 item.2) :
    ∃ words : List (List Char × Token),
      words.map Prod.snd = items.map Prod.snd
        ∧ (words.flatMap Prod.fst).Sublist (items.flatMap Prod.fst)
        ∧ ∀ word ∈ words, word.2.WrittenAs word.1 := by
  induction items with
  | nil => exact ⟨[], rfl, .refl _, List.forall_mem_nil _⟩
  | cons item items ih =>
    obtain ⟨hitem, hitems⟩ := List.forall_mem_cons.mp h
    obtain ⟨gap, word, hsplit, -, hword⟩ := Grammar.generates_seqRight.mp hitem
    obtain ⟨words, htokens, hsublist, hwords⟩ := ih hitems
    refine ⟨(word, item.2) :: words, congrArg (item.2 :: ·) htokens, ?_,
      List.forall_mem_cons.mpr
        ⟨TokenPattern.writtenAs_of_generates hword, hwords⟩⟩
    rw [List.flatMap_cons, List.flatMap_cons, hsplit]
    exact (List.sublist_append_right gap word).append hsublist

/-- **The tokens of a text are written in it**, one after the other. -/
theorem exists_words (source : List Char) :
    ∃ words : List (List Char × Token),
      words.map Prod.snd = (ofChars source).tokens
        ∧ (words.flatMap Prod.fst).Sublist source
        ∧ ∀ word ∈ words, word.2.WrittenAs word.1 := by
  obtain ⟨tokens, gap, rest, hitems, hgap⟩ := exists_items source
  rw [ofChars_eq_of_items hitems hgap]
  obtain ⟨_, hsource, blocks, rfl, rfl, hblocks⟩ :=
    Grammar.generates_of_step (R := fun _ _ _ => True)
      (fun _ _ _ _ => trivial) _ _ _ hitems
  obtain ⟨words, htokens, hsublist, hwords⟩ := exists_words_of_items hblocks
  refine ⟨words, htokens, hsublist.trans ?_, hwords⟩
  rw [hsource]
  exact List.sublist_append_left _ _

/-- **The tokens of a text are legible.** -/
theorem legible_tokens (source : List Char) :
    ∀ t ∈ (ofChars source).tokens, t.Legible := by
  obtain ⟨words, htokens, -, hwords⟩ := exists_words source
  rw [← htokens]
  exact List.forall_mem_map.mpr fun word hword => (hwords word hword).legible

/-- The tokens of a text have no signs. -/
theorem unsigned_tokens (source : List Char) :
    ∀ t ∈ (ofChars source).tokens, t.Unsigned := by
  obtain ⟨words, htokens, -, hwords⟩ := exists_words source
  rw [← htokens]
  exact List.forall_mem_map.mpr fun word hword => (hwords word hword).unsigned

end Scan

/-! ## What is read -/

namespace FormulaGrammar

theorem eachWord_foldl {P : Token → Prop} {first : Expression}
    {links : List Link} (hfirst : first.EachWord P)
    (hlinks : ∀ link ∈ links, link.operand.EachWord P) :
    (links.foldl Link.join first).EachWord P := by
  induction links generalizing first with
  | nil => exact hfirst
  | cons link links ih =>
    obtain ⟨hlink, hlinks⟩ := List.forall_mem_cons.mp hlinks
    exact ih ⟨hfirst, hlink⟩ hlinks

/-- What holds of the tokens of a chain holds of those of each link. -/
theorem forall_mem_link {P : Token → Prop} {tokens : List Token}
    {links : List Link}
    (h : ∀ t ∈ tokens ++ links.flatMap Link.written, P t) :
    (∀ t ∈ tokens, P t) ∧ ∀ link ∈ links, ∀ t ∈ link.tokens, P t := by
  obtain ⟨hfirst, hlinks⟩ := List.forall_mem_append.mp h
  refine ⟨hfirst, fun link hlink t ht => hlinks t ?_⟩
  exact List.mem_flatMap.mpr ⟨link, hlink, List.mem_cons_of_mem _ ht⟩

/-- **A derived tree has no words but those of its tokens.** -/
theorem Derives.eachWord {P : Token → Prop} {phrase : Phrase}
    {tokens : List Token} {e : Expression} (h : Derives phrase tokens e)
    (hP : ∀ t ∈ tokens, P t) : e.EachWord P := by
  induction h with
  | number value => exact hP _ (by simp)
  | reference column row => exact hP _ (by simp)
  | call function c d first last =>
    exact ⟨hP _ (by simp), hP _ (by simp), hP _ (by simp)⟩
  | parenthesized _ ih =>
    exact ih fun t ht => hP t (by simp [ht])
  | product _ _ _ ihfirst ihlinks =>
    obtain ⟨hfirst, hlinks⟩ := forall_mem_link hP
    exact eachWord_foldl (ihfirst hfirst) fun link hlink =>
      ihlinks link hlink (hlinks link hlink)
  | sum _ _ _ ihfirst ihlinks =>
    obtain ⟨hfirst, hlinks⟩ := forall_mem_link hP
    exact eachWord_foldl (ihfirst hfirst) fun link hlink =>
      ihlinks link hlink (hlinks link hlink)

end FormulaGrammar

/-- **The words of a tree that is read from a text are legible.** -/
theorem eachWord_of_readFormula {source : String} {e : Expression}
    (h : (readFormula source).value = .ok e) : e.EachWord Token.Legible :=
  (readFormula_eq_ok_iff.mp h).2.eachWord (Scan.legible_tokens source.toList)

theorem unsigned_of_readFormula {source : String} {e : Expression}
    (h : (readFormula source).value = .ok e) : e.EachWord Token.Unsigned :=
  (readFormula_eq_ok_iff.mp h).2.eachWord (Scan.unsigned_tokens source.toList)

end FormulaColumn
