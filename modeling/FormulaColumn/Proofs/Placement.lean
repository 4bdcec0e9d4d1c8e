import FormulaColumn.Proofs.Derivation
import FormulaColumn.Proofs.LiteralRun
import FormulaColumn.Texts

/-!
# Where ranges stand

The trees that can be built are more than the trees that formulas have. In a
tree that is read from a text, a range joins two references and is the
argument of a function, and a function is applied to nothing else
(`Expression.RangesPlaced`). So the value of such a tree is an integer or an
error and never a list, and what a function is applied to is a list wherever
it is no error.

A column of texts holds such trees only (`Column.rangesPlaced_ofTexts`).
-/

namespace FormulaColumn

namespace Expression

/-- A range of two references. -/
def IsReferenceRange : Expression → Prop
  | range (reference _ _) (reference _ _) => True
  | _ => False

/-- **Ranges stand exactly where functions take them**: every argument of a
function is a range of two references, and there are no other ranges. -/
def RangesPlaced : Expression → Prop
  | number _ => True
  | reference _ _ => True
  | arith _ left right => left.RangesPlaced ∧ right.RangesPlaced
  | range _ _ => False
  | call _ argument => argument.IsReferenceRange

/-- A range of two references, by its ends. -/
theorem isReferenceRange_iff {e : Expression} :
    e.IsReferenceRange
      ↔ ∃ c first d last,
        e = range (reference c first) (reference d last) := by
  constructor
  · intro h
    match e, h with
    | range (reference c first) (reference d last), _ =>
      exact ⟨c, first, d, last, rfl⟩
  · rintro ⟨c, first, d, last, rfl⟩
    trivial

end Expression

namespace FormulaGrammar

theorem rangesPlaced_foldl {first : Expression} {links : List Link}
    (hfirst : first.RangesPlaced)
    (hlinks : ∀ link ∈ links, link.operand.RangesPlaced) :
    (links.foldl Link.join first).RangesPlaced := by
  induction links generalizing first with
  | nil => exact hfirst
  | cons link links ih =>
    obtain ⟨hlink, hlinks⟩ := List.forall_mem_cons.mp hlinks
    exact ih ⟨hfirst, hlink⟩ hlinks

/-- **Only trees with their ranges in place are derived.** -/
theorem Derives.rangesPlaced {phrase : Phrase} {tokens : List Token}
    {e : Expression} (h : Derives phrase tokens e) : e.RangesPlaced := by
  induction h with
  | number _ => trivial
  | reference _ _ => trivial
  | call _ _ _ _ _ => trivial
  | parenthesized _ ih => exact ih
  | product _ _ _ ihfirst ihlinks => exact rangesPlaced_foldl ihfirst ihlinks
  | sum _ _ _ ihfirst ihlinks => exact rangesPlaced_foldl ihfirst ihlinks

end FormulaGrammar

/-! ## Texts -/

/-- **A text is read as an expression** exactly if it can be scanned to its
end and the expression is derived from its tokens. -/
theorem readFormula_eq_ok_iff {source : String} {e : Expression} :
    (readFormula source).value = .ok e
      ↔ (Scan.ofText source).reachesEnd = true
        ∧ FormulaGrammar.Derives .sum (Scan.ofText source).tokens e := by
  unfold readFormula
  rw [← FormulaGrammar.ofTokens?_eq_some_iff]
  dsimp only
  by_cases hend : (Scan.ofText source).reachesEnd = true
  · rw [if_pos hend]
    by_cases hblank : (Scan.ofText source).tokens.isEmpty = true
    · -- no tree has no tokens
      have hnone : Expression.ofTokens? (Scan.ofText source).tokens ≠ some e := by
        intro h
        refine (FormulaGrammar.ofTokens?_eq_some_iff.mp h).tokens_ne_nil ?_
        exact List.isEmpty_iff.mp hblank
      rw [if_pos hblank]
      exact iff_of_false (fun h => by cases h) fun h => hnone h.2
    · rw [if_neg hblank]
      cases htree : Expression.ofTokens? (Scan.ofText source).tokens with
      | some e' => simp [hend]
      | none => simp
  · rw [if_neg hend]
    simp [hend]

/-- **A text is read as what the literal runs find** at a depth that is enough
for its characters and for its tokens. -/
theorem readFormula_of_within {source : String} {tokens : List Token}
    {e : Expression} (depth : Nat)
    (hscan : Grammar.within (fun i => i.elim0) depth TokenPattern.sequence
      source.toList = some (some (tokens, [])))
    (htree : Grammar.within FormulaGrammar.rules depth FormulaGrammar.formula
      tokens = some (some (e, []))) :
    (readFormula source).value = .ok e := by
  have hsource : Scan.ofText source = ⟨tokens, []⟩ :=
    Scan.ofChars_eq_iff.mpr
      (congrArg Outcome.toOption (Grammar.run_of_answers ⟨depth, hscan⟩))
  have hderives : FormulaGrammar.Derives .sum tokens e :=
    FormulaGrammar.ofTokens?_eq_some_iff.mp
      (congrArg (fun outcome => outcome.toOption.map Prod.fst)
        (Grammar.run_of_answers ⟨depth, htree⟩))
  rw [readFormula_eq_ok_iff, hsource]
  exact ⟨rfl, hderives⟩

/-- **The trees of texts have their ranges in place.** -/
theorem rangesPlaced_of_readFormula {source : String} {e : Expression}
    (h : (readFormula source).value = .ok e) : e.RangesPlaced :=
  (readFormula_eq_ok_iff.mp h).2.rangesPlaced

theorem value_readCell (row : Nat) (source : String) :
    (readCell row source).value = (readFormula source).value.toOption := by
  unfold readCell
  rw [Logged.value_bind]
  cases (readFormula source).value <;> rfl

namespace Column

/-- **A column of texts holds what each text is read as.** -/
theorem value_ofTexts (texts : List String) :
    (ofTexts texts).value
      = texts.map fun source => (readFormula source).value.toOption := by
  unfold ofTexts
  rw [Logged.value_mapM]
  simp only [value_readCell]
  rw [show (fun cell : String × Nat => (readFormula cell.1).value.toOption)
      = (fun source => (readFormula source).value.toOption) ∘ Prod.fst from rfl,
    ← List.map_map, List.zipIdx_map_fst]

theorem length_value_ofTexts (texts : List String) :
    (ofTexts texts).value.length = texts.length := by
  rw [value_ofTexts, List.length_map]

/-- The expression in a row of a column of texts. -/
theorem formula?_ofTexts_eq_some_iff {texts : List String} {row : Nat}
    {e : Expression} :
    (ofTexts texts).value.formula? row = some e
      ↔ ∃ source, texts[row]? = some source
        ∧ (readFormula source).value = .ok e := by
  unfold formula?
  rw [value_ofTexts, List.getElem?_map, Option.join_eq_some_iff,
    Option.map_eq_some_iff]
  refine exists_congr fun source => and_congr_right fun _ => ?_
  cases (readFormula source).value <;> simp [Except.toOption]

/-- The ranges of a column are in place. -/
def RangesPlaced (column : Column) : Prop :=
  ∀ row e, column.formula? row = some e → e.RangesPlaced

/-- **The ranges of a column of texts are in place.** -/
theorem rangesPlaced_ofTexts (texts : List String) :
    (ofTexts texts).value.RangesPlaced := by
  intro row e h
  obtain ⟨source, -, hread⟩ := formula?_ofTexts_eq_some_iff.mp h
  exact rangesPlaced_of_readFormula hread

end Column

end FormulaColumn
