import FormulaColumn.Proofs.TokenOrder

/-!
# Rendering and reading

The text of a tree has parentheses only where they are needed, and no white
space. It is read back as the tree if a formula can say the tree at all, and
as nothing otherwise; so no tree is rendered as the text of another one.

A formula can say a tree if no literal is negative and its ranges stand where
functions take them. The tokens of such a tree are derived with the tree: a
tree that binds as strongly as a sum is derived as a sum, one that binds as
strongly as a product as a product, and everything else as a primitive
(`FormulaGrammar.derives_tokens`), where the parentheses are exactly what
makes an operand of its place. And the text is scanned to these tokens, since
words are never printed next to each other.

The tokens of any other tree cannot be followed to their end, and the text is
scanned to them or not at all.
-/

namespace FormulaColumn

namespace FormulaGrammar

open Expression (parenthesize parenthesizeIf)

/-! ## The derivation of a rendered tree -/

/-- The phrase of the trees that bind so strongly. -/
def Phrase.ofStrength (strength : Nat) : Phrase :=
  if strength ≤ 1 then sum
  else if strength = 2 then product
  else primitive

/-- A primitive is a product. -/
theorem Derives.product_of_primitive {tokens : List Token} {e : Expression}
    (h : Derives .primitive tokens e) : Derives .product tokens e := by
  have hproduct : Derives .product (tokens ++ List.flatMap Link.written [])
      (List.foldl Link.join e []) :=
    .product h (List.forall_mem_nil _) (List.forall_mem_nil _)
  rwa [List.flatMap_nil, List.append_nil] at hproduct

/-- A product is a sum. -/
theorem Derives.sum_of_product {tokens : List Token} {e : Expression}
    (h : Derives .product tokens e) : Derives .sum tokens e := by
  have hsum : Derives .sum (tokens ++ List.flatMap Link.written [])
      (List.foldl Link.join e []) :=
    .sum h (List.forall_mem_nil _) (List.forall_mem_nil _)
  rwa [List.flatMap_nil, List.append_nil] at hsum

/-- **What binds stronger may stand** wherever something weaker may. -/
theorem Derives.ofStrength_mono {tokens : List Token} {e : Expression}
    {weaker stronger : Nat} (hle : weaker ≤ stronger)
    (h : Derives (.ofStrength stronger) tokens e) :
    Derives (.ofStrength weaker) tokens e := by
  unfold Phrase.ofStrength at h ⊢
  by_cases hsum : weaker ≤ 1
  · rw [if_pos hsum]
    by_cases hsum' : stronger ≤ 1
    · rwa [if_pos hsum'] at h
    rw [if_neg hsum'] at h
    by_cases hproduct : stronger = 2
    · rw [if_pos hproduct] at h
      exact h.sum_of_product
    · rw [if_neg hproduct] at h
      exact h.product_of_primitive.sum_of_product
  · rw [if_neg hsum]
    rw [if_neg (by omega)] at h
    by_cases hproduct : stronger = 2
    · rw [if_pos hproduct] at h
      rwa [if_pos (by omega)]
    rw [if_neg hproduct] at h
    by_cases hproduct' : weaker = 2
    · rw [if_pos hproduct']
      exact h.product_of_primitive
    · rwa [if_neg hproduct']

/-- A product with one more operand. -/
theorem Derives.product_join {op : ArithOp} (hop : op ∈ [ArithOp.mul, .div])
    {tokens tokens' : List Token} {left right : Expression}
    (hleft : Derives .product tokens left)
    (hright : Derives .primitive tokens' right) :
    Derives .product (tokens ++ .operator op.symbol :: tokens')
      (.arith op left right) := by
  cases hleft with
  | @product tokens first links hfirst hops hlinks =>
    have hjoin : Derives .product
        (tokens ++ (links ++ [Link.mk op tokens' right]).flatMap Link.written)
        ((links ++ [Link.mk op tokens' right]).foldl Link.join first) := by
      refine .product hfirst (List.forall_mem_append.mpr ⟨hops, ?_⟩)
        (List.forall_mem_append.mpr ⟨hlinks, ?_⟩)
      · exact List.forall_mem_singleton.mpr hop
      · exact List.forall_mem_singleton.mpr hright
    rw [List.flatMap_append, List.flatMap_singleton, ← List.append_assoc,
      List.foldl_append] at hjoin
    exact hjoin

/-- A sum with one more operand. -/
theorem Derives.sum_join {op : ArithOp} (hop : op ∈ [ArithOp.add, .sub])
    {tokens tokens' : List Token} {left right : Expression}
    (hleft : Derives .sum tokens left)
    (hright : Derives .product tokens' right) :
    Derives .sum (tokens ++ .operator op.symbol :: tokens')
      (.arith op left right) := by
  cases hleft with
  | @sum tokens first links hfirst hops hlinks =>
    have hjoin : Derives .sum
        (tokens ++ (links ++ [Link.mk op tokens' right]).flatMap Link.written)
        ((links ++ [Link.mk op tokens' right]).foldl Link.join first) := by
      refine .sum hfirst (List.forall_mem_append.mpr ⟨hops, ?_⟩)
        (List.forall_mem_append.mpr ⟨hlinks, ?_⟩)
      · exact List.forall_mem_singleton.mpr hop
      · exact List.forall_mem_singleton.mpr hright
    rw [List.flatMap_append, List.flatMap_singleton, ← List.append_assoc,
      List.foldl_append] at hjoin
    exact hjoin

/-- **An operator between two operands** binds as it says: the left operand
may bind as strongly as the operator, and the right one binds stronger. -/
theorem Derives.arith {op : ArithOp} {tokens tokens' : List Token}
    {left right : Expression}
    (hleft : Derives (.ofStrength op.strength) tokens left)
    (hright : Derives (.ofStrength (op.strength + 1)) tokens' right) :
    Derives (.ofStrength op.strength)
      (tokens ++ .operator op.symbol :: tokens') (.arith op left right) := by
  cases op with
  | add => exact Derives.sum_join (by decide) hleft hright
  | sub => exact Derives.sum_join (by decide) hleft hright
  | mul => exact Derives.product_join (by decide) hleft hright
  | div => exact Derives.product_join (by decide) hleft hright

/-- **An operand is derived as its place requires**, if it is put in
parentheses where it binds weaker. -/
theorem derives_parenthesizeIf {e : Expression} {tokens : List Token}
    {needed : Bool} {strength : Nat}
    (h : Derives (.ofStrength e.strength) tokens e)
    (hneeded : needed = false → strength ≤ e.strength) :
    Derives (.ofStrength strength) (parenthesizeIf needed tokens) e := by
  cases needed with
  | false => exact h.ofStrength_mono (hneeded rfl)
  | true =>
    -- whatever a tree binds as, it is a sum, and a primitive in parentheses
    have hsum : Derives .sum tokens e := h.ofStrength_mono (Nat.zero_le _)
    have hprimitive : Derives (.ofStrength (strength + 3))
        (parenthesize tokens) e := by
      unfold Phrase.ofStrength
      rw [if_neg (by omega), if_neg (by omega)]
      exact .parenthesized hsum
    exact hprimitive.ofStrength_mono (Nat.le_add_right _ _)

/-- **The tokens of a tree are derived with the tree**, as the phrase that it
binds as, if its ranges stand where functions take them. -/
theorem derives_tokens {e : Expression} (h : e.RangesPlaced) :
    Derives (.ofStrength e.strength) e.tokens e := by
  induction e with
  | number n => exact .number n
  | reference column row => exact .reference column row
  | arith op left right ihleft ihright =>
    -- an operand without parentheses binds as its place requires
    refine Derives.arith (derives_parenthesizeIf (ihleft h.1) fun hneeded => ?_)
      (derives_parenthesizeIf (ihright h.2) fun hneeded => ?_)
    · rw [decide_eq_false_iff_not] at hneeded
      exact Nat.not_lt.mp hneeded
    · rw [decide_eq_false_iff_not] at hneeded
      exact Nat.not_le.mp hneeded
  | range first last _ _ => exact absurd h not_false
  | call function argument _ =>
    obtain ⟨c, first, d, last, rfl⟩ := Expression.isReferenceRange_iff.mp h
    exact .call function c d first last

end FormulaGrammar

/-! ## The scan of a rendered tree -/

namespace Token

/-- **Neighbours among the tokens would not be joined.** -/
def Separate (tokens : List Token) : Prop :=
  tokens.IsChain fun t next => ¬ t.Joins next

/-- A token that is an operator or a parenthesis. -/
def IsSymbol : Token → Prop
  | number _ => False
  | operator _ => True
  | reference _ _ => False
  | punctuation _ => True
  | name _ => False

/-- Operators and parentheses are not joined with anything. -/
theorem not_joins_of_isSymbol {symbol : Token} (h : symbol.IsSymbol)
    (t : Token) : ¬ t.Joins symbol ∧ ¬ symbol.Joins t := by
  cases symbol with
  | operator c => cases t <;> exact ⟨not_false, not_false⟩
  | punctuation c => cases t <;> exact ⟨not_false, not_false⟩
  | number n => exact absurd h not_false
  | reference column row => exact absurd h not_false
  | name text => exact absurd h not_false

theorem Separate.append_cons {tokens tokens' : List Token} {symbol : Token}
    (hsymbol : symbol.IsSymbol) (h : Separate tokens) (h' : Separate tokens') :
    Separate (tokens ++ symbol :: tokens') :=
  isChain_append_cons (fun t => (not_joins_of_isSymbol hsymbol t).1)
    (fun t => (not_joins_of_isSymbol hsymbol t).2) h h'

end Token

namespace Expression

open Token (Separate)

/-- Parentheses keep tokens separate. -/
theorem separate_parenthesizeIf {tokens : List Token} (needed : Bool)
    (h : Separate tokens) : Separate (parenthesizeIf needed tokens) := by
  cases needed with
  | false => exact h
  | true =>
    have hopen := Separate.append_cons
      (show (Token.punctuation '(').IsSymbol from trivial) .nil h
    exact hopen.append_cons trivial .nil

/-- **No two words of a rendered tree are neighbours.** -/
theorem separate_tokens (e : Expression) : Separate e.tokens := by
  induction e with
  | number n => exact .singleton _
  | reference column row => exact .singleton _
  | arith op left right ihleft ihright =>
    exact (separate_parenthesizeIf _ ihleft).append_cons trivial
      (separate_parenthesizeIf _ ihright)
  | range first last ihfirst ihlast =>
    exact (separate_parenthesizeIf _ ihfirst).append_cons trivial
      (separate_parenthesizeIf _ ihlast)
  | call function argument ih =>
    have hname : Separate [.name function] := .singleton _
    have hclose : Separate (argument.tokens ++ [.punctuation ')']) :=
      ih.append_cons trivial .nil
    exact hname.append_cons
      (show (Token.punctuation '(').IsSymbol from trivial) hclose

/-- The tokens of a tree with legible words are legible. -/
theorem legible_tokens {e : Expression} (h : e.EachWord Token.Legible) :
    ∀ t ∈ e.tokens, t.Legible := by
  refine forall_mem_tokens ?_ ?_ ?_ h
  · show '(' ∈ TokenPattern.punctuationSymbols
    decide
  · show ')' ∈ TokenPattern.punctuationSymbols
    decide
  · intro op
    show op.symbol ∈ TokenPattern.operatorSymbols
    cases op with
    | arith op => cases op <;> decide
    | range => decide

theorem readBack_of_unsigned {e : Expression} (h : e.EachWord Token.Unsigned) :
    e.readBack = e.tokens := by
  have hsign : ∀ t ∈ e.tokens, t.Unsigned :=
    forall_mem_tokens trivial trivial (fun _ => trivial) h
  refine (List.flatMap_congr fun t ht => ?_).trans (List.flatMap_singleton' _)
  exact Token.readBack_of_unsigned (hsign t ht)

/-- **The text of a tree is scanned to what its tokens are read back as**,
unless the least integer is among them, where the scan stops. -/
theorem ofText_text {e : Expression} (h : e.EachWord Token.Legible) :
    Scan.ofText e.text = ⟨e.readBack, []⟩
      ∨ Token.number Int64.minValue ∈ e.tokens
        ∧ (Scan.ofText e.text).reachesEnd = false := by
  have hprinted : PrintedToken.Printed (e.tokens.map (PrintedToken.mk [])) := by
    refine ⟨?_, ?_, ?_⟩
    · exact List.forall_mem_map.mpr fun t _ => List.forall_mem_nil _
    · exact List.forall_mem_map.mpr fun t ht => legible_tokens h t ht
    · exact (List.isChain_map _).mpr (e.separate_tokens.imp fun _ _ => Or.inr)
  have hscan := PrintedToken.ofChars_printed hprinted (List.forall_mem_nil _)
  have htext : e.text.toList
      = (e.tokens.map (PrintedToken.mk [])).flatMap PrintedToken.chars ++ [] := by
    unfold text
    rw [String.toList_ofList, List.flatMap_map, List.append_nil]
    rfl
  unfold Scan.ofText
  rw [htext]
  rcases hscan with hscan | ⟨⟨item, hmem, hmin⟩, hstop⟩
  · rw [hscan, List.flatMap_map]
    exact Or.inl rfl
  · obtain ⟨t, ht, rfl⟩ := List.mem_map.mp hmem
    exact Or.inr ⟨hmin ▸ ht, hstop⟩

/-- **The text of a tree without negative literals is scanned to its
tokens.** -/
theorem ofText_text_of_unsigned {e : Expression}
    (h : e.EachWord Token.Legible) (hsign : e.EachWord Token.Unsigned) :
    Scan.ofText e.text = ⟨e.tokens, []⟩ := by
  rcases ofText_text h with hscan | ⟨hmin, -⟩
  · rw [hscan, readBack_of_unsigned hsign]
  · have hunsigned : (Token.number Int64.minValue).Unsigned :=
      forall_mem_tokens trivial trivial (fun _ => trivial) hsign _ hmin
    exact absurd hunsigned (show ¬ (0 : Int64) ≤ Int64.minValue by decide)

end Expression

/-! ## Reading a rendered tree -/

/-- A tree that a formula can say is read from its text. -/
theorem readFormula_text_eq_ok {e : Expression}
    (h : e.EachWord Token.Legible) (hsign : e.EachWord Token.Unsigned)
    (hplaced : e.RangesPlaced) : (readFormula e.text).value = .ok e := by
  rw [readFormula_eq_ok_iff, Expression.ofText_text_of_unsigned h hsign]
  exact ⟨rfl, (FormulaGrammar.derives_tokens hplaced).ofStrength_mono
    (Nat.zero_le _)⟩

/-- A tree that no formula can say is not read from its text, and neither is
any other tree. -/
theorem exists_readFormula_text_eq_error {e : Expression}
    (h : e.EachWord Token.Legible)
    (hnot : ¬ (e.EachWord Token.Unsigned ∧ e.RangesPlaced)) :
    ∃ cause, (readFormula e.text).value = .error cause := by
  cases hread : (readFormula e.text).value with
  | error cause => exact ⟨cause, rfl⟩
  | ok e' =>
    obtain ⟨hend, hderives⟩ := readFormula_eq_ok_iff.mp hread
    rcases Expression.ofText_text h with hscan | ⟨-, hstop⟩
    · rw [hscan] at hderives
      -- a derived sequence is followed to its end, and these tokens are not
      have hafter := FormulaGrammar.after_of_derives hderives
      rcases FormulaGrammar.after_readBack e with ⟨hsign, hplaced, -⟩ | ⟨-, hnone⟩
      · exact absurd ⟨hsign, hplaced⟩ hnot
      · cases hnone.symm.trans hafter
    · cases hstop.symm.trans hend

/-- **Reading the text of a tree** gives the tree, if no literal is negative
and its ranges stand where functions take them, and fails for every other
tree. So no text of a tree is read as a different one. The letters of the
tree's references and the names of its functions are those of formulas. -/
theorem readFormula_text {e : Expression} (h : e.EachWord Token.Legible) :
    (e.EachWord Token.Unsigned ∧ e.RangesPlaced →
        (readFormula e.text).value = .ok e)
      ∧ (¬ (e.EachWord Token.Unsigned ∧ e.RangesPlaced) →
        ∃ cause, (readFormula e.text).value = .error cause)
      ∧ ∀ e', (readFormula e.text).value = .ok e' → e' = e := by
  refine ⟨fun hgood => readFormula_text_eq_ok h hgood.1 hgood.2,
    exists_readFormula_text_eq_error h, fun e' hread => ?_⟩
  by_cases hgood : e.EachWord Token.Unsigned ∧ e.RangesPlaced
  · rw [readFormula_text_eq_ok h hgood.1 hgood.2] at hread
    exact (Except.ok.inj hread).symm
  · obtain ⟨cause, herror⟩ := exists_readFormula_text_eq_error h hgood
    cases herror.symm.trans hread

/-- The right operand of a difference keeps its parentheses and a negative
literal is not read: `1-(2-SUM(A0:A3))` and `1--2`. -/
theorem readFormula_text_difference :
    (readFormula (Expression.arith .sub (.number 1) (.arith .sub (.number 2)
        (.call "SUM" (.range (.reference 'A' 0) (.reference 'A' 3))))).text).value
      = .ok (.arith .sub (.number 1) (.arith .sub (.number 2)
        (.call "SUM" (.range (.reference 'A' 0) (.reference 'A' 3)))))
      ∧ ∃ cause, (readFormula
        (Expression.arith .sub (.number 1) (.number (-2))).text).value
          = .error cause := by
  refine ⟨(readFormula_text ?_).1 ⟨?_, ?_⟩, (readFormula_text ?_).2.1 ?_⟩
  · exact ⟨trivial, trivial,
      ⟨by decide, List.all_eq_true.mp (show "SUM".toList.all _ = true from rfl)⟩,
      show 'A'.isUpper = true from rfl, show 'A'.isUpper = true from rfl⟩
  · exact ⟨show (0 : Int64) ≤ 1 by decide, show (0 : Int64) ≤ 2 by decide,
      trivial, trivial, trivial⟩
  · exact ⟨trivial, trivial, trivial⟩
  · exact ⟨trivial, trivial⟩
  · intro h
    exact absurd (show (0 : Int64) ≤ -2 from h.1.2) (by decide)

end FormulaColumn
