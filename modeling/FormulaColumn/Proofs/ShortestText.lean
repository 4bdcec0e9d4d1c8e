import FormulaColumn.Proofs.Parentheses
import FormulaColumn.Proofs.ReadWords
import Mathlib.Algebra.Order.BigOperators.Group.List
import Mathlib.Algebra.Order.Group.Nat
import Mathlib.Data.List.Flatten

/-!
# The shortest text of a tree

Reading a text loses nothing but white space, leading zeros and parentheses
that can be left out, and the text of a tree has none of them. So among the
texts that are read as a tree, the text of the tree is the shortest, in
characters and in tokens, and every other one has its tokens, in order, and
besides them only parentheses, as many opening as closing.

The tokens are compared by the derivation of the tree
(`FormulaGrammar.keeps_of_derives`), the characters by what is matched as a
token: the text of a token is its shortest spelling
(`Token.WrittenAs.length_chars_le`).
-/

namespace FormulaColumn

namespace Numeral

/-- The value of a run of digits has no more digits than the run. -/
theorem value_lt_pow {run : List Char} (h : ∀ c ∈ run, c.isDigit = true) :
    value run < 10 ^ run.length := by
  induction run with
  | nil => exact Nat.one_pos
  | cons c run ih =>
    obtain ⟨hc, hrun⟩ := List.forall_mem_cons.mp h
    have hdigit : c.toNat - '0'.toNat ≤ 9 := by
      rw [isDigit_iff] at hc
      show c.toNat - 48 ≤ 9
      omega
    have hvalue : value (c :: run)
        = 10 ^ run.length * (c.toNat - '0'.toNat) + value run := by
      show Nat.ofDigitChars 10 (c :: run) 0 = _
      rw [Nat.ofDigitChars_cons, Nat.ofDigitChars_eq_ofDigitChars_zero, Nat.mul_zero,
        Nat.zero_add]
      rfl
    have hrest := ih hrun
    calc value (c :: run)
        = 10 ^ run.length * (c.toNat - '0'.toNat) + value run := hvalue
      _ < 10 ^ run.length * 9 + 10 ^ run.length :=
          Nat.add_lt_add_of_le_of_lt (Nat.mul_le_mul_left _ hdigit) hrest
      _ = 10 ^ (c :: run).length := by rw [List.length_cons, Nat.pow_succ]; omega

/-- **The numeral of a number is its shortest run of digits.** -/
theorem length_ofNat_value_le {run : List Char} (hrun : run ≠ [])
    (h : ∀ c ∈ run, c.isDigit = true) :
    (ofNat (value run)).length ≤ run.length :=
  (Nat.length_toDigits_le_iff (by decide) (List.length_pos_iff.mpr hrun)).mpr
    (value_lt_pow h)

end Numeral

/-! ## The length of a token -/

namespace Token

/-- **The text of a token is its shortest spelling.** -/
theorem WrittenAs.length_chars_le {t : Token} {run : List Char}
    (h : t.WrittenAs run) : t.chars.length ≤ run.length := by
  cases t with
  | number n =>
    obtain ⟨hrun, hdigits, hvalue⟩ := h
    have hnonneg : 0 ≤ n.toInt := hvalue ▸ Int.natCast_nonneg _
    show (Numeral.ofInt n.toInt).length ≤ run.length
    rw [Numeral.ofInt_of_nonneg hnonneg, ← hvalue, Int.natAbs_natCast]
    exact Numeral.length_ofNat_value_le hrun hdigits
  | operator symbol => exact (congrArg List.length h.1).ge
  | reference column row =>
    obtain ⟨digits, rfl, -, hrun, hdigits, hvalue⟩ := h
    show (Numeral.ofNat row.toNat).length + 1 ≤ digits.length + 1
    rw [← hvalue]
    exact Nat.succ_le_succ (Numeral.length_ofNat_value_le hrun hdigits)
  | punctuation symbol => exact (congrArg List.length h.1).ge
  | name text => exact (congrArg List.length h.1).ge

end Token

namespace Scan

/-- **The tokens of a text are not longer than it** if they are printed
without white space. -/
theorem length_tokens_le (source : List Char) :
    ((ofChars source).tokens.flatMap Token.chars).length ≤ source.length := by
  obtain ⟨words, htokens, hsublist, hwords⟩ := exists_words source
  rw [← htokens]
  refine le_trans ?_ hsublist.length_le
  rw [List.flatMap_map, List.length_flatMap, List.length_flatMap]
  exact List.sum_le_sum fun word hword => (hwords word hword).length_chars_le

end Scan

/-! ## What reading keeps -/

/-- Whether a token is a parenthesis. -/
def Token.isParenthesis : Token → Bool
  | number _ => false
  | operator _ => false
  | reference _ _ => false
  | punctuation _ => true
  | name _ => false

theorem keeps_of_readFormula {source : String} {e : Expression}
    (h : (readFormula source).value = .ok e) :
    Keeps (Scan.ofText source).tokens e.tokens :=
  (FormulaGrammar.keeps_of_derives (readFormula_eq_ok_iff.mp h).2).of_parenthesizeIf
    (Bool.false_ne_true.elim)

/-- **The text of a tree is not longer** than a text the tree is read from. -/
theorem length_text_le {source : String} {e : Expression}
    (h : (readFormula source).value = .ok e) : e.text.length ≤ source.length := by
  have hkept : (e.tokens.flatMap Token.chars).Sublist
      ((Scan.ofText source).tokens.flatMap Token.chars) :=
    (keeps_of_readFormula h).sublist.flatMap Token.chars
  calc e.text.length
      = (e.tokens.flatMap Token.chars).length := String.length_ofList
    _ ≤ ((Scan.ofText source).tokens.flatMap Token.chars).length := hkept.length_le
    _ ≤ source.toList.length := Scan.length_tokens_le source.toList
    _ = source.length := String.length_toList

/-- **Reading loses nothing, and the text of a tree is the shortest one.** A
text that is read as a tree has the tokens of the tree's text, in order, and
besides them only parentheses, as many opening as closing. So it has at least
as many characters, tokens, and tokens of each kind; and what is no
parenthesis stands in both, as often and in the same order. The tree's text is
read as the tree itself. -/
theorem text_shortest_of_readFormula {source : String} {e : Expression}
    (h : (readFormula source).value = .ok e) :
    (readFormula e.text).value = .ok e
      ∧ Keeps (Scan.ofText source).tokens (Scan.ofText e.text).tokens
      ∧ (Scan.ofText source).tokens.filter (fun t => !t.isParenthesis)
          = (Scan.ofText e.text).tokens.filter (fun t => !t.isParenthesis)
      ∧ e.text.length ≤ source.length
      ∧ (Scan.ofText e.text).tokens.length ≤ (Scan.ofText source).tokens.length
      ∧ ∀ t, (Scan.ofText e.text).tokens.count t
          ≤ (Scan.ofText source).tokens.count t := by
  have hlegible := eachWord_of_readFormula h
  have hunsigned := unsigned_of_readFormula h
  have hkeeps : Keeps (Scan.ofText source).tokens (Scan.ofText e.text).tokens := by
    rw [Expression.ofText_text_of_unsigned hlegible hunsigned]
    exact keeps_of_readFormula h
  exact ⟨readFormula_text_eq_ok hlegible hunsigned (rangesPlaced_of_readFormula h),
    hkeeps, hkeeps.filter_eq rfl rfl, length_text_le h, hkeeps.sublist.length_le,
    fun t => hkeeps.sublist.count_le t⟩

/-- White space, leading zeros and the parentheses around numbers are left out;
those around the left operand of the product stay. -/
theorem text_shortest_of_readFormula_difference :
    ∃ e, (readFormula "( (007) +\t2)*SUM( A0 :A03)- ((5))").value = .ok e
      ∧ e.text = "(7+2)*SUM(A0:A3)-5"
      ∧ Keeps (Scan.ofText "( (007) +\t2)*SUM( A0 :A03)- ((5))").tokens
          (Scan.ofText e.text).tokens := by
  have hread : (readFormula "( (007) +\t2)*SUM( A0 :A03)- ((5))").value
      = .ok (.arith .sub
          (.arith .mul (.arith .add (.number 7) (.number 2))
            (.call "SUM" (.range (.reference 'A' 0) (.reference 'A' 3))))
          (.number 5)) :=
    readFormula_of_within 100 rfl rfl
  exact ⟨_, hread, rfl, (text_shortest_of_readFormula hread).2.1⟩

end FormulaColumn
