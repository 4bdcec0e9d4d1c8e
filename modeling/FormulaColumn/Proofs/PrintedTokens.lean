import FormulaColumn.Proofs.Scanning
import Mathlib.Data.List.Chain

/-!
# Scanning printed tokens

Tokens are printed one after the other, each after some white space, and the
text is scanned. What comes back are the tokens, with two exceptions that the
statement has to make.

A token ends where it cannot go on, so two tokens that would be **joined**
into another one need white space between them: two numbers, two names, and
so on (`Token.Joins`).

A negative number is printed with its sign, and the scanner has no signs: what
comes back is the operator `-` and the number without the sign
(`Token.readBack`). For the least integer there is no such number, and the
scan stops before its digits.
-/

namespace FormulaColumn

theorem not_isWhiteSpace_of_isDigit {c : Char} (h : c.isDigit = true) :
    isWhiteSpace c = false := by
  rw [isDigit_iff] at h
  exact not_isWhiteSpace_of_graphic (by omega) (by omega)

theorem not_isWhiteSpace_of_isUpper {c : Char} (h : c.isUpper = true) :
    isWhiteSpace c = false := by
  rw [isUpper_iff] at h
  exact not_isWhiteSpace_of_graphic (by omega) (by omega)

namespace Token

open TokenPattern

/-- **A token that formulas have**: its characters are what a token of its
form is made of. -/
def Legible : Token → Prop
  | number _ => True
  | operator symbol => symbol ∈ operatorSymbols
  | reference column _ => column.isUpper = true
  | punctuation symbol => symbol ∈ punctuationSymbols
  | name text => text.toList ≠ [] ∧ ∀ c ∈ text.toList, c.isUpper = true

/-- **The tokens that the text of a token is scanned to**: the token itself,
but for the sign of a negative number. -/
def readBack : Token → List Token
  | number n => if n < 0 then [operator '-', number (-n)] else [number n]
  | operator symbol => [operator symbol]
  | reference column row => [reference column row]
  | punctuation symbol => [punctuation symbol]
  | name text => [name text]

/-- A token that is printed without a sign. -/
def Unsigned : Token → Prop
  | number n => 0 ≤ n
  | operator _ => True
  | reference _ _ => True
  | punctuation _ => True
  | name _ => True

/-- A token without a sign is read back as it is. -/
theorem readBack_of_unsigned {t : Token} (h : t.Unsigned) :
    t.readBack = [t] := by
  cases t with
  | number n =>
    refine if_neg fun hn => ?_
    rw [Int64.lt_iff_toInt_lt] at hn
    exact Int.not_lt.mpr (Int64.le_iff_toInt_le.mp h) hn
  | operator symbol => rfl
  | reference column row => rfl
  | punctuation symbol => rfl
  | name text => rfl

/-- **Two tokens that would be joined** if one were printed directly after
the other. -/
def Joins : Token → Token → Prop
  | number _, number _ => True
  | reference _ _, number _ => True
  | name _, name _ => True
  | name _, reference _ _ => True
  | name text, number _ => text.length = 1
  | _, _ => False

/-- **A token ends before these characters**: they do not make it longer, nor
a different token of it. -/
def EndsBefore : Token → List Char → Prop
  | number _, rest => StopsAt Char.isDigit rest
  | operator _, _ => True
  | reference _ _, rest => StopsAt Char.isDigit rest
  | punctuation _, _ => True
  | name text, rest =>
    StopsAt Char.isUpper rest ∧ (text.length = 1 → StopsAt Char.isDigit rest)

/-! ## One token -/

/-- Every token ends where neither a digit nor a letter comes next. -/
theorem endsBefore_of_stopsAt {rest : List Char}
    (hdigit : StopsAt Char.isDigit rest) (hupper : StopsAt Char.isUpper rest)
    (t : Token) : t.EndsBefore rest := by
  cases t with
  | number n => exact hdigit
  | operator symbol => trivial
  | reference column row => exact hdigit
  | punctuation symbol => trivial
  | name text => exact ⟨hupper, fun _ => hdigit⟩

/-- **What a token starts with** is not white space, a digit only if it is a
number, and a letter only if it is a reference or a name. -/
theorem exists_chars_eq_cons {t : Token} (h : t.Legible) :
    ∃ c cs, t.chars = c :: cs ∧ isWhiteSpace c = false
      ∧ (c.isDigit = true → ∃ n, t = number n)
      ∧ (c.isUpper = true →
        (∃ column row, t = reference column row) ∨ ∃ text, t = name text) := by
  cases t with
  | number n =>
    obtain ⟨c, cs, hcs, hc⟩ := Numeral.exists_ofInt_eq_cons n.toInt
    rcases hc with rfl | hc
    · exact ⟨'-', cs, hcs, by decide, fun _ => ⟨n, rfl⟩,
        fun hupper => absurd hupper (by decide)⟩
    · refine ⟨c, cs, hcs, not_isWhiteSpace_of_isDigit hc, fun _ => ⟨n, rfl⟩,
        fun hupper => ?_⟩
      exact absurd hupper (Bool.eq_false_iff.mp (not_isUpper_of_isDigit hc))
  | operator symbol =>
    obtain ⟨hdigit, hupper⟩ := not_isDigit_of_operator h
    have hall : operatorSymbols.all (fun c => !isWhiteSpace c) = true := rfl
    have hwhite : isWhiteSpace symbol = false := by
      simpa using List.all_eq_true.mp hall symbol h
    exact ⟨symbol, [], rfl, hwhite,
      fun hc => absurd hc (Bool.eq_false_iff.mp hdigit),
      fun hc => absurd hc (Bool.eq_false_iff.mp hupper)⟩
  | reference column row =>
    refine ⟨column, _, rfl, not_isWhiteSpace_of_isUpper h, fun hdigit => ?_,
      fun _ => Or.inl ⟨column, row, rfl⟩⟩
    exact absurd hdigit (Bool.eq_false_iff.mp (not_isDigit_of_isUpper h))
  | punctuation symbol =>
    obtain ⟨hdigit, hupper, -⟩ := not_isDigit_of_punctuation h
    have hall : punctuationSymbols.all (fun c => !isWhiteSpace c) = true := rfl
    have hwhite : isWhiteSpace symbol = false := by
      simpa using List.all_eq_true.mp hall symbol h
    exact ⟨symbol, [], rfl, hwhite,
      fun hc => absurd hc (Bool.eq_false_iff.mp hdigit),
      fun hc => absurd hc (Bool.eq_false_iff.mp hupper)⟩
  | name text =>
    obtain ⟨c, cs, hcs⟩ := List.exists_cons_of_ne_nil h.1
    have hc : c.isUpper = true := h.2 c (hcs ▸ List.mem_cons_self)
    refine ⟨c, cs, hcs, not_isWhiteSpace_of_isUpper hc, fun hdigit => ?_,
      fun _ => Or.inr ⟨text, rfl⟩⟩
    exact absurd hdigit (Bool.eq_false_iff.mp (not_isDigit_of_isUpper hc))

/-- **A token ends before one that it would not be joined with.** -/
theorem endsBefore_chars {t next : Token} (hnext : next.Legible)
    (h : ¬ t.Joins next) (rest : List Char) :
    t.EndsBefore (next.chars ++ rest) := by
  obtain ⟨c, cs, hcs, -, hdigit, hupper⟩ := exists_chars_eq_cons hnext
  rw [hcs]
  have hstops : ∀ {accepts : Char → Bool}, (accepts c = true → False) →
      StopsAt accepts (c :: cs ++ rest) := fun hc =>
    stopsAt_cons (Bool.eq_false_iff.mpr hc) _
  cases t with
  | number n =>
    refine hstops fun hc => ?_
    obtain ⟨m, rfl⟩ := hdigit hc
    exact h trivial
  | operator symbol => trivial
  | reference column row =>
    refine hstops fun hc => ?_
    obtain ⟨m, rfl⟩ := hdigit hc
    exact h trivial
  | punctuation symbol => trivial
  | name text =>
    refine ⟨hstops fun hc => ?_, fun hone => hstops fun hc => ?_⟩
    · rcases hupper hc with ⟨column, row, rfl⟩ | ⟨other, rfl⟩
      · exact h trivial
      · exact h trivial
    · obtain ⟨m, rfl⟩ := hdigit hc
      exact h hone

section Step

variable {rules : Grammar.Rules Char (Fin.elim0 : Fin 0 → Type)}
  {pending : List (Fin 0)}

theorem isRun_ofNat {rest : List Char} (h : StopsAt Char.isDigit rest)
    (n : Nat) : IsRun Char.isDigit (Numeral.ofNat n) rest :=
  ⟨fun _ hc => Numeral.isDigit_of_mem_ofNat hc, h⟩

/-- **The text of a token is that token**, where the token ends. -/
theorem step_token_chars {t : Token} {rest : List Char} (ht : t.Legible)
    (hsign : t.Unsigned) (h : t.EndsBefore rest) :
    Grammar.step rules pending token (t.chars ++ rest) = .found t rest := by
  cases t with
  | number n =>
    have hn : 0 ≤ n.toInt := Int64.le_iff_toInt_le.mp hsign
    show Grammar.step rules pending token (Numeral.ofInt n.toInt ++ rest) = _
    rw [Numeral.ofInt_of_nonneg hn]
    refine step_token_number (isRun_ofNat h _) (Numeral.ofNat_ne_nil _) ?_
    rw [Numeral.value_ofNat, int64?_eq_some_iff]
    exact (Int.natAbs_of_nonneg hn).symm
  | operator symbol => exact step_token_operator ht rest
  | reference column row =>
    refine step_token_reference ht (isRun_ofNat h _) (Numeral.ofNat_ne_nil _) ?_
    rw [Numeral.value_ofNat, uint64?_eq_some_iff]
  | punctuation symbol => exact step_token_punctuation ht rest
  | name text =>
    have hrun : IsRun Char.isUpper text.toList rest := ⟨ht.2, h.1⟩
    refine (step_token_name hrun ht.1 ?_).trans ?_
    · -- a name of one letter is followed by no digit, a longer one by a letter
      obtain ⟨c, cs, hcs⟩ := List.exists_cons_of_ne_nil ht.1
      rw [hcs, List.cons_append]
      refine step_reference_of_stopsAt_tail ?_
      cases cs with
      | nil =>
        refine h.2 ?_
        rw [← String.length_toList, hcs]
        rfl
      | cons d cs =>
        have hd : d.isUpper = true := ht.2 d (by rw [hcs]; simp)
        exact stopsAt_cons (not_isDigit_of_isUpper hd) _
    · rw [String.ofList_toList]

end Step

end Token

namespace Scan

open TokenPattern

theorem prepend_prepend (tokens tokens' : List Token) (scan : Scan) :
    (scan.prepend tokens').prepend tokens = scan.prepend (tokens ++ tokens') := by
  unfold prepend
  rw [List.append_assoc]

/-- The digits of a negative integer are its opposite; those of the least
integer are no number. -/
theorem ofChars_unsigned {rest : List Char} {n : Int64}
    (h : StopsAt Char.isDigit rest) (hn : n.toInt < 0) :
    ofChars (Numeral.ofNat n.toInt.natAbs ++ rest)
        = (ofChars rest).prepend [.number (-n)]
      ∨ n = Int64.minValue
        ∧ (ofChars (Numeral.ofNat n.toInt.natAbs ++ rest)).reachesEnd
            = false := by
  have hdigits : IsRun Char.isDigit (Numeral.ofNat n.toInt.natAbs) rest :=
    Token.isRun_ofNat h _
  have hne : Numeral.ofNat n.toInt.natAbs ≠ [] := Numeral.ofNat_ne_nil _
  have hgap : IsRun isWhiteSpace [] (Numeral.ofNat n.toInt.natAbs ++ rest) := by
    refine StopsAt.isRun ?_
    obtain ⟨c, cs, hcs⟩ := List.exists_cons_of_ne_nil hne
    have hc : c.isDigit = true := hdigits.accepted c (hcs ▸ List.mem_cons_self)
    rw [hcs]
    exact stopsAt_cons (not_isWhiteSpace_of_isDigit hc) _
  show ofChars ([] ++ (Numeral.ofNat n.toInt.natAbs ++ rest)) = _ ∨ _
  cases hfits : int64? (Numeral.value (Numeral.ofNat n.toInt.natAbs)) with
  | some m =>
    have hm : m.toInt = -n.toInt := by
      rw [int64?_eq_some_iff, Numeral.value_ofNat] at hfits
      omega
    have hopposite : m = -n := by
      rw [← Int64.toInt_inj, Int64.toInt_neg, ← hm, Int64.toInt_bmod]
    left
    rw [← hopposite]
    exact ofChars_of_found hgap (step_token_number hdigits hne hfits)
      (Grammar.length_lt_append hne rest)
  | none =>
    -- only the opposite of the least integer is not a 64-bit integer
    have hmin : n = Int64.minValue := by
      rw [int64?_eq_none_iff, Numeral.value_ofNat, Int64.toInt_minValue,
        Int64.toInt_maxValue] at hfits
      rw [← Int64.toInt_inj, Int64.toInt_minValue]
      have hlo := n.le_toInt
      omega
    have hstop := ofChars_of_noMatch hgap
      (step_token_of_number_none hdigits hne hfits)
    refine Or.inr ⟨hmin, ?_⟩
    rw [List.nil_append] at hstop
    rw [hstop, reachesEnd, List.isEmpty_eq_false_iff]
    exact List.append_ne_nil_of_left_ne_nil hne rest

/-- **Scanning a printed token** gives what it is read back as and goes on
after it; the scan stops at the least integer. -/
theorem ofChars_token {gap rest : List Char} {t : Token}
    (hgap : ∀ c ∈ gap, isWhiteSpace c = true) (ht : t.Legible)
    (h : t.EndsBefore rest) :
    ofChars (gap ++ (t.chars ++ rest)) = (ofChars rest).prepend t.readBack
      ∨ t = .number Int64.minValue
        ∧ (ofChars (gap ++ (t.chars ++ rest))).reachesEnd = false := by
  obtain ⟨c, cs, hcs, hwhite, -⟩ := Token.exists_chars_eq_cons ht
  have hrun : IsRun isWhiteSpace gap (t.chars ++ rest) := by
    refine ⟨hgap, ?_⟩
    rw [hcs]
    exact stopsAt_cons hwhite _
  have hlt : rest.length < (t.chars ++ rest).length := by
    refine Grammar.length_lt_append ?_ rest
    rw [hcs]
    exact List.cons_ne_nil c cs
  have hself : t.Unsigned →
      ofChars (gap ++ (t.chars ++ rest)) = (ofChars rest).prepend t.readBack := by
    intro hsign
    rw [Token.readBack_of_unsigned hsign]
    exact ofChars_of_found hrun (Token.step_token_chars ht hsign h) hlt
  cases t with
  | number n =>
    by_cases hn : n.toInt < 0
    · -- the sign is scanned as an operator, and the scan goes on at the digits
      have hsplit : ofChars (gap ++ ((Token.number n).chars ++ rest))
          = (ofChars (Numeral.ofNat n.toInt.natAbs ++ rest)).prepend
              [.operator '-'] := by
        rw [Token.chars, Numeral.ofInt_of_neg hn] at hrun ⊢
        exact ofChars_of_found hrun (step_token_operator (by decide) _)
          (Nat.lt_succ_self _)
      rw [hsplit]
      rcases ofChars_unsigned h hn with hdigits | ⟨hmin, hdigits⟩
      · rw [hdigits, prepend_prepend, Token.readBack, if_pos]
        · exact Or.inl rfl
        · rwa [Int64.lt_iff_toInt_lt, Int64.toInt_zero]
      · exact Or.inr ⟨congrArg Token.number hmin, hdigits⟩
    · exact Or.inl (hself (Int64.le_iff_toInt_le.mpr (Int.not_lt.mp hn)))
  | operator symbol => exact Or.inl (hself trivial)
  | reference column row => exact Or.inl (hself trivial)
  | punctuation symbol => exact Or.inl (hself trivial)
  | name text => exact Or.inl (hself trivial)

end Scan

/-- **An item that may stand next to every other** may be put between two
chains. -/
theorem isChain_append_cons {α : Type} {R : α → α → Prop} {l l' : List α} {x : α}
    (hbefore : ∀ y, R y x) (hafter : ∀ y, R x y) (h : l.IsChain R)
    (h' : l'.IsChain R) : (l ++ x :: l').IsChain R := by
  refine List.isChain_append.mpr ⟨h, List.isChain_cons.mpr ⟨?_, h'⟩, ?_⟩
  · exact fun y _ => hafter y
  · rintro y _ _ ⟨⟩
    exact hbefore y

/-! ## Tokens with white space between them -/

/-- **A token as it is printed**, with the characters before it. -/
structure PrintedToken where
  /-- What stands before the token. -/
  gap : List Char
  /-- The token. -/
  token : Token

namespace PrintedToken

open TokenPattern

/-- The characters of a printed token. -/
def chars (item : PrintedToken) : List Char := item.gap ++ item.token.chars

/-- **Two printed tokens are apart** if something stands between them, or
they would not be joined. -/
def Apart (item next : PrintedToken) : Prop :=
  next.gap ≠ [] ∨ ¬ item.token.Joins next.token

/-- **Tokens of formulas, printed with white space** between those that would
be joined, and anywhere else as well. -/
structure Printed (items : List PrintedToken) : Prop where
  /-- What stands before a token is white space. -/
  white : ∀ item ∈ items, ∀ c ∈ item.gap, isWhiteSpace c = true
  /-- The tokens are those of formulas. -/
  legible : ∀ item ∈ items, item.token.Legible
  /-- Neighbours are apart. -/
  apart : items.IsChain Apart

theorem Printed.tail {item : PrintedToken} {items : List PrintedToken}
    (h : Printed (item :: items)) : Printed items :=
  ⟨fun other hmem => h.white other (List.mem_cons_of_mem item hmem),
    fun other hmem => h.legible other (List.mem_cons_of_mem item hmem),
    h.apart.tail⟩

/-- Every token ends before white space. -/
theorem endsBefore_white {c : Char} (h : isWhiteSpace c = true)
    (rest : List Char) (t : Token) : t.EndsBefore (c :: rest) := by
  refine Token.endsBefore_of_stopsAt (stopsAt_cons ?_ rest)
    (stopsAt_cons ?_ rest) t
  · rw [Bool.eq_false_iff]
    intro hc
    exact Bool.eq_false_iff.mp (not_isWhiteSpace_of_isDigit hc) h
  · rw [Bool.eq_false_iff]
    intro hc
    exact Bool.eq_false_iff.mp (not_isWhiteSpace_of_isUpper hc) h

/-- **A printed token ends before what is printed after it.** -/
theorem Printed.endsBefore {item : PrintedToken} {items : List PrintedToken}
    {trailing : List Char} (h : Printed (item :: items))
    (htrailing : ∀ c ∈ trailing, isWhiteSpace c = true) :
    item.token.EndsBefore (items.flatMap chars ++ trailing) := by
  cases items with
  | nil =>
    cases trailing with
    | nil => exact Token.endsBefore_of_stopsAt (stopsAt_nil _) (stopsAt_nil _) _
    | cons c trailing =>
      exact endsBefore_white (htrailing c List.mem_cons_self) _ _
  | cons next items =>
    have hmem : next ∈ item :: next :: items := by simp
    obtain ⟨gap, token⟩ := next
    cases gap with
    | nil =>
      -- nothing stands between the tokens, so they must not be joined
      have hapart : ¬ item.token.Joins token :=
        (List.isChain_cons_cons.mp h.apart).1.resolve_left (absurd rfl)
      rw [List.flatMap_cons, List.append_assoc]
      exact Token.endsBefore_chars (h.legible _ hmem) hapart _
    | cons c gap =>
      exact endsBefore_white (h.white _ hmem c List.mem_cons_self) _ _

/-- **Scanning printed tokens** gives what each is read back as and reaches
the end, unless the least integer is printed, where the scan stops.

The induction is on the tokens: each one ends before the next, and the scan
goes on from there. -/
theorem ofChars_printed {items : List PrintedToken} {trailing : List Char}
    (h : Printed items) (htrailing : ∀ c ∈ trailing, isWhiteSpace c = true) :
    Scan.ofChars (items.flatMap chars ++ trailing)
        = ⟨items.flatMap fun item => item.token.readBack, []⟩
      ∨ (∃ item ∈ items, item.token = .number Int64.minValue)
        ∧ (Scan.ofChars (items.flatMap chars ++ trailing)).reachesEnd
            = false := by
  induction items with
  | nil =>
    left
    have hend : Grammar.step (fun i => i.elim0) (List.finRange 0)
        TokenPattern.token [] = .noMatch :=
      step_token_of_stopsAt (stopsAt_nil _) (stopsAt_nil _) fun _ h => nomatch h
    rw [List.flatMap_nil, List.nil_append]
    have hscan := Scan.ofChars_of_noMatch ⟨htrailing, stopsAt_nil _⟩ hend
    rw [List.append_nil] at hscan
    exact hscan
  | cons item items ih =>
    have hsplit : (item :: items).flatMap chars ++ trailing
        = item.gap ++ (item.token.chars ++ (items.flatMap chars ++ trailing)) := by
      rw [List.flatMap_cons, chars, List.append_assoc, List.append_assoc]
    have hstep := Scan.ofChars_token (h.white item List.mem_cons_self)
      (h.legible item List.mem_cons_self) (h.endsBefore htrailing)
    rw [hsplit]
    rcases hstep with hstep | ⟨hmin, hstop⟩
    · rw [hstep]
      rcases ih h.tail with hrest | ⟨⟨other, hmem, hmin⟩, hstop⟩
      · rw [hrest]
        exact Or.inl rfl
      · exact Or.inr ⟨⟨other, List.mem_cons_of_mem item hmem, hmin⟩, hstop⟩
    · exact Or.inr ⟨⟨item, List.mem_cons_self, hmin⟩, hstop⟩

/-- The text of printed tokens, with some characters after the last. -/
def text (items : List PrintedToken) (trailing : List Char) : String :=
  String.ofList (items.flatMap chars ++ trailing)

/-- **Scanning undoes printing**: printed tokens without signs are scanned to
the tokens themselves, and nothing is left, whatever white space stands before,
between and after them. -/
theorem ofText_text_printed {items : List PrintedToken} {trailing : List Char}
    (h : Printed items) (hsign : ∀ item ∈ items, item.token.Unsigned)
    (htrailing : ∀ c ∈ trailing, isWhiteSpace c = true) :
    Scan.ofText (text items trailing) = ⟨items.map token, []⟩ := by
  unfold Scan.ofText text
  rw [String.toList_ofList]
  rcases ofChars_printed h htrailing with hscan | ⟨⟨item, hmem, hmin⟩, -⟩
  · rw [hscan, List.map_eq_flatMap]
    refine congrArg (Scan.mk · []) (List.flatMap_congr fun item hmem => ?_)
    exact Token.readBack_of_unsigned (hsign item hmem)
  · -- the least integer is printed with a sign
    have hunsigned : (Token.number Int64.minValue).Unsigned :=
      hmin ▸ hsign item hmem
    exact absurd hunsigned (show ¬ (0 : Int64) ≤ Int64.minValue by decide)

/-- A number stands directly after a name of three letters and a reference
directly after a number, and white space outside ASCII stands before and after
the tokens. -/
theorem ofText_text_printed_sum :
    Scan.ofText "\u3000SUM1A 9223372036854775807B18446744073709551615:-AB\nA0SUM(\u2003"
      = ⟨[.name "SUM", .number 1, .name "A", .number Int64.maxValue,
          .reference 'B' 18446744073709551615, .operator ':', .operator '-',
          .name "AB", .reference 'A' 0, .name "SUM", .punctuation '('], []⟩ := by
  have hprinted : Printed [⟨['\u3000'], .name "SUM"⟩, ⟨[], .number 1⟩,
      ⟨[], .name "A"⟩, ⟨[' '], .number Int64.maxValue⟩,
      ⟨[], .reference 'B' 18446744073709551615⟩, ⟨[], .operator ':'⟩,
      ⟨[], .operator '-'⟩, ⟨[], .name "AB"⟩, ⟨['\n'], .reference 'A' 0⟩,
      ⟨[], .name "SUM"⟩, ⟨[], .punctuation '('⟩] := by
    have hwhite : ['\u3000', ' ', '\n'].all isWhiteSpace = true := rfl
    refine ⟨by simpa using hwhite, ?_, ?_⟩
    · simp [Token.Legible, operatorSymbols, punctuationSymbols]
    · simp [Apart, Token.Joins, show "SUM".length = 3 from rfl]
  have htrailing : ∀ c ∈ ['\u2003'], isWhiteSpace c = true :=
    List.forall_mem_singleton.mpr rfl
  have hscan := ofText_text_printed hprinted (by simp [Token.Unsigned]) htrailing
  refine Eq.trans (congrArg Scan.ofText ?_) hscan
  decide +kernel

end PrintedToken

end FormulaColumn
