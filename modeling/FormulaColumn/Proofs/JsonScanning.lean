import FormulaColumn.JsonPattern
import FormulaColumn.Proofs.PrintedTokens

/-!
# Scanning JSON tokens

JSON tokens stand one after the other, each in any of its forms, with blanks
before, between and after them, and the text is scanned. What comes back are
the tokens (`JsonToken.jsonTokens?_of_spaced`), for every text of every string
and every 64-bit integer. Only one thing has to be said of the tokens: no
integer comes directly after another one, since without a blank between them
they would be joined.

A character of a string is read in one of four ways, and what has to be known
of the order in which these are tried is that no form of a character is one
that an earlier way would read (`JsonPattern.step_character`). A string ends at
the quote since no form of a character has a quote first.
-/

namespace FormulaColumn

namespace JsonPattern

open JsonToken (CharForm CharsForm UnitForm escapeLetter? hexValue? isBlank
  isPlain ofSurrogates? ofUnit? signs)

theorem not_isDigit_of_isBlank {c : Char} (h : isBlank c = true) :
    c.isDigit = false := by
  simp only [isBlank, Bool.or_eq_true, beq_iff_eq] at h
  rcases h with ((rfl | rfl) | rfl) | rfl <;> rfl

open TokenPattern (StopsAt stopsAt_cons stopsAt_nil step_many1_satisfy
  step_many1_satisfy_of_stopsAt)

section Step

variable {rules : Grammar.Rules Char (Fin.elim0 : Fin 0 → Type)}
  {pending : List (Fin 0)}

/-! ## Characters of a string -/

theorem step_hexDigits {a b : Char} {w x : Nat} (ha : hexValue? a = some w)
    (hb : hexValue? b = some x) (rest : List Char) :
    Grammar.step rules pending (.seq hexDigit hexDigit) (a :: b :: rest)
      = .found (w, x) rest := by
  unfold hexDigit
  rw [Pattern.step_seq_of_found (Grammar.step_select_of_some ha _),
    Grammar.step_select_of_some hb]
  rfl

/-- **An escaped code unit is read.** -/
theorem step_codeUnit {n : Nat} {form : List Char} (h : UnitForm n form)
    (rest : List Char) :
    Grammar.step rules pending codeUnit (form ++ rest) = .found n rest := by
  have hstart (input : List Char) : Grammar.step rules pending
      (.seq (.literal '\\') (.literal 'u')) ('\\' :: 'u' :: input)
        = .found ('\\', 'u') input := by
    rw [Pattern.step_seq_of_found (Grammar.step_literal_self '\\' _),
      Grammar.step_literal_self]
    rfl
  cases h with
  | @digits a b c d w x y z ha hb hc hd =>
    unfold codeUnit
    show Grammar.step rules pending _ ('\\' :: 'u' :: a :: b :: c :: d :: rest) = _
    rw [Grammar.step_seqRight_of_found (hstart _)
        (Nat.lt_add_of_pos_right Nat.two_pos),
      Grammar.step_map, Pattern.step_seq_of_found (step_hexDigits ha hb _),
      step_hexDigits hc hd]
    rfl

/-- A character that is not a backslash starts no escaped code unit. -/
theorem step_codeUnit_of_ne {c : Char} (h : c ≠ '\\') (rest : List Char) :
    Grammar.step rules pending codeUnit (c :: rest) = .noMatch := by
  refine Grammar.step_seqRight_of_noMatch (Grammar.step_seq_of_noMatch ?_)
  refine Grammar.step_literal_of_ne ?_
  rintro _ ⟨⟩
  exact h rfl

/-- **An escaped code unit is none of the simpler forms**: it starts with a
backslash, and `u` is no letter that escapes. -/
theorem step_simpler_of_unitForm {n : Nat} {form : List Char}
    (h : UnitForm n form) (rest : List Char) :
    ∀ p ∈ ([.satisfy isPlain, .seqRight (.literal '\\') (.select escapeLetter?)] :
        List (Pattern Char Char)),
      Grammar.step rules pending p (form ++ rest) = .noMatch := by
  cases h with
  | digits =>
    refine List.forall_mem_cons.mpr ⟨Grammar.step_satisfy_of_false rfl _,
      List.forall_mem_singleton.mpr ?_⟩
    refine (Grammar.step_seqRight_of_found (Grammar.step_literal_self '\\' _)
      (Nat.lt_succ_self _)).trans ?_
    exact Grammar.step_select_of_none rfl _

theorem ofUnit?_of_ofSurrogates? {high low : Nat} {c : Char}
    (h : ofSurrogates? high low = some c) : ofUnit? high = none := by
  unfold ofSurrogates? at h
  split at h
  next hrange => exact if_pos ⟨hrange.1, by omega⟩
  next => cases h

/-- **Every form of a character is read** as the character. -/
theorem step_character {c : Char} {form : List Char} (h : CharForm c form)
    (rest : List Char) :
    Grammar.step rules pending character (form ++ rest) = .found c rest := by
  cases h with
  | plain hplain =>
    exact Grammar.step_choice_of_found [] _ (List.forall_mem_nil _)
      (Grammar.step_satisfy_of_true hplain rest)
  | letter hletter =>
    refine Grammar.step_choice_of_found [.satisfy isPlain] _
      (List.forall_mem_singleton.mpr (Grammar.step_satisfy_of_false rfl _)) ?_
    exact (Grammar.step_seqRight_of_found (Grammar.step_literal_self _ _)
      (Nat.lt_succ_self _)).trans (Grammar.step_select_of_some hletter rest)
  | unit hunit hc =>
    exact Grammar.step_choice_of_found _ _ (step_simpler_of_unitForm hunit rest)
      (Grammar.step_tryMap_of_some (step_codeUnit hunit rest) hc)
  | @surrogates high low form form' hhigh hlow hc =>
    have hunits : Grammar.step rules pending (.seq codeUnit codeUnit)
        (form ++ (form' ++ rest)) = .found (high, low) rest := by
      rw [Pattern.step_seq_of_found (step_codeUnit hhigh _), step_codeUnit hlow]
      rfl
    have hsingle : Grammar.step rules pending (.tryMap ofUnit? codeUnit)
        (form ++ (form' ++ rest)) = .noMatch :=
      Grammar.step_tryMap_of_none (step_codeUnit hhigh _)
        (ofUnit?_of_ofSurrogates? hc)
    rw [List.append_assoc]
    exact Grammar.step_choice_of_found
      [.satisfy isPlain, .seqRight (.literal '\\') (.select escapeLetter?),
        .tryMap ofUnit? codeUnit] []
      (List.forall_mem_append.mpr
        ⟨step_simpler_of_unitForm hhigh _, List.forall_mem_singleton.mpr hsingle⟩)
      (Grammar.step_tryMap_of_some hunits hc)

/-- A form of a character has a character. -/
theorem ne_nil_of_charForm {c : Char} {form : List Char} (h : CharForm c form) :
    form ≠ [] := by
  cases h with
  | plain => exact List.cons_ne_nil _ _
  | letter => exact List.cons_ne_nil _ _
  | unit hunit =>
    cases hunit
    exact List.cons_ne_nil _ _
  | surrogates hhigh =>
    cases hhigh
    exact List.cons_ne_nil _ _

/-- No form of a character has a quote first. -/
theorem step_character_quote (rest : List Char) :
    Grammar.step rules pending character ('\"' :: rest) = .noMatch := by
  have hne : ∀ other, '\"' :: rest ≠ '\\' :: other := by
    rintro _ ⟨⟩
  refine Grammar.step_choice_of_noMatch (List.forall_mem_cons.mpr
    ⟨Grammar.step_satisfy_of_false rfl rest, List.forall_mem_cons.mpr ⟨?_,
      List.forall_mem_cons.mpr ⟨?_, List.forall_mem_singleton.mpr ?_⟩⟩⟩)
  · exact Grammar.step_seqRight_of_noMatch (Grammar.step_literal_of_ne hne)
  · exact Grammar.step_tryMap_of_noMatch (step_codeUnit_of_ne (by decide) rest)
  · exact Grammar.step_tryMap_of_noMatch
      (Grammar.step_seq_of_noMatch (step_codeUnit_of_ne (by decide) rest))

/-- **The characters of a string are read** as far as the quote. -/
theorem step_characters {text body : List Char} (h : CharsForm text body)
    (rest : List Char) :
    Grammar.step rules pending (.many character) (body ++ '\"' :: rest)
      = .found text ('\"' :: rest) := by
  induction h generalizing pending with
  | nil => exact Grammar.step_many_of_noMatch (step_character_quote rest)
  | cons hc _ ih =>
    rw [List.append_assoc,
      Grammar.step_many_of_found (step_character hc _)
        (Grammar.length_lt_append (ne_nil_of_charForm hc) _),
      ih]
    rfl

/-! ## The forms of a token -/

theorem step_sign (c : Char) (t : JsonToken) (rest : List Char) :
    Grammar.step rules pending (sign c t) (c :: rest) = .found t rest := by
  unfold sign
  rw [Grammar.step_map, Grammar.step_literal_self]
  rfl

theorem step_sign_of_ne {c : Char} {t : JsonToken} {input : List Char}
    (h : ∀ rest, input ≠ c :: rest) :
    Grammar.step rules pending (sign c t) input = .noMatch := by
  unfold sign
  rw [Grammar.step_map, Grammar.step_literal_of_ne h]
  rfl

/-- **A string is read from its characters** between quotes. -/
theorem step_string {text : String} {body : List Char}
    (h : CharsForm text.toList body) (rest : List Char) :
    Grammar.step rules pending string (('\"' :: body ++ ['\"']) ++ rest)
      = .found (.string text) rest := by
  have hchars : ('\"' :: body ++ ['\"']) ++ rest
      = '\"' :: (body ++ '\"' :: rest) := by
    rw [List.cons_append, List.cons_append, List.append_assoc]
    rfl
  unfold string
  rw [hchars, Grammar.step_map,
    Grammar.step_between_of_found (Grammar.step_literal_self _ _)
      (Nat.lt_succ_self _) (step_characters h rest)
      (Grammar.step_literal_self _ _),
    Outcome.map_found, String.ofList_toList]

theorem step_string_of_ne {input : List Char}
    (h : ∀ rest, input ≠ '\"' :: rest) :
    Grammar.step rules pending string input = .noMatch := by
  unfold string
  rw [Grammar.step_map,
    Grammar.step_between_of_noMatch (Grammar.step_literal_of_ne h)]
  rfl

/-- **An integer is narrowed from its sign and its numeral**, which is the one
numeral that is accepted. -/
theorem integer?_ofNat {negative : Bool} {magnitude : Nat} {n : Int64}
    (hzero : magnitude = 0 → negative = false)
    (hn : n.toInt = if negative then -(magnitude : Int) else magnitude) :
    integer? negative (Numeral.ofNat magnitude) = some n := by
  unfold integer?
  rw [if_neg, Numeral.value_ofNat]
  · exact int64?_eq_some_iff.mpr hn
  · rintro ⟨hhead, hother⟩
    have hmagnitude : magnitude = 0 := by
      by_contra hne
      exact Numeral.head?_ofNat_ne (Nat.pos_of_ne_zero hne) hhead
    subst hmagnitude
    rcases hother with hdigits | hnegative
    · exact hdigits rfl
    · exact absurd hnegative (by rw [hzero rfl]; decide)

/-- A numeral is read after a sign or without one. -/
theorem step_integer_of_some {sign? : Option Char} {magnitude : Nat}
    {input rest : List Char} {n : Int64} (h : StopsAt Char.isDigit rest)
    (hsign : Grammar.step rules pending (.optional (.literal '-')) input
      = .found sign? (Numeral.ofNat magnitude ++ rest))
    (hn : integer? sign?.isSome (Numeral.ofNat magnitude) = some n) :
    Grammar.step rules pending integer input = .found (.integer n) rest := by
  have hread : Grammar.step rules pending
      (.seq (.optional (.literal '-')) (.many1 (.satisfy Char.isDigit))) input
        = .found (sign?, Numeral.ofNat magnitude) rest := by
    rw [Pattern.step_seq_of_found hsign,
      step_many1_satisfy (Token.isRun_ofNat h _) (Numeral.ofNat_ne_nil _)]
    rfl
  refine Grammar.step_tryMap_of_some hread ?_
  rw [hn]
  rfl

/-- **An integer is read as far as its digits go.** -/
theorem step_integer {n : Int64} {rest : List Char}
    (h : StopsAt Char.isDigit rest) :
    Grammar.step rules pending integer (Numeral.ofInt n.toInt ++ rest)
      = .found (.integer n) rest := by
  by_cases hn : n.toInt < 0
  · rw [Numeral.ofInt_of_neg hn]
    refine step_integer_of_some h
      (Grammar.step_optional_of_found (Grammar.step_literal_self _ _))
      (integer?_ofNat (fun hzero => ?_) ?_)
    · omega
    · show n.toInt = -(n.toInt.natAbs : Int)
      omega
  · rw [Numeral.ofInt_of_nonneg (Int.not_lt.mp hn)]
    refine step_integer_of_some h
      (Grammar.step_optional_of_noMatch (Grammar.step_literal_of_ne ?_))
      (integer?_ofNat (fun _ => rfl) ?_)
    · -- a numeral starts with a digit and not with the sign
      intro other hother
      obtain ⟨c, cs, hcs⟩ :=
        List.exists_cons_of_ne_nil (Numeral.ofNat_ne_nil n.toInt.natAbs)
      have hc : c.isDigit = true :=
        Numeral.isDigit_of_mem_ofNat (hcs ▸ List.mem_cons_self)
      rw [hcs] at hother
      cases hother
      exact absurd hc (by decide)
    · show n.toInt = (n.toInt.natAbs : Int)
      omega

theorem step_integer_of_stopsAt {input : List Char}
    (hsign : ∀ rest, input ≠ '-' :: rest) (h : StopsAt Char.isDigit input) :
    Grammar.step rules pending integer input = .noMatch := by
  refine Grammar.step_tryMap_of_noMatch ?_
  rw [Pattern.step_seq_of_found
      (Grammar.step_optional_of_noMatch (Grammar.step_literal_of_ne hsign)),
    step_many1_satisfy_of_stopsAt h]
  rfl

/-- The word `null` is read. -/
theorem step_null (rest : List Char) :
    Grammar.step rules pending null ("null".toList ++ rest)
      = .found .null rest := by
  have hpair (c d : Char) (input : List Char) :
      Grammar.step rules pending (.seq (.literal c) (.literal d))
          (c :: d :: input) = .found (c, d) input := by
    rw [Pattern.step_seq_of_found (Grammar.step_literal_self c _),
      Grammar.step_literal_self]
    rfl
  have hchars : "null".toList ++ rest = 'n' :: 'u' :: 'l' :: 'l' :: rest := rfl
  unfold null
  rw [hchars, Grammar.step_map, Pattern.step_seq_of_found (hpair 'n' 'u' _), hpair]
  rfl

/-! ## Tokens -/

/-- The descriptions of some signs. -/
def signPatterns (signs : List (Char × JsonToken)) :
    List (Pattern Char JsonToken) :=
  signs.map fun entry => sign entry.1 entry.2

theorem step_signPatterns_of_ne {signs : List (Char × JsonToken)}
    {input : List Char} (h : ∀ entry ∈ signs, input.head? ≠ some entry.1) :
    ∀ p ∈ signPatterns signs, Grammar.step rules pending p input = .noMatch := by
  refine List.forall_mem_map.mpr fun entry hentry => step_sign_of_ne ?_
  rintro rest rfl
  exact h entry hentry rfl

/-- **A sign is a token** by itself. -/
theorem step_token_sign {c : Char} {t : JsonToken} (h : (c, t) ∈ signs)
    (rest : List Char) :
    Grammar.step rules pending token (c :: rest) = .found t rest := by
  obtain ⟨before, after, hsplit⟩ := List.append_of_mem h
  -- the characters of the signs are different
  have hbefore : ∀ other ∈ before, c ≠ other.1 := by
    have hnodup : (signs.map Prod.fst).Nodup := by decide
    rw [hsplit, List.map_append, List.nodup_append] at hnodup
    intro other hother heq
    exact hnodup.2.2 other.1 (List.mem_map_of_mem hother) c
      List.mem_cons_self heq.symm
  have htoken : token = .choice (signPatterns before
      ++ sign c t :: (signPatterns after ++ [string, integer, null])) := by
    have hsigns : token
        = .choice (signPatterns signs ++ [string, integer, null]) := rfl
    rw [hsigns, hsplit, signPatterns, List.map_append, List.append_assoc]
    rfl
  rw [htoken]
  refine Grammar.step_choice_of_found _ _ (step_signPatterns_of_ne ?_)
    (step_sign _ _ rest)
  exact fun other hother heq => hbefore other hother (Option.some.inj heq)

/-- **What starts with no sign** is a token of the first other form that
matches. -/
theorem step_token_of_found (before : List (Pattern Char JsonToken))
    {p : Pattern Char JsonToken} {after : List (Pattern Char JsonToken)}
    (hforms : [string, integer, null] = before ++ p :: after)
    {input rest : List Char} {t : JsonToken}
    (hsign : ∀ entry ∈ signs, input.head? ≠ some entry.1)
    (hbefore : ∀ q ∈ before, Grammar.step rules pending q input = .noMatch)
    (h : Grammar.step rules pending p input = .found t rest) :
    Grammar.step rules pending token input = .found t rest := by
  have htoken : token = .choice ((signPatterns signs ++ before) ++ p :: after) := by
    rw [List.append_assoc, ← hforms]
    rfl
  rw [htoken]
  refine Grammar.step_choice_of_found _ _ (List.forall_mem_append.mpr ⟨?_, hbefore⟩) h
  exact step_signPatterns_of_ne hsign

/-- Nothing is a token at the end. -/
theorem step_token_nil :
    Grammar.step rules pending token [] = .noMatch := by
  have hsigns : ∀ p ∈ signPatterns signs,
      Grammar.step rules pending p [] = .noMatch :=
    step_signPatterns_of_ne fun _ _ => (Option.some_ne_none _).symm
  have hstring : Grammar.step rules pending string [] = .noMatch :=
    step_string_of_ne fun _ => nofun
  have hinteger : Grammar.step rules pending integer [] = .noMatch :=
    step_integer_of_stopsAt (fun _ => nofun) (stopsAt_nil _)
  have hnull : Grammar.step rules pending null [] = .noMatch := by
    have hletter : Grammar.step rules pending
        (.literal 'n' : Pattern Char Char) [] = .noMatch :=
      Grammar.step_literal_of_ne fun _ => nofun
    unfold null
    rw [Grammar.step_map,
      Grammar.step_seq_of_noMatch (Grammar.step_seq_of_noMatch hletter)]
    rfl
  exact Grammar.step_choice_of_noMatch
    (List.forall_mem_append.mpr ⟨hsigns, List.forall_mem_cons.mpr ⟨hstring,
      List.forall_mem_cons.mpr ⟨hinteger, List.forall_mem_singleton.mpr hnull⟩⟩⟩)

end Step

end JsonPattern

namespace JsonToken

open JsonPattern
open TokenPattern (IsRun StopsAt stopsAt_cons stopsAt_nil step_many_satisfy
  step_seqRight_run)

/-- Whether a token is an integer. -/
def IsInteger : JsonToken → Prop
  | beginObject => False
  | endObject => False
  | beginArray => False
  | endArray => False
  | colon => False
  | comma => False
  | string _ => False
  | integer _ => True
  | null => False

/-- **What a token starts with** is no blank, and a digit only if the token is
an integer. -/
theorem Form.exists_eq_cons {t : JsonToken} {form : List Char} (h : Form t form) :
    ∃ c cs, form = c :: cs ∧ isBlank c = false
      ∧ (c.isDigit = true → t.IsInteger) := by
  cases h with
  | @sign c t hmem =>
    have hall : ∀ entry ∈ signs,
        isBlank entry.1 = false ∧ entry.1.isDigit = false := by decide
    obtain ⟨hblank, hdigit⟩ := hall (c, t) hmem
    refine ⟨c, [], rfl, hblank, fun hc => ?_⟩
    rw [hdigit] at hc
    cases hc
  | string => exact ⟨_, _, rfl, rfl, nofun⟩
  | null => exact ⟨_, _, rfl, rfl, nofun⟩
  | integer n =>
    obtain ⟨c, cs, hcs, hc⟩ := Numeral.exists_ofInt_eq_cons n.toInt
    refine ⟨c, cs, hcs, ?_, fun _ => trivial⟩
    rcases hc with rfl | hc
    · rfl
    · rw [Bool.eq_false_iff]
      intro hblank
      exact Bool.eq_false_iff.mp (not_isDigit_of_isBlank hblank) hc

section Step

variable {rules : Grammar.Rules Char (Fin.elim0 : Fin 0 → Type)}
  {pending : List (Fin 0)}

/-- **Every form of a token is read** as the token, an integer where no digit
comes next. -/
theorem Form.step_token {t : JsonToken} {form rest : List Char} (h : Form t form)
    (hrest : t.IsInteger → StopsAt Char.isDigit rest) :
    Grammar.step rules pending JsonPattern.token (form ++ rest)
      = .found t rest := by
  cases h with
  | sign hmem => exact step_token_sign hmem rest
  | string hbody =>
    refine step_token_of_found [] rfl ?_ (List.forall_mem_nil _)
      (step_string hbody rest)
    show ∀ entry ∈ signs, some '\"' ≠ some entry.1
    decide
  | integer n =>
    obtain ⟨c, cs, hcs, hc⟩ := Numeral.exists_ofInt_eq_cons n.toInt
    have hchars : Numeral.ofInt n.toInt ++ rest = c :: (cs ++ rest) :=
      congrArg (· ++ rest) hcs
    have hstart : ∀ symbol ∈ '\"' :: signs.map Prod.fst, c ≠ symbol := by
      have hall : ('\"' :: signs.map Prod.fst).all
          (fun symbol => symbol != '-' && !symbol.isDigit) = true := rfl
      rintro symbol hsymbol rfl
      have hne : c ≠ '-' ∧ c.isDigit = false := by
        simpa using List.all_eq_true.mp hall c hsymbol
      rcases hc with hminus | hdigit
      · exact hne.1 hminus
      · exact Bool.eq_false_iff.mp hne.2 hdigit
    refine step_token_of_found [JsonPattern.string] rfl ?_
      (List.forall_mem_singleton.mpr ?_) (step_integer (hrest trivial))
    · intro entry hentry heq
      rw [hchars] at heq
      exact hstart entry.1 (List.mem_cons_of_mem _ (List.mem_map_of_mem hentry))
        (Option.some.inj heq)
    · refine step_string_of_ne fun other heq => ?_
      rw [hchars] at heq
      exact hstart '\"' List.mem_cons_self (List.cons.inj heq).1
  | null =>
    refine step_token_of_found [JsonPattern.string, JsonPattern.integer] rfl ?_
      (List.forall_mem_cons.mpr ⟨?_, List.forall_mem_singleton.mpr ?_⟩)
      (step_null rest)
    · show ∀ entry ∈ signs, some 'n' ≠ some entry.1
      decide
    · exact step_string_of_ne fun _ => nofun
    · exact step_integer_of_stopsAt (fun _ => nofun) (stopsAt_cons rfl _)

end Step

/-! ## Texts of tokens -/

/-- **No integer comes directly after another one.** -/
def Separate (tokens : List JsonToken) : Prop :=
  tokens.IsChain fun t next => t.IsInteger → ¬ next.IsInteger

theorem Separate.append_cons {tokens tokens' : List JsonToken} {t : JsonToken}
    (ht : ¬ t.IsInteger) (h : Separate tokens) (h' : Separate tokens') :
    Separate (tokens ++ t :: tokens') :=
  isChain_append_cons (fun _ _ => ht) (fun _ hinteger => absurd hinteger ht) h h'

/-- A text starts with a digit only if its first token is an integer. -/
theorem Spaced.stopsAt {tokens : List JsonToken} {text : List Char}
    (h : Spaced Form tokens text) (hfirst : ∀ t ∈ tokens.head?, ¬ t.IsInteger) :
    StopsAt Char.isDigit text := by
  have hblank : ∀ {blanks : List Char}, (∀ c ∈ blanks, isBlank c = true) →
      ∀ {rest : List Char}, StopsAt Char.isDigit rest →
        StopsAt Char.isDigit (blanks ++ rest) := by
    intro blanks hwhite rest hrest
    cases blanks with
    | nil => exact hrest
    | cons c blanks =>
      exact stopsAt_cons (not_isDigit_of_isBlank (hwhite c List.mem_cons_self)) _
  cases h with
  | nil hwhite =>
    have hend := hblank hwhite (stopsAt_nil _)
    rwa [List.append_nil] at hend
  | @cons blanks form rest t tokens hwhite ht _ =>
    obtain ⟨c, cs, hcs, -, hdigit⟩ := ht.exists_eq_cons
    refine hblank hwhite ?_
    rw [hcs]
    refine stopsAt_cons (Bool.eq_false_iff.mpr fun hc => ?_) _
    exact hfirst t rfl (hdigit hc)

section Step

variable {rules : Grammar.Rules Char (Fin.elim0 : Fin 0 → Type)}
  {pending : List (Fin 0)}

/-- **A text of tokens is read as them**, and what is left are blanks. The
induction is on the text: what follows a token has no digit first if the token
is an integer. -/
theorem Spaced.step_tokens {tokens : List JsonToken} {text : List Char}
    (h : Spaced Form tokens text) (hseparate : Separate tokens) :
    ∃ last, (∀ c ∈ last, isBlank c = true)
      ∧ Grammar.step rules pending (.many (.seqRight blanks token)) text
        = .found tokens last := by
  induction h generalizing pending with
  | @nil last hwhite =>
    have hend : Grammar.step rules pending (.seqRight blanks token) (last ++ [])
        = .noMatch :=
      (step_seqRight_run ⟨hwhite, stopsAt_nil _⟩).trans step_token_nil
    rw [List.append_nil] at hend
    exact ⟨last, hwhite, Grammar.step_many_of_noMatch hend⟩
  | @cons gap form rest t tokens hwhite ht hrest ih =>
    obtain ⟨last, hlast, hmany⟩ := @ih (List.finRange 0) hseparate.tail
    obtain ⟨c, cs, hcs, hblank, -⟩ := ht.exists_eq_cons
    have hgap : IsRun isBlank gap (form ++ rest) := by
      refine ⟨hwhite, ?_⟩
      rw [hcs]
      exact stopsAt_cons hblank _
    have hitem : Grammar.step rules pending (.seqRight blanks token)
        (gap ++ (form ++ rest)) = .found t rest :=
      (step_seqRight_run hgap).trans (ht.step_token fun hinteger =>
        hrest.stopsAt fun next hnext => hseparate.rel_head? hnext hinteger)
    refine ⟨last, hlast, ?_⟩
    rw [Grammar.step_many_of_found hitem, hmany]
    · rfl
    · rw [hcs, List.length_append, List.length_append, List.length_cons]
      omega

end Step

/-- **The text of tokens is scanned to them**, in whatever forms they are, and
whatever blanks stand before, between and after them. -/
theorem jsonTokens?_of_spaced {tokens : List JsonToken} {text : List Char}
    (h : Spaced Form tokens text) (hseparate : Separate tokens) :
    jsonTokens? text = some tokens := by
  have hsequence : Grammar.step (fun i => i.elim0) (List.finRange 0)
      JsonPattern.sequence text = .found tokens [] := by
    obtain ⟨last, hlast, htokens⟩ := h.step_tokens hseparate
    have hblanks : Grammar.step (fun i => i.elim0) (List.finRange 0) blanks
        (last ++ []) = .found last [] :=
      step_many_satisfy ⟨hlast, stopsAt_nil _⟩
    rw [List.append_nil] at hblanks
    unfold JsonPattern.sequence Grammar.seqLeft
    rw [Grammar.step_map, Pattern.step_seq_of_found htokens, hblanks]
    rfl
  unfold jsonTokens? Pattern.run Grammar.run
  rw [hsequence]
  rfl

end JsonToken

end FormulaColumn
