import FormulaColumn.Proofs.Language
import FormulaColumn.Scan

/-!
# What a scan does next

The scanner is a pattern, a repetition of white space and a token. What it
does at a position is said here by what stands there, and nothing below opens
the pattern again:

* a run of digits is a number if its value fits, and no token otherwise;
* an operator or a parenthesis is a token by itself;
* a letter directly before a run of digits whose value fits is a reference
  with them, and every other run of letters is a name;
* where anything else stands, no token does.

A scan reads white space and a token and goes on (`Scan.ofChars_of_found`),
or stops where no token stands (`Scan.ofChars_of_noMatch`).
-/

namespace FormulaColumn

/-! ## The classes of characters -/

theorem isUpper_iff {c : Char} :
    c.isUpper = true ↔ 65 ≤ c.toNat ∧ c.toNat ≤ 90 := by
  show decide (65 ≤ c.toNat ∧ c.toNat ≤ 90) = true ↔ _
  exact decide_eq_true_iff

theorem isDigit_iff {c : Char} :
    c.isDigit = true ↔ 48 ≤ c.toNat ∧ c.toNat ≤ 57 :=
  Char.isDigit_iff_toNat

theorem not_isUpper_of_isDigit {c : Char} (h : c.isDigit = true) :
    c.isUpper = false := by
  rw [isDigit_iff] at h
  rw [Bool.eq_false_iff, Ne, isUpper_iff]
  omega

theorem not_isDigit_of_isUpper {c : Char} (h : c.isUpper = true) :
    c.isDigit = false := by
  rw [isUpper_iff] at h
  rw [Bool.eq_false_iff, Ne, isDigit_iff]
  omega

namespace TokenPattern

theorem not_isDigit_of_operator {c : Char} (h : c ∈ operatorSymbols) :
    c.isDigit = false ∧ c.isUpper = false := by
  have hall : operatorSymbols.all (fun c => !c.isDigit && !c.isUpper) = true :=
    rfl
  simpa using List.all_eq_true.mp hall c h

theorem not_isDigit_of_punctuation {c : Char} (h : c ∈ punctuationSymbols) :
    c.isDigit = false ∧ c.isUpper = false ∧ c ∉ operatorSymbols := by
  have hall : punctuationSymbols.all (fun c =>
      !c.isDigit && (!c.isUpper && !operatorSymbols.contains c)) = true := rfl
  simpa using List.all_eq_true.mp hall c h

theorem not_operator_of_isDigit {c : Char} (h : c.isDigit = true) :
    c ∉ operatorSymbols :=
  fun hc => Bool.eq_false_iff.mp (not_isDigit_of_operator hc).1 h

theorem not_operator_of_isUpper {c : Char} (h : c.isUpper = true) :
    c ∉ operatorSymbols :=
  fun hc => Bool.eq_false_iff.mp (not_isDigit_of_operator hc).2 h

theorem not_punctuation_of_isDigit {c : Char} (h : c.isDigit = true) :
    c ∉ punctuationSymbols :=
  fun hc => Bool.eq_false_iff.mp (not_isDigit_of_punctuation hc).1 h

theorem not_punctuation_of_isUpper {c : Char} (h : c.isUpper = true) :
    c ∉ punctuationSymbols :=
  fun hc => Bool.eq_false_iff.mp (not_isDigit_of_punctuation hc).2.1 h

/-! ## Runs of characters -/

/-- **No accepted character comes next.** -/
def StopsAt (accepts : Char → Bool) (input : List Char) : Prop :=
  ∀ c ∈ input.head?, accepts c = false

theorem stopsAt_nil (accepts : Char → Bool) : StopsAt accepts [] :=
  fun _ h => nomatch h

theorem stopsAt_cons {accepts : Char → Bool} {c : Char} (h : accepts c = false)
    (rest : List Char) : StopsAt accepts (c :: rest) := by
  rintro _ ⟨⟩
  exact h

/-- **A run of accepted characters**, up to where the next one is not. -/
structure IsRun (accepts : Char → Bool) (run rest : List Char) : Prop where
  /-- The characters are accepted. -/
  accepted : ∀ c ∈ run, accepts c = true
  /-- The run cannot go on. -/
  stops : StopsAt accepts rest

theorem IsRun.tail {accepts : Char → Bool} {c : Char} {run rest : List Char}
    (h : IsRun accepts (c :: run) rest) : IsRun accepts run rest :=
  ⟨fun d hd => h.accepted d (List.mem_cons_of_mem c hd), h.stops⟩

theorem StopsAt.isRun {accepts : Char → Bool} {input : List Char}
    (h : StopsAt accepts input) : IsRun accepts [] input :=
  ⟨List.forall_mem_nil _, h⟩

/-- Every input starts with a run, which may be empty. -/
theorem exists_isRun (accepts : Char → Bool) (input : List Char) :
    ∃ run rest, input = run ++ rest ∧ IsRun accepts run rest := by
  induction input with
  | nil => exact ⟨[], [], rfl, (stopsAt_nil accepts).isRun⟩
  | cons c input ih =>
    by_cases hc : accepts c = true
    · obtain ⟨run, rest, rfl, hrun⟩ := ih
      exact ⟨c :: run, rest, rfl,
        List.forall_mem_cons.mpr ⟨hc, hrun.accepted⟩, hrun.stops⟩
    · exact ⟨[], c :: input, rfl,
        (stopsAt_cons (Bool.eq_false_iff.mpr hc) input).isRun⟩

/-- A run is what is taken of it and what follows. -/
theorem takeWhile_isRun {accepts : Char → Bool} {run rest : List Char}
    (h : IsRun accepts run rest) : (run ++ rest).takeWhile accepts = run := by
  rw [List.takeWhile_append_of_pos h.accepted]
  cases rest with
  | nil => exact List.append_nil run
  | cons c rest =>
    rw [List.takeWhile_cons_of_neg (Bool.eq_false_iff.mp (h.stops c rfl))]
    exact List.append_nil run

/-- **An input starts with one run only.** -/
theorem IsRun.append_inj {accepts : Char → Bool}
    {run run' rest rest' : List Char} (h : IsRun accepts run rest)
    (h' : IsRun accepts run' rest') (heq : run ++ rest = run' ++ rest') :
    run = run' ∧ rest = rest' := by
  have hrun : run = run' := by
    rw [← takeWhile_isRun h, heq, takeWhile_isRun h']
  subst hrun
  exact ⟨rfl, List.append_cancel_left heq⟩

section Step

variable {rules : Grammar.Rules Char (Fin.elim0 : Fin 0 → Type)}
  {pending : List (Fin 0)}

theorem step_satisfy_of_stopsAt {accepts : Char → Bool} {input : List Char}
    (h : StopsAt accepts input) :
    Grammar.step rules pending (.satisfy accepts) input = .noMatch := by
  cases input with
  | nil => rw [Grammar.satisfy, Grammar.step]
  | cons c rest => exact Grammar.step_satisfy_of_false (h c rfl) rest

/-- **A repetition takes a whole run.** -/
theorem step_many_satisfy {accepts : Char → Bool} {run rest : List Char}
    (h : IsRun accepts run rest) :
    Grammar.step rules pending (.many (.satisfy accepts)) (run ++ rest)
      = .found run rest := by
  induction run generalizing pending with
  | nil => exact Grammar.step_many_of_noMatch (step_satisfy_of_stopsAt h.stops)
  | cons c run ih =>
    have hc : accepts c = true := h.accepted c List.mem_cons_self
    rw [List.cons_append,
      Grammar.step_many_of_found (Grammar.step_satisfy_of_true hc _)
        (Nat.lt_succ_self _),
      ih h.tail]
    rfl

/-- **A run before a description** makes no difference to what the description
matches. -/
theorem step_seqRight_run {accepts : Char → Bool} {α : Type}
    {p : Pattern Char α} {run input : List Char}
    (h : IsRun accepts run input) :
    Grammar.step rules pending (.seqRight (.many (.satisfy accepts)) p)
        (run ++ input)
      = Grammar.step rules pending p input := by
  unfold Grammar.seqRight
  rw [Grammar.step_map, Pattern.step_seq_of_found (step_many_satisfy h)]
  cases Grammar.step rules pending p input <;> rfl

/-- A repetition of at least one takes a whole run that is not empty. -/
theorem step_many1_satisfy {accepts : Char → Bool} {run rest : List Char}
    (h : IsRun accepts run rest) (hrun : run ≠ []) :
    Grammar.step rules pending (.many1 (.satisfy accepts)) (run ++ rest)
      = .found run rest := by
  cases run with
  | nil => exact absurd rfl hrun
  | cons c run =>
    have hc : accepts c = true := h.accepted c List.mem_cons_self
    rw [List.cons_append, Grammar.many1, Grammar.step_map,
      Pattern.step_seq_of_found (Grammar.step_satisfy_of_true hc _),
      step_many_satisfy h.tail]
    rfl

theorem step_many1_satisfy_of_stopsAt {accepts : Char → Bool}
    {input : List Char} (h : StopsAt accepts input) :
    Grammar.step rules pending (.many1 (.satisfy accepts)) input
      = .noMatch := by
  unfold Grammar.many1
  rw [Grammar.step_map,
    Grammar.step_seq_of_noMatch (step_satisfy_of_stopsAt h)]
  rfl

/-! ## The forms of a token -/

/-- A run of digits whose value fits is a number. -/
theorem step_number_of_some {run rest : List Char} {n : Int64}
    (h : IsRun Char.isDigit run rest) (hrun : run ≠ [])
    (hn : int64? (Numeral.value run) = some n) :
    Grammar.step rules pending number (run ++ rest)
      = .found (.number n) rest := by
  refine Grammar.step_tryMap_of_some (step_many1_satisfy h hrun) ?_
  rw [hn]
  rfl

theorem step_number_of_none {run rest : List Char}
    (h : IsRun Char.isDigit run rest) (hrun : run ≠ [])
    (hn : int64? (Numeral.value run) = none) :
    Grammar.step rules pending number (run ++ rest) = .noMatch := by
  refine Grammar.step_tryMap_of_none (step_many1_satisfy h hrun) ?_
  rw [hn]
  rfl

theorem step_number_of_stopsAt {input : List Char}
    (h : StopsAt Char.isDigit input) :
    Grammar.step rules pending number input = .noMatch :=
  Grammar.step_tryMap_of_noMatch (step_many1_satisfy_of_stopsAt h)

theorem step_symbol_of_mem {symbols : List Char} {form : Char → Token}
    {c : Char} (h : c ∈ symbols) (rest : List Char) :
    Grammar.step rules pending
        (.map form (.satisfy fun c => symbols.contains c)) (c :: rest)
      = .found (form c) rest := by
  rw [Grammar.step_map,
    Grammar.step_satisfy_of_true (List.contains_iff_mem.mpr h)]
  rfl

theorem step_symbol_of_not_mem {symbols : List Char} {form : Char → Token}
    {input : List Char} (h : ∀ c ∈ input.head?, c ∉ symbols) :
    Grammar.step rules pending
        (.map form (.satisfy fun c => symbols.contains c)) input
      = .noMatch := by
  rw [Grammar.step_map, step_satisfy_of_stopsAt]
  · rfl
  intro c hc
  rw [Bool.eq_false_iff, Ne, List.contains_iff_mem]
  exact h c hc

theorem step_uppercase_digits {c : Char} {run rest : List Char}
    (hc : c.isUpper = true) (h : IsRun Char.isDigit run rest)
    (hrun : run ≠ []) :
    Grammar.step rules pending (.seq uppercase digits) (c :: run ++ rest)
      = .found (c, run) rest := by
  rw [List.cons_append, uppercase, digits,
    Pattern.step_seq_of_found (Grammar.step_satisfy_of_true hc _),
    step_many1_satisfy h hrun]
  rfl

/-- A letter directly before a run of digits whose value fits is a reference
with them. -/
theorem step_reference_of_some {c : Char} {run rest : List Char} {n : UInt64}
    (hc : c.isUpper = true) (h : IsRun Char.isDigit run rest) (hrun : run ≠ [])
    (hn : uint64? (Numeral.value run) = some n) :
    Grammar.step rules pending reference (c :: run ++ rest)
      = .found (.reference c n) rest := by
  refine Grammar.step_tryMap_of_some (step_uppercase_digits hc h hrun) ?_
  rw [hn]
  rfl

theorem step_reference_of_none {c : Char} {run rest : List Char}
    (hc : c.isUpper = true) (h : IsRun Char.isDigit run rest) (hrun : run ≠ [])
    (hn : uint64? (Numeral.value run) = none) :
    Grammar.step rules pending reference (c :: run ++ rest) = .noMatch := by
  refine Grammar.step_tryMap_of_none (step_uppercase_digits hc h hrun) ?_
  rw [hn]
  rfl

theorem step_reference_of_stopsAt {input : List Char}
    (h : StopsAt Char.isUpper input) :
    Grammar.step rules pending reference input = .noMatch :=
  Grammar.step_tryMap_of_noMatch
    (Grammar.step_seq_of_noMatch (step_satisfy_of_stopsAt h))

/-- There is no reference without a digit directly after the letter. -/
theorem step_reference_of_stopsAt_tail {c : Char} {rest : List Char}
    (h : StopsAt Char.isDigit rest) :
    Grammar.step rules pending reference (c :: rest) = .noMatch := by
  by_cases hc : c.isUpper = true
  · refine Grammar.step_tryMap_of_noMatch ?_
    unfold uppercase digits
    rw [Pattern.step_seq_of_found (Grammar.step_satisfy_of_true hc _),
      step_many1_satisfy_of_stopsAt h]
    rfl
  · exact step_reference_of_stopsAt
      (stopsAt_cons (Bool.eq_false_iff.mpr hc) rest)

theorem step_functionName {run rest : List Char}
    (h : IsRun Char.isUpper run rest) (hrun : run ≠ []) :
    Grammar.step rules pending functionName (run ++ rest)
      = .found (.name (String.ofList run)) rest := by
  unfold functionName uppercase
  rw [Grammar.step_map, step_many1_satisfy h hrun]
  rfl

theorem step_functionName_of_stopsAt {input : List Char}
    (h : StopsAt Char.isUpper input) :
    Grammar.step rules pending functionName input = .noMatch := by
  unfold functionName uppercase
  rw [Grammar.step_map, step_many1_satisfy_of_stopsAt h]
  rfl

end Step

/-! ## Tokens -/

section Token

variable {rules : Grammar.Rules Char (Fin.elim0 : Fin 0 → Type)}
  {pending : List (Fin 0)}

/-- **A run of digits is a number** if its value fits. -/
theorem step_token_number {run rest : List Char} {n : Int64}
    (h : IsRun Char.isDigit run rest) (hrun : run ≠ [])
    (hn : int64? (Numeral.value run) = some n) :
    Grammar.step rules pending token (run ++ rest)
      = .found (.number n) rest :=
  Grammar.step_choice_of_found []
    [operator, reference, punctuation, functionName] (List.forall_mem_nil _)
    (step_number_of_some h hrun hn)

/-- **A run of digits whose value does not fit** is no token. -/
theorem step_token_of_number_none {run rest : List Char}
    (h : IsRun Char.isDigit run rest) (hrun : run ≠ [])
    (hn : int64? (Numeral.value run) = none) :
    Grammar.step rules pending token (run ++ rest) = .noMatch := by
  obtain ⟨c, run, rfl⟩ := List.exists_cons_of_ne_nil hrun
  have hc : c.isDigit = true := h.accepted c List.mem_cons_self
  have hupper : StopsAt Char.isUpper (c :: run ++ rest) :=
    stopsAt_cons (not_isUpper_of_isDigit hc) _
  refine Grammar.step_choice_of_noMatch ?_
  refine List.forall_mem_cons.mpr ⟨step_number_of_none h hrun hn, ?_⟩
  refine List.forall_mem_cons.mpr ⟨step_symbol_of_not_mem ?_, ?_⟩
  · rintro _ ⟨⟩
    exact not_operator_of_isDigit hc
  refine List.forall_mem_cons.mpr ⟨step_reference_of_stopsAt hupper, ?_⟩
  refine List.forall_mem_cons.mpr ⟨step_symbol_of_not_mem ?_, ?_⟩
  · rintro _ ⟨⟩
    exact not_punctuation_of_isDigit hc
  exact List.forall_mem_singleton.mpr (step_functionName_of_stopsAt hupper)

/-- **An operator is a token** by itself. -/
theorem step_token_operator {c : Char} (h : c ∈ operatorSymbols)
    (rest : List Char) :
    Grammar.step rules pending token (c :: rest)
      = .found (.operator c) rest := by
  refine Grammar.step_choice_of_found [number]
    [reference, punctuation, functionName] ?_ (step_symbol_of_mem h rest)
  exact List.forall_mem_singleton.mpr (step_number_of_stopsAt
    (stopsAt_cons (not_isDigit_of_operator h).1 rest))

/-- **A parenthesis is a token** by itself. -/
theorem step_token_punctuation {c : Char} (h : c ∈ punctuationSymbols)
    (rest : List Char) :
    Grammar.step rules pending token (c :: rest)
      = .found (.punctuation c) rest := by
  obtain ⟨hdigit, hupper, hoperator⟩ := not_isDigit_of_punctuation h
  refine Grammar.step_choice_of_found [number, operator, reference]
    [functionName] ?_ (step_symbol_of_mem h rest)
  refine List.forall_mem_cons.mpr
    ⟨step_number_of_stopsAt (stopsAt_cons hdigit rest), ?_⟩
  refine List.forall_mem_cons.mpr ⟨step_symbol_of_not_mem ?_, ?_⟩
  · rintro _ ⟨⟩
    exact hoperator
  exact List.forall_mem_singleton.mpr
    (step_reference_of_stopsAt (stopsAt_cons hupper rest))

theorem step_number_of_isUpper {c : Char} (hc : c.isUpper = true)
    (rest : List Char) :
    Grammar.step rules pending number (c :: rest) = .noMatch :=
  step_number_of_stopsAt (stopsAt_cons (not_isDigit_of_isUpper hc) rest)

theorem step_operator_of_isUpper {c : Char} (hc : c.isUpper = true)
    (rest : List Char) :
    Grammar.step rules pending operator (c :: rest) = .noMatch := by
  refine step_symbol_of_not_mem ?_
  rintro _ ⟨⟩
  exact not_operator_of_isUpper hc

/-- **A letter directly before a run of digits** whose value fits is a
reference with them. -/
theorem step_token_reference {c : Char} {run rest : List Char} {n : UInt64}
    (hc : c.isUpper = true) (h : IsRun Char.isDigit run rest) (hrun : run ≠ [])
    (hn : uint64? (Numeral.value run) = some n) :
    Grammar.step rules pending token (c :: run ++ rest)
      = .found (.reference c n) rest := by
  refine Grammar.step_choice_of_found [number, operator]
    [punctuation, functionName] ?_ (step_reference_of_some hc h hrun hn)
  refine List.forall_mem_cons.mpr ⟨step_number_of_isUpper hc _, ?_⟩
  exact List.forall_mem_singleton.mpr (step_operator_of_isUpper hc _)

/-- **A run of letters that starts no reference** is a name. -/
theorem step_token_name {run rest : List Char}
    (h : IsRun Char.isUpper run rest) (hrun : run ≠ [])
    (hreference : Grammar.step rules pending reference (run ++ rest)
      = .noMatch) :
    Grammar.step rules pending token (run ++ rest)
      = .found (.name (String.ofList run)) rest := by
  obtain ⟨c, run, rfl⟩ := List.exists_cons_of_ne_nil hrun
  have hc : c.isUpper = true := h.accepted c List.mem_cons_self
  refine Grammar.step_choice_of_found [number, operator, reference, punctuation]
    [] ?_ (step_functionName h hrun)
  refine List.forall_mem_cons.mpr ⟨step_number_of_isUpper hc _, ?_⟩
  refine List.forall_mem_cons.mpr ⟨step_operator_of_isUpper hc _, ?_⟩
  refine List.forall_mem_cons.mpr ⟨hreference, ?_⟩
  refine List.forall_mem_singleton.mpr (step_symbol_of_not_mem ?_)
  rintro _ ⟨⟩
  exact not_punctuation_of_isUpper hc

/-- **Nothing is a token** at the end, or before a character that no token
starts with. -/
theorem step_token_of_stopsAt {input : List Char}
    (hdigit : StopsAt Char.isDigit input) (hupper : StopsAt Char.isUpper input)
    (hsymbol : ∀ c ∈ input.head?,
      c ∉ operatorSymbols ∧ c ∉ punctuationSymbols) :
    Grammar.step rules pending token input = .noMatch := by
  refine Grammar.step_choice_of_noMatch ?_
  refine List.forall_mem_cons.mpr ⟨step_number_of_stopsAt hdigit, ?_⟩
  refine List.forall_mem_cons.mpr
    ⟨step_symbol_of_not_mem fun c hc => (hsymbol c hc).1, ?_⟩
  refine List.forall_mem_cons.mpr ⟨step_reference_of_stopsAt hupper, ?_⟩
  refine List.forall_mem_cons.mpr
    ⟨step_symbol_of_not_mem fun c hc => (hsymbol c hc).2, ?_⟩
  exact List.forall_mem_singleton.mpr (step_functionName_of_stopsAt hupper)

end Token

end TokenPattern

/-! ## Scans -/

namespace Scan

open TokenPattern

variable {rules : Grammar.Rules Char (Fin.elim0 : Fin 0 → Type)}
  {pending : List (Fin 0)}

/-- A scan with these tokens before its own. -/
def prepend (tokens : List Token) (scan : Scan) : Scan :=
  ⟨tokens ++ scan.tokens, scan.rest⟩

theorem step_whiteSpaces {gap input : List Char}
    (h : IsRun isWhiteSpace gap input) :
    Grammar.step rules pending whiteSpaces (gap ++ input)
      = .found gap input :=
  step_many_satisfy h

/-- **White space before a token** makes no difference to the token. -/
theorem step_item {gap input : List Char} (h : IsRun isWhiteSpace gap input) :
    Grammar.step rules pending (.seqRight whiteSpaces token) (gap ++ input)
      = Grammar.step rules pending token input :=
  step_seqRight_run h

/-- The items of a sequence of tokens, each with the white space before
it. -/
def items : Pattern Char (List Token) := .many (.seqRight whiteSpaces token)

/-- **A scan is its items and the white space after them.** -/
theorem ofChars_eq_of_items {source gap rest : List Char} {tokens : List Token}
    (h : Grammar.step (fun i => i.elim0) (List.finRange 0) items source
      = .found tokens (gap ++ rest)) (hgap : IsRun isWhiteSpace gap rest) :
    ofChars source = ⟨tokens, rest⟩ := by
  have hsequence : Grammar.step (fun i => i.elim0) (List.finRange 0)
      TokenPattern.sequence source = .found tokens rest := by
    unfold TokenPattern.sequence Grammar.seqLeft
    rw [Grammar.step_map]
    show ((Grammar.step _ _ (.seq items whiteSpaces) source).map _) = _
    rw [Pattern.step_seq_of_found h, step_whiteSpaces hgap]
    rfl
  refine ofChars_eq_iff.mpr ?_
  unfold Pattern.run Grammar.run
  rw [hsequence]
  rfl

/-- Every run of characters has items. -/
theorem exists_items (source : List Char) :
    ∃ tokens gap rest,
      Grammar.step (fun i => i.elim0) (List.finRange 0) items source
          = .found tokens (gap ++ rest)
        ∧ IsRun isWhiteSpace gap rest := by
  cases h : Grammar.step (fun i => i.elim0) (List.finRange 0) items source with
  | found tokens rest =>
    obtain ⟨gap, rest, rfl, hgap⟩ := exists_isRun isWhiteSpace rest
    exact ⟨tokens, gap, rest, rfl, hgap⟩
  | noMatch => exact absurd h (Grammar.step_many_ne_noMatch _ _ _ source)
  | leftRecursion =>
    exact absurd h (Grammar.step_ne_leftRecursion rfl _ _ _ source)

/-- **A scan goes on after a token**, and after the white space before it. -/
theorem ofChars_of_found {gap input rest : List Char} {t : Token}
    (hgap : IsRun isWhiteSpace gap input)
    (h : Grammar.step (fun i => i.elim0) (List.finRange 0) token input
      = .found t rest) (hlt : rest.length < input.length) :
    ofChars (gap ++ input) = (ofChars rest).prepend [t] := by
  -- the scan of the rest, with one more item before its items
  obtain ⟨tokens, gap', rest', hitems, hgap'⟩ := exists_items rest
  have hmore : Grammar.step (fun i => i.elim0) (List.finRange 0) items
      (gap ++ input) = .found (t :: tokens) (gap' ++ rest') := by
    unfold items
    rw [Grammar.step_many_of_found ((step_item hgap).trans h)]
    · show (Grammar.step _ _ items rest).map _ = _
      rw [hitems]
      rfl
    · rw [List.length_append]
      omega
  rw [ofChars_eq_of_items hitems hgap', ofChars_eq_of_items hmore hgap']
  rfl

/-- **A scan stops where no token stands**, after the white space before it. -/
theorem ofChars_of_noMatch {gap input : List Char}
    (hgap : IsRun isWhiteSpace gap input)
    (h : Grammar.step (fun i => i.elim0) (List.finRange 0) token input
      = .noMatch) : ofChars (gap ++ input) = ⟨[], input⟩ :=
  ofChars_eq_of_items
    (Grammar.step_many_of_noMatch ((step_item hgap).trans h)) hgap

end Scan

end FormulaColumn
