import FormulaColumn.Proofs.PrintedTokens
import FormulaColumn.Proofs.Runs

/-!
# The scanner and the scan by runs

The scanner goes through a text once and keeps nothing but the tokens. The
scan by runs asks at each position what stands before it and after it, the
whole text being given. They are proved to agree on every text
(`Scan.ofText_eq_byRuns`).

The scan by runs is first taken apart at a position. What is left of it there
(`Scan.scanFrom`) is a token or none and what is left at the next position,
so a whole token is **passed** character by character (`Scan.Passes`): its
first character has the token, and the others are **silent**
(`Scan.Silent`). White space is silent too.

Then both scans take the same steps (`Scan.Alike`), which has one side
condition. A run that is looked at from inside is shorter than it is, so the
scanner must never stand inside one; and after a single letter it must not
have left a row behind that belongs to the letter. Both are the invariant
`Scan.Boundary`, which holds at the start and after every token. A single
letter before a row that is too large does not break it: the letter is a
name, and the digits after it are rejected, being no integer either.
-/

namespace FormulaColumn

namespace Scan

open TokenPattern

/-! ## Runs at a position -/

section Runs

variable {accepts : Char → Bool} {before rest : List Char}

theorem runBefore_append (accepts : Char → Bool) (before rest : List Char) :
    runBefore accepts (before ++ rest) before.length
      = before.rtakeWhile accepts := by
  rw [runBefore, List.take_left]

theorem runFrom_append (accepts : Char → Bool) (before rest : List Char) :
    runFrom accepts (before ++ rest) before.length
      = rest.takeWhile accepts := by
  rw [runFrom, List.drop_left]

theorem rtakeWhile_append_of_forall {run : List Char}
    (h : ∀ c ∈ run, accepts c = true) :
    (before ++ run).rtakeWhile accepts = before.rtakeWhile accepts ++ run := by
  unfold List.rtakeWhile
  rw [List.reverse_append, List.takeWhile_append_of_pos, List.reverse_append,
    List.reverse_reverse]
  exact fun c hc => h c (List.mem_reverse.mp hc)

theorem rtakeWhile_concat_of_false {c : Char} (h : accepts c = false) :
    (before ++ [c]).rtakeWhile accepts = [] := by
  rw [List.rtakeWhile_concat, if_neg (Bool.eq_false_iff.mp h)]

theorem rtakeWhile_append_of_false {others : List Char} (hne : others ≠ [])
    (h : ∀ c ∈ others, accepts c = false) :
    (before ++ others).rtakeWhile accepts = [] := by
  obtain ⟨front, c, rfl⟩ := (List.eq_nil_or_concat' others).resolve_left hne
  rw [← List.append_assoc]
  exact rtakeWhile_concat_of_false (h c (by simp))

theorem rtakeWhile_concat_ne_nil {c : Char} (h : accepts c = true) :
    (before ++ [c]).rtakeWhile accepts ≠ [] := by
  rw [List.rtakeWhile_concat, if_pos h]
  exact List.append_ne_nil_of_right_ne_nil _ (List.cons_ne_nil c [])

theorem rtakeWhile_concat_of_nil {c : Char} (h : accepts c = true)
    (hbefore : before.rtakeWhile accepts = []) :
    (before ++ [c]).rtakeWhile accepts = [c] := by
  rw [List.rtakeWhile_concat, if_pos h, hbefore]
  rfl

theorem not_stopsAt_of_isRun {run : List Char} (h : IsRun accepts run rest)
    (hne : run ≠ []) : ¬ StopsAt accepts (run ++ rest) := by
  obtain ⟨c, run, rfl⟩ := List.exists_cons_of_ne_nil hne
  exact fun hstops => Bool.eq_false_iff.mp (hstops c rfl)
    (h.accepted c List.mem_cons_self)

/-- A run that is not empty starts at an accepted character. -/
theorem exists_isRun_of_accepts {c : Char} (h : accepts c = true)
    (rest : List Char) :
    ∃ run rest', c :: rest = run ++ rest' ∧ IsRun accepts run rest'
      ∧ run ≠ [] := by
  obtain ⟨run, rest', hinput, hrun⟩ := exists_isRun accepts (c :: rest)
  refine ⟨run, rest', hinput, hrun, ?_⟩
  rintro rfl
  subst hinput
  exact Bool.eq_false_iff.mp (hrun.stops c rfl) h

/-- **A run starts** at a character that is accepted and stands after none
that is. -/
theorem runStarts_append_iff {c : Char} :
    RunStarts accepts (before ++ c :: rest) before.length
      ↔ before.rtakeWhile accepts = [] ∧ accepts c = true := by
  unfold RunStarts
  rw [runBefore_append, runFrom_append]
  refine and_congr_right fun _ => ?_
  cases hc : accepts c with
  | true => simp [List.takeWhile_cons_of_pos hc]
  | false => simp [List.takeWhile_cons_of_neg, hc]

end Runs

/-! ## Where scanning stops -/

/-- **Where scanning stops** is the leftmost rejected position, or the end. -/
theorem stop_spec (source : List Char) :
    (∀ p < stop source, ¬ Rejected source p)
      ∧ (stop source = source.length ∨ Rejected source (stop source)) := by
  unfold stop
  cases h : (List.range source.length).find? fun p => Rejected source p with
  | none =>
    have hnone := List.find?_range_eq_none.mp h
    exact ⟨fun p hp => by simpa using hnone p hp, Or.inl rfl⟩
  | some p =>
    obtain ⟨hp, -, hbefore⟩ := List.find?_range_eq_some.mp h
    exact ⟨fun q hq => by simpa using hbefore q hq,
      Or.inr (by simpa using hp)⟩

theorem stop_le_length (source : List Char) : stop source ≤ source.length := by
  unfold stop
  cases h : (List.range source.length).find? fun p => Rejected source p with
  | none => exact Nat.le_refl _
  | some p => exact (List.mem_range.mp (List.mem_of_find?_eq_some h)).le

theorem stop_le_of_rejected {source : List Char} {p : Nat}
    (h : Rejected source p) : stop source ≤ p :=
  Nat.not_lt.mp fun hlt => (stop_spec source).1 p hlt h

theorem lt_stop {source : List Char} {p : Nat} (hle : p ≤ stop source)
    (hlt : p < source.length) (h : ¬ Rejected source p) :
    p < stop source := by
  refine Nat.lt_of_le_of_ne hle ?_
  rintro rfl
  rcases (stop_spec source).2 with hend | hrejected
  · omega
  · exact h hrejected

/-- A position is after a single letter if the run before it is one. -/
theorem afterLetter_append_iff {before rest : List Char} :
    AfterLetter (before ++ rest) before.length
      ↔ (before.rtakeWhile Char.isUpper).length = 1 := by
  unfold AfterLetter
  rw [runBefore_append]

theorem digitsLimit_append (before rest : List Char) :
    digitsLimit (before ++ rest) before.length
      = if (before.rtakeWhile Char.isUpper).length = 1 then 2 ^ 64 - 1
        else 2 ^ 63 - 1 := by
  unfold digitsLimit
  simp only [afterLetter_append_iff]

/-- **A position is rejected** if its character is foreign, or if it is the
first of digits whose value is too large. -/
theorem rejected_append_iff {before rest : List Char} {c : Char} :
    Rejected (before ++ c :: rest) before.length
      ↔ Foreign c
        ∨ (before.rtakeWhile Char.isDigit = [] ∧ c.isDigit = true)
          ∧ digitsLimit (before ++ c :: rest) before.length
            < Numeral.value ((c :: rest).takeWhile Char.isDigit) := by
  unfold Rejected
  rw [runStarts_append_iff, runFrom_append]
  simp

/-- **Digits are rejected** if a run of them starts and its value is too
large. -/
theorem rejected_of_lt {before rest : List Char}
    (hstart : before.rtakeWhile Char.isDigit = [])
    (hlarge : digitsLimit (before ++ rest) before.length
      < Numeral.value (rest.takeWhile Char.isDigit)) :
    Rejected (before ++ rest) before.length := by
  right
  unfold RunStarts
  rw [runBefore_append, runFrom_append]
  refine ⟨⟨hstart, fun hnil => ?_⟩, hlarge⟩
  rw [hnil] at hlarge
  exact Nat.not_lt_zero _ hlarge

/-- Where no run of digits starts, only a foreign character is rejected. -/
theorem not_rejected_of_known {before rest : List Char} {c : Char}
    (hknown : ¬ Foreign c)
    (hdigit : c.isDigit = true → before.rtakeWhile Char.isDigit ≠ []) :
    ¬ Rejected (before ++ c :: rest) before.length := by
  rw [rejected_append_iff]
  rintro (hforeign | ⟨⟨hstart, hc⟩, -⟩)
  · exact hknown hforeign
  · exact hdigit hc hstart

/-- Where no run starts, the token is that of a symbol. -/
theorem tokenAt_eq_symbolToken? {before rest : List Char} {c : Char}
    (hupper : c.isUpper = true → before.rtakeWhile Char.isUpper ≠ [])
    (hdigit : c.isDigit = true → before.rtakeWhile Char.isDigit ≠ [])
    (stop : Nat) :
    tokenAt (before ++ c :: rest) stop before.length = symbolToken? c := by
  have hletters : ¬ RunStarts Char.isUpper (before ++ c :: rest)
      before.length := by
    rw [runStarts_append_iff]
    exact fun hstart => hupper hstart.2 hstart.1
  have hdigits : ¬ RunStarts Char.isDigit (before ++ c :: rest)
      before.length := by
    rw [runStarts_append_iff]
    exact fun hstart => hdigit hstart.2 hstart.1
  unfold tokenAt
  rw [if_neg hletters, if_neg hdigits]
  simp

theorem symbolToken?_eq_none {c : Char}
    (h : ¬ (c ∈ operatorSymbols ∨ c ∈ punctuationSymbols)) :
    symbolToken? c = none := by
  obtain ⟨hoperator, hpunctuation⟩ := not_or.mp h
  unfold symbolToken?
  rw [if_neg hoperator, if_neg hpunctuation]

/-! ## What is left of the scan by runs -/

/-- **The scan by runs gets to a position**: between some characters and the
rest, nothing being rejected before it. -/
def Reached (before rest : List Char) : Prop :=
  before.length ≤ stop (before ++ rest)

/-- **What is left of the scan by runs** at the position between some
characters and the rest. -/
def scanFrom (before rest : List Char) : Scan :=
  ⟨(List.range' before.length
      (stop (before ++ rest) - before.length)).filterMap
        (tokenAt (before ++ rest) (stop (before ++ rest))),
    (before ++ rest).drop (stop (before ++ rest))⟩

/-- At the first position everything is left. -/
theorem byRuns_eq_scanFrom (source : List Char) :
    byRuns source = scanFrom [] source := by
  unfold byRuns scanFrom
  rw [List.range_eq_range']
  rfl

variable {before rest : List Char}

/-- **At a rejected position** no token is left. -/
theorem scanFrom_of_rejected (h : Reached before rest)
    (hrejected : Rejected (before ++ rest) before.length) :
    scanFrom before rest = ⟨[], rest⟩ := by
  have hstop : stop (before ++ rest) = before.length :=
    Nat.le_antisymm (stop_le_of_rejected hrejected) h
  unfold scanFrom
  rw [hstop, Nat.sub_self, List.drop_left]
  rfl

/-- At the end nothing is left. -/
theorem scanFrom_nil (h : Reached before []) : scanFrom before [] = ⟨[], []⟩ := by
  have hstop : stop (before ++ []) = before.length := by
    refine Nat.le_antisymm ((stop_le_length _).trans_eq ?_) h
    rw [List.append_nil]
  unfold scanFrom
  rw [hstop, Nat.sub_self, List.drop_left]
  rfl

/-! ## Passing characters -/

/-- **The scan by runs passes** some characters: it gets to the position after
them, and these are the tokens that start among them. -/
structure Passes (before chars rest : List Char) (tokens : List Token) :
    Prop where
  /-- Nothing is rejected among the characters. -/
  reached : Reached (before ++ chars) rest
  /-- What is left before the characters is left after them, with their
  tokens before it. -/
  scanFrom_eq : scanFrom before (chars ++ rest)
    = (scanFrom (before ++ chars) rest).prepend tokens

theorem Passes.append {before chars chars' rest : List Char}
    {tokens tokens' : List Token} (h : Passes before chars (chars' ++ rest) tokens)
    (h' : Passes (before ++ chars) chars' rest tokens') :
    Passes before (chars ++ chars') rest (tokens ++ tokens') := by
  refine ⟨List.append_assoc before chars chars' ▸ h'.reached, ?_⟩
  rw [List.append_assoc, h.scanFrom_eq, h'.scanFrom_eq, prepend_prepend,
    List.append_assoc]

theorem passes_nil (h : Reached before rest) : Passes before [] rest [] := by
  refine ⟨(List.append_nil before).symm ▸ h, ?_⟩
  rw [List.append_nil]
  rfl

/-- **A position that is not rejected** is passed with the token that starts
there. -/
theorem passes_singleton {c : Char} {found : Option Token}
    (h : Reached before (c :: rest))
    (haccepted : ¬ Rejected (before ++ c :: rest) before.length)
    (hfound : tokenAt (before ++ c :: rest) (stop (before ++ c :: rest))
      before.length = found) : Passes before [c] rest found.toList := by
  have hlt : before.length < stop (before ++ c :: rest) :=
    lt_stop h (by simp) haccepted
  have hsource : before ++ [c] ++ rest = before ++ c :: rest :=
    List.append_cons before c rest ▸ rfl
  have hlength : (before ++ [c]).length = before.length + 1 :=
    List.length_append
  constructor
  · unfold Reached
    rw [hsource, hlength]
    exact hlt
  · show scanFrom before (c :: rest) = _
    unfold scanFrom prepend
    rw [hsource, hlength,
      show stop (before ++ c :: rest) - before.length
        = stop (before ++ c :: rest) - (before.length + 1) + 1 by omega,
      List.range'_succ, List.filterMap_cons, hfound]
    cases found <;> rfl

/-- **A silent character**: it is in a token or is white space, and no token
starts at it after these characters. -/
structure Silent (before : List Char) (c : Char) : Prop where
  /-- A letter goes on with a run. -/
  upper : c.isUpper = true → before.rtakeWhile Char.isUpper ≠ []
  /-- A digit goes on with a run. -/
  digit : c.isDigit = true → before.rtakeWhile Char.isDigit ≠ []
  /-- The character is no symbol. -/
  symbol : symbolToken? c = none
  /-- The character is known. -/
  known : ¬ Foreign c

/-- **A silent character is passed** without a token. -/
theorem Silent.passes {c : Char} (hc : Silent before c)
    (h : Reached before (c :: rest)) : Passes before [c] rest [] :=
  passes_singleton h (not_rejected_of_known hc.known hc.digit)
    ((tokenAt_eq_symbolToken? hc.upper hc.digit _).trans hc.symbol)

/-- **A run of silent characters is passed** without a token. -/
theorem passes_of_silent {accepts : Char → Bool} {run : List Char}
    (hrun : ∀ c ∈ run, accepts c = true)
    (hsilent : ∀ front c, (∀ d ∈ front, accepts d = true) → accepts c = true →
      Silent (before ++ front) c)
    (h : Reached before (run ++ rest)) : Passes before run rest [] := by
  induction run generalizing before with
  | nil => exact passes_nil h
  | cons c run ih =>
    obtain ⟨hc, hrun⟩ := List.forall_mem_cons.mp hrun
    have hfirst : Passes before [c] (run ++ rest) [] := by
      have hsilent := hsilent [] c (List.forall_mem_nil _) hc
      rw [List.append_nil] at hsilent
      exact hsilent.passes h
    refine hfirst.append (ih hrun (fun front d hfront hd => ?_) hfirst.reached)
    rw [List.append_assoc]
    exact hsilent (c :: front) d (List.forall_mem_cons.mpr ⟨hc, hfront⟩) hd

/-! ## Runs that are passed -/

/-- White space is silent. -/
theorem silent_of_isWhiteSpace {c : Char} (h : isWhiteSpace c = true) :
    Silent before c where
  upper hc := absurd h (Bool.eq_false_iff.mp (not_isWhiteSpace_of_isUpper hc))
  digit hc := absurd h (Bool.eq_false_iff.mp (not_isWhiteSpace_of_isDigit hc))
  symbol := by
    have hall : (operatorSymbols ++ punctuationSymbols).all
        (fun c => !isWhiteSpace c) = true := rfl
    have hsymbol : c ∉ operatorSymbols ++ punctuationSymbols := fun hc => by
      simpa [h] using List.all_eq_true.mp hall c hc
    exact symbolToken?_eq_none fun hc => hsymbol (List.mem_append.mpr hc)
  known hc := absurd h (Bool.eq_false_iff.mp hc.1)

theorem silent_of_isDigit {c : Char} (h : c.isDigit = true)
    (hbefore : before.rtakeWhile Char.isDigit ≠ []) : Silent before c where
  upper hc := absurd hc (Bool.eq_false_iff.mp (not_isUpper_of_isDigit h))
  digit _ := hbefore
  symbol := symbolToken?_eq_none fun hc =>
    hc.elim (not_operator_of_isDigit h) (not_punctuation_of_isDigit h)
  known hc := absurd h (Bool.eq_false_iff.mp hc.2.1)

theorem silent_of_isUpper {c : Char} (h : c.isUpper = true)
    (hbefore : before.rtakeWhile Char.isUpper ≠ []) : Silent before c where
  upper _ := hbefore
  digit hc := absurd hc (Bool.eq_false_iff.mp (not_isDigit_of_isUpper h))
  symbol := symbolToken?_eq_none fun hc =>
    hc.elim (not_operator_of_isUpper h) (not_punctuation_of_isUpper h)
  known hc := absurd h (Bool.eq_false_iff.mp hc.2.2.1)

/-- **White space is passed** without a token. -/
theorem passes_gap {gap : List Char} (hgap : ∀ c ∈ gap, isWhiteSpace c = true)
    (h : Reached before (gap ++ rest)) : Passes before gap rest [] :=
  passes_of_silent hgap (fun _ _ _ hc => silent_of_isWhiteSpace hc) h

/-- **What is left of a run is passed** without a token, if each of its
characters is silent after another one. -/
theorem passes_tail {accepts : Char → Bool}
    (hsilent : ∀ {before : List Char} {c : Char}, accepts c = true →
      before.rtakeWhile accepts ≠ [] → Silent before c)
    {run : List Char} (hrun : ∀ c ∈ run, accepts c = true)
    (hbefore : before.rtakeWhile accepts ≠ [])
    (h : Reached before (run ++ rest)) : Passes before run rest [] := by
  refine passes_of_silent hrun (fun front c hfront hc => hsilent hc ?_) h
  rw [rtakeWhile_append_of_forall hfront]
  exact List.append_ne_nil_of_left_ne_nil hbefore front

/-! ## Tokens that are passed -/

/-- **A symbol is passed** as its token. -/
theorem passes_symbol {c : Char} {t : Token} (ht : symbolToken? c = some t)
    (hdigit : c.isDigit = false) (hupper : c.isUpper = false)
    (h : Reached before (c :: rest)) : Passes before [c] rest [t] := by
  have hknown : ¬ Foreign c := by
    rintro ⟨-, -, -, hoperator, hpunctuation⟩
    rw [symbolToken?_eq_none (not_or.mpr ⟨hoperator, hpunctuation⟩)] at ht
    exact nomatch ht
  have hnoDigit : c.isDigit = true → before.rtakeWhile Char.isDigit ≠ [] :=
    fun hc => absurd hc (Bool.eq_false_iff.mp hdigit)
  have hnoUpper : c.isUpper = true → before.rtakeWhile Char.isUpper ≠ [] :=
    fun hc => absurd hc (Bool.eq_false_iff.mp hupper)
  exact passes_singleton h (not_rejected_of_known hknown hnoDigit)
    ((tokenAt_eq_symbolToken? hnoUpper hnoDigit _).trans ht)

/-- **A run of digits is passed** if its value is not too large. Directly after
a single letter it has no token, and elsewhere it is a number. -/
theorem passes_digits {run : List Char} (hrun : IsRun Char.isDigit run rest)
    (hne : run ≠ []) (hstart : before.rtakeWhile Char.isDigit = [])
    (hfits : Numeral.value run
      ≤ digitsLimit (before ++ (run ++ rest)) before.length)
    (h : Reached before (run ++ rest)) :
    Passes before run rest
      (if (before.rtakeWhile Char.isUpper).length = 1 then none
        else some (Token.number (.ofNat (Numeral.value run)))).toList := by
  have hrunFrom : (run ++ rest).takeWhile Char.isDigit = run :=
    takeWhile_isRun hrun
  obtain ⟨c, run, rfl⟩ := List.exists_cons_of_ne_nil hne
  have hc : c.isDigit = true := hrun.accepted c List.mem_cons_self
  have haccepted : ¬ Rejected (before ++ c :: (run ++ rest)) before.length := by
    rw [rejected_append_iff]
    rintro (hforeign | ⟨-, hlarge⟩)
    · exact Bool.eq_false_iff.mp hforeign.2.1 hc
    · rw [← List.cons_append, hrunFrom] at hlarge
      exact Nat.not_lt.mpr hfits hlarge
  have hfound : tokenAt (before ++ c :: (run ++ rest))
      (stop (before ++ c :: (run ++ rest))) before.length
        = if (before.rtakeWhile Char.isUpper).length = 1 then none
          else some (.number (.ofNat (Numeral.value (c :: run)))) := by
    unfold tokenAt
    rw [if_neg fun hupper => ?_, if_pos (runStarts_append_iff.mpr ⟨hstart, hc⟩),
      runFrom_append, ← List.cons_append, hrunFrom]
    · simp only [afterLetter_append_iff]
    · exact Bool.eq_false_iff.mp (not_isUpper_of_isDigit hc)
        (runStarts_append_iff.mp hupper).2
  have hfirst := passes_singleton h haccepted hfound
  have hpasses := hfirst.append (passes_tail silent_of_isDigit
    hrun.tail.accepted (rtakeWhile_concat_ne_nil hc) hfirst.reached)
  rw [List.append_nil] at hpasses
  exact hpasses

/-- **A run of digits is passed** as a number, if its value is an integer and
it does not stand directly after a single letter. -/
theorem passes_number {run : List Char} {n : Int64}
    (hrun : IsRun Char.isDigit run rest) (hne : run ≠ [])
    (hn : int64? (Numeral.value run) = some n)
    (hstart : before.rtakeWhile Char.isDigit = [])
    (hletter : (before.rtakeWhile Char.isUpper).length ≠ 1)
    (h : Reached before (run ++ rest)) :
    Passes before run rest [.number n] := by
  have hvalue : n.toInt = Numeral.value run := int64?_eq_some_iff.mp hn
  have hlt := n.toInt_lt
  have hexact : Int64.ofNat (Numeral.value run) = n := by
    rw [← Int64.toInt_inj, Int64.toInt_ofNat_of_lt (by omega), hvalue]
  have hpasses := passes_digits hrun hne hstart (by
    rw [digitsLimit_append, if_neg hletter]
    omega) h
  rw [if_neg hletter, hexact] at hpasses
  exact hpasses

/-- **The digits of a row are passed** without a token, directly after a
single letter. -/
theorem passes_row {run : List Char} {n : UInt64}
    (hrun : IsRun Char.isDigit run rest) (hne : run ≠ [])
    (hn : uint64? (Numeral.value run) = some n)
    (hstart : before.rtakeWhile Char.isDigit = [])
    (hletter : (before.rtakeWhile Char.isUpper).length = 1)
    (h : Reached before (run ++ rest)) : Passes before run rest [] := by
  have hvalue : n.toNat = Numeral.value run := uint64?_eq_some_iff.mp hn
  have hlt := n.toNat_lt
  have hpasses := passes_digits hrun hne hstart (by
    rw [digitsLimit_append, if_pos hletter]
    omega) h
  rw [if_pos hletter] at hpasses
  exact hpasses

theorem not_rejected_of_isUpper {c : Char} (hc : c.isUpper = true) :
    ¬ Rejected (before ++ c :: rest) before.length :=
  not_rejected_of_known
    (fun hforeign => Bool.eq_false_iff.mp hforeign.2.2.1 hc)
    (fun hdigit => absurd hdigit
      (Bool.eq_false_iff.mp (not_isDigit_of_isUpper hc)))

/-- **The token at a single letter** depends on whether the position after it
is before the stop and digits start there. -/
theorem tokenAt_letter {c : Char} (hc : c.isUpper = true)
    (hstart : before.rtakeWhile Char.isUpper = [])
    (hletter : (c :: rest).takeWhile Char.isUpper = [c]) (stop : Nat) :
    tokenAt (before ++ c :: rest) stop before.length
      = if (before ++ [c]).length < stop
          ∧ RunStarts Char.isDigit (before ++ [c] ++ rest)
            (before ++ [c]).length then
          some (.reference c
            (.ofNat (Numeral.value (rest.takeWhile Char.isDigit))))
        else
          some (.name (String.ofList [c])) := by
  unfold tokenAt
  rw [if_pos (runStarts_append_iff.mpr ⟨hstart, hc⟩), runFrom_append, hletter,
    ← runFrom_append Char.isDigit (before ++ [c]) rest,
    ← List.append_cons before c rest, List.length_append]
  rfl

/-- **A single letter and a run of digits are passed** as a reference, if the
value is the number of a row. -/
theorem passes_reference {c : Char} {run : List Char} {n : UInt64}
    (hc : c.isUpper = true) (hrun : IsRun Char.isDigit run rest)
    (hne : run ≠ []) (hn : uint64? (Numeral.value run) = some n)
    (hstart : before.rtakeWhile Char.isUpper = [])
    (h : Reached before (c :: (run ++ rest))) :
    Passes before (c :: run) rest [.reference c n] := by
  have haccepted : ¬ Rejected (before ++ c :: (run ++ rest)) before.length :=
    not_rejected_of_isUpper hc
  have hdigits : (before ++ [c]).rtakeWhile Char.isDigit = [] :=
    rtakeWhile_concat_of_false (not_isDigit_of_isUpper hc)
  have hrow : Passes (before ++ [c]) run rest [] := by
    refine passes_row hrun hne hn hdigits ?_
      (passes_singleton h haccepted rfl).reached
    rw [rtakeWhile_concat_of_nil hc hstart]
    rfl
  -- since the digits are passed, the letter has them
  have hreached : (before ++ [c]).length
      < stop (before ++ c :: (run ++ rest)) := by
    have hsource : before ++ [c] ++ run ++ rest = before ++ c :: (run ++ rest) := by
      simp
    have hle : (before ++ [c] ++ run).length
        ≤ stop (before ++ c :: (run ++ rest)) := hsource ▸ hrow.reached
    have hpos : 0 < run.length := List.length_pos_iff.mpr hne
    rw [List.length_append] at hle
    omega
  have hstarts : RunStarts Char.isDigit (before ++ [c] ++ (run ++ rest))
      (before ++ [c]).length := by
    obtain ⟨d, run, rfl⟩ := List.exists_cons_of_ne_nil hne
    exact runStarts_append_iff.mpr
      ⟨hdigits, hrun.accepted d List.mem_cons_self⟩
  have hletter : (c :: (run ++ rest)).takeWhile Char.isUpper = [c] := by
    obtain ⟨d, run, rfl⟩ := List.exists_cons_of_ne_nil hne
    have hd : d.isDigit = true := hrun.accepted d List.mem_cons_self
    rw [List.takeWhile_cons_of_pos hc, List.cons_append,
      List.takeWhile_cons_of_neg]
    exact Bool.eq_false_iff.mp (not_isUpper_of_isDigit hd)
  have hfound : tokenAt (before ++ c :: (run ++ rest))
      (stop (before ++ c :: (run ++ rest))) before.length
        = some (.reference c n) := by
    rw [tokenAt_letter hc hstart hletter, if_pos ⟨hreached, hstarts⟩,
      takeWhile_isRun hrun, ← uint64?_eq_some_iff.mp hn, UInt64.ofNat_toNat]
  have hfirst : Passes before [c] (run ++ rest) [.reference c n] :=
    passes_singleton h haccepted hfound
  exact hfirst.append hrow

/-- **No row comes next**: no digits do, or their value is too large. -/
def NoRow (rest : List Char) : Prop :=
  StopsAt Char.isDigit rest
    ∨ 2 ^ 64 ≤ Numeral.value (rest.takeWhile Char.isDigit)

/-- **A run of letters is passed** as a name, if it is not a single letter
before the number of a row. -/
theorem passes_name {letters : List Char}
    (hletters : IsRun Char.isUpper letters rest) (hne : letters ≠ [])
    (hrow : letters.length = 1 → NoRow rest)
    (hstart : before.rtakeWhile Char.isUpper = [])
    (h : Reached before (letters ++ rest)) :
    Passes before letters rest [.name (String.ofList letters)] := by
  have hrunFrom : (letters ++ rest).takeWhile Char.isUpper = letters :=
    takeWhile_isRun hletters
  obtain ⟨c, letters, rfl⟩ := List.exists_cons_of_ne_nil hne
  have hc : c.isUpper = true := hletters.accepted c List.mem_cons_self
  have htoken : tokenAt (before ++ c :: (letters ++ rest))
      (stop (before ++ c :: (letters ++ rest))) before.length
        = some (.name (String.ofList (c :: letters))) := by
    cases letters with
    | nil =>
      refine (tokenAt_letter hc hstart hrunFrom _).trans (if_neg ?_)
      rintro ⟨hlt, -, hdigits⟩
      rw [runFrom_append] at hdigits
      rcases hrow rfl with hstops | hlarge
      · exact hdigits (takeWhile_isRun hstops.isRun)
      · -- the digits are rejected, so the stop is not after them
        have hrejected : Rejected (before ++ [c] ++ rest)
            (before ++ [c]).length := by
          refine rejected_of_lt
            (rtakeWhile_concat_of_false (not_isDigit_of_isUpper hc)) ?_
          rw [digitsLimit_append, rtakeWhile_concat_of_nil hc hstart,
            if_pos List.length_singleton]
          omega
        have hle := stop_le_of_rejected hrejected
        rw [← List.append_cons] at hle
        exact Nat.not_lt.mpr hle hlt
    | cons d letters =>
      unfold tokenAt
      rw [if_pos (runStarts_append_iff.mpr ⟨hstart, hc⟩), runFrom_append,
        ← List.cons_append, hrunFrom]
  have hfirst : Passes before [c] (letters ++ rest)
      [.name (String.ofList (c :: letters))] :=
    passes_singleton h (not_rejected_of_isUpper hc) htoken
  exact hfirst.append
    (passes_tail silent_of_isUpper hletters.tail.accepted
      (rtakeWhile_concat_ne_nil hc) hfirst.reached)

/-! ## One step of both scans -/

/-- **Between two tokens**: no run that ends here goes on, and no row comes
after a single letter. -/
structure Boundary (before rest : List Char) : Prop where
  /-- A run of digits does not go on. -/
  digit : before.rtakeWhile Char.isDigit = [] ∨ StopsAt Char.isDigit rest
  /-- A run of letters does not go on. -/
  upper : before.rtakeWhile Char.isUpper = [] ∨ StopsAt Char.isUpper rest
  /-- The row of a reference is not left behind. -/
  row : (before.rtakeWhile Char.isUpper).length = 1 → NoRow rest

theorem boundary_nil (source : List Char) : Boundary [] source :=
  ⟨Or.inl rfl, Or.inl rfl, fun h => nomatch h⟩

/-- After characters that are neither digits nor letters no run goes on. -/
theorem boundary_others {others : List Char} (hne : others ≠ [])
    (hdigit : ∀ c ∈ others, c.isDigit = false)
    (hupper : ∀ c ∈ others, c.isUpper = false) (before rest : List Char) :
    Boundary (before ++ others) rest := by
  have hletters : (before ++ others).rtakeWhile Char.isUpper = [] :=
    rtakeWhile_append_of_false hne hupper
  refine ⟨Or.inl (rtakeWhile_append_of_false hne hdigit), Or.inl hletters,
    fun hrow => ?_⟩
  rw [hletters] at hrow
  exact nomatch hrow

/-- After a whole run of digits no run goes on. -/
theorem boundary_digits {run : List Char} (hrun : IsRun Char.isDigit run rest)
    (hne : run ≠ []) (before : List Char) : Boundary (before ++ run) rest := by
  have hletters : (before ++ run).rtakeWhile Char.isUpper = [] :=
    rtakeWhile_append_of_false hne fun c hc =>
      not_isUpper_of_isDigit (hrun.accepted c hc)
  refine ⟨Or.inr hrun.stops, Or.inl hletters, fun hrow => ?_⟩
  rw [hletters] at hrow
  exact nomatch hrow

/-- After a whole run of letters no run goes on. A single letter must not be
before a row, which would belong to it. -/
theorem boundary_letters {run : List Char} (hrun : IsRun Char.isUpper run rest)
    (hne : run ≠ []) (hstart : before.rtakeWhile Char.isUpper = [])
    (hrow : run.length = 1 → NoRow rest) : Boundary (before ++ run) rest := by
  refine ⟨Or.inl ?_, Or.inr hrun.stops, ?_⟩
  · exact rtakeWhile_append_of_false hne fun c hc =>
      not_isDigit_of_isUpper (hrun.accepted c hc)
  · rw [rtakeWhile_append_of_forall hrun.accepted, hstart]
    exact hrow

/-- After white space no run goes on; where there is none, nothing changes. -/
theorem Boundary.gap {gap : List Char} (h : Boundary before (gap ++ rest))
    (hgap : ∀ c ∈ gap, isWhiteSpace c = true) :
    Boundary (before ++ gap) rest := by
  by_cases hne : gap = []
  · subst hne
    rw [List.append_nil]
    exact h
  refine boundary_others hne (fun c hc => ?_) (fun c hc => ?_) before rest
  · rw [Bool.eq_false_iff]
    intro hdigit
    exact Bool.eq_false_iff.mp (not_isWhiteSpace_of_isDigit hdigit) (hgap c hc)
  · rw [Bool.eq_false_iff]
    intro hupper
    exact Bool.eq_false_iff.mp (not_isWhiteSpace_of_isUpper hupper) (hgap c hc)

/-- **The next step of both scans**, where white space has been skipped. -/
inductive Alike (before : List Char) : List Char → Prop
  /-- Both stop. -/
  | stops {input : List Char}
      (hstep : Grammar.step (fun i => i.elim0) (List.finRange 0) token input
        = .noMatch)
      (hscan : scanFrom before input = ⟨[], input⟩) : Alike before input
  /-- Both have the same token next, and go on between two tokens. -/
  | found {chars rest : List Char} {t : Token} (hne : chars ≠ [])
      (hstep : Grammar.step (fun i => i.elim0) (List.finRange 0) token
        (chars ++ rest) = .found t rest)
      (hpasses : Passes before chars rest [t])
      (hboundary : Boundary (before ++ chars) rest) :
      Alike before (chars ++ rest)

/-- **At the end** both scans stop. -/
theorem alike_nil (h : Reached before []) : Alike before [] :=
  .stops (step_token_of_stopsAt (stopsAt_nil _) (stopsAt_nil _)
    fun _ hc => nomatch hc) (scanFrom_nil h)

/-- **At a digit** both scans have the number of the run, or stop because its
value is too large. -/
theorem alike_digits {run : List Char} (hrun : IsRun Char.isDigit run rest)
    (hne : run ≠ []) (hboundary : Boundary before (run ++ rest))
    (h : Reached before (run ++ rest)) : Alike before (run ++ rest) := by
  have hrunFrom : (run ++ rest).takeWhile Char.isDigit = run :=
    takeWhile_isRun hrun
  have hnext : ¬ StopsAt Char.isDigit (run ++ rest) := not_stopsAt_of_isRun hrun hne
  have hstart : before.rtakeWhile Char.isDigit = [] :=
    hboundary.digit.resolve_right hnext
  have hrow : (before.rtakeWhile Char.isUpper).length = 1 →
      2 ^ 64 ≤ Numeral.value run := fun hletter => by
    have hnoRow := (hboundary.row hletter).resolve_left hnext
    rwa [hrunFrom] at hnoRow
  cases hfits : int64? (Numeral.value run) with
  | some n =>
    have hvalue : n.toInt = Numeral.value run := int64?_eq_some_iff.mp hfits
    have hlt := n.toInt_lt
    refine .found hne (step_token_number hrun hne hfits)
      (passes_number hrun hne hfits hstart (fun hletter => ?_) h)
      (boundary_digits hrun hne before)
    have hlarge := hrow hletter
    omega
  | none =>
    refine .stops (step_token_of_number_none hrun hne hfits)
      (scanFrom_of_rejected h (rejected_of_lt hstart ?_))
    rw [int64?_eq_none_iff, Int64.toInt_minValue, Int64.toInt_maxValue]
      at hfits
    rw [digitsLimit_append, hrunFrom]
    split
    next hletter =>
      have hlarge := hrow hletter
      omega
    next => omega

/-- **At letters that no row follows** both scans have the name of the run. -/
theorem alike_name {letters : List Char}
    (hletters : IsRun Char.isUpper letters rest) (hne : letters ≠ [])
    (hstart : before.rtakeWhile Char.isUpper = [])
    (hrow : letters.length = 1 → NoRow rest)
    (hstep : Grammar.step (fun i => i.elim0) (List.finRange 0) reference
      (letters ++ rest) = .noMatch)
    (h : Reached before (letters ++ rest)) : Alike before (letters ++ rest) :=
  .found hne (step_token_name hletters hne hstep)
    (passes_name hletters hne hrow hstart h)
    (boundary_letters hletters hne hstart hrow)

/-- **At a letter** both scans have a reference if the letter is single and a
row comes next, and the name of the run otherwise. -/
theorem alike_letters {letters : List Char}
    (hletters : IsRun Char.isUpper letters rest) (hne : letters ≠ [])
    (hboundary : Boundary before (letters ++ rest))
    (h : Reached before (letters ++ rest)) : Alike before (letters ++ rest) := by
  have hstart : before.rtakeWhile Char.isUpper = [] :=
    hboundary.upper.resolve_right (not_stopsAt_of_isRun hletters hne)
  obtain ⟨c, letters, rfl⟩ := List.exists_cons_of_ne_nil hne
  have hc : c.isUpper = true := hletters.accepted c List.mem_cons_self
  cases letters with
  | cons d letters =>
    have hd : d.isUpper = true := hletters.accepted d (by simp)
    exact alike_name hletters hne hstart (fun hone => nomatch hone)
      (step_reference_of_stopsAt_tail
        (stopsAt_cons (not_isDigit_of_isUpper hd) _)) h
  | nil =>
    obtain ⟨run, rest, rfl, hrun⟩ := exists_isRun Char.isDigit rest
    by_cases hdigits : run = []
    · subst hdigits
      exact alike_name hletters hne hstart (fun _ => Or.inl hrun.stops)
        (step_reference_of_stopsAt_tail hrun.stops) h
    cases hfits : uint64? (Numeral.value run) with
    | some n =>
      have hboundary : Boundary (before ++ (c :: run)) rest := by
        rw [List.append_cons]
        exact boundary_digits hrun hdigits (before ++ [c])
      have hreference : Alike before (c :: run ++ rest) :=
        .found (List.cons_ne_nil c run)
          (step_token_reference hc hrun hdigits hfits)
          (passes_reference hc hrun hdigits hfits hstart h) hboundary
      exact hreference
    | none =>
      have hstep : Grammar.step (fun i => i.elim0) (List.finRange 0) reference
          (c :: run ++ rest) = .noMatch :=
        step_reference_of_none hc hrun hdigits hfits
      refine alike_name hletters hne hstart (fun _ => Or.inr ?_) hstep h
      rw [takeWhile_isRun hrun]
      exact uint64?_eq_none_iff.mp hfits

/-- **At a symbol** both scans have its token. -/
theorem alike_symbol {c : Char} {t : Token} (ht : symbolToken? c = some t)
    (hdigit : c.isDigit = false) (hupper : c.isUpper = false)
    (hstep : Grammar.step (fun i => i.elim0) (List.finRange 0) token (c :: rest)
      = .found t rest)
    (h : Reached before (c :: rest)) : Alike before (c :: rest) :=
  .found (List.cons_ne_nil c []) hstep (passes_symbol ht hdigit hupper h)
    (boundary_others (List.cons_ne_nil c [])
      (List.forall_mem_singleton.mpr hdigit)
      (List.forall_mem_singleton.mpr hupper) before rest)

/-- **At a foreign character** both scans stop. -/
theorem alike_foreign {c : Char} (hc : Foreign c)
    (h : Reached before (c :: rest)) : Alike before (c :: rest) := by
  obtain ⟨-, hdigit, hupper, hoperator, hpunctuation⟩ := id hc
  refine .stops (step_token_of_stopsAt (stopsAt_cons hdigit rest)
    (stopsAt_cons hupper rest) ?_)
    (scanFrom_of_rejected h (rejected_append_iff.mpr (Or.inl hc)))
  rintro _ ⟨⟩
  exact ⟨hoperator, hpunctuation⟩

/-- **Both scans are alike** between two tokens, where white space has been
skipped: the cases are the characters that can come next. -/
theorem alike {input : List Char} (hwhite : StopsAt isWhiteSpace input)
    (hboundary : Boundary before input) (h : Reached before input) :
    Alike before input := by
  cases input with
  | nil => exact alike_nil h
  | cons c rest =>
    by_cases hdigit : c.isDigit = true
    · obtain ⟨run, rest', hinput, hrun, hne⟩ :=
        exists_isRun_of_accepts hdigit rest
      rw [hinput] at hboundary h ⊢
      exact alike_digits hrun hne hboundary h
    by_cases hupper : c.isUpper = true
    · obtain ⟨run, rest', hinput, hrun, hne⟩ :=
        exists_isRun_of_accepts hupper rest
      rw [hinput] at hboundary h ⊢
      exact alike_letters hrun hne hboundary h
    rw [Bool.not_eq_true] at hdigit hupper
    by_cases hoperator : c ∈ operatorSymbols
    · exact alike_symbol (if_pos hoperator) hdigit hupper
        (step_token_operator hoperator rest) h
    by_cases hpunctuation : c ∈ punctuationSymbols
    · exact alike_symbol ((if_neg hoperator).trans (if_pos hpunctuation)) hdigit
        hupper (step_token_punctuation hpunctuation rest) h
    exact alike_foreign
      ⟨hwhite c rfl, hdigit, hupper, hoperator, hpunctuation⟩ h

/-! ## The whole text -/

/-- **The scan of what is left** between two tokens is what is left of the
scan by runs there.

The induction is on the length of what is left. Both scans skip white space
and are alike after it; where they go on, they are between two tokens
again. -/
theorem ofChars_eq_scanFrom {before input : List Char}
    (hboundary : Boundary before input) (h : Reached before input) :
    ofChars input = scanFrom before input := by
  induction hlength : input.length using Nat.strong_induction_on
    generalizing before input with
  | _ n ih =>
    obtain ⟨gap, input, rfl, hgap⟩ := exists_isRun isWhiteSpace input
    have hskip : Passes before gap input [] := passes_gap hgap.accepted h
    rw [hskip.scanFrom_eq]
    cases alike hgap.stops (hboundary.gap hgap.accepted) hskip.reached with
    | stops hstep hscan =>
      rw [ofChars_of_noMatch hgap hstep, hscan]
      rfl
    | @found chars rest t hne hstep hpasses hnext =>
      have hlt : rest.length < (chars ++ rest).length :=
        Grammar.length_lt_append hne rest
      have hrest : rest.length < n := by
        rw [← hlength, List.length_append]
        omega
      rw [ofChars_of_found hgap hstep hlt, hpasses.scanFrom_eq,
        ih rest.length hrest hnext hpasses.reached rfl, prepend_prepend]
      rfl

/-- **Every text is scanned to what its runs say**: the tokens, and the
characters that are left. -/
theorem ofText_eq_byRuns (source : String) :
    ofText source = byRuns source.toList := by
  rw [byRuns_eq_scanFrom]
  exact ofChars_eq_scanFrom (boundary_nil source.toList) (Nat.zero_le _)

-- Letters are one name whatever follows, unless one letter is before a row;
-- the last digits are no row and no integer.
example : ofText "SUMA0 (A1) B18446744073709551616"
    = ⟨[.name "SUMA", .number 0, .punctuation '(', .reference 'A' 1,
      .punctuation ')', .name "B"], "18446744073709551616".toList⟩ := by
  cbv

end Scan

end FormulaColumn
