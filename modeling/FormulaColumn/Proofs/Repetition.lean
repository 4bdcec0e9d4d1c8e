import FormulaColumn.Proofs.LeftCalls
import FormulaColumn.Proofs.LiteralRun

/-!
# Repetitions are maximal

A repetition is a loop with two ways to stop: its body does not match, or it
matches and consumes nothing. What the loop comes to can be said without it.
There are matches of the body one after the other, each of them on what the
one before left, and each leaving less (`Grammar.Repeats`); and where the last
of them ends, there is no further one (`Grammar.Exhausted`). A body matches in
one way only, so an input has one such sequence of matches, and a repetition
matches with its values and its rest (`Grammar.run_many_eq_found_iff`).

Nothing is asked of the body, which may consume something at one place and
nothing at another. Where it always consumes something, a repetition is what
it is often defined as, its body with the repetition after it or else nothing
(`Grammar.Consumes.run_many_eq`). And it has taken everything that its body
can take, so the body does not match after it
(`Grammar.Consumes.run_seq_many_self`).

The body has to end, and only where the repetition may look, which is at the
ends of the input (`Grammar.run_many_maximal`).
-/

namespace FormulaColumn

namespace Grammar

variable {τ : Type} {k : Nat} {ρ : Fin k → Type} {α β : Type}

/-- **Matches one after the other**, from an input to what the last of them
leaves: each is on what the one before left, and consumes something. -/
inductive Repeats (rules : Rules τ ρ) (p : Grammar τ ρ α) :
    List τ → List α → List τ → Prop where
  /-- No match, which leaves the input. -/
  | nil (input : List τ) : Repeats rules p input [] input
  /-- A match that consumes something, and the matches on what it leaves. -/
  | cons {input between rest : List τ} {first : α} {values : List α} :
    run rules p input = .found first between →
    between.length < input.length → Repeats rules p between values rest →
    Repeats rules p input (first :: values) rest

/-- **No further match** starts at an input: the description does not match,
or it matches and consumes nothing. -/
def Exhausted (rules : Rules τ ρ) (p : Grammar τ ρ α) (input : List τ) : Prop :=
  run rules p input = .noMatch
    ∨ ∃ value, run rules p input = .found value input

/-- **The literal run of a description ends** on an input. -/
def Ends (rules : Rules τ ρ) (p : Grammar τ ρ α) (input : List τ) : Prop :=
  ∃ answer, Answers rules p input answer

/-- **A description that never matches without consuming.** -/
def Consumes (rules : Rules τ ρ) (p : Grammar τ ρ α) : Prop :=
  ∀ input value, run rules p input ≠ .found value input

variable {rules : Rules τ ρ} {p : Grammar τ ρ α} {input rest : List τ}

/-- The literal run ends where the run finds no left recursion. -/
theorem ends_iff : Ends rules p input ↔ run rules p input ≠ .leftRecursion := by
  constructor
  · rintro ⟨answer, depth, hanswer⟩ hleft
    cases (run_eq_leftRecursion_iff.mp hleft depth).symm.trans hanswer
  · intro h
    exact ⟨_, answers_of_step rfl h⟩

/-! ## The run of a sequence and of a repetition -/

/-- **A sequence goes on with its second part** where the first has matched,
also if that consumed nothing. -/
theorem run_seq_of_found {q : Grammar τ ρ β} {first : α}
    (hp : run rules p input = .found first rest) :
    run rules (seq p q) input
      = (run rules q rest).map fun second => (first, second) := by
  by_cases hlt : rest.length < input.length
  · exact step_seq_of_found hp hlt
  · obtain rfl := eq_of_step_of_not_length_lt hp hlt
    exact step_seq_of_found_self hp

/-- A repetition ends, with nothing, where there is no further match. -/
theorem run_many_of_exhausted (h : Exhausted rules p input) :
    run rules (many p) input = .found [] input := by
  rcases h with hp | ⟨value, hp⟩
  · exact step_many_of_noMatch hp
  · have hself : step rules (List.finRange k) p input = .found value input := hp
    rw [run, step, hself]
    exact if_neg (Nat.lt_irrefl _)

theorem run_many1_of_found {first : α}
    (hp : run rules p input = .found first rest) :
    run rules (many1 p) input
      = (run rules (many p) rest).map fun values => first :: values := by
  have hseq : run rules (many1 p) input
      = (run rules (seq p (many p)) input).map
          fun values => values.1 :: values.2 := step_map _ _ _ _ _
  rw [hseq, run_seq_of_found hp]
  cases run rules (many p) rest <;> rfl

/-- **One match or more fail exactly where one does.** -/
theorem run_many1_eq_noMatch_iff :
    run rules (many1 p) input = .noMatch ↔ run rules p input = .noMatch := by
  cases hp : run rules p input with
  | found first rest =>
    rw [run_many1_of_found hp, Outcome.map_eq_noMatch_iff]
    exact iff_of_false (step_many_ne_noMatch rules _ p rest) (by simp)
  | noMatch =>
    refine iff_of_true ?_ rfl
    rw [run, many1, step_map, step_seq_of_noMatch hp]
    rfl
  | leftRecursion =>
    have hleft : step rules (List.finRange k) p input = .leftRecursion := hp
    rw [run, many1, step_map, step, hleft]
    simp

/-! ## What a repetition matches -/

/-- **Matches that have come to their end** are what a repetition matches. The
induction is on the matches. -/
theorem Repeats.run_many {values : List α}
    (h : Repeats rules p input values rest) (hrest : Exhausted rules p rest) :
    run rules (many p) input = .found values rest := by
  induction h with
  | nil input => exact run_many_of_exhausted hrest
  | @cons input between rest first values hp hlt _ ih =>
    have hmore : run rules (many p) input
        = (run rules (many p) between).map fun values => first :: values :=
      step_many_of_found hp hlt
    rw [hmore, ih hrest]
    rfl

/-- **What a repetition matches** are matches that have come to their end. The
induction is on the length of the input, since each match leaves less. -/
theorem repeats_of_run_many {values : List α}
    (h : run rules (many p) input = .found values rest) :
    Repeats rules p input values rest ∧ Exhausted rules p rest := by
  induction hn : input.length using Nat.strongRecOn
    generalizing input values with
  | ind n ih =>
    have hstop : Exhausted rules p input →
        Repeats rules p input values rest ∧ Exhausted rules p rest := by
      intro hinput
      cases (run_many_of_exhausted hinput).symm.trans h
      exact ⟨.nil _, hinput⟩
    cases hp : run rules p input with
    | found first between =>
      by_cases hlt : between.length < input.length
      · have hmore : run rules (many p) input
            = (run rules (many p) between).map fun values => first :: values :=
          step_many_of_found hp hlt
        rw [hmore] at h
        obtain ⟨values', hmany, rfl⟩ := Outcome.map_eq_found_iff.mp h
        obtain ⟨hrepeats, hrest⟩ := ih between.length (by omega) hmany rfl
        exact ⟨.cons hp hlt hrepeats, hrest⟩
      · obtain rfl := eq_of_step_of_not_length_lt hp hlt
        exact hstop (Or.inr ⟨first, hp⟩)
    | noMatch => exact hstop (Or.inl hp)
    | leftRecursion =>
      have hleft : step rules (List.finRange k) p input = .leftRecursion := hp
      rw [run, step, hleft] at h
      cases h

/-- **A repetition matches with exactly the values and the rest** of matches
one after the other that have come to their end. -/
theorem run_many_eq_found_iff {values : List α} :
    run rules (many p) input = .found values rest
      ↔ Repeats rules p input values rest ∧ Exhausted rules p rest :=
  ⟨repeats_of_run_many, fun h => h.1.run_many h.2⟩

/-- Each match consumes at least one item. -/
theorem Repeats.length_add_le {values : List α}
    (h : Repeats rules p input values rest) :
    values.length + rest.length ≤ input.length := by
  induction h with
  | nil input => exact Nat.le_of_eq (Nat.zero_add _)
  | cons _ hlt _ ih =>
    rw [List.length_cons]
    omega

/-- **A repetition ends, and matches**, if its body ends wherever it may be
tried: at the ends of the input. -/
theorem exists_run_many (h : ∀ rest, rest <:+ input → Ends rules p rest) :
    ∃ values rest, run rules (many p) input = .found values rest := by
  induction hn : input.length using Nat.strongRecOn generalizing input with
  | ind n ih =>
    cases hp : run rules p input with
    | found first between =>
      by_cases hlt : between.length < input.length
      · have hbetween : between <:+ input := suffix_of_step hp
        obtain ⟨values, rest, hmany⟩ := ih between.length (by omega)
          (fun rest hrest => h rest (hrest.trans hbetween)) rfl
        refine ⟨first :: values, rest, ?_⟩
        exact (Repeats.cons hp hlt (repeats_of_run_many hmany).1).run_many
          (repeats_of_run_many hmany).2
      · obtain rfl := eq_of_step_of_not_length_lt hp hlt
        exact ⟨[], between, run_many_of_exhausted (Or.inr ⟨first, hp⟩)⟩
    | noMatch => exact ⟨[], input, run_many_of_exhausted (Or.inl hp)⟩
    | leftRecursion => exact absurd hp (ends_iff.mp (h input List.suffix_rfl))

/-! ## Bodies that always consume something -/

namespace Consumes

theorem length_lt (h : Consumes rules p) {value : α}
    (hp : run rules p input = .found value rest) :
    rest.length < input.length := by
  refine Classical.byContradiction fun hlt => ?_
  obtain rfl := eq_of_step_of_not_length_lt hp hlt
  exact h _ _ hp

theorem run_eq_noMatch (h : Consumes rules p)
    (hinput : Exhausted rules p input) : run rules p input = .noMatch := by
  rcases hinput with hp | ⟨value, hp⟩
  · exact hp
  · exact absurd hp (h _ _)

theorem run_many_of_found (h : Consumes rules p) {first : α}
    (hp : run rules p input = .found first rest) :
    run rules (many p) input = run rules (many1 p) input := by
  rw [run_many1_of_found hp]
  exact step_many_of_found hp (h.length_lt hp)

/-- **A repetition is one match or more, or else nothing**, on every input. -/
theorem run_many_eq (h : Consumes rules p) (input : List τ) :
    run rules (many p) input
      = run rules (orElse (many1 p) (pure [])) input := by
  cases hp : run rules p input with
  | found first rest =>
    rw [h.run_many_of_found hp]
    -- one match or more have matched, or they are left recursive
    have hone : run rules (many1 p) input ≠ .noMatch := by
      rw [Ne, run_many1_eq_noMatch_iff, hp]
      simp
    rw [run, run, step]
    cases hrun : step rules (List.finRange k) (many1 p) input with
    | found values rest => rfl
    | noMatch => exact absurd hrun hone
    | leftRecursion => rfl
  | noMatch =>
    have hone : step rules (List.finRange k) (many1 p) input = .noMatch :=
      run_many1_eq_noMatch_iff.mpr hp
    rw [run_many_of_exhausted (Or.inl hp), run, step, hone, step]
  | leftRecursion =>
    have hleft : step rules (List.finRange k) p input = .leftRecursion := hp
    have hone : step rules (List.finRange k) (many1 p) input
        = .leftRecursion := by
      rw [many1, step_map, step, hleft]
      rfl
    rw [run, step, hleft, run, step, hone]

/-- **Nothing is given back**: the body does not match after a repetition of
it. -/
theorem run_seq_many_self (h : Consumes rules p) {values : List α}
    (hmany : run rules (many p) input = .found values rest) :
    run rules (seq (many p) p) input = .noMatch := by
  rw [run_seq_of_found hmany,
    h.run_eq_noMatch (repeats_of_run_many hmany).2]
  rfl

end Consumes

/-- **A repetition is the one maximal sequence of matches.** Let a description
end at every end of an input. Then a repetition of it ends there and matches,
and its values and its rest are those of the only sequence of matches one
after the other that consume something and cannot go on; there are no more of
them than items. One match or more fail exactly where one does, and otherwise
they have its value and those of a repetition after it. If the description
never matches without consuming, then a repetition is the description with the
repetition after it or else nothing; where it is not nothing it is one match or
more; and the description does not match after it. -/
theorem run_many_maximal (h : ∀ rest, rest <:+ input → Ends rules p rest) :
    (Ends rules (many p) input
        ∧ ∃ values rest, run rules (many p) input = .found values rest
          ∧ values.length ≤ input.length
          ∧ ∀ values' rest',
            Repeats rules p input values' rest' ∧ Exhausted rules p rest'
              ↔ values' = values ∧ rest' = rest)
      ∧ ((run rules (many1 p) input = .noMatch
            ↔ run rules p input = .noMatch)
        ∧ ∀ first between, run rules p input = .found first between →
          ∃ values rest, run rules (many p) between = .found values rest
            ∧ run rules (many1 p) input = .found (first :: values) rest)
      ∧ (Consumes rules p →
        run rules (many p) input
            = run rules (orElse
                (map (fun found => found.1 :: found.2) (seq p (many p)))
                (pure [])) input
          ∧ (∀ values rest, run rules (many p) input = .found values rest →
            values ≠ [] → run rules (many1 p) input = .found values rest)
          ∧ run rules (seq (many p) p) input = .noMatch) := by
  obtain ⟨values, rest, hmany⟩ := exists_run_many h
  refine ⟨⟨ends_iff.mpr (by rw [hmany]; simp), values, rest, hmany, ?_, ?_⟩,
    ⟨run_many1_eq_noMatch_iff, ?_⟩, fun hp => ⟨hp.run_many_eq input, ?_,
      hp.run_seq_many_self hmany⟩⟩
  · have hlength := (repeats_of_run_many hmany).1.length_add_le
    omega
  · intro values' rest'
    rw [← run_many_eq_found_iff, hmany, Outcome.found.injEq]
    exact and_congr eq_comm eq_comm
  · intro first between hfirst
    have hbetween : between <:+ input := suffix_of_step hfirst
    obtain ⟨values, rest, hmany⟩ :=
      exists_run_many fun rest hrest => h rest (hrest.trans hbetween)
    refine ⟨values, rest, hmany, ?_⟩
    rw [run_many1_of_found hfirst, hmany]
    rfl
  · intro values' rest' hmany' hne
    cases (repeats_of_run_many hmany').1 with
    | nil => exact absurd rfl hne
    | cons hfirst _ _ => rw [← hp.run_many_of_found hfirst, hmany']

/-- Nested parentheses around `x`, which come to their depth. -/
def nested : Rules Char fun _ : Fin 1 => Nat
  | 0 => orElse
      (map (· + 1) (between (literal '(') (rule 0) (literal ')')))
      (map (fun _ => 0) (literal 'x'))

/-- The parentheses start with no rule, and they are not empty. -/
theorem nested_starts (i : Fin 1) :
    (nested i).leftCalls (fun _ => false) = []
      ∧ (nested i).nullable (fun _ => false) = false := by
  match i with
  | 0 => simp [nested, leftCalls, nullable]

/-- Two nests of parentheses are matched in `x((x))(x`. The third one is not
closed, and it is not matched in part. -/
theorem run_many_maximal_nested :
    (∀ rest, rest <:+ "x((x))(x".toList → Ends nested (rule 0) rest)
      ∧ run nested (many (rule 0)) "x((x))(x".toList
        = .found [0, 2] "(x".toList
      ∧ (∀ values rest, Repeats nested (rule 0) "x((x))(x".toList values rest →
        Exhausted nested (rule 0) rest →
        values = [0, 2] ∧ rest = "(x".toList)
      ∧ Consumes nested (rule 0)
      ∧ run nested (seq (many (rule 0)) (rule 0)) "x((x))(x".toList
        = .noMatch := by
  have hnullable : ∀ i, (nested i).nullable (fun _ => false) = true →
      false = true := by
    intro i h
    rw [(nested_starts i).2] at h
    exact h
  have hacyclic : ∀ i, ¬ Relation.TransGen
      (LeftCall (fun _ => false) nested) i i := by
    intro i h
    obtain ⟨next, hstart, -⟩ := Relation.TransGen.head'_iff.mp h
    rw [LeftCall, (nested_starts i).1] at hstart
    exact absurd hstart List.not_mem_nil
  have hends : ∀ rest, rest <:+ "x((x))(x".toList →
      Ends nested (rule 0) rest := fun rest _ =>
    ends_iff.mpr (run_ne_leftRecursion hnullable hacyclic _ rest)
  have hconsumes : Consumes nested (rule 0) := by
    intro input value h
    cases nullable_of_step hnullable h (Nat.lt_irrefl _)
  have hanswers : Answers nested (many (rule 0)) "x((x))(x".toList
      (some ([0, 2], "(x".toList)) := ⟨40, by decide⟩
  have hvalue : run nested (many (rule 0)) "x((x))(x".toList
      = .found [0, 2] "(x".toList := run_of_answers hanswers
  obtain ⟨⟨-, values, rest, hmany, -, hunique⟩, -, hlast⟩ :=
    run_many_maximal hends
  cases hmany.symm.trans hvalue
  exact ⟨hends, hvalue, fun values rest hrepeats hrest =>
    (hunique values rest).mp ⟨hrepeats, hrest⟩, hconsumes,
    (hlast hconsumes).2.2⟩

end Grammar

end FormulaColumn
