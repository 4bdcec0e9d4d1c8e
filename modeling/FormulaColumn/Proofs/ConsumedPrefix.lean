import FormulaColumn.Proofs.Repetition
import Mathlib.Data.List.Induction

/-!
# A match consumes a start of the input

A description says which items it takes and not where it stops, and the
literal run might leave any list. What it leaves is an end of the input
(`Grammar.Answers.suffix`), for every description over every table of rules
and wherever its run ends, however deep the rules went. So a match has a part
of the input that it consumed, and the rest is as long as the input exactly
where that part is empty.

Two things that the forms of a description rely on follow. The test that ends
a repetition compares lengths, and it means that nothing was consumed. And an
attempt that fails has consumed nothing, however far it went before: the next
alternative is tried on the input itself, and what may be left out leaves the
input as it is.
-/

namespace FormulaColumn

namespace Grammar

variable {τ : Type} {k : Nat} {ρ : Fin k → Type} {α β : Type}
  {rules : Rules τ ρ} {p : Grammar τ ρ α} {input rest : List τ}

/-- **What the literal run leaves is an end of the input.** -/
theorem Answers.suffix {value : α}
    (h : Answers rules p input (some (value, rest))) : rest <:+ input :=
  suffix_of_step (run_of_answers h)

/-- **A rest as long as the input is the input**, and then nothing was
consumed. -/
theorem Answers.exists_consumed {value : α}
    (h : Answers rules p input (some (value, rest))) :
    ∃ consumed, input = consumed ++ rest
      ∧ (rest.length = input.length ↔ consumed = []) := by
  obtain ⟨consumed, hinput⟩ := h.suffix
  refine ⟨consumed, hinput.symm, ?_⟩
  rw [← hinput, List.length_append, ← List.length_eq_zero_iff]
  omega

/-! ## The answers of each form -/

/-- What consumes nothing answers with its value. -/
theorem answers_pure_iff {value : α} {answer : Option (α × List τ)} :
    Answers rules (pure value) input answer
      ↔ answer = some (value, input) := by
  constructor
  · rintro ⟨_ | depth, h⟩
    · cases h
    · cases h
      rfl
  · rintro rfl
    exact ⟨1, rfl⟩

/-- Nothing is matched by what matches nothing. -/
theorem answers_fail_iff {answer : Option (α × List τ)} :
    Answers rules fail input answer ↔ answer = none := by
  constructor
  · rintro ⟨_ | depth, h⟩
    · cases h
    · cases h
      rfl
  · rintro rfl
    exact ⟨1, rfl⟩

/-- **A choice tries its second alternative on the input of the first**, if
that does not match. -/
theorem answers_orElse_iff {q : Grammar τ ρ α}
    {answer : Option (α × List τ)} :
    Answers rules (orElse p q) input answer
      ↔ (∃ found, Answers rules p input (some found) ∧ answer = some found)
        ∨ (Answers rules p input none ∧ Answers rules q input answer) := by
  constructor
  · rintro ⟨_ | depth, h⟩
    · cases h
    · rcases within_orElse_iff.mp h with ⟨found, hp, rfl⟩ | ⟨hp, hq⟩
      · exact Or.inl ⟨found, ⟨depth, hp⟩, rfl⟩
      · exact Or.inr ⟨⟨depth, hp⟩, depth, hq⟩
  · rintro (⟨found, hp, rfl⟩ | ⟨hp, hq⟩)
    · exact hp.orElse_found
    · exact hp.orElse_none hq

/-- A description whose value is mapped matches what it does without. -/
theorem answers_map_iff {f : α → β} {answer : Option (β × List τ)} :
    Answers rules (map f p) input answer
      ↔ ∃ answer', Answers rules p input answer'
        ∧ answer = answer'.map fun found => (f found.1, found.2) := by
  constructor
  · rintro ⟨_ | depth, h⟩
    · cases h
    · rcases within_tryMap_iff.mp h with ⟨hp, rfl⟩ | ⟨value, rest, hp, rfl⟩
      · exact ⟨none, ⟨depth, hp⟩, rfl⟩
      · exact ⟨some (value, rest), ⟨depth, hp⟩, rfl⟩
  · rintro ⟨_ | ⟨value, rest⟩, hp, rfl⟩
    · exact hp.tryMap_none
    · exact hp.tryMap_found

/-- **What may be left out leaves the input as it is** where it does not
stand. -/
theorem answers_optional_iff {answer : Option (Option α × List τ)} :
    Answers rules (optional p) input answer
      ↔ (∃ value rest, Answers rules p input (some (value, rest))
          ∧ answer = some (some value, rest))
        ∨ (Answers rules p input none ∧ answer = some (none, input)) := by
  unfold optional
  rw [answers_orElse_iff]
  simp only [answers_map_iff, answers_pure_iff]
  constructor
  · rintro (⟨found, ⟨_ | ⟨value, rest⟩, hp, hfound⟩, rfl⟩
      | ⟨⟨_ | found, hp, hnone⟩, rfl⟩)
    · cases hfound
    · cases hfound
      exact Or.inl ⟨value, rest, hp, rfl⟩
    · exact Or.inr ⟨hp, rfl⟩
    · cases hnone
  · rintro (⟨value, rest, hp, rfl⟩ | ⟨hp, rfl⟩)
    · exact Or.inl ⟨_, ⟨some (value, rest), hp, rfl⟩, rfl⟩
    · exact Or.inr ⟨⟨none, hp, rfl⟩, rfl⟩

/-- **Every alternative of a list is tried on the input**, until one
matches. -/
theorem answers_choice_iff {alternatives : List (Grammar τ ρ α)}
    {answer : Option (α × List τ)} :
    Answers rules (choice alternatives) input answer
      ↔ (∃ before q after found, alternatives = before ++ q :: after
          ∧ (∀ r ∈ before, Answers rules r input none)
          ∧ Answers rules q input (some found) ∧ answer = some found)
        ∨ ((∀ r ∈ alternatives, Answers rules r input none)
          ∧ answer = none) := by
  unfold choice
  induction alternatives using List.reverseRecOn generalizing answer with
  | nil => simp [answers_fail_iff]
  | append_singleton alternatives q ih =>
    rw [List.foldl_append, List.foldl_cons, List.foldl_nil, answers_orElse_iff]
    constructor
    · rintro (⟨found, hfound, rfl⟩ | ⟨hnone, hq⟩)
      · rcases ih.mp hfound with ⟨before, r, after, _, rfl, hfail, hr, ⟨⟩⟩ | ⟨-, ⟨⟩⟩
        exact Or.inl ⟨before, r, after ++ [q], found, by simp, hfail, hr, rfl⟩
      · rcases ih.mp hnone with ⟨_, _, _, _, -, -, -, ⟨⟩⟩ | ⟨hfail, -⟩
        cases answer with
        | some found =>
          exact Or.inl ⟨alternatives, q, [], found, rfl, hfail, hq, rfl⟩
        | none =>
          refine Or.inr ⟨List.forall_mem_append.mpr ⟨hfail, ?_⟩, rfl⟩
          exact List.forall_mem_singleton.mpr hq
    · rintro (⟨before, r, after, found, hsplit, hfail, hr, rfl⟩ | ⟨hfail, rfl⟩)
      · rcases List.eq_nil_or_concat after with rfl | ⟨after, last, rfl⟩
        · -- the last alternative is the one that matches
          obtain ⟨rfl, hlast⟩ := List.append_inj' hsplit rfl
          cases hlast
          exact Or.inr ⟨ih.mpr (Or.inr ⟨hfail, rfl⟩), hr⟩
        · have hfront : alternatives = before ++ r :: after := by
            rw [List.concat_eq_append, ← List.cons_append,
              ← List.append_assoc] at hsplit
            exact (List.append_inj' hsplit rfl).1
          refine Or.inl ⟨found, ih.mpr (Or.inl ?_), rfl⟩
          exact ⟨before, r, after, found, hfront, hfail, hr, rfl⟩
      · obtain ⟨hfail, hq⟩ := List.forall_mem_append.mp hfail
        exact Or.inr ⟨ih.mpr (Or.inr ⟨hfail, rfl⟩), hq q List.mem_cons_self⟩

/-- **A repetition goes on exactly where its body consumed something**, with
what it left, and ends at the input otherwise. -/
theorem answers_many_iff {answer : Option (List α × List τ)} :
    Answers rules (many p) input answer
      ↔ ((Answers rules p input none
            ∨ ∃ value, Answers rules p input (some (value, input)))
          ∧ answer = some ([], input))
        ∨ ∃ first rest more, Answers rules p input (some (first, rest))
          ∧ rest ≠ input ∧ Answers rules (many p) rest more
          ∧ answer = more.map fun found => (first :: found.1, found.2) := by
  constructor
  · rintro ⟨_ | depth, h⟩
    · cases h
    · rcases within_many_iff.mp h with ⟨hp, rfl⟩ | ⟨first, rest, hp, hrest, rfl⟩
        | ⟨first, rest, more, hp, hrest, hmore, rfl⟩
      · exact Or.inl ⟨Or.inl ⟨depth, hp⟩, rfl⟩
      · have hanswers : Answers rules p input (some (first, rest)) := ⟨depth, hp⟩
        obtain rfl := hanswers.suffix.eq_of_length hrest
        exact Or.inl ⟨Or.inr ⟨first, hanswers⟩, rfl⟩
      · refine Or.inr ⟨first, rest, more, ⟨depth, hp⟩, ?_, ⟨depth, hmore⟩, rfl⟩
        rintro rfl
        exact hrest rfl
  · rintro (⟨hp | ⟨value, hp⟩, rfl⟩ | ⟨first, rest, more, hp, hrest, hmore, rfl⟩)
    · exact hp.many_none
    · exact hp.many_stop rfl
    · exact hp.many_found (mt hp.suffix.eq_of_length hrest) hmore

/-- **A match consumes a start of the input**, for every description over
every table of rules, where the literal run of it ends. What it leaves is what
the run leaves, and it is as long as the input only if nothing was consumed.

A repetition therefore goes on exactly where its body consumed something, and
what it ends at is where the attempt that was its last one started. And no
attempt that fails uses up anything: of two alternatives, or of a list of
them, each is tried on the input itself, and what may be left out leaves the
input as it is. -/
theorem answers_consume_prefix (rules : Rules τ ρ) (p : Grammar τ ρ α)
    (input : List τ) :
    (∀ value rest, Answers rules p input (some (value, rest)) →
        run rules p input = .found value rest
          ∧ ∃ consumed, input = consumed ++ rest
            ∧ (rest.length = input.length ↔ consumed = []))
      ∧ (∀ answer, Answers rules (many p) input answer
        ↔ ((Answers rules p input none
              ∨ ∃ value, Answers rules p input (some (value, input)))
            ∧ answer = some ([], input))
          ∨ ∃ first rest more, Answers rules p input (some (first, rest))
            ∧ rest ≠ input ∧ Answers rules (many p) rest more
            ∧ answer = more.map fun found => (first :: found.1, found.2))
      ∧ (∀ q answer, Answers rules (orElse p q) input answer
        ↔ (∃ found, Answers rules p input (some found) ∧ answer = some found)
          ∨ (Answers rules p input none ∧ Answers rules q input answer))
      ∧ (∀ (alternatives : List (Grammar τ ρ α)) answer,
        Answers rules (choice alternatives) input answer
          ↔ (∃ before q after found, alternatives = before ++ q :: after
              ∧ (∀ r ∈ before, Answers rules r input none)
              ∧ Answers rules q input (some found) ∧ answer = some found)
            ∨ ((∀ r ∈ alternatives, Answers rules r input none)
              ∧ answer = none))
      ∧ ∀ answer, Answers rules (optional p) input answer
        ↔ (∃ value rest, Answers rules p input (some (value, rest))
            ∧ answer = some (some value, rest))
          ∨ (Answers rules p input none ∧ answer = some (none, input)) :=
  ⟨fun _ _ h => ⟨run_of_answers h, h.exists_consumed⟩,
    fun _ => answers_many_iff, fun _ _ => answers_orElse_iff,
    fun _ _ => answers_choice_iff, fun _ => answers_optional_iff⟩

/-- The first alternative goes through the nested parentheses and fails after
them; the second one starts at the first parenthesis again. -/
example : Answers nested
    (orElse (seqLeft (rule 0) (literal '!')) (rule 0)) "((x))y".toList
    (some (2, "y".toList)) :=
  ⟨40, by decide⟩

end Grammar

end FormulaColumn
