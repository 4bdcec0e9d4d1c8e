import FormulaColumn.GrammarRun

/-!
# What a description may match

A description read as a set of sentences, with the order of its choices and
the greed of its repetitions forgotten: `p.Generates R items value` says that
`items` is a sentence of `p` of value `value`, where `R` says the same of the
rules.

A match is a sentence (`Grammar.generates_of_step`), and that is most of what
has to be known about the run: a match consumes a start of the input, a
description that matches the empty start generates the empty sentence, and a
grammar that is read as its sentences accepts none but these. What is lost is
the converse, since an ordered choice may pass a sentence over, so that a
grammar accepts all of its sentences is a statement about the grammar.
-/

namespace FormulaColumn

namespace Grammar

variable {τ : Type} {k : Nat} {ρ : Fin k → Type} {α β γ : Type}

/-- **The sentences of a description**, where `R` are those of the rules. -/
def Generates (R : (i : Fin k) → List τ → ρ i → Prop) {α : Type} :
    Grammar τ ρ α → List τ → α → Prop
  | pure value, items, found => items = [] ∧ found = value
  | fail, _, _ => False
  | select f, items, found => ∃ item, items = [item] ∧ f item = some found
  | endOfInput, items, _ => items = []
  | seq p q, items, found =>
    ∃ first second, items = first ++ second
      ∧ p.Generates R first found.1 ∧ q.Generates R second found.2
  | orElse p q, items, found =>
    p.Generates R items found ∨ q.Generates R items found
  | many p, items, found =>
    ∃ blocks : List (List τ × _), items = blocks.flatMap Prod.fst
      ∧ found = blocks.map Prod.snd
      ∧ ∀ block ∈ blocks, p.Generates R block.1 block.2
  | tryMap f p, items, found =>
    ∃ value, p.Generates R items value ∧ f value = some found
  | rule i, items, found => R i items found

variable {R : (i : Fin k) → List τ → ρ i → Prop}

/-! ## The sentences of the derived forms -/

theorem generates_map {f : α → β} {p : Grammar τ ρ α} {items : List τ}
    {found : β} :
    (map f p).Generates R items found
      ↔ ∃ value, p.Generates R items value ∧ f value = found := by
  simp only [map, Generates, Option.some.injEq]

/-- The sentences of an item that is accepted. -/
theorem generates_satisfy {accepts : τ → Bool} {items : List τ} {found : τ} :
    (satisfy accepts : Grammar τ ρ τ).Generates R items found
      ↔ items = [found] ∧ accepts found = true := by
  simp only [satisfy, Generates]
  constructor
  · rintro ⟨item, rfl, h⟩
    by_cases hitem : accepts item = true
    · rw [if_pos hitem] at h
      cases h
      exact ⟨rfl, hitem⟩
    · rw [if_neg hitem] at h
      cases h
  · rintro ⟨rfl, h⟩
    exact ⟨found, rfl, if_pos h⟩

/-- The sentence of a single item. -/
theorem generates_literal [DecidableEq τ] {expected : τ} {items : List τ}
    {found : τ} :
    (literal expected : Grammar τ ρ τ).Generates R items found
      ↔ items = [expected] ∧ found = expected := by
  simp only [literal, satisfy, Generates]
  constructor
  · rintro ⟨item, rfl, h⟩
    by_cases hitem : item = expected <;> simp_all
  · rintro ⟨rfl, rfl⟩
    exact ⟨found, rfl, by simp⟩

/-- A sentence of a sequence that keeps its first value. -/
theorem generates_seqLeft {p : Grammar τ ρ α} {q : Grammar τ ρ β}
    {items : List τ} {found : α} :
    (seqLeft p q).Generates R items found
      ↔ ∃ first second, items = first ++ second ∧ p.Generates R first found
        ∧ ∃ value, q.Generates R second value := by
  unfold seqLeft
  rw [generates_map]
  constructor
  · rintro ⟨⟨_, value⟩, ⟨first, second, hitems, hp, hq⟩, rfl⟩
    exact ⟨first, second, hitems, hp, value, hq⟩
  · rintro ⟨first, second, hitems, hp, value, hq⟩
    exact ⟨(found, value), ⟨first, second, hitems, hp, hq⟩, rfl⟩

/-- A sentence of a sequence that keeps its second value. -/
theorem generates_seqRight {p : Grammar τ ρ α} {q : Grammar τ ρ β}
    {items : List τ} {found : β} :
    (seqRight p q).Generates R items found
      ↔ ∃ first second, items = first ++ second
        ∧ (∃ value, p.Generates R first value)
        ∧ q.Generates R second found := by
  unfold seqRight
  rw [generates_map]
  constructor
  · rintro ⟨⟨value, _⟩, ⟨first, second, hitems, hp, hq⟩, rfl⟩
    exact ⟨first, second, hitems, ⟨value, hp⟩, hq⟩
  · rintro ⟨first, second, hitems, ⟨value, hp⟩, hq⟩
    exact ⟨(value, found), ⟨first, second, hitems, hp, hq⟩, rfl⟩

/-- **A sentence of a choice** is a sentence of one of the alternatives. -/
theorem generates_choice {alternatives : List (Grammar τ ρ α)}
    {items : List τ} {found : α} :
    (choice alternatives).Generates R items found
      ↔ ∃ p ∈ alternatives, p.Generates R items found := by
  have hfold : ∀ first : Grammar τ ρ α,
      (alternatives.foldl orElse first).Generates R items found
        ↔ first.Generates R items found
          ∨ ∃ p ∈ alternatives, p.Generates R items found := by
    induction alternatives with
    | nil => intro first; simp
    | cons p rest ih =>
      intro first
      simp only [List.foldl_cons, ih, Generates, List.mem_cons,
        exists_eq_or_imp, or_assoc]
  unfold choice
  rw [hfold, Generates, false_or]

/-! ## A match is a sentence -/

/-- What is consumed before a rest that is not shorter is nothing. -/
theorem eq_nil_of_not_length_lt {items rest input : List τ}
    (hinput : input = items ++ rest) (h : ¬ rest.length < input.length) :
    items = [] := by
  rw [hinput, List.length_append] at h
  exact List.eq_nil_of_length_eq_zero (by omega)

theorem length_lt_append {items : List τ} (h : items ≠ []) (rest : List τ) :
    rest.length < (items ++ rest).length := by
  rw [List.length_append]
  exact Nat.lt_add_of_pos_left (List.length_pos_iff.mpr h)

/-- **A match is a sentence.** What a description consumes is one of its
sentences, for every reading `R` of the rules that has the sentences of
their bodies. -/
theorem generates_of_step {rules : Rules τ ρ}
    (hR : ∀ i items value, (rules i).Generates R items value →
      R i items value)
    (pending : List (Fin k)) (p : Grammar τ ρ α) (input : List τ)
    {value : α} {rest : List τ}
    (h : step rules pending p input = .found value rest) :
    ∃ items, input = items ++ rest ∧ p.Generates R items value := by
  fun_induction step rules pending p input generalizing rest
  case case1 | case6 => cases h; exact ⟨[], rfl, by simp [Generates]⟩
  case case4 f item rest' value' hf =>
    cases h
    exact ⟨[item], rfl, item, rfl, hf⟩
  case case8 p q input first rest' hp _ ihp ihq =>
    obtain ⟨second, hq, rfl⟩ := Outcome.map_eq_found_iff.mp h
    obtain ⟨items, hitems, hgen⟩ := ihp hp
    obtain ⟨items', hitems', hgen'⟩ := ihq hq
    exact ⟨items ++ items', by rw [hitems, hitems', List.append_assoc],
      items, items', rfl, hgen, hgen'⟩
  case case9 p q input first rest' hp hlt ihp ihq =>
    obtain ⟨second, hq, rfl⟩ := Outcome.map_eq_found_iff.mp h
    obtain ⟨items, hitems, hgen⟩ := ihp hp
    obtain ⟨items', hitems', hgen'⟩ := ihq hq
    -- nothing is consumed before the second part
    obtain rfl := eq_nil_of_not_length_lt hitems hlt
    exact ⟨items', hitems', [], items', rfl, hgen, hgen'⟩
  case case12 p q input first rest' hp ih =>
    cases h
    obtain ⟨items, hitems, hgen⟩ := ih hp
    exact ⟨items, hitems, Or.inl hgen⟩
  case case13 p q input hp _ ih =>
    obtain ⟨items, hitems, hgen⟩ := ih h
    exact ⟨items, hitems, Or.inr hgen⟩
  case case15 p input first rest' hp _ ihp ihmany =>
    obtain ⟨values, hmany, rfl⟩ := Outcome.map_eq_found_iff.mp h
    obtain ⟨items, hitems, hgen⟩ := ihp hp
    obtain ⟨items', hitems', blocks, rfl, rfl, hblocks⟩ := ihmany hmany
    refine ⟨items ++ blocks.flatMap Prod.fst, ?_,
      (items, first) :: blocks, rfl, rfl, ?_⟩
    · rw [hitems, hitems', List.append_assoc]
    · rintro block (_ | ⟨_, hmem⟩)
      · exact hgen
      · exact hblocks block hmem
  case case16 | case17 => cases h; exact ⟨[], rfl, [], rfl, rfl, by simp⟩
  case case19 f p input value' rest' hp image hf ih =>
    cases h
    obtain ⟨items, hitems, hgen⟩ := ih hp
    exact ⟨items, hitems, value', hgen, hf⟩
  case case23 i input _ ih =>
    obtain ⟨items, hitems, hgen⟩ := ih h
    exact ⟨items, hitems, hR i items _ hgen⟩
  -- the other outcomes are no match
  all_goals cases h

/-- **What is left is an end of the input.** -/
theorem suffix_of_step {rules : Rules τ ρ} {pending : List (Fin k)}
    {p : Grammar τ ρ α} {input : List τ} {value : α} {rest : List τ}
    (h : step rules pending p input = .found value rest) : rest <:+ input := by
  obtain ⟨items, hitems, -⟩ :=
    generates_of_step (R := fun _ _ _ => True) (fun _ _ _ _ => trivial)
      pending p input h
  exact ⟨items, hitems.symm⟩

/-- A rest that is not shorter than the input is the input. -/
theorem eq_of_step_of_not_length_lt {rules : Rules τ ρ}
    {pending : List (Fin k)} {p : Grammar τ ρ α} {input : List τ} {value : α}
    {rest : List τ} (h : step rules pending p input = .found value rest)
    (hrest : ¬ rest.length < input.length) : rest = input := by
  have hsuffix : rest <:+ input := suffix_of_step h
  exact hsuffix.eq_of_length (by have := hsuffix.length_le; omega)

/-- **A match of a sequence** is a match of its first part and one of its
second part on what is left. -/
theorem exists_of_step_seq {rules : Rules τ ρ} {pending : List (Fin k)}
    {p : Grammar τ ρ α} {q : Grammar τ ρ β} {input rest : List τ}
    {value : α × β}
    (h : step rules pending (seq p q) input = .found value rest) :
    ∃ between pending',
      step rules pending p input = .found value.1 between
        ∧ step rules pending' q between = .found value.2 rest := by
  rw [step] at h
  split at h
  next first between hp =>
    split at h
    next hlt =>
      obtain ⟨second, hq, rfl⟩ := Outcome.map_eq_found_iff.mp h
      exact ⟨between, _, hp, hq⟩
    next hlt =>
      obtain ⟨second, hq, rfl⟩ := Outcome.map_eq_found_iff.mp h
      obtain rfl := eq_of_step_of_not_length_lt hp hlt
      exact ⟨_, _, hp, hq⟩
  next => cases h
  next => cases h

/-! ## One step of the derived forms -/

section Step

variable {rules : Rules τ ρ} {pending : List (Fin k)}

theorem step_seqRight_of_found {p : Grammar τ ρ α} {q : Grammar τ ρ β}
    {input rest : List τ} {first : α}
    (hp : step rules pending p input = .found first rest)
    (hlt : rest.length < input.length) :
    step rules pending (seqRight p q) input
      = step rules (List.finRange k) q rest := by
  unfold seqRight
  rw [step_map, step_seq_of_found hp hlt]
  cases step rules (List.finRange k) q rest <;> rfl

theorem step_seqRight_of_noMatch {p : Grammar τ ρ α} {q : Grammar τ ρ β}
    {input : List τ} (hp : step rules pending p input = .noMatch) :
    step rules pending (seqRight p q) input = .noMatch := by
  unfold seqRight
  rw [step_map, step_seq_of_noMatch hp]
  rfl

theorem step_seqLeft_of_noMatch {p : Grammar τ ρ α} {q : Grammar τ ρ β}
    {input : List τ} (hp : step rules pending p input = .noMatch) :
    step rules pending (seqLeft p q) input = .noMatch := by
  unfold seqLeft
  rw [step_map, step_seq_of_noMatch hp]
  rfl

/-- **A description is matched between two others**, if the first consumes
something. -/
theorem step_between_of_found {opening : Grammar τ ρ β} {p : Grammar τ ρ α}
    {closing : Grammar τ ρ γ} {input inner after rest : List τ} {first : β}
    {value : α} {last : γ}
    (hopen : step rules pending opening input = .found first inner)
    (hlt : inner.length < input.length)
    (hp : step rules (List.finRange k) p inner = .found value after)
    (hclose : step rules (List.finRange k) closing after = .found last rest) :
    step rules pending (between opening p closing) input
      = .found value rest := by
  have hstart : step rules pending (seqRight opening p) input
      = .found value after := by
    rw [step_seqRight_of_found hopen hlt, hp]
  have hafter : after.length ≤ inner.length := (suffix_of_step hp).length_le
  unfold between seqLeft
  rw [step_map, step_seq_of_found hstart (Nat.lt_of_le_of_lt hafter hlt), hclose]
  rfl

theorem step_optional_of_found {p : Grammar τ ρ α} {input rest : List τ}
    {value : α} (hp : step rules pending p input = .found value rest) :
    step rules pending (optional p) input = .found (some value) rest := by
  unfold optional
  rw [step, step_map, hp]
  rfl

theorem step_optional_of_noMatch {p : Grammar τ ρ α} {input : List τ}
    (hp : step rules pending p input = .noMatch) :
    step rules pending (optional p) input = .found none input := by
  unfold optional
  rw [step, step_map, hp, Outcome.map_noMatch, step]

theorem step_between_of_noMatch {opening : Grammar τ ρ β} {p : Grammar τ ρ α}
    {closing : Grammar τ ρ γ} {input : List τ}
    (hopen : step rules pending opening input = .noMatch) :
    step rules pending (between opening p closing) input = .noMatch :=
  step_seqLeft_of_noMatch (step_seqRight_of_noMatch hopen)

end Step

end Grammar

namespace Pattern

variable {τ α β : Type}

/-- Without rules there are none to be pending. -/
theorem pending_eq (pending pending' : List (Fin 0)) : pending = pending' := by
  cases pending with
  | nil =>
    cases pending' with
    | nil => rfl
    | cons i _ => exact i.elim0
  | cons i _ => exact i.elim0

/-- **A sequence of patterns** goes on with the second where the first has
matched, also if that consumed nothing. -/
theorem step_seq_of_found {rules : Grammar.Rules τ (Fin.elim0 : Fin 0 → Type)}
    {pending : List (Fin 0)} {p : Pattern τ α} {q : Pattern τ β}
    {input rest : List τ} {first : α}
    (h : Grammar.step rules pending p input = .found first rest) :
    Grammar.step rules pending (.seq p q) input
      = (Grammar.step rules pending q rest).map fun second =>
          (first, second) := by
  by_cases hlt : rest.length < input.length
  · rw [Grammar.step_seq_of_found h hlt, pending_eq (List.finRange 0) pending]
  · obtain rfl := Grammar.eq_of_step_of_not_length_lt h hlt
    exact Grammar.step_seq_of_found_self h

end Pattern

end FormulaColumn
