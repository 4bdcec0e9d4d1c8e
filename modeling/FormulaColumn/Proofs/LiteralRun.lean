import FormulaColumn.Proofs.Language

/-!
# The run taken literally

`Grammar.step` is total, since it watches which rules it is in. The literal
run does not watch: a rule is its body, and nothing else. Such a run may go on
forever, so it is cut off at a depth of calls (`Grammar.within`), and a
description **answers** if some depth is enough (`Grammar.Answers`).

The two agree. Where the run that watches has an outcome, the literal one has
the same (`Grammar.answers_of_step`), and an answer at any depth is the outcome
(`Grammar.run_of_answers`). Where it finds a left recursion, the literal run
never ends (`Grammar.run_eq_leftRecursion_iff`). For a rule that is entered
while it is being entered has no answer at any depth up to the one at hand: the
least depth at which a rule answers is one less for its body, so the body does
not need the answer of the rule at the same input.
-/

namespace FormulaColumn

namespace Outcome

variable {τ α β : Type}

/-- The outcome that is an answer. -/
def ofAnswer : Option (α × List τ) → Outcome τ α
  | some answer => found answer.1 answer.2
  | none => noMatch

theorem toOption_map (f : α → β) (outcome : Outcome τ α) :
    (outcome.map f).toOption
      = outcome.toOption.map fun answer => (f answer.1, answer.2) := by
  cases outcome <;> rfl

theorem map_ofAnswer (f : α → β) (answer : Option (α × List τ)) :
    (ofAnswer answer).map f
      = ofAnswer (answer.map fun answer => (f answer.1, answer.2)) := by
  cases answer <;> rfl

end Outcome

namespace Grammar

variable {τ : Type} {k : Nat} {ρ : Fin k → Type} {α β : Type}

/-- **The literal run**, cut off at a depth of calls: nothing if the depth was
not enough, and otherwise the answer, which is a match with its rest or that
there is none. A repetition stops at a match that consumes nothing. -/
def within (rules : Rules τ ρ) (depth : Nat) {α : Type} (p : Grammar τ ρ α)
    (input : List τ) : Option (Option (α × List τ)) :=
  match depth, p, input with
  | 0, _, _ => none
  | _ + 1, pure value, input => some (some (value, input))
  | _ + 1, fail, _ => some none
  | _ + 1, select _, [] => some none
  | _ + 1, select f, item :: rest =>
    some ((f item).map fun value => (value, rest))
  | _ + 1, endOfInput, [] => some (some ((), []))
  | _ + 1, endOfInput, _ :: _ => some none
  | depth + 1, seq p q, input => do
    match ← within rules depth p input with
    | some (first, rest) =>
      let second ← within rules depth q rest
      some (second.map fun found => ((first, found.1), found.2))
    | none => some none
  | depth + 1, orElse p q, input => do
    match ← within rules depth p input with
    | some found => some (some found)
    | none => within rules depth q input
  | depth + 1, many p, input => do
    match ← within rules depth p input with
    | some (first, rest) =>
      if rest.length = input.length then
        some (some ([], input))
      else
        let more ← within rules depth (many p) rest
        some (more.map fun found => (first :: found.1, found.2))
    | none => some (some ([], input))
  | depth + 1, tryMap f p, input => do
    match ← within rules depth p input with
    | some (value, rest) => some ((f value).map fun image => (image, rest))
    | none => some none
  | depth + 1, rule i, input => within rules depth (rules i) input

variable {rules : Rules τ ρ}

/-! ## One call of the literal run -/

section Call

variable {depth : Nat} {input : List τ}

/-- **The answer of a sequence** is that of its first part if there is none,
and otherwise that of its second part on what is left. -/
theorem within_seq_iff {p : Grammar τ ρ α} {q : Grammar τ ρ β}
    {answer : Option ((α × β) × List τ)} :
    within rules (depth + 1) (seq p q) input = some answer
      ↔ (within rules depth p input = some none ∧ none = answer)
        ∨ ∃ first rest second,
          within rules depth p input = some (some (first, rest))
            ∧ within rules depth q rest = some second
            ∧ (second.map fun found => ((first, found.1), found.2)) = answer := by
  show within rules depth p input >>= _ = some answer ↔ _
  rcases within rules depth p input with _ | _ | ⟨first, rest⟩
  · simp
  · simp
  · simp [Option.bind_eq_some_iff, and_assoc]

/-- **The answer of a choice** is that of its first alternative, or of its
second one on the same input. -/
theorem within_orElse_iff {p q : Grammar τ ρ α}
    {answer : Option (α × List τ)} :
    within rules (depth + 1) (orElse p q) input = some answer
      ↔ (∃ found, within rules depth p input = some (some found)
          ∧ some found = answer)
        ∨ (within rules depth p input = some none
          ∧ within rules depth q input = some answer) := by
  show within rules depth p input >>= _ = some answer ↔ _
  rcases within rules depth p input with _ | _ | found
  · simp
  · simp
  · simp

/-- **The answer of a repetition**: nothing where its body does not match or
consumes nothing, and otherwise the match and the repetition after it. -/
theorem within_many_iff {p : Grammar τ ρ α}
    {answer : Option (List α × List τ)} :
    within rules (depth + 1) (many p) input = some answer
      ↔ (within rules depth p input = some none ∧ some ([], input) = answer)
        ∨ (∃ first rest, within rules depth p input = some (some (first, rest))
          ∧ rest.length = input.length ∧ some ([], input) = answer)
        ∨ ∃ first rest more,
          within rules depth p input = some (some (first, rest))
            ∧ rest.length ≠ input.length
            ∧ within rules depth (many p) rest = some more
            ∧ (more.map fun found => (first :: found.1, found.2)) = answer := by
  show within rules depth p input >>= _ = some answer ↔ _
  rcases within rules depth p input with _ | _ | ⟨first, rest⟩
  · simp
  · simp
  · by_cases hrest : rest.length = input.length
    · simp [hrest, and_assoc]
    · simp [hrest, Option.bind_eq_some_iff, and_assoc]

/-- **The answer of a description whose value is mapped**, which may reject
it. -/
theorem within_tryMap_iff {f : α → Option β} {p : Grammar τ ρ α}
    {answer : Option (β × List τ)} :
    within rules (depth + 1) (tryMap f p) input = some answer
      ↔ (within rules depth p input = some none ∧ none = answer)
        ∨ ∃ value rest, within rules depth p input = some (some (value, rest))
          ∧ ((f value).map fun image => (image, rest)) = answer := by
  show within rules depth p input >>= _ = some answer ↔ _
  rcases within rules depth p input with _ | _ | ⟨value, rest⟩
  · simp
  · simp
  · simp [and_assoc]

end Call

/-! ## Depth -/

/-- One call more is enough where a depth is. -/
theorem within_succ {depth : Nat} {p : Grammar τ ρ α} {input : List τ}
    {answer : Option (α × List τ)}
    (h : within rules depth p input = some answer) :
    within rules (depth + 1) p input = some answer := by
  induction depth generalizing α p input answer with
  | zero => cases h
  | succ depth ih =>
    cases p with
    | pure value => exact h
    | fail => exact h
    | select f => cases input <;> exact h
    | endOfInput => cases input <;> exact h
    | seq p q =>
      rw [within_seq_iff] at h ⊢
      rcases h with ⟨hp, rfl⟩ | ⟨first, rest, second, hp, hq, rfl⟩
      · exact Or.inl ⟨ih hp, rfl⟩
      · exact Or.inr ⟨first, rest, second, ih hp, ih hq, rfl⟩
    | orElse p q =>
      rw [within_orElse_iff] at h ⊢
      rcases h with ⟨found, hp, rfl⟩ | ⟨hp, hq⟩
      · exact Or.inl ⟨found, ih hp, rfl⟩
      · exact Or.inr ⟨ih hp, ih hq⟩
    | many p =>
      rw [within_many_iff] at h ⊢
      rcases h with ⟨hp, rfl⟩ | ⟨first, rest, hp, hrest, rfl⟩
        | ⟨first, rest, more, hp, hrest, hmore, rfl⟩
      · exact Or.inl ⟨ih hp, rfl⟩
      · exact Or.inr (Or.inl ⟨first, rest, ih hp, hrest, rfl⟩)
      · exact Or.inr (Or.inr
          ⟨first, rest, more, ih hp, hrest, ih hmore, rfl⟩)
    | tryMap f p =>
      rw [within_tryMap_iff] at h ⊢
      rcases h with ⟨hp, rfl⟩ | ⟨value, rest, hp, rfl⟩
      · exact Or.inl ⟨ih hp, rfl⟩
      · exact Or.inr ⟨value, rest, ih hp, rfl⟩
    | rule i => exact ih h

/-- **A depth that is enough** stays enough, with the same answer. -/
theorem within_mono {depth depth' : Nat} (hle : depth ≤ depth')
    {p : Grammar τ ρ α} {input : List τ} {answer : Option (α × List τ)}
    (h : within rules depth p input = some answer) :
    within rules depth' p input = some answer := by
  induction hle with
  | refl => exact h
  | step _ ih => exact within_succ ih

/-- Two depths that are enough give the same answer. -/
theorem within_unique {depth depth' : Nat} {p : Grammar τ ρ α}
    {input : List τ} {answer answer' : Option (α × List τ)}
    (h : within rules depth p input = some answer)
    (h' : within rules depth' p input = some answer') : answer = answer' := by
  have hmax : some answer = some answer' :=
    (within_mono (Nat.le_max_left depth depth') h).symm.trans
      (within_mono (Nat.le_max_right depth depth') h')
  exact Option.some.inj hmax

/-- **A description answers** at the start of an input: the literal run of it
ends, at some depth, with this answer. -/
def Answers (rules : Rules τ ρ) (p : Grammar τ ρ α) (input : List τ)
    (answer : Option (α × List τ)) : Prop :=
  ∃ depth, within rules depth p input = some answer

/-! ## The literal run ends where the run has an outcome -/

section Answers

variable {input rest : List τ}

/-- Two depths that are enough are both passed by some depth. -/
theorem Answers.exists_both {p : Grammar τ ρ α} {q : Grammar τ ρ β}
    {answer : Option (α × List τ)} {answer' : Option (β × List τ)}
    (hp : Answers rules p input answer) (hq : Answers rules q rest answer') :
    ∃ depth, within rules depth p input = some answer
      ∧ within rules depth q rest = some answer' := by
  obtain ⟨depth, hp⟩ := hp
  obtain ⟨depth', hq⟩ := hq
  exact ⟨max depth depth', within_mono (Nat.le_max_left _ _) hp,
    within_mono (Nat.le_max_right _ _) hq⟩

theorem Answers.select {f : τ → Option α} {item : τ} :
    Answers rules (select f) (item :: rest)
      ((f item).map fun value => (value, rest)) :=
  ⟨1, rfl⟩

theorem Answers.seq_found {p : Grammar τ ρ α} {q : Grammar τ ρ β} {first : α}
    {answer : Option (β × List τ)}
    (hp : Answers rules p input (some (first, rest)))
    (hq : Answers rules q rest answer) :
    Answers rules (seq p q) input
      (answer.map fun found => ((first, found.1), found.2)) := by
  obtain ⟨depth, hp, hq⟩ := hp.exists_both hq
  exact ⟨depth + 1,
    within_seq_iff.mpr (Or.inr ⟨first, rest, answer, hp, hq, rfl⟩)⟩

theorem Answers.seq_none {p : Grammar τ ρ α} {q : Grammar τ ρ β}
    (hp : Answers rules p input none) : Answers rules (seq p q) input none := by
  obtain ⟨depth, hp⟩ := hp
  exact ⟨depth + 1, within_seq_iff.mpr (Or.inl ⟨hp, rfl⟩)⟩

theorem Answers.orElse_found {p q : Grammar τ ρ α} {found : α × List τ}
    (hp : Answers rules p input (some found)) :
    Answers rules (orElse p q) input (some found) := by
  obtain ⟨depth, hp⟩ := hp
  exact ⟨depth + 1, within_orElse_iff.mpr (Or.inl ⟨found, hp, rfl⟩)⟩

theorem Answers.orElse_none {p q : Grammar τ ρ α}
    {answer : Option (α × List τ)} (hp : Answers rules p input none)
    (hq : Answers rules q input answer) :
    Answers rules (orElse p q) input answer := by
  obtain ⟨depth, hp, hq⟩ := hp.exists_both hq
  exact ⟨depth + 1, within_orElse_iff.mpr (Or.inr ⟨hp, hq⟩)⟩

theorem Answers.many_none {p : Grammar τ ρ α}
    (hp : Answers rules p input none) :
    Answers rules (many p) input (some ([], input)) := by
  obtain ⟨depth, hp⟩ := hp
  exact ⟨depth + 1, within_many_iff.mpr (Or.inl ⟨hp, rfl⟩)⟩

theorem Answers.many_stop {p : Grammar τ ρ α} {first : α}
    (hp : Answers rules p input (some (first, rest)))
    (hrest : rest.length = input.length) :
    Answers rules (many p) input (some ([], input)) := by
  obtain ⟨depth, hp⟩ := hp
  exact ⟨depth + 1,
    within_many_iff.mpr (Or.inr (Or.inl ⟨first, rest, hp, hrest, rfl⟩))⟩

theorem Answers.many_found {p : Grammar τ ρ α} {first : α}
    {answer : Option (List α × List τ)}
    (hp : Answers rules p input (some (first, rest)))
    (hrest : rest.length ≠ input.length)
    (hmore : Answers rules (many p) rest answer) :
    Answers rules (many p) input
      (answer.map fun found => (first :: found.1, found.2)) := by
  obtain ⟨depth, hp, hmore⟩ := hp.exists_both hmore
  exact ⟨depth + 1, within_many_iff.mpr
    (Or.inr (Or.inr ⟨first, rest, answer, hp, hrest, hmore, rfl⟩))⟩

theorem Answers.tryMap_none {f : α → Option β} {p : Grammar τ ρ α}
    (hp : Answers rules p input none) :
    Answers rules (tryMap f p) input none := by
  obtain ⟨depth, hp⟩ := hp
  exact ⟨depth + 1, within_tryMap_iff.mpr (Or.inl ⟨hp, rfl⟩)⟩

theorem Answers.tryMap_found {f : α → Option β} {p : Grammar τ ρ α}
    {value : α} (hp : Answers rules p input (some (value, rest))) :
    Answers rules (tryMap f p) input
      ((f value).map fun image => (image, rest)) := by
  obtain ⟨depth, hp⟩ := hp
  exact ⟨depth + 1, within_tryMap_iff.mpr (Or.inr ⟨value, rest, hp, rfl⟩)⟩

theorem Answers.rule {i : Fin k} {answer : Option (ρ i × List τ)}
    (h : Answers rules (rules i) input answer) :
    Answers rules (.rule i) input answer := by
  obtain ⟨depth, h⟩ := h
  exact ⟨depth + 1, h⟩

end Answers

/-- **Where the run has an outcome, the literal run ends with it.** -/
theorem answers_of_step {pending : List (Fin k)} {p : Grammar τ ρ α}
    {input : List τ} {outcome : Outcome τ α}
    (h : step rules pending p input = outcome)
    (houtcome : outcome ≠ .leftRecursion) :
    Answers rules p input outcome.toOption := by
  fun_induction step rules pending p input
  case case8 p q input first rest hp hlt ihp ihq =>
    subst h
    rw [Outcome.toOption_map]
    exact (ihp hp (by simp)).seq_found
      (ihq rfl (mt Outcome.map_eq_leftRecursion_iff.mpr houtcome))
  case case9 p q input first rest hp hlt ihp ihq =>
    subst h
    rw [Outcome.toOption_map]
    -- the second part starts at what is left, which is the input
    obtain rfl := eq_of_step_of_not_length_lt hp hlt
    exact (ihp hp (by simp)).seq_found
      (ihq rfl (mt Outcome.map_eq_leftRecursion_iff.mpr houtcome))
  case case10 p q input hp ihp =>
    subst h
    exact (ihp hp (by simp)).seq_none
  case case12 p q input value rest hp ihp =>
    subst h
    exact (ihp hp (by simp)).orElse_found
  case case13 p q input hp ihp ihq =>
    exact (ihp hp (by simp)).orElse_none (ihq h houtcome)
  case case15 p input first rest hp hlt ihp ihmany =>
    subst h
    rw [Outcome.toOption_map]
    exact (ihp hp (by simp)).many_found (Nat.ne_of_lt hlt)
      (ihmany rfl (mt Outcome.map_eq_leftRecursion_iff.mpr houtcome))
  case case16 p input first rest hp hlt ihp =>
    subst h
    obtain rfl := eq_of_step_of_not_length_lt hp hlt
    exact (ihp hp (by simp)).many_stop rfl
  case case17 p input hp ihp =>
    subst h
    exact (ihp hp (by simp)).many_none
  case case19 f p input value rest hp image hf ihp =>
    subst h
    have hanswer := (ihp hp (by simp)).tryMap_found (f := f)
    rwa [hf] at hanswer
  case case20 f p input value rest hp hf ihp =>
    subst h
    have hanswer := (ihp hp (by simp)).tryMap_found (f := f)
    rwa [hf] at hanswer
  case case21 f p input hp ihp =>
    subst h
    exact (ihp hp (by simp)).tryMap_none
  case case23 i input hi ih => exact (ih h houtcome).rule
  -- a left recursion is no outcome of the literal run
  case case11 | case14 | case18 | case22 | case24 => exact absurd h.symm houtcome
  -- what has no parts answers at once
  case case4 f item rest value hf =>
    subst h
    have hanswer : Answers rules (select f) (item :: rest) _ := .select
    rwa [hf] at hanswer
  case case5 f item rest hf =>
    subst h
    have hanswer : Answers rules (select f) (item :: rest) _ := .select
    rwa [hf] at hanswer
  all_goals
    subst h
    exact ⟨1, rfl⟩

/-! ## The run has an outcome where the literal run ends -/

theorem within_eq_none_of_le {depth depth' : Nat} (hle : depth ≤ depth')
    {p : Grammar τ ρ α} {input : List τ}
    (h : within rules depth' p input = none) :
    within rules depth p input = none := by
  refine Option.eq_none_iff_forall_ne_some.mpr fun answer hanswer => ?_
  rw [within_mono hle hanswer] at h
  cases h

/-- **The least depth at which a rule answers** is one more than one at which
its body does. -/
theorem exists_least_of_rule {depth : Nat} {i : Fin k} {input : List τ}
    {answer : Option (ρ i × List τ)}
    (h : within rules depth (rule i) input = some answer) :
    ∃ least, least < depth ∧ within rules least (rules i) input = some answer
      ∧ within rules least (rule i) input = none := by
  induction depth with
  | zero => cases h
  | succ depth ih =>
    cases hrule : within rules depth (rule i) input with
    | none => exact ⟨depth, Nat.lt_succ_self depth, h, hrule⟩
    | some answer' =>
      obtain rfl := within_unique h hrule
      obtain ⟨least, hlt, hbody, hleast⟩ := ih hrule
      exact ⟨least, Nat.lt_succ_of_lt hlt, hbody, hleast⟩

/-- **Where the literal run ends, the run has its answer**, if the rules that
are not pending do not answer within the same depth.

The induction is on the depth. A rule that is entered is taken out of the
pending ones; it answers at some least depth, and its body does at one less,
where the rule does not. -/
theorem step_of_within {depth : Nat} {pending : List (Fin k)}
    {p : Grammar τ ρ α} {input : List τ} {answer : Option (α × List τ)}
    (h : within rules depth p input = some answer)
    (hpending : ∀ i, i ∉ pending → within rules depth (rule i) input = none) :
    step rules pending p input = .ofAnswer answer := by
  induction depth using Nat.strongRecOn generalizing α pending p input answer with
  | ind depth ih =>
    cases depth with
    | zero => cases h
    | succ depth =>
      have hlt : depth < depth + 1 := Nat.lt_succ_self depth
      have hbefore : ∀ i, i ∉ pending →
          within rules depth (rule i) input = none := fun i hi =>
        within_eq_none_of_le (Nat.le_of_lt hlt) (hpending i hi)
      have hall : ∀ {rest : List τ} (i : Fin k), i ∉ List.finRange k →
          within rules depth (rule i) rest = none := fun i hi =>
        absurd (List.mem_finRange i) hi
      cases p with
      | pure value => cases h; rw [step]; rfl
      | fail => cases h; rw [step]; rfl
      | select f =>
        cases input with
        | nil => cases h; rw [step]; rfl
        | cons item rest =>
          cases h
          cases hf : f item with
          | some value => exact step_select_of_some hf rest
          | none => exact step_select_of_none hf rest
      | endOfInput => cases input <;> cases h <;> rw [step] <;> rfl
      | seq p q =>
        rcases within_seq_iff.mp h with ⟨hp, rfl⟩
          | ⟨first, rest, second, hp, hq, rfl⟩
        · exact step_seq_of_noMatch (ih depth hlt hp hbefore)
        · have hp' : step rules pending p input = .found first rest :=
            ih depth hlt hp hbefore
          by_cases hrest : rest.length < input.length
          · rw [step_seq_of_found hp' hrest, ih depth hlt hq hall]
            exact Outcome.map_ofAnswer _ second
          · obtain rfl := eq_of_step_of_not_length_lt hp' hrest
            rw [step_seq_of_found_self hp', ih depth hlt hq hbefore]
            exact Outcome.map_ofAnswer _ second
      | orElse p q =>
        rcases within_orElse_iff.mp h with ⟨found, hp, rfl⟩ | ⟨hp, hq⟩
        · rw [step, ih depth hlt hp hbefore]
          rfl
        · rw [step, ih depth hlt hp hbefore]
          exact ih depth hlt hq hbefore
      | many p =>
        rcases within_many_iff.mp h with ⟨hp, rfl⟩ | ⟨first, rest, hp, hrest, rfl⟩
          | ⟨first, rest, more, hp, hrest, hmore, rfl⟩
        · exact step_many_of_noMatch (ih depth hlt hp hbefore)
        · rw [step, ih depth hlt hp hbefore]
          exact if_neg (Nat.not_lt.mpr (Nat.le_of_eq hrest.symm))
        · have hp' : step rules pending p input = .found first rest :=
            ih depth hlt hp hbefore
          have hshorter : rest.length < input.length :=
            Nat.lt_of_le_of_ne (suffix_of_step hp').length_le hrest
          rw [step_many_of_found hp' hshorter, ih depth hlt hmore hall]
          exact Outcome.map_ofAnswer _ more
      | tryMap f p =>
        rcases within_tryMap_iff.mp h with ⟨hp, rfl⟩ | ⟨value, rest, hp, rfl⟩
        · exact step_tryMap_of_noMatch (ih depth hlt hp hbefore)
        · have hp' : step rules pending p input = .found value rest :=
            ih depth hlt hp hbefore
          cases hf : f value with
          | some image => exact step_tryMap_of_some hp' hf
          | none => exact step_tryMap_of_none hp' hf
      | rule i =>
        by_cases hi : i ∈ pending
        · obtain ⟨least, hleast, hbody, hrule⟩ := exists_least_of_rule h
          rw [step, if_pos hi]
          refine ih least hleast hbody fun j hj => ?_
          by_cases hji : j = i
          · exact hji ▸ hrule
          · refine within_eq_none_of_le (Nat.le_of_lt hleast)
              (hpending j fun hmem => hj ?_)
            exact (List.mem_erase_of_ne hji).mpr hmem
        · rw [hpending i hi] at h
          cases h

/-- **The run has the answer of the literal run**, so a depth that is enough is
a way to compute it. -/
theorem run_of_answers {p : Grammar τ ρ α} {input : List τ}
    {answer : Option (α × List τ)} (h : Answers rules p input answer) :
    run rules p input = .ofAnswer answer := by
  obtain ⟨depth, hdepth⟩ := h
  exact step_of_within hdepth fun i hi => absurd (List.mem_finRange i) hi

/-- **Left recursion is what never ends**: it is found exactly where the
literal run is cut off at every depth. -/
theorem run_eq_leftRecursion_iff {p : Grammar τ ρ α} {input : List τ} :
    run rules p input = .leftRecursion
      ↔ ∀ depth, within rules depth p input = none := by
  constructor
  · intro h depth
    refine Option.eq_none_iff_forall_ne_some.mpr fun answer hanswer => ?_
    have hstep := run_of_answers ⟨depth, hanswer⟩
    rw [h] at hstep
    cases answer <;> cases hstep
  · intro h
    refine Classical.byContradiction fun hne => ?_
    obtain ⟨depth, hdepth⟩ := answers_of_step rfl hne
    cases (h depth).symm.trans hdepth

end Grammar

end FormulaColumn
