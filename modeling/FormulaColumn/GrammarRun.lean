import FormulaColumn.Grammar

/-!
# What a grammar matches

`Grammar.run rules p input` says what the description `p` matches at the
start of `input`: a value and what is left, or no match. Taken literally, the
rules of a table need not give an answer at all: a rule that reaches itself
before anything is consumed asks the same question again, forever. The run is
total, so it says so. **`leftRecursion` is the outcome of exactly these
questions**, and a caller that sees another outcome knows the rules give it.

The run carries the rules that may still be entered before an item is
consumed, the *pending* ones. Entering a rule takes it out; consuming an item
makes every rule pending again. A rule that is entered while it is not
pending is being asked the question it is in the middle of answering. So each
step of the run either shortens the input, or keeps it and takes a rule out,
or keeps both and goes to a smaller description, and that is why it ends.

A match consumes a start of the input, so a match whose rest is not shorter
than the input consumed nothing, and the run goes on from the input itself.
-/

namespace FormulaColumn

/-- **What became of a description** at the start of an input. -/
inductive Outcome (τ α : Type) where
  /-- It matched, with a value, and `rest` is the input it did not consume. -/
  | found (value : α) (rest : List τ)
  /-- It does not match. -/
  | noMatch
  /-- The rules do not say: a rule reaches itself with nothing consumed. -/
  | leftRecursion
  deriving DecidableEq, Repr

namespace Outcome

variable {τ α β : Type}

/-- The outcome with another value. -/
def map (f : α → β) : Outcome τ α → Outcome τ β
  | found value rest => found (f value) rest
  | noMatch => noMatch
  | leftRecursion => leftRecursion

/-- The value and the rest of a match. -/
def toOption : Outcome τ α → Option (α × List τ)
  | found value rest => some (value, rest)
  | noMatch => none
  | leftRecursion => none

@[simp] theorem map_found (f : α → β) (value : α) (rest : List τ) :
    (found value rest).map f = found (f value) rest := rfl

@[simp] theorem map_noMatch (f : α → β) :
    (noMatch : Outcome τ α).map f = noMatch := rfl

@[simp] theorem map_leftRecursion (f : α → β) :
    (leftRecursion : Outcome τ α).map f = leftRecursion := rfl

@[simp] theorem map_eq_noMatch_iff {f : α → β} {outcome : Outcome τ α} :
    outcome.map f = noMatch ↔ outcome = noMatch := by
  cases outcome <;> simp

@[simp] theorem map_eq_leftRecursion_iff {f : α → β}
    {outcome : Outcome τ α} :
    outcome.map f = leftRecursion ↔ outcome = leftRecursion := by
  cases outcome <;> simp

/-- A match with another value is a match. -/
theorem map_eq_found_iff {f : α → β} {outcome : Outcome τ α} {image : β}
    {rest : List τ} :
    outcome.map f = found image rest
      ↔ ∃ value, outcome = found value rest ∧ f value = image := by
  cases outcome with
  | found value rest' =>
    constructor
    · rintro ⟨⟩
      exact ⟨value, rfl, rfl⟩
    · rintro ⟨_, ⟨⟩, rfl⟩
      rfl
  | noMatch => simp
  | leftRecursion => simp

end Outcome

namespace Grammar

variable {τ : Type} {k : Nat} {ρ : Fin k → Type} {α β : Type}

/-- **A table of rules**: the body of each. -/
abbrev Rules (τ : Type) {k : Nat} (ρ : Fin k → Type) : Type 1 :=
  (i : Fin k) → Grammar τ ρ (ρ i)

/-- Entering a pending rule leaves fewer of them. -/
theorem length_erase_lt {i : Fin k} {pending : List (Fin k)}
    (h : i ∈ pending) : (pending.erase i).length < pending.length := by
  rw [List.length_erase_of_mem h]
  exact Nat.sub_lt (List.length_pos_of_mem h) Nat.one_pos

/-- **The run with the rules `pending`**: those that may be entered before
an item is consumed. -/
def step (rules : Rules τ ρ) {α : Type} (pending : List (Fin k)) :
    Grammar τ ρ α → List τ → Outcome τ α
  | pure value, input => .found value input
  | fail, _ => .noMatch
  | select _, [] => .noMatch
  | select f, item :: rest =>
    match f item with
    | some value => .found value rest
    | none => .noMatch
  | endOfInput, [] => .found () []
  | endOfInput, _ :: _ => .noMatch
  | seq p q, input =>
    match step rules pending p input with
    | .found first rest =>
      if rest.length < input.length then
        (step rules (List.finRange k) q rest).map fun second => (first, second)
      else
        (step rules pending q input).map fun second => (first, second)
    | .noMatch => .noMatch
    | .leftRecursion => .leftRecursion
  | orElse p q, input =>
    match step rules pending p input with
    | .found value rest => .found value rest
    | .noMatch => step rules pending q input
    | .leftRecursion => .leftRecursion
  | many p, input =>
    match step rules pending p input with
    | .found first rest =>
      if rest.length < input.length then
        (step rules (List.finRange k) (many p) rest).map fun values =>
          first :: values
      else
        .found [] input
    | .noMatch => .found [] input
    | .leftRecursion => .leftRecursion
  | tryMap f p, input =>
    match step rules pending p input with
    | .found value rest =>
      match f value with
      | some image => .found image rest
      | none => .noMatch
    | .noMatch => .noMatch
    | .leftRecursion => .leftRecursion
  | rule i, input =>
    if i ∈ pending then step rules (pending.erase i) (rules i) input
    else .leftRecursion
termination_by p input => (input.length, pending.length, sizeOf p)
decreasing_by
  all_goals first
    | decreasing_tactic
    | exact Prod.Lex.right _
        (Prod.Lex.left _ _ (length_erase_lt (by assumption)))

/-- A mapped description matches what the description does. -/
theorem step_map (rules : Rules τ ρ) (pending : List (Fin k)) (f : α → β)
    (p : Grammar τ ρ α) (input : List τ) :
    step rules pending (map f p) input = (step rules pending p input).map f := by
  rw [map, step]
  cases step rules pending p input <;> rfl

/-! ## One step of the run -/

section Step

variable {rules : Rules τ ρ} {pending : List (Fin k)}

/-- After a part that consumes something, every rule is pending again. -/
theorem step_seq_of_found {p : Grammar τ ρ α} {q : Grammar τ ρ β}
    {input rest : List τ} {first : α}
    (hp : step rules pending p input = .found first rest)
    (hlt : rest.length < input.length) :
    step rules pending (seq p q) input
      = (step rules (List.finRange k) q rest).map fun second =>
          (first, second) := by
  rw [step, hp]
  exact if_pos hlt

/-- After a part that consumes nothing, the second part starts at the same
input. -/
theorem step_seq_of_found_self {p : Grammar τ ρ α} {q : Grammar τ ρ β}
    {input : List τ} {first : α}
    (hp : step rules pending p input = .found first input) :
    step rules pending (seq p q) input
      = (step rules pending q input).map fun second => (first, second) := by
  rw [step, hp]
  exact if_neg (Nat.lt_irrefl _)

theorem step_seq_of_noMatch {p : Grammar τ ρ α} {q : Grammar τ ρ β}
    {input : List τ} (hp : step rules pending p input = .noMatch) :
    step rules pending (seq p q) input = .noMatch := by
  rw [step, hp]

theorem step_many_of_found {p : Grammar τ ρ α} {input rest : List τ}
    {first : α} (hp : step rules pending p input = .found first rest)
    (hlt : rest.length < input.length) :
    step rules pending (many p) input
      = (step rules (List.finRange k) (many p) rest).map fun values =>
          first :: values := by
  rw [step, hp]
  exact if_pos hlt

theorem step_many_of_noMatch {p : Grammar τ ρ α} {input : List τ}
    (hp : step rules pending p input = .noMatch) :
    step rules pending (many p) input = .found [] input := by
  rw [step, hp]

theorem step_tryMap_of_some {f : α → Option β} {p : Grammar τ ρ α}
    {input rest : List τ} {value : α} {image : β}
    (hp : step rules pending p input = .found value rest)
    (hf : f value = some image) :
    step rules pending (tryMap f p) input = .found image rest := by
  rw [step, hp]
  simp only [hf]

theorem step_tryMap_of_none {f : α → Option β} {p : Grammar τ ρ α}
    {input rest : List τ} {value : α}
    (hp : step rules pending p input = .found value rest)
    (hf : f value = none) :
    step rules pending (tryMap f p) input = .noMatch := by
  rw [step, hp]
  simp only [hf]

theorem step_tryMap_of_noMatch {f : α → Option β} {p : Grammar τ ρ α}
    {input : List τ} (hp : step rules pending p input = .noMatch) :
    step rules pending (tryMap f p) input = .noMatch := by
  rw [step, hp]

/-- **A choice matches what its first matching alternative does.** -/
theorem step_choice_of_found (before after : List (Grammar τ ρ α))
    {p : Grammar τ ρ α} {input rest : List τ} {value : α}
    (hbefore : ∀ q ∈ before, step rules pending q input = .noMatch)
    (hp : step rules pending p input = .found value rest) :
    step rules pending (choice (before ++ p :: after)) input
      = .found value rest := by
  have hafter : ∀ q : Grammar τ ρ α,
      step rules pending q input = .found value rest →
      step rules pending (after.foldl orElse q) input = .found value rest := by
    induction after with
    | nil => exact fun _ h => h
    | cons other after ih =>
      intro q hq
      refine ih _ ?_
      rw [step, hq]
  have hprior : ∀ q : Grammar τ ρ α, step rules pending q input = .noMatch →
      step rules pending ((before ++ p :: after).foldl orElse q) input
        = .found value rest := by
    induction before with
    | nil =>
      intro q hq
      refine hafter _ ?_
      rw [step, hq]
      exact hp
    | cons other before ih =>
      intro q hq
      refine ih (fun r hr => hbefore r (List.mem_cons_of_mem _ hr)) _ ?_
      rw [step, hq]
      exact hbefore other List.mem_cons_self
  exact hprior fail (by rw [step])

/-- A choice does not match where no alternative does. -/
theorem step_choice_of_noMatch {alternatives : List (Grammar τ ρ α)}
    {input : List τ}
    (h : ∀ p ∈ alternatives, step rules pending p input = .noMatch) :
    step rules pending (choice alternatives) input = .noMatch := by
  have hfold : ∀ q : Grammar τ ρ α, step rules pending q input = .noMatch →
      step rules pending (alternatives.foldl orElse q) input = .noMatch := by
    induction alternatives with
    | nil => exact fun _ h => h
    | cons p alternatives ih =>
      intro q hq
      refine ih (fun r hr => h r (List.mem_cons_of_mem _ hr)) _ ?_
      rw [step, hq]
      exact h p List.mem_cons_self
  exact hfold fail (by rw [step])

theorem step_select_of_some {f : τ → Option α} {item : τ} {value : α}
    (h : f item = some value) (rest : List τ) :
    step rules pending (select f) (item :: rest) = .found value rest := by
  rw [step, h]

theorem step_select_of_none {f : τ → Option α} {item : τ}
    (h : f item = none) (rest : List τ) :
    step rules pending (select f) (item :: rest) = .noMatch := by
  rw [step, h]

theorem step_satisfy_of_true {accepts : τ → Bool} {item : τ}
    (h : accepts item = true) (rest : List τ) :
    step rules pending (satisfy accepts) (item :: rest)
      = .found item rest := by
  refine step_select_of_some ?_ rest
  rw [if_pos h]

theorem step_satisfy_of_false {accepts : τ → Bool} {item : τ}
    (h : accepts item = false) (rest : List τ) :
    step rules pending (satisfy accepts) (item :: rest) = .noMatch := by
  refine step_select_of_none ?_ rest
  rw [h]
  rfl

theorem step_literal_self [DecidableEq τ] (item : τ) (rest : List τ) :
    step rules pending (literal item) (item :: rest) = .found item rest := by
  refine step_satisfy_of_true ?_ rest
  exact beq_self_eq_true item

/-- A single item matches nothing but itself. -/
theorem step_literal_of_ne [DecidableEq τ] {expected : τ} {input : List τ}
    (h : ∀ rest, input ≠ expected :: rest) :
    step rules pending (literal expected) input = .noMatch := by
  cases input with
  | nil => rw [literal, satisfy, step]
  | cons item rest =>
    have hne : item ≠ expected := by
      rintro rfl
      exact h rest rfl
    refine step_satisfy_of_false ?_ rest
    exact beq_eq_false_iff_ne.mpr hne

theorem step_endOfInput_eq_found_iff {input rest : List τ} {value : Unit} :
    step rules pending endOfInput input = .found value rest
      ↔ input = [] ∧ rest = [] := by
  cases input with
  | nil => rw [step]; simp [eq_comm]
  | cons item input => rw [step]; simp

end Step

/-- **A repetition always matches**, unless the rules do not say. -/
theorem step_many_ne_noMatch (rules : Rules τ ρ) (pending : List (Fin k))
    (p : Grammar τ ρ α) (input : List τ) :
    step rules pending (many p) input ≠ .noMatch := by
  induction hn : input.length using Nat.strongRecOn
    generalizing pending input with
  | ind n ih =>
    rw [step]
    split
    next first rest _ =>
      split
      next hlt =>
        rw [Ne, Outcome.map_eq_noMatch_iff]
        exact ih rest.length (by omega) _ rest rfl
      next => simp
    next => simp
    next => simp

/-- **Without rules there is no left recursion.** -/
theorem step_ne_leftRecursion (hk : k = 0) (rules : Rules τ ρ)
    (pending : List (Fin k)) (p : Grammar τ ρ α) (input : List τ) :
    step rules pending p input ≠ .leftRecursion := by
  fun_induction step rules pending p input
  case case24 i _ _ => exact absurd i.isLt (by omega)
  all_goals simp_all

/-- **What `p` matches at the start of `input`**, under the rules of a
table. -/
def run (rules : Rules τ ρ) (p : Grammar τ ρ α) (input : List τ) :
    Outcome τ α :=
  step rules (List.finRange k) p input

end Grammar

namespace Pattern

variable {τ α : Type}

/-- **What a pattern matches at the start of `input`**: the value and the
rest. -/
def run (p : Pattern τ α) (input : List τ) : Option (α × List τ) :=
  (Grammar.run (fun i => i.elim0) p input).toOption

/-- **A pattern has no value only where it does not match.** -/
theorem run_eq_none_iff {p : Pattern τ α} {input : List τ} :
    p.run input = none
      ↔ Grammar.run (fun i => i.elim0) p input = .noMatch := by
  have hlr : Grammar.run (fun i => i.elim0) p input ≠ .leftRecursion :=
    Grammar.step_ne_leftRecursion rfl _ _ p input
  unfold run
  cases h : Grammar.run (fun i => i.elim0) p input with
  | found value rest => simp [Outcome.toOption]
  | noMatch => simp [Outcome.toOption]
  | leftRecursion => exact absurd h hlr

/-- **Repetitions one after the other always match.** -/
theorem run_many_seqLeft_many_ne_none {β : Type} (p : Pattern τ α)
    (q : Pattern τ β) (input : List τ) :
    run (.seqLeft (.many p) (.many q)) input ≠ none := by
  have hmany {γ : Type} (r : Pattern τ γ) (rest : List τ) :
      Grammar.step (fun i => i.elim0) (List.finRange 0) r.many rest
        ≠ .noMatch :=
    Grammar.step_many_ne_noMatch _ _ r rest
  rw [Ne, run_eq_none_iff, Grammar.run, Grammar.seqLeft, Grammar.step_map,
    Outcome.map_eq_noMatch_iff, Grammar.step]
  split
  next =>
    split <;> rw [Outcome.map_eq_noMatch_iff]
    · exact hmany q _
    · exact hmany q _
  next h => exact absurd h (hmany p input)
  next => simp

end Pattern

end FormulaColumn
