import FormulaColumn.Proofs.Language
import Mathlib.Logic.Relation

/-!
# When the rules say what they match

A rule asks about itself forever only if it reaches itself before anything is
consumed. That can be read off the table. A description **may match empty**
by its form (`Grammar.nullable`), and the rules it may enter before anything
is consumed are those at its start, or after parts that may match empty
(`Grammar.leftCalls`).

Where no rule reaches itself along such calls, every run has an answer
(`Grammar.run_ne_leftRecursion`). The reason is an invariant of the run:
every rule that the description at hand may still reach without consuming is
pending. Entering a rule takes out that rule only, and it does not reach
itself; consuming an item makes all of them pending again.

Which rules may match empty is a parameter `N`. Any set of rules that has
those whose bodies may match empty will do, the least one among them.
-/

namespace FormulaColumn

namespace Grammar

variable {τ : Type} {k : Nat} {ρ : Fin k → Type} {α β γ : Type}

/-- **Whether a description may match without consuming**, by its form, where
`N` says which rules may. -/
def nullable (N : Fin k → Bool) {α : Type} : Grammar τ ρ α → Bool
  | pure _ => true
  | fail => false
  | select _ => false
  | endOfInput => true
  | seq p q => p.nullable N && q.nullable N
  | orElse p q => p.nullable N || q.nullable N
  | many _ => true
  | tryMap _ p => p.nullable N
  | rule i => N i

/-- **The rules a description may enter** before anything is consumed. -/
def leftCalls (N : Fin k → Bool) {α : Type} : Grammar τ ρ α → List (Fin k)
  | pure _ => []
  | fail => []
  | select _ => []
  | endOfInput => []
  | seq p q => p.leftCalls N ++ if p.nullable N then q.leftCalls N else []
  | orElse p q => p.leftCalls N ++ q.leftCalls N
  | many p => p.leftCalls N
  | tryMap _ p => p.leftCalls N
  | rule i => [i]

/-- One rule may enter another before anything is consumed. -/
def LeftCall (N : Fin k → Bool) (rules : Rules τ ρ) (i j : Fin k) : Prop :=
  j ∈ (rules i).leftCalls N

/-! ## The analysis of the derived forms -/

section DerivedForms

variable {N : Fin k → Bool}

@[simp] theorem nullable_map (f : α → β) (p : Grammar τ ρ α) :
    (map f p).nullable N = p.nullable N := rfl

@[simp] theorem nullable_satisfy (accepts : τ → Bool) :
    (satisfy accepts : Grammar τ ρ τ).nullable N = false := rfl

@[simp] theorem nullable_literal [DecidableEq τ] (expected : τ) :
    (literal expected : Grammar τ ρ τ).nullable N = false := rfl

@[simp] theorem nullable_seqLeft (p : Grammar τ ρ α) (q : Grammar τ ρ β) :
    (seqLeft p q).nullable N = (p.nullable N && q.nullable N) := rfl

@[simp] theorem nullable_seqRight (p : Grammar τ ρ α) (q : Grammar τ ρ β) :
    (seqRight p q).nullable N = (p.nullable N && q.nullable N) := rfl

@[simp] theorem nullable_between (opening : Grammar τ ρ β)
    (p : Grammar τ ρ α) (closing : Grammar τ ρ γ) :
    (between opening p closing).nullable N
      = (opening.nullable N && p.nullable N && closing.nullable N) := rfl

@[simp] theorem nullable_optional (p : Grammar τ ρ α) :
    (optional p).nullable N = true :=
  Bool.or_true _

@[simp] theorem nullable_many1 (p : Grammar τ ρ α) :
    (many1 p).nullable N = p.nullable N :=
  Bool.and_true _

/-- A choice may match empty if one of its alternatives may. -/
@[simp] theorem nullable_choice (alternatives : List (Grammar τ ρ α)) :
    (choice alternatives).nullable N = alternatives.any (nullable N) := by
  have hfold : ∀ first : Grammar τ ρ α,
      (alternatives.foldl orElse first).nullable N
        = (first.nullable N || alternatives.any (nullable N)) := by
    induction alternatives with
    | nil => exact fun first => (Bool.or_false _).symm
    | cons p rest ih =>
      intro first
      rw [List.foldl_cons, ih, List.any_cons, nullable, Bool.or_assoc]
  exact hfold fail

@[simp] theorem leftCalls_map (f : α → β) (p : Grammar τ ρ α) :
    (map f p).leftCalls N = p.leftCalls N := rfl

@[simp] theorem leftCalls_satisfy (accepts : τ → Bool) :
    (satisfy accepts : Grammar τ ρ τ).leftCalls N = [] := rfl

@[simp] theorem leftCalls_literal [DecidableEq τ] (expected : τ) :
    (literal expected : Grammar τ ρ τ).leftCalls N = [] := rfl

@[simp] theorem leftCalls_seqLeft (p : Grammar τ ρ α) (q : Grammar τ ρ β) :
    (seqLeft p q).leftCalls N
      = p.leftCalls N ++ if p.nullable N then q.leftCalls N else [] := rfl

@[simp] theorem leftCalls_seqRight (p : Grammar τ ρ α) (q : Grammar τ ρ β) :
    (seqRight p q).leftCalls N
      = p.leftCalls N ++ if p.nullable N then q.leftCalls N else [] := rfl

@[simp] theorem leftCalls_between (opening : Grammar τ ρ β)
    (p : Grammar τ ρ α) (closing : Grammar τ ρ γ) :
    (between opening p closing).leftCalls N
      = (opening.leftCalls N ++ if opening.nullable N then p.leftCalls N else [])
        ++ if opening.nullable N && p.nullable N then closing.leftCalls N
          else [] := rfl

@[simp] theorem leftCalls_optional (p : Grammar τ ρ α) :
    (optional p).leftCalls N = p.leftCalls N :=
  List.append_nil _

@[simp] theorem mem_leftCalls_many1 {p : Grammar τ ρ α} {i : Fin k} :
    i ∈ (many1 p).leftCalls N ↔ i ∈ p.leftCalls N := by
  show i ∈ p.leftCalls N ++ (if p.nullable N then p.leftCalls N else []) ↔ _
  rw [List.mem_append, or_iff_left_of_imp]
  split
  · exact id
  · exact fun h => absurd h List.not_mem_nil

/-- A choice starts as one of its alternatives does. -/
@[simp] theorem leftCalls_choice (alternatives : List (Grammar τ ρ α)) :
    (choice alternatives).leftCalls N
      = alternatives.flatMap (leftCalls N) := by
  have hfold : ∀ first : Grammar τ ρ α,
      (alternatives.foldl orElse first).leftCalls N
        = first.leftCalls N ++ alternatives.flatMap (leftCalls N) := by
    induction alternatives with
    | nil => exact fun first => (List.append_nil _).symm
    | cons p rest ih =>
      intro first
      rw [List.foldl_cons, ih, List.flatMap_cons, leftCalls, List.append_assoc]
  exact hfold fail

end DerivedForms

variable {N : Fin k → Bool} {rules : Rules τ ρ}

/-! ## Matches that consume nothing -/

/-- A description with the empty sentence may match empty. -/
theorem nullable_of_generates_nil {R : (i : Fin k) → List τ → ρ i → Prop}
    (hR : ∀ i value, R i [] value → N i = true) {p : Grammar τ ρ α}
    {value : α} (h : p.Generates R [] value) : p.nullable N = true := by
  induction p with
  | pure _ => rfl
  | fail => exact absurd h not_false
  | select f =>
    obtain ⟨item, hitem, -⟩ := h
    exact absurd hitem (List.cons_ne_nil _ _).symm
  | endOfInput => rfl
  | seq p q ihp ihq =>
    obtain ⟨first, second, hnil, hp, hq⟩ := h
    obtain ⟨rfl, rfl⟩ := List.append_eq_nil_iff.mp hnil.symm
    unfold nullable
    rw [ihp hp, ihq hq, Bool.and_self]
  | orElse p q ihp ihq =>
    unfold nullable
    rw [Bool.or_eq_true]
    exact h.imp ihp ihq
  | many p _ => rfl
  | tryMap f p ih =>
    obtain ⟨value', hp, -⟩ := h
    exact ih hp
  | rule i => exact hR i value h

/-- **A match that consumes nothing** is one of a description that may match
empty. -/
theorem nullable_of_step
    (hN : ∀ i, (rules i).nullable N = true → N i = true)
    {pending : List (Fin k)} {p : Grammar τ ρ α} {input rest : List τ}
    {value : α} (h : step rules pending p input = .found value rest)
    (hrest : ¬ rest.length < input.length) : p.nullable N = true := by
  have hR : ∀ i items value,
      (rules i).Generates (fun i items _ => items = [] → N i = true)
        items value → items = [] → N i = true := by
    rintro i _ value hgen rfl
    exact hN i (nullable_of_generates_nil (fun _ _ h => h rfl) hgen)
  obtain ⟨items, hitems, hgen⟩ := generates_of_step hR pending p input h
  obtain rfl := eq_nil_of_not_length_lt hitems hrest
  exact nullable_of_generates_nil (fun _ _ h => h rfl) hgen

/-! ## Runs with an answer -/

/-- Every rule that `p` may reach before anything is consumed is pending. -/
def AllPending (N : Fin k → Bool) (rules : Rules τ ρ)
    (pending : List (Fin k)) (p : Grammar τ ρ α) : Prop :=
  ∀ i ∈ p.leftCalls N, ∀ j,
    Relation.ReflTransGen (LeftCall N rules) i j → j ∈ pending

theorem allPending_finRange (p : Grammar τ ρ α) :
    AllPending N rules (List.finRange k) p :=
  fun _ _ j _ => List.mem_finRange j

theorem AllPending.of_seq_left {pending : List (Fin k)} {p : Grammar τ ρ α}
    {q : Grammar τ ρ β} (h : AllPending N rules pending (seq p q)) :
    AllPending N rules pending p :=
  fun i hi => h i (List.mem_append_left _ hi)

theorem AllPending.of_seq_right {pending : List (Fin k)} {p : Grammar τ ρ α}
    {q : Grammar τ ρ β} (hp : p.nullable N = true)
    (h : AllPending N rules pending (seq p q)) :
    AllPending N rules pending q := by
  intro i hi
  refine h i (List.mem_append_right _ ?_)
  rwa [if_pos hp]

theorem AllPending.of_orElse_left {pending : List (Fin k)}
    {p q : Grammar τ ρ α} (h : AllPending N rules pending (orElse p q)) :
    AllPending N rules pending p :=
  fun i hi => h i (List.mem_append_left _ hi)

theorem AllPending.of_orElse_right {pending : List (Fin k)}
    {p q : Grammar τ ρ α} (h : AllPending N rules pending (orElse p q)) :
    AllPending N rules pending q :=
  fun i hi => h i (List.mem_append_right _ hi)

/-- **Entering a rule keeps the invariant**: the rule is taken out, and its
body does not reach it again. -/
theorem AllPending.erase {pending : List (Fin k)} {i : Fin k}
    (hacyclic : ¬ Relation.TransGen (LeftCall N rules) i i)
    (h : AllPending N rules pending (rule i)) :
    AllPending N rules (pending.erase i) (rules i) := by
  intro j hj l hl
  have hreach : Relation.TransGen (LeftCall N rules) i l :=
    Relation.TransGen.head' hj hl
  have hne : l ≠ i := by
    rintro rfl
    exact hacyclic hreach
  exact (List.mem_erase_of_ne hne).mpr
    (h i (List.mem_singleton_self i) l hreach.to_reflTransGen)

/-- **Where no rule reaches itself before anything is consumed, every run
has an answer**, from every state of the run. -/
theorem step_ne_leftRecursion_of_acyclic
    (hN : ∀ i, (rules i).nullable N = true → N i = true)
    (hacyclic : ∀ i, ¬ Relation.TransGen (LeftCall N rules) i i)
    (pending : List (Fin k)) (p : Grammar τ ρ α) (input : List τ)
    (hpending : AllPending N rules pending p) :
    step rules pending p input ≠ .leftRecursion := by
  fun_induction step rules pending p input
  -- after an item is consumed every rule is pending
  case case8 | case15 =>
    rw [Ne, Outcome.map_eq_leftRecursion_iff]
    rename_i ih
    exact ih (allPending_finRange _)
  case case9 p q input first rest hp hlt ihp ihq =>
    rw [Ne, Outcome.map_eq_leftRecursion_iff]
    exact ihq (hpending.of_seq_right (nullable_of_step hN hp hlt))
  case case11 p q input hp ihp => exact absurd hp (ihp hpending.of_seq_left)
  case case13 p q input _ _ ihq => exact ihq hpending.of_orElse_right
  case case14 p q input hp ihp =>
    exact absurd hp (ihp hpending.of_orElse_left)
  case case18 p input hp ih => exact absurd hp (ih hpending)
  case case22 f p input hp ih => exact absurd hp (ih hpending)
  case case23 i input _ ih => exact ih (hpending.erase (hacyclic i))
  case case24 i input hi =>
    exact absurd (hpending i (List.mem_singleton_self i) i .refl) hi
  -- the other outcomes are answers
  all_goals simp

/-- **Every run has an answer** under rules of which none reaches itself
before anything is consumed. -/
theorem run_ne_leftRecursion
    (hN : ∀ i, (rules i).nullable N = true → N i = true)
    (hacyclic : ∀ i, ¬ Relation.TransGen (LeftCall N rules) i i)
    (p : Grammar τ ρ α) (input : List τ) :
    run rules p input ≠ .leftRecursion :=
  step_ne_leftRecursion_of_acyclic hN hacyclic _ p input
    (allPending_finRange p)

end Grammar

end FormulaColumn
