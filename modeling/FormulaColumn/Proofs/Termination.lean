import FormulaColumn.Proofs.LeftCalls
import FormulaColumn.Proofs.LiteralRun
import Mathlib.Data.Fintype.Order
import Mathlib.Order.FixedPoints

/-!
# Rules that are not left-recursive end

A rule may match empty if its body may, so which rules may is told by the
rules themselves: it is the least answer that the table agrees with
(`Grammar.leastNullable`). With it, whether a rule reaches itself before
anything is consumed is read off the table.

Where none does, the literal run of every description ends on every input
(`Grammar.within_of_acyclic`). Nothing is asked of the repetitions. Their
bodies may match empty, since a repetition stops at a match that consumes
nothing; so each time it goes on, less is left.
-/

namespace FormulaColumn

namespace Grammar

variable {τ : Type} {k : Nat} {ρ : Fin k → Type} {α : Type}

/-! ## Which rules may match empty -/

/-- The more rules may match empty, the more descriptions may. -/
theorem nullable_mono {N N' : Fin k → Bool} (h : N ≤ N')
    (p : Grammar τ ρ α) : p.nullable N ≤ p.nullable N' := by
  induction p with
  | pure _ => exact le_rfl
  | fail => exact le_rfl
  | select _ => exact le_rfl
  | endOfInput => exact le_rfl
  | seq p q ihp ihq => exact inf_le_inf ihp ihq
  | orElse p q ihp ihq => exact sup_le_sup ihp ihq
  | many _ _ => exact le_rfl
  | tryMap _ _ ih => exact ih
  | rule i => exact h i

/-- The rules whose bodies may match empty, if the rules of `N` may. -/
def nullableBodies (rules : Rules τ ρ) :
    (Fin k → Bool) →o (Fin k → Bool) where
  toFun N i := (rules i).nullable N
  monotone' _ _ h i := nullable_mono h (rules i)

/-- **Which rules may match empty**: those whose bodies may, and no more than
that requires. -/
noncomputable def leastNullable (rules : Rules τ ρ) : Fin k → Bool :=
  (nullableBodies rules).lfp

/-- **The least set of rules** that has those whose bodies may match empty. -/
theorem isLeast_leastNullable (rules : Rules τ ρ) :
    IsLeast {N | ∀ i, (rules i).nullable N ≤ N i} (leastNullable rules) :=
  (nullableBodies rules).isLeast_lfp_le

/-! ## Rules that end -/

/-- **Rules of which none reaches itself before anything is consumed** end:
the literal run of every description has an answer on every input. It is the
answer of the run, it is there from some depth on, and it is no left
recursion. -/
theorem within_of_acyclic {rules : Rules τ ρ}
    (hacyclic : ∀ i,
      ¬ Relation.TransGen (LeftCall (leastNullable rules) rules) i i)
    (p : Grammar τ ρ α) (input : List τ) :
    run rules p input ≠ .leftRecursion
      ∧ ∃ depth, ∀ more, depth ≤ more →
        within rules more p input = some (run rules p input).toOption := by
  have hclosed : ∀ i, (rules i).nullable (leastNullable rules) = true →
      leastNullable rules i = true :=
    fun i => Bool.le_iff_imp.mp ((isLeast_leastNullable rules).1 i)
  have hrun : run rules p input ≠ .leftRecursion :=
    run_ne_leftRecursion hclosed hacyclic p input
  have hanswers : Answers rules p input (run rules p input).toOption :=
    answers_of_step rfl hrun
  obtain ⟨depth, hdepth⟩ := hanswers
  exact ⟨hrun, depth, fun more hmore => within_mono hmore hdepth⟩

/-- Nested parentheses around `x`, with blanks before each: rule `0` is the
blanks, of which there may be none, and rule `1` is the parentheses. -/
def spaced : Rules Char fun _ : Fin 2 => Nat
  | 0 => map List.length (many1 (optional (literal ' ')))
  | 1 => seqRight (rule 0) (choice
      [map (· + 1) (between (literal '(') (rule 1) (literal ')')),
        map (fun _ => 0) (literal 'x')])

/-- The blanks start with no rule, and the parentheses with the blanks. -/
theorem lt_of_leftCall_spaced {N : Fin 2 → Bool} {i j : Fin 2}
    (h : LeftCall N spaced i j) : j < i := by
  unfold LeftCall at h
  match i with
  | 0 => simp [spaced] at h
  | 1 =>
    have hj : j = 0 := by simpa [spaced, leftCalls] using h
    exact hj ▸ Nat.one_pos

/-- Nested parentheses end after a repetition of blanks that may be none. -/
theorem within_of_acyclic_spaced :
    (∀ i, ¬ Relation.TransGen (LeftCall (leastNullable spaced) spaced) i i)
      ∧ run spaced (seq (many (rule 0)) (rule 1)) "  (( x))".toList
        ≠ .leftRecursion
      ∧ ∃ depth, ∀ more, depth ≤ more →
        within spaced more (seq (many (rule 0)) (rule 1)) "  (( x))".toList
          = some (some (([2], 2), [])) := by
  have hlt : ∀ i j,
      Relation.TransGen (LeftCall (leastNullable spaced) spaced) i j →
      j < i := by
    intro i j h
    induction h with
    | single h => exact lt_of_leftCall_spaced h
    | tail _ h ih => exact (lt_of_leftCall_spaced h).trans ih
  have hacyclic : ∀ i,
      ¬ Relation.TransGen (LeftCall (leastNullable spaced) spaced) i i :=
    fun i h => lt_irrefl i (hlt i i h)
  obtain ⟨hrun, depth, hdepth⟩ := within_of_acyclic hacyclic
    (seq (many (rule 0)) (rule 1)) "  (( x))".toList
  have hvalue : within spaced 40 (seq (many (rule 0)) (rule 1))
      "  (( x))".toList = some (some (([2], 2), [])) := by decide
  refine ⟨hacyclic, hrun, depth, fun more hmore => ?_⟩
  rw [hdepth more hmore, within_unique (hdepth more hmore) hvalue]

end Grammar

end FormulaColumn
