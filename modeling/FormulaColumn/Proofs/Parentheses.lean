import FormulaColumn.Proofs.Rendering
import Mathlib.Algebra.Order.Group.Multiset
import Mathlib.Tactic.Abel

/-!
# Parentheses that can be left out

A tree has many sequences of tokens, which differ in the parentheses they
have. The tokens of the tree itself have the fewest: every sequence that the
tree is derived from has them, in order, and apart from them nothing but
parentheses, as many opening as closing (`FormulaGrammar.keeps_of_derives`).

The induction is on the derivation and says more of a phrase: where its tree
would need parentheses to stand for such a phrase, the phrase has them. So what
is kept of an operand are its tokens *with* the parentheses that its place
requires, and this is what the tokens of a tree have for the operand.
-/

namespace FormulaColumn

/-! ## What is kept -/

/-- An opening and a closing parenthesis. -/
def parenthesisPair : Multiset Token := {.punctuation '(', .punctuation ')'}

/-- **Tokens keep others**: they have the others in order, and besides nothing
but parentheses, as many opening as closing. -/
structure Keeps (tokens kept : List Token) : Prop where
  /-- What is kept is kept in order. -/
  sublist : kept.Sublist tokens
  /-- What is not kept is pairs of parentheses. -/
  others : ∃ pairs : ℕ, (tokens : Multiset Token) = kept + pairs • parenthesisPair

namespace Keeps

open Expression (parenthesize parenthesizeIf)

variable {tokens tokens' kept kept' : List Token}

theorem refl (tokens : List Token) : Keeps tokens tokens :=
  ⟨.refl tokens, 0, by simp⟩

theorem append (h : Keeps tokens kept) (h' : Keeps tokens' kept') :
    Keeps (tokens ++ tokens') (kept ++ kept') := by
  obtain ⟨pairs, hothers⟩ := h.others
  obtain ⟨pairs', hothers'⟩ := h'.others
  refine ⟨h.sublist.append h'.sublist, pairs + pairs', ?_⟩
  rw [← Multiset.coe_add, ← Multiset.coe_add, hothers, hothers', add_nsmul]
  abel

theorem cons (t : Token) (h : Keeps tokens kept) :
    Keeps (t :: tokens) (t :: kept) :=
  (refl [t]).append h

/-- Parentheses may be kept with what is between them. -/
theorem parenthesize (h : Keeps tokens kept) :
    Keeps (parenthesize tokens) (parenthesize kept) :=
  (h.append (refl [.punctuation ')'])).cons (.punctuation '(')

/-- **Parentheses may be left out.** -/
theorem of_parenthesize (h : Keeps tokens kept) :
    Keeps (Expression.parenthesize tokens) kept := by
  obtain ⟨pairs, hothers⟩ := h.others
  refine ⟨(h.sublist.trans (List.sublist_append_left _ _)).cons _, pairs + 1, ?_⟩
  have hparentheses : (Expression.parenthesize tokens : Multiset Token)
      = {.punctuation '('} + tokens + {.punctuation ')'} := rfl
  have hpair : parenthesisPair = {.punctuation '('} + {.punctuation ')'} := rfl
  rw [hparentheses, hothers, add_nsmul, one_nsmul, hpair]
  abel

theorem trans {kept' : List Token} (h : Keeps tokens kept)
    (h' : Keeps kept kept') : Keeps tokens kept' := by
  obtain ⟨pairs, hothers⟩ := h.others
  obtain ⟨pairs', hothers'⟩ := h'.others
  refine ⟨h'.sublist.trans h.sublist, pairs' + pairs, ?_⟩
  rw [hothers, hothers', add_nsmul, add_assoc]

/-- **Parentheses that are kept may be left out** where they are not needed. -/
theorem of_parenthesizeIf {needed needed' : Bool}
    (hneeded : needed' = true → needed = true)
    (h : Keeps tokens (parenthesizeIf needed kept)) :
    Keeps tokens (parenthesizeIf needed' kept) := by
  cases needed' with
  | true => rwa [hneeded rfl] at h
  | false =>
    cases needed with
    | true => exact h.trans (of_parenthesize (refl kept))
    | false => exact h

/-- **What is no parenthesis is kept**, and stands in the same order. -/
theorem filter_eq (h : Keeps tokens kept) {p : Token → Bool}
    (hopen : p (.punctuation '(') = false)
    (hclose : p (.punctuation ')') = false) :
    tokens.filter p = kept.filter p := by
  obtain ⟨pairs, hothers⟩ := h.others
  refine ((h.sublist.filter p).eq_of_length ?_).symm
  have hcount := congrArg (Multiset.countP (p · = true)) hothers
  have hpair : Multiset.countP (p · = true) parenthesisPair = 0 := by
    simp [parenthesisPair, Multiset.countP_eq_zero, hopen, hclose]
  rw [Multiset.countP_add, Multiset.countP_nsmul, hpair] at hcount
  simpa [List.countP_eq_length_filter] using hcount.symm

end Keeps

/-! ## What a derivation keeps -/

namespace FormulaGrammar

open Expression (parenthesizeIf)

/-- How strongly a tree binds that stands for such a phrase without
parentheses. -/
def Phrase.strength : Phrase → Nat
  | sum => 1
  | product => 2
  | primitive => 3

/-- A chain keeps the tokens of its tree, if its operands keep theirs with the
parentheses that they need. The induction is on the links: the tree of the
operands so far is the left operand of the next link. -/
theorem keeps_foldl {strength : Nat} {links : List Link}
    (hops : ∀ link ∈ links, link.op.strength = strength)
    (hlinks : ∀ link ∈ links, Keeps link.tokens
      (parenthesizeIf (link.operand.strength ≤ strength) link.operand.tokens))
    {tokens : List Token} {first : Expression}
    (hfirst : Keeps tokens
      (parenthesizeIf (first.strength < strength) first.tokens)) :
    Keeps (tokens ++ links.flatMap Link.written)
      (parenthesizeIf ((links.foldl Link.join first).strength < strength)
        (links.foldl Link.join first).tokens) := by
  induction links generalizing tokens first with
  | nil =>
    rw [List.flatMap_nil, List.append_nil]
    exact hfirst
  | cons link links ih =>
    obtain ⟨hop, hops⟩ := List.forall_mem_cons.mp hops
    obtain ⟨hlink, hlinks⟩ := List.forall_mem_cons.mp hlinks
    -- the operands so far and the next one, with the operator between them
    have hjoin : Keeps (tokens ++ link.written) (Link.join first link).tokens := by
      subst hop
      exact hfirst.append (hlink.cons _)
    have hunneeded : decide ((Link.join first link).strength < strength) = false :=
      decide_eq_false (Nat.not_lt.mpr hop.ge)
    rw [List.flatMap_cons, ← List.append_assoc, List.foldl_cons]
    refine ih hops hlinks ?_
    rw [hunneeded]
    exact hjoin

/-- **A chain keeps the tokens of its tree**, if its operands are phrases that
bind stronger than its operators. -/
theorem keeps_chain {strength : Nat} {links : List Link}
    (hops : ∀ link ∈ links, link.op.strength = strength)
    (hlinks : ∀ link ∈ links, Keeps link.tokens
      (parenthesizeIf (link.operand.strength < strength + 1) link.operand.tokens))
    {tokens : List Token} {first : Expression}
    (hfirst : Keeps tokens
      (parenthesizeIf (first.strength < strength + 1) first.tokens)) :
    Keeps (tokens ++ links.flatMap Link.written)
      (parenthesizeIf ((links.foldl Link.join first).strength < strength)
        (links.foldl Link.join first).tokens) := by
  refine keeps_foldl hops (fun link hlink => ?_) ?_
  · refine (hlinks link hlink).of_parenthesizeIf fun hneeded => ?_
    exact decide_eq_true (Nat.lt_succ_of_le (of_decide_eq_true hneeded))
  · refine hfirst.of_parenthesizeIf fun hneeded => ?_
    exact decide_eq_true (Nat.lt_succ_of_lt (of_decide_eq_true hneeded))

/-- **The tokens of a phrase keep those of its tree**, with parentheses where
the tree needs them to stand for such a phrase. -/
theorem keeps_of_derives {phrase : Phrase} {tokens : List Token}
    {e : Expression} (h : Derives phrase tokens e) :
    Keeps tokens (parenthesizeIf (e.strength < phrase.strength) e.tokens) := by
  induction h with
  | number value => exact .refl _
  | reference column row => exact .refl _
  | call function c d first last => exact .refl _
  | @parenthesized tokens e _ ih =>
    have hsum : Keeps tokens (parenthesizeIf false e.tokens) :=
      ih.of_parenthesizeIf nofun
    by_cases hneeded : e.strength < Phrase.primitive.strength
    · rw [decide_eq_true hneeded]
      exact hsum.parenthesize
    · rw [decide_eq_false hneeded]
      exact hsum.of_parenthesize
  | product _ hops _ ihfirst ihlinks =>
    have hstrength : ∀ op ∈ [ArithOp.mul, .div], op.strength = 2 := by decide
    exact keeps_chain (fun link hlink => hstrength _ (hops link hlink)) ihlinks
      ihfirst
  | sum _ hops _ ihfirst ihlinks =>
    have hstrength : ∀ op ∈ [ArithOp.add, .sub], op.strength = 1 := by decide
    exact keeps_chain (fun link hlink => hstrength _ (hops link hlink)) ihlinks
      ihfirst

end FormulaGrammar

end FormulaColumn
