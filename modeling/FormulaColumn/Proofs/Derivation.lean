import FormulaColumn.FormulaGrammar
import FormulaColumn.Proofs.LeftCalls

/-!
# The formulas, by their derivations

Which token sequences are formulas is said here without the recognizer: by
the rules that derive them, each with the tree of what it derives.

* `sum → product (('+' | '-') product)*`
* `product → primitive (('*' | '/') primitive)*`
* `primitive → number | reference | name '(' reference ':' reference ')'
  | '(' sum ')'`

The rules say which sequences are derived and nothing about how a derivation
is found. The recognizer chooses in order, repeats greedily and never takes a
choice back, and it recognizes exactly the derivable sequences all the same.

What it recognizes is derivable because a match is a sentence. That it loses
no derivation is an induction on the derivation. A repetition could take too
much only if what follows could be read as one more operand, so the statement
of the induction says what follows a phrase: a sum is not followed by an
operator on integers, a product not by `*` or `/`, and of a primitive nothing
has to be known. In a derivation this is always so: a product within a sum
ends before `+`, `-`, a parenthesis or the end.
-/

namespace FormulaColumn

namespace FormulaGrammar

/-- The kinds of phrase of a formula. -/
inductive Phrase where
  /-- An operand of a product. -/
  | primitive
  /-- An operand of a sum. -/
  | product
  /-- What a formula is. -/
  | sum

/-- **A further operand of a chain**, with the operator before it. -/
structure Link where
  /-- The operator before the operand. -/
  op : ArithOp
  /-- The tokens of the operand. -/
  tokens : List Token
  /-- The tree of the operand. -/
  operand : Expression

/-- The tokens of a link: its operator and its operand. -/
def Link.written (link : Link) : List Token :=
  Token.operator link.op.symbol :: link.tokens

/-- The tree of a chain that is one link longer. -/
def Link.join (left : Expression) (link : Link) : Expression :=
  .arith link.op left link.operand

/-- **The derivations**: a phrase of this kind has these tokens and this
tree. -/
inductive Derives : Phrase → List Token → Expression → Prop where
  /-- A number is a primitive. -/
  | number (value : Int64) :
    Derives .primitive [.number value] (.number value)
  /-- A reference is a primitive. -/
  | reference (column : Char) (row : UInt64) :
    Derives .primitive [.reference column row] (.reference column row)
  /-- A function applied to a range of two references is a primitive. -/
  | call (function : String) (c d : Char) (first last : UInt64) :
    Derives .primitive
      [.name function, .punctuation '(', .reference c first, .operator ':',
        .reference d last, .punctuation ')']
      (.call function (.range (.reference c first) (.reference d last)))
  /-- A sum in parentheses is a primitive, with the tree of the sum. -/
  | parenthesized {tokens : List Token} {e : Expression} :
    Derives .sum tokens e →
    Derives .primitive
      (.punctuation '(' :: tokens ++ [.punctuation ')']) e
  /-- Primitives with `*` and `/` between them are a product, whose tree
  leans to the left. -/
  | product {tokens : List Token} {first : Expression} {links : List Link} :
    Derives .primitive tokens first →
    (∀ link ∈ links, link.op ∈ [ArithOp.mul, .div]) →
    (∀ link ∈ links, Derives .primitive link.tokens link.operand) →
    Derives .product (tokens ++ links.flatMap Link.written)
      (links.foldl Link.join first)
  /-- Products with `+` and `-` between them are a sum, whose tree leans to
  the left. -/
  | sum {tokens : List Token} {first : Expression} {links : List Link} :
    Derives .product tokens first →
    (∀ link ∈ links, link.op ∈ [ArithOp.add, .sub]) →
    (∀ link ∈ links, Derives .product link.tokens link.operand) →
    Derives .sum (tokens ++ links.flatMap Link.written)
      (links.foldl Link.join first)

/-! ## What is recognized is derivable -/

section Sound

variable {R : Fin 1 → List Token → Expression → Prop}

/-- A choice of operators has the operators as its sentences. -/
theorem generates_symbols {operators : List ArithOp} {items : List Token}
    {op : ArithOp} :
    (Grammar.choice (operators.map symbol)).Generates R items op
      ↔ op ∈ operators ∧ items = [Token.operator op.symbol] := by
  rw [Grammar.generates_choice]
  constructor
  · rintro ⟨_, hmem, hgen⟩
    obtain ⟨other, hother, rfl⟩ := List.mem_map.mp hmem
    obtain ⟨_, hitems, rfl⟩ := Grammar.generates_map.mp hgen
    exact ⟨hother, (Grammar.generates_literal.mp hitems).1⟩
  · rintro ⟨hmem, rfl⟩
    exact ⟨symbol op, List.mem_map_of_mem hmem, Grammar.generates_map.mpr
      ⟨_, Grammar.generates_literal.mpr ⟨rfl, rfl⟩, rfl⟩⟩

/-- The repetition of a chain has sequences of links as its sentences. -/
theorem exists_links {operators : List ArithOp} {operand : Part Expression}
    (blocks : List (List Token × (ArithOp × Expression)))
    (h : ∀ block ∈ blocks,
      (Grammar.seq (.choice (operators.map symbol)) operand).Generates R
        block.1 block.2) :
    ∃ links : List Link,
      blocks.flatMap Prod.fst = links.flatMap Link.written
        ∧ blocks.map Prod.snd = links.map (fun link => (link.op, link.operand))
        ∧ (∀ link ∈ links, link.op ∈ operators)
        ∧ ∀ link ∈ links, operand.Generates R link.tokens link.operand := by
  induction blocks with
  | nil => exact ⟨[], rfl, rfl, by simp, by simp⟩
  | cons block blocks ih =>
    obtain ⟨links, hwritten, hpairs, hops, hgen⟩ :=
      ih (fun other hmem => h other (List.mem_cons_of_mem _ hmem))
    obtain ⟨first, tokens, hblock, hop, hoperand⟩ :=
      h block List.mem_cons_self
    obtain ⟨hmem, rfl⟩ := generates_symbols.mp hop
    refine ⟨⟨block.2.1, tokens, block.2.2⟩ :: links, ?_, ?_, ?_, ?_⟩
    · rw [List.flatMap_cons, List.flatMap_cons, hwritten, hblock]
      rfl
    · rw [List.map_cons, List.map_cons, hpairs]
    · exact List.forall_mem_cons.mpr ⟨hmem, hops⟩
    · exact List.forall_mem_cons.mpr ⟨hoperand, hgen⟩

theorem foldChain_map (first : Expression) (links : List Link) :
    foldChain first (links.map fun link => (link.op, link.operand))
      = links.foldl Link.join first := by
  rw [foldChain, List.foldl_map]
  rfl

/-- **A sentence of a chain** is an operand and links, and its tree is the
operand joined with the links from the left. -/
theorem exists_links_of_generates_chain {operators : List ArithOp}
    {operand : Part Expression} {items : List Token} {e : Expression}
    (h : (chain operators operand).Generates R items e) :
    ∃ (tokens : List Token) (first : Expression) (links : List Link),
      items = tokens ++ links.flatMap Link.written
        ∧ e = links.foldl Link.join first
        ∧ operand.Generates R tokens first
        ∧ (∀ link ∈ links, link.op ∈ operators)
        ∧ ∀ link ∈ links, operand.Generates R link.tokens link.operand := by
  obtain ⟨⟨first, rest⟩, ⟨tokens, _, rfl, hfirst, blocks, rfl, hrest, hblocks⟩,
    rfl⟩ := Grammar.generates_map.mp h
  obtain ⟨links, hwritten, hpairs, hops, hgen⟩ := exists_links blocks hblocks
  refine ⟨tokens, first, links, ?_, ?_, hfirst, hops, hgen⟩
  · rw [hwritten]
  · rw [← foldChain_map, ← hpairs]
    exact congrArg (foldChain first) hrest

/-- A sentence in parentheses. -/
theorem exists_of_generates_parenthesized {α : Type} {p : Part α}
    {items : List Token} {value : α}
    (h : (parenthesized p).Generates R items value) :
    ∃ tokens,
      items = .punctuation '(' :: tokens ++ [.punctuation ')']
        ∧ p.Generates R tokens value := by
  obtain ⟨_, _, rfl, hleft, _, hclose⟩ := Grammar.generates_seqLeft.mp h
  obtain ⟨_, tokens, rfl, ⟨_, hopen⟩, hp⟩ := Grammar.generates_seqRight.mp hleft
  rw [(Grammar.generates_literal.mp hopen).1,
    (Grammar.generates_literal.mp hclose).1]
  exact ⟨tokens, rfl, hp⟩

/-- The sentence of a reference. -/
theorem exists_of_generates_reference {items : List Token} {e : Expression}
    (h : reference.Generates R items e) :
    ∃ column row, items = [.reference column row]
      ∧ e = .reference column row := by
  obtain ⟨token, rfl, htoken⟩ := h
  cases token with
  | reference column row => exact ⟨column, row, rfl, (Option.some.inj htoken).symm⟩
  | number _ => cases htoken
  | operator _ => cases htoken
  | punctuation _ => cases htoken
  | name _ => cases htoken

/-- The sentence of a number is derivable. -/
theorem derives_of_generates_number {items : List Token} {e : Expression}
    (h : number.Generates R items e) : Derives .primitive items e := by
  obtain ⟨value, ⟨token, rfl, htoken⟩, rfl⟩ := Grammar.generates_map.mp h
  cases token with
  | number value' =>
    obtain rfl := Option.some.inj htoken
    exact .number value'
  | reference _ _ => cases htoken
  | operator _ => cases htoken
  | punctuation _ => cases htoken
  | name _ => cases htoken

/-- The sentence of a call is derivable. -/
theorem derives_of_generates_call {items : List Token} {e : Expression}
    (h : call.Generates R items e) : Derives .primitive items e := by
  obtain ⟨⟨_, argument⟩, ⟨_, _, rfl, ⟨token, rfl, htoken⟩, hargument⟩, rfl⟩ :=
    Grammar.generates_map.mp h
  obtain ⟨tokens, rfl, hrange⟩ := exists_of_generates_parenthesized hargument
  obtain ⟨⟨start, stop⟩, ⟨_, _, rfl, hstart, hstop⟩, rfl⟩ :=
    Grammar.generates_map.mp hrange
  obtain ⟨_, _, rfl, hstart, _, hcolon⟩ := Grammar.generates_seqLeft.mp hstart
  obtain ⟨c, first, rfl, rfl⟩ := exists_of_generates_reference hstart
  obtain ⟨d, last, rfl, rfl⟩ := exists_of_generates_reference hstop
  rw [(Grammar.generates_literal.mp hcolon).1]
  cases token with
  | name function =>
    obtain rfl := Option.some.inj htoken
    exact .call function c d first last
  | number _ => cases htoken
  | reference _ _ => cases htoken
  | operator _ => cases htoken
  | punctuation _ => cases htoken

/-- The sentences of a primitive are derivable if those of the rule are. -/
theorem derives_of_generates_primitive {items : List Token} {e : Expression}
    (h : primitive.Generates (fun _ => Derives .sum) items e) :
    Derives .primitive items e := by
  obtain ⟨p, hp, hgen⟩ := Grammar.generates_choice.mp h
  simp only [List.mem_cons, List.not_mem_nil, or_false] at hp
  rcases hp with rfl | rfl | rfl | rfl
  · exact derives_of_generates_number hgen
  · obtain ⟨column, row, rfl, rfl⟩ := exists_of_generates_reference hgen
    exact .reference column row
  · exact derives_of_generates_call hgen
  · obtain ⟨tokens, rfl, hsum⟩ := exists_of_generates_parenthesized hgen
    exact .parenthesized hsum

/-- **The sentences of a sum are derivable** if those of the rule are. -/
theorem derives_of_generates_sum {items : List Token} {e : Expression}
    (h : sum.Generates (fun _ => Derives .sum) items e) :
    Derives .sum items e := by
  have hproduct : ∀ items e, product.Generates (fun _ => Derives .sum) items e →
      Derives .product items e := by
    intro items e h
    obtain ⟨tokens, first, links, rfl, rfl, hfirst, hops, hlinks⟩ :=
      exists_links_of_generates_chain h
    exact .product (derives_of_generates_primitive hfirst) hops
      (fun link hlink => derives_of_generates_primitive (hlinks link hlink))
  obtain ⟨tokens, first, links, rfl, rfl, hfirst, hops, hlinks⟩ :=
    exists_links_of_generates_chain h
  exact .sum (hproduct _ _ hfirst) hops
    (fun link hlink => hproduct _ _ (hlinks link hlink))

end Sound

/-! ## What is derivable is recognized -/

/-- The description of a kind of phrase. -/
def Phrase.part : Phrase → Part Expression
  | primitive => FormulaGrammar.primitive
  | product => FormulaGrammar.product
  | sum => FormulaGrammar.sum

/-- The operators after which a phrase would go on. -/
def Phrase.continuedBy : Phrase → List ArithOp
  | primitive => []
  | product => [.mul, .div]
  | sum => [.add, .sub, .mul, .div]

/-- The tokens do not start with one of these operators. -/
def Stops (operators : List ArithOp) (tokens : List Token) : Prop :=
  ∀ op ∈ operators, ∀ rest, tokens ≠ Token.operator op.symbol :: rest

theorem Stops.mono {operators others : List ArithOp} {tokens : List Token}
    (hsub : others ⊆ operators) (h : Stops operators tokens) :
    Stops others tokens :=
  fun op hop => h op (hsub hop)

/-- Operators are told apart by their symbols. -/
theorem symbol_injective {op other : ArithOp}
    (h : op.symbol = other.symbol) : op = other := by
  have hop : Operator.ofSymbol? op.symbol = some (.arith op) :=
    Operator.ofSymbol?_eq_some_iff.mpr rfl
  have hother : Operator.ofSymbol? op.symbol = some (.arith other) :=
    Operator.ofSymbol?_eq_some_iff.mpr h
  exact Operator.arith.inj (Option.some.inj (hop.symm.trans hother))

/-- Links stop at the operators that are not theirs. -/
theorem stops_links {operators inner : List ArithOp} {links : List Link}
    {rest : List Token} (hops : ∀ link ∈ links, link.op ∈ operators)
    (hdisjoint : ∀ op ∈ operators, op ∉ inner) (hrest : Stops inner rest) :
    Stops inner (links.flatMap Link.written ++ rest) := by
  cases links with
  | nil => exact hrest
  | cons link links =>
    intro op hop tail h
    have hsymbol : link.op.symbol = op.symbol :=
      Token.operator.inj (List.cons.inj h).1
    have hlink : link.op ∈ operators := hops link List.mem_cons_self
    exact hdisjoint _ hlink (symbol_injective hsymbol ▸ hop)

section Complete

variable {pending : List (Fin 1)}

/-- One of the operators is recognized. -/
theorem step_symbols_of_mem {operators : List ArithOp} {op : ArithOp}
    (hop : op ∈ operators) (rest : List Token) :
    Grammar.step rules pending (.choice (operators.map symbol))
        (Token.operator op.symbol :: rest)
      = .found op rest := by
  obtain ⟨before, after, rfl, hbefore⟩ := List.eq_append_cons_of_mem hop
  rw [List.map_append, List.map_cons]
  refine Grammar.step_choice_of_found _ _ ?_ ?_
  · intro p hp
    obtain ⟨other, hother, rfl⟩ := List.mem_map.mp hp
    unfold symbol
    rw [Grammar.step_map, Grammar.step_literal_of_ne]
    · rfl
    intro tail h
    have hsymbol : op.symbol = other.symbol :=
      Token.operator.inj (List.cons.inj h).1
    exact hbefore (symbol_injective hsymbol ▸ hother)
  · unfold symbol
    rw [Grammar.step_map, Grammar.step_literal_self]
    rfl

theorem step_symbols_of_stops {operators : List ArithOp} {rest : List Token}
    (h : Stops operators rest) :
    Grammar.step rules pending (.choice (operators.map symbol)) rest
      = .noMatch := by
  refine Grammar.step_choice_of_noMatch fun p hp => ?_
  obtain ⟨op, hop, rfl⟩ := List.mem_map.mp hp
  unfold symbol
  rw [Grammar.step_map, Grammar.step_literal_of_ne (h op hop)]
  rfl

/-- **A description reads an operand**: it matches exactly these tokens, of
this tree, before everything that stops at the operators `inner`. -/
def ReadsBefore (inner : List ArithOp) (p : Part Expression)
    (tokens : List Token) (e : Expression) : Prop :=
  ∀ rest, Stops inner rest → ∀ pending,
    Grammar.step rules pending p (tokens ++ rest) = .found e rest

/-- **The repetition of a chain reads all links**, since each link stops the
operand before it. -/
theorem step_links {operators inner : List ArithOp}
    {operand : Part Expression} (hdisjoint : ∀ op ∈ operators, op ∉ inner)
    {links : List Link} (hops : ∀ link ∈ links, link.op ∈ operators)
    (hread : ∀ link ∈ links,
      ReadsBefore inner operand link.tokens link.operand)
    {rest : List Token} (hrest : Stops operators rest)
    (hinner : Stops inner rest) (pending : List (Fin 1)) :
    Grammar.step rules pending
        (.many (.seq (.choice (operators.map symbol)) operand))
        (links.flatMap Link.written ++ rest)
      = .found (links.map fun link => (link.op, link.operand)) rest := by
  induction links generalizing pending with
  | nil =>
    exact Grammar.step_many_of_noMatch
      (Grammar.step_seq_of_noMatch (step_symbols_of_stops hrest))
  | cons link links ih =>
    obtain ⟨hop, hops⟩ := List.forall_mem_cons.mp hops
    obtain ⟨hlink, hread⟩ := List.forall_mem_cons.mp hread
    -- the next link, or what follows the chain, stops the operand
    have hafter : Stops inner (links.flatMap Link.written ++ rest) :=
      stops_links hops hdisjoint hinner
    have hfirst : Grammar.step rules pending
        (.seq (.choice (operators.map symbol)) operand)
        (link.written ++ (links.flatMap Link.written ++ rest))
          = .found (link.op, link.operand)
            (links.flatMap Link.written ++ rest) := by
      show Grammar.step rules pending _
        (Token.operator link.op.symbol :: (link.tokens ++ _)) = _
      rw [Grammar.step_seq_of_found (step_symbols_of_mem hop _)
        (Nat.lt_succ_self _), hlink _ hafter]
      rfl
    rw [List.flatMap_cons, List.append_assoc,
      Grammar.step_many_of_found hfirst
        (Grammar.length_lt_append (List.cons_ne_nil _ _) _),
      ih hops hread]
    rfl

/-- **A chain reads its operand and its links.** -/
theorem readsBefore_chain {operators inner : List ArithOp}
    {operand : Part Expression} (hdisjoint : ∀ op ∈ operators, op ∉ inner)
    {tokens : List Token} (htokens : tokens ≠ []) {first : Expression}
    (hfirst : ReadsBefore inner operand tokens first)
    {links : List Link} (hops : ∀ link ∈ links, link.op ∈ operators)
    (hread : ∀ link ∈ links,
      ReadsBefore inner operand link.tokens link.operand) :
    ReadsBefore (operators ++ inner) (chain operators operand)
      (tokens ++ links.flatMap Link.written) (links.foldl Link.join first) := by
  intro rest hrest pending
  have hinner : Stops inner rest := hrest.mono (List.subset_append_right _ _)
  have houter : Stops operators rest := hrest.mono (List.subset_append_left _ _)
  have hafter : Stops inner (links.flatMap Link.written ++ rest) :=
    stops_links hops hdisjoint hinner
  unfold chain
  rw [Grammar.step_map, List.append_assoc,
    Grammar.step_seq_of_found (hfirst _ hafter pending)
      (Grammar.length_lt_append htokens _),
    step_links hdisjoint hops hread houter hinner]
  exact congrArg (Outcome.found · rest) (foldChain_map first links)

theorem step_parenthesized {α : Type} {p : Part α} {tokens : List Token}
    {value : α} {rest : List Token}
    (h : Grammar.step rules (List.finRange 1) p
        (tokens ++ .punctuation ')' :: rest)
      = .found value (.punctuation ')' :: rest)) :
    Grammar.step rules pending (parenthesized p)
        (.punctuation '(' :: tokens ++ .punctuation ')' :: rest)
      = .found value rest :=
  Grammar.step_between_of_found (Grammar.step_literal_self _ _)
    (Nat.lt_succ_self _) h (Grammar.step_literal_self _ _)

theorem step_number (value : Int64) (rest : List Token) :
    Grammar.step rules pending number (.number value :: rest)
      = .found (.number value) rest := by
  have hvalue : numberValue? (.number value) = some value := rfl
  unfold number
  rw [Grammar.step_map, Grammar.step_select_of_some hvalue]
  rfl

theorem step_number_of_none {token : Token} (h : numberValue? token = none)
    (rest : List Token) :
    Grammar.step rules pending number (token :: rest) = .noMatch := by
  unfold number
  rw [Grammar.step_map, Grammar.step_select_of_none h]
  rfl

theorem step_reference (column : Char) (row : UInt64) (rest : List Token) :
    Grammar.step rules pending reference (.reference column row :: rest)
      = .found (.reference column row) rest := by
  have hvalue : referenceExpression? (.reference column row)
      = some (.reference column row) := rfl
  unfold reference
  rw [Grammar.step_select_of_some hvalue]

theorem step_reference_of_none {token : Token}
    (h : referenceExpression? token = none) (rest : List Token) :
    Grammar.step rules pending reference (token :: rest) = .noMatch := by
  unfold reference
  rw [Grammar.step_select_of_none h]

theorem step_call_of_none {token : Token} (h : nameText? token = none)
    (rest : List Token) :
    Grammar.step rules pending call (token :: rest) = .noMatch := by
  unfold call
  rw [Grammar.step_map, Grammar.step_seq_of_noMatch
    (Grammar.step_select_of_none h rest)]
  rfl

/-- A range of two references is read. -/
theorem step_range (c d : Char) (first last : UInt64) (rest : List Token) :
    Grammar.step rules pending range
        (.reference c first :: .operator ':' :: .reference d last :: rest)
      = .found (.range (.reference c first) (.reference d last)) rest := by
  have hstart : Grammar.step rules pending
      (.seqLeft reference (.literal (Token.operator Operator.range.symbol)))
      (.reference c first :: .operator ':' :: .reference d last :: rest)
        = .found (.reference c first) (.reference d last :: rest) := by
    unfold Grammar.seqLeft
    rw [Grammar.step_map,
      Grammar.step_seq_of_found (step_reference c first _)
        (Nat.lt_succ_self _)]
    exact congrArg _ (congrArg _ (Grammar.step_literal_self _ _))
  unfold range
  rw [Grammar.step_map, Grammar.step_seq_of_found hstart
    (by simp only [List.length_cons]; omega), step_reference]
  rfl

/-- A call of a range is read. -/
theorem step_call (function : String) (c d : Char) (first last : UInt64)
    (rest : List Token) :
    Grammar.step rules pending call
        (.name function :: .punctuation '(' :: .reference c first
          :: .operator ':' :: .reference d last :: .punctuation ')' :: rest)
      = .found (.call function (.range (.reference c first)
          (.reference d last))) rest := by
  have hname : nameText? (.name function) = some function := rfl
  have hrange : Grammar.step rules (List.finRange 1) range
      ([.reference c first, .operator ':', .reference d last]
        ++ .punctuation ')' :: rest)
        = .found (.range (.reference c first) (.reference d last))
          (.punctuation ')' :: rest) :=
    step_range c d first last _
  unfold call
  rw [Grammar.step_map, Grammar.step_seq_of_found
    (Grammar.step_select_of_some hname _) (Nat.lt_succ_self _)]
  exact congrArg _ (congrArg _ (step_parenthesized hrange))

/-- A phrase has tokens. -/
theorem Derives.tokens_ne_nil {phrase : Phrase} {tokens : List Token}
    {e : Expression} (h : Derives phrase tokens e) : tokens ≠ [] := by
  induction h with
  | number _ => exact List.cons_ne_nil _ _
  | reference _ _ => exact List.cons_ne_nil _ _
  | call _ _ _ _ _ => exact List.cons_ne_nil _ _
  | parenthesized _ _ => exact List.cons_ne_nil _ _
  | product _ _ _ ih _ => exact List.append_ne_nil_of_left_ne_nil ih _
  | sum _ _ _ ih _ => exact List.append_ne_nil_of_left_ne_nil ih _

/-- **Every derivation is followed**: the description of a kind of phrase
reads what is derived as one. -/
theorem readsBefore_of_derives {phrase : Phrase} {tokens : List Token}
    {e : Expression} (h : Derives phrase tokens e) :
    ReadsBefore phrase.continuedBy phrase.part tokens e := by
  induction h with
  | number value =>
    intro rest _ pending
    exact Grammar.step_choice_of_found []
      [reference, call, parenthesized (.rule nested)]
      (List.forall_mem_nil _) (step_number value rest)
  | reference column row =>
    intro rest _ pending
    refine Grammar.step_choice_of_found [number]
      [call, parenthesized (.rule nested)] ?_ (step_reference column row rest)
    exact List.forall_mem_singleton.mpr (step_number_of_none rfl rest)
  | call function c d first last =>
    intro rest _ pending
    refine Grammar.step_choice_of_found [number, reference]
      [parenthesized (.rule nested)] ?_ (step_call function c d first last rest)
    refine List.forall_mem_cons.mpr ⟨step_number_of_none rfl _, ?_⟩
    exact List.forall_mem_singleton.mpr (step_reference_of_none rfl _)
  | @parenthesized tokens e _ ih =>
    intro rest _ pending
    have hnested : Grammar.step rules (List.finRange 1) (.rule nested)
        (tokens ++ .punctuation ')' :: rest)
          = .found e (.punctuation ')' :: rest) := by
      rw [Grammar.step, if_pos (List.mem_finRange nested)]
      exact ih _ (fun _ _ _ h => Token.noConfusion (List.cons.inj h).1) _
    rw [List.append_assoc]
    refine Grammar.step_choice_of_found [number, reference, call] [] ?_
      (step_parenthesized hnested)
    refine List.forall_mem_cons.mpr ⟨step_number_of_none rfl _, ?_⟩
    refine List.forall_mem_cons.mpr ⟨step_reference_of_none rfl _, ?_⟩
    exact List.forall_mem_singleton.mpr (step_call_of_none rfl _)
  | product hfirst hops _ ihfirst ihlinks =>
    exact readsBefore_chain (fun _ _ => List.not_mem_nil) hfirst.tokens_ne_nil ihfirst hops ihlinks
  | sum hfirst hops _ ihfirst ihlinks =>
    exact readsBefore_chain (by decide) hfirst.tokens_ne_nil ihfirst hops ihlinks

end Complete

/-! ## The recognizer -/

/-- **No run of the rules recurses to the left**: a sum enters no rule before
something is consumed. -/
theorem run_formula_ne_leftRecursion (tokens : List Token) :
    Grammar.run rules formula tokens ≠ .leftRecursion := by
  refine Grammar.run_ne_leftRecursion (N := fun _ => false) ?_ ?_ _ _
  · intro i h
    exact h
  · intro i h
    obtain ⟨j, hj, -⟩ := Relation.TransGen.head'_iff.mp h
    exact absurd hj List.not_mem_nil

/-- What is recognized is derivable, and nothing of it is left. -/
theorem derives_of_run_formula {tokens rest : List Token} {e : Expression}
    (h : Grammar.run rules formula tokens = .found e rest) :
    Derives .sum tokens e := by
  unfold Grammar.run formula Grammar.seqLeft at h
  rw [Grammar.step_map, Outcome.map_eq_found_iff] at h
  obtain ⟨⟨e', _⟩, hseq, rfl⟩ := h
  obtain ⟨between, _, hsum, hend⟩ := Grammar.exists_of_step_seq hseq
  obtain ⟨rfl, -⟩ := Grammar.step_endOfInput_eq_found_iff.mp hend
  obtain ⟨items, rfl, hgen⟩ := Grammar.generates_of_step
    (R := fun _ => Derives .sum)
    (fun _ _ _ => derives_of_generates_sum) _ _ tokens hsum
  rw [List.append_nil]
  exact hgen

/-- What is derivable is recognized, to its end. -/
theorem run_formula_of_derives {tokens : List Token} {e : Expression}
    (h : Derives .sum tokens e) :
    Grammar.run rules formula tokens = .found e [] := by
  have hsum : Grammar.step rules (List.finRange 1) (.rule nested) tokens
      = .found e [] := by
    have hread := readsBefore_of_derives h [] (fun _ _ _ h => nomatch h)
    rw [List.append_nil] at hread
    rw [Grammar.step, if_pos (List.mem_finRange nested)]
    exact hread _
  unfold Grammar.run formula Grammar.seqLeft
  rw [Grammar.step_map,
    Grammar.step_seq_of_found hsum (List.length_pos_iff.mpr h.tokens_ne_nil),
    Grammar.step]
  rfl

/-- **A sequence has a tree exactly where one is derived.** -/
theorem ofTokens?_eq_some_iff {tokens : List Token} {e : Expression} :
    Expression.ofTokens? tokens = some e ↔ Derives .sum tokens e := by
  unfold Expression.ofTokens?
  constructor
  · intro h
    cases hrun : Grammar.run rules formula tokens with
    | found value rest =>
      rw [hrun] at h
      obtain rfl := Option.some.inj h
      exact derives_of_run_formula hrun
    | noMatch => rw [hrun] at h; cases h
    | leftRecursion => rw [hrun] at h; cases h
  · intro h
    rw [run_formula_of_derives h]
    rfl

/-- **A derivation has one tree**: the tokens of a phrase say its tree. -/
theorem Derives.unique {phrase : Phrase} {tokens : List Token}
    {e e' : Expression} (h : Derives phrase tokens e)
    (h' : Derives phrase tokens e') : e = e' := by
  have hstops : Stops phrase.continuedBy [] := fun _ _ _ h => nomatch h
  have hfound := (readsBefore_of_derives h [] hstops []).symm.trans
    (readsBefore_of_derives h' [] hstops [])
  exact (Outcome.found.inj hfound).1

/-- **The recognizer accepts exactly the derivable sequences**, each with the
tree of its derivations, which is one. It has an answer for every sequence:
no run of it recurses without consuming, and it answers that there is no tree
exactly where none is derived. -/
theorem ofTokens?_recognizes_derivations (tokens : List Token) :
    (∀ e, Expression.ofTokens? tokens = some e ↔ Derives .sum tokens e)
      ∧ (∀ phrase e e', Derives phrase tokens e → Derives phrase tokens e' →
        e = e')
      ∧ Grammar.run rules formula tokens ≠ .leftRecursion
      ∧ (Expression.ofTokens? tokens = none ↔ ¬ ∃ e, Derives .sum tokens e) := by
  refine ⟨fun e => ofTokens?_eq_some_iff, fun _ _ _ h h' => h.unique h',
    run_formula_ne_leftRecursion tokens, ?_⟩
  rw [Option.eq_none_iff_forall_ne_some, not_exists]
  exact forall_congr' fun e => not_congr ofTokens?_eq_some_iff

end FormulaGrammar

end FormulaColumn
