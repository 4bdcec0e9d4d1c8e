import FormulaColumn.JsonGrammar
import FormulaColumn.Proofs.JsonScanning

/-!
# Reading JSON trees

Every text of a tree is read as the tree, in whatever forms its tokens are and
whatever blanks stand between them, if not too many of its brackets are open at
once (`JsonTree.ofText?_of_writtenAs`). So no text is one of two trees, however
deep they are (`JsonTree.eq_of_writtenAs`).

What starts with a bracket is read by the alternative of that bracket only, so
the reading of an array or an object is that of what stands in it
(`JsonGrammar.reads`). Deep texts are refused before they are read, by the
number of brackets that are open at once.
-/

namespace FormulaColumn

namespace JsonGrammar

section Step

/-! ## Trees -/

/-- Where every rule may be entered, the rule of a tree is a tree. -/
theorem step_nested (input : List JsonToken) :
    Grammar.step rules (List.finRange 1) (.rule nested) input
      = Grammar.step rules ((List.finRange 1).erase nested) tree input := by
  rw [Grammar.step, if_pos (List.mem_finRange nested)]
  rfl

/-- **A tree is read back**: its tokens are read as the tree, whatever follows
them. -/
def Reads (t : JsonTree) : Prop :=
  ∀ rest, Grammar.step rules (List.finRange 1) (.rule nested)
    (t.tokens ++ rest) = .found t rest

/-- A tree that is a token by itself is read back. -/
theorem reads_leaf {token : JsonToken} {t : JsonTree} (h : leaf? token = some t)
    (htokens : t.tokens = [token]) : Reads t := by
  intro rest
  rw [step_nested, htokens]
  exact Grammar.step_choice_of_found [] _ (List.forall_mem_nil _)
    (Grammar.step_select_of_some h rest)

variable {pending : List (Fin 1)}

/-- What is enclosed in brackets is not read where the first one is missing. -/
theorem step_enclosed_of_ne {α β : Type} {f : α → β} {opening closing : JsonToken}
    {p : Part α} {input : List JsonToken} (h : ∀ rest, input ≠ opening :: rest) :
    Grammar.step rules pending
      (.map f (.between (.literal opening) p (.literal closing))) input
        = .noMatch := by
  rw [Grammar.step_map,
    Grammar.step_between_of_noMatch (Grammar.step_literal_of_ne h)]
  rfl

/-- **What is enclosed in brackets is read** as what stands between them. -/
theorem step_enclosed_of_found {α β : Type} {f : α → β}
    {opening closing : JsonToken} {p : Part α} {input rest : List JsonToken}
    {value : α}
    (h : Grammar.step rules (List.finRange 1) p input
      = .found value (closing :: rest)) :
    Grammar.step rules pending
      (.map f (.between (.literal opening) p (.literal closing)))
      (opening :: input) = .found (f value) rest := by
  rw [Grammar.step_map,
    Grammar.step_between_of_found (Grammar.step_literal_self _ _)
      (Nat.lt_succ_self _) h (Grammar.step_literal_self _ _)]
  rfl

/-- An object is read back if its content is. -/
theorem reads_object {name : String} {content : JsonTree} (h : Reads content) :
    Reads (.object name content) := by
  intro rest
  have htokens : (JsonTree.object name content).tokens ++ rest
      = .beginObject :: .string name :: .colon
        :: (content.tokens ++ .endObject :: rest) := by
    simp [JsonTree.tokens]
  have hname : stringText? (.string name) = some name := rfl
  have hmember : Grammar.step rules (List.finRange 1) member
      (.string name :: .colon :: (content.tokens ++ .endObject :: rest))
        = .found (name, content) (.endObject :: rest) := by
    unfold member
    rw [Grammar.step_seq_of_found (Grammar.step_select_of_some hname _)
        (Nat.lt_succ_self _),
      Grammar.step_seqRight_of_found (Grammar.step_literal_self _ _)
        (Nat.lt_succ_self _),
      h]
    rfl
  rw [step_nested, htokens]
  exact Grammar.step_choice_of_found [.select leaf?, array] []
    (List.forall_mem_cons.mpr ⟨Grammar.step_select_of_none rfl _,
      List.forall_mem_singleton.mpr (step_enclosed_of_ne fun _ => nofun)⟩)
    (step_enclosed_of_found hmember)

/-! ## Arrays -/

/-- A tree has tokens. -/
theorem tokens_ne_nil (t : JsonTree) : t.tokens ≠ [] := by
  cases t with
  | null => exact List.cons_ne_nil _ _
  | integer => exact List.cons_ne_nil _ _
  | string => exact List.cons_ne_nil _ _
  | array => exact List.cons_ne_nil _ _
  | object => exact List.cons_ne_nil _ _

theorem itemsTokens_cons (item : JsonTree) (items : List JsonTree) :
    JsonTree.itemsTokens (item :: items)
      = item.tokens ++ items.flatMap fun next => .comma :: next.tokens := by
  induction items generalizing item with
  | nil => rw [JsonTree.itemsTokens, List.flatMap_nil, List.append_nil]
  | cons next items ih =>
    rw [JsonTree.itemsTokens, ih, List.flatMap_cons, List.cons_append]

/-- The items after the first are read as far as no comma follows. -/
theorem step_others {others : List JsonTree} (h : ∀ t ∈ others, Reads t)
    {rest : List JsonToken} (hrest : ∀ tokens, rest ≠ .comma :: tokens) :
    Grammar.step rules pending
        (.many (.seqRight (.literal .comma) (.rule nested)))
        (others.flatMap (fun next => .comma :: next.tokens) ++ rest)
      = .found others rest := by
  induction others generalizing pending with
  | nil =>
    exact Grammar.step_many_of_noMatch (Grammar.step_seqRight_of_noMatch
      (Grammar.step_literal_of_ne hrest))
  | cons next others ih =>
    obtain ⟨hnext, hothers⟩ := List.forall_mem_cons.mp h
    have hitem (tokens : List JsonToken) : Grammar.step rules pending
        (.seqRight (.literal .comma) (.rule nested))
        ((.comma :: next.tokens) ++ tokens) = .found next tokens :=
      (Grammar.step_seqRight_of_found (Grammar.step_literal_self JsonToken.comma _)
        (Nat.lt_succ_self _)).trans (hnext tokens)
    rw [List.flatMap_cons, List.append_assoc,
      Grammar.step_many_of_found (hitem _)
        (Grammar.length_lt_append (List.cons_ne_nil _ _) _),
      ih hothers]
    rfl

/-- **The items of an array are read** as far as its end. -/
theorem step_items {list : List JsonTree} (h : ∀ t ∈ list, Reads t)
    (rest : List JsonToken) :
    Grammar.step rules (List.finRange 1) items
        (JsonTree.itemsTokens list ++ .endArray :: rest)
      = .found list (.endArray :: rest) := by
  unfold items
  rw [Grammar.step_map]
  cases list with
  | nil =>
    have hnone : Grammar.step rules (List.finRange 1) (.rule nested)
        (.endArray :: rest) = .noMatch := by
      rw [step_nested]
      exact Grammar.step_choice_of_noMatch
        (List.forall_mem_cons.mpr ⟨Grammar.step_select_of_none rfl _,
          List.forall_mem_cons.mpr ⟨step_enclosed_of_ne fun _ => nofun,
            List.forall_mem_singleton.mpr (step_enclosed_of_ne fun _ => nofun)⟩⟩)
    show Outcome.map _ (Grammar.step rules (List.finRange 1) _
      (.endArray :: rest)) = _
    rw [Grammar.step_optional_of_noMatch (Grammar.step_seq_of_noMatch hnone)]
    rfl
  | cons first others =>
    obtain ⟨hfirst, hothers⟩ := List.forall_mem_cons.mp h
    have hend (tokens : List JsonToken) :
        JsonToken.endArray :: rest ≠ .comma :: tokens := nofun
    have hpair : Grammar.step rules (List.finRange 1)
        (.seq (.rule nested)
          (.many (.seqRight (.literal .comma) (.rule nested))))
        (JsonTree.itemsTokens (first :: others) ++ .endArray :: rest)
          = .found (first, others) (.endArray :: rest) := by
      rw [itemsTokens_cons, List.append_assoc,
        Grammar.step_seq_of_found (hfirst _)
          (Grammar.length_lt_append (tokens_ne_nil first) _),
        step_others hothers hend]
      rfl
    rw [Grammar.step_optional_of_found hpair]
    rfl

/-- An array is read back if its items are. -/
theorem reads_array {list : List JsonTree} (h : ∀ t ∈ list, Reads t) :
    Reads (.array list) := by
  intro rest
  have htokens : (JsonTree.array list).tokens ++ rest
      = .beginArray :: (JsonTree.itemsTokens list ++ .endArray :: rest) := by
    simp [JsonTree.tokens]
  rw [step_nested, htokens]
  exact Grammar.step_choice_of_found [.select leaf?] [object]
    (List.forall_mem_singleton.mpr (Grammar.step_select_of_none rfl _))
    (step_enclosed_of_found (step_items h rest))

/-- **Every tree is read back from its tokens.** -/
theorem reads (t : JsonTree) : Reads t := by
  induction t using JsonTree.induction with
  | null => exact reads_leaf rfl rfl
  | integer n => exact reads_leaf rfl rfl
  | string text => exact reads_leaf rfl rfl
  | array items ih => exact reads_array ih
  | object name content ih => exact reads_object ih

end Step

/-- **The tokens of a tree are a document**, and it is the tree. -/
theorem run_document (t : JsonTree) :
    Grammar.run rules document t.tokens = .found t [] := by
  have htree : Grammar.step rules (List.finRange 1) (.rule nested) t.tokens
      = .found t [] := by
    have ht := reads t []
    rwa [List.append_nil] at ht
  have hend : Grammar.step rules (List.finRange 1) .endOfInput [] = .found () [] :=
    Grammar.step_endOfInput_eq_found_iff.mpr ⟨rfl, rfl⟩
  unfold Grammar.run document Grammar.seqLeft
  rw [Grammar.step_map, Grammar.step_seq_of_found htree
    (List.length_pos_iff.mpr (tokens_ne_nil t)), hend]
  rfl

/-! ## How deep brackets nest -/

/-- Whether a token is a bracket. -/
def isBracket : JsonToken → Bool
  | .beginObject => true
  | .endObject => true
  | .beginArray => true
  | .endArray => true
  | .colon => false
  | .comma => false
  | .string _ => false
  | .integer _ => false
  | .null => false

/-- **Tokens nest so deep**: they close each bracket that they open, and have at
most so many open at once. Between others they can stand wherever that many
more may be opened. -/
def NestsBy (depth : Nat) (tokens : List JsonToken) : Prop :=
  ∀ limit rest, depth ≤ limit →
    nestsWithin limit (tokens ++ rest) = nestsWithin limit rest

namespace NestsBy

variable {depth : Nat} {tokens tokens' : List JsonToken}

theorem mono {deeper : Nat} (hle : depth ≤ deeper) (h : NestsBy depth tokens) :
    NestsBy deeper tokens :=
  fun limit rest hlimit => h limit rest (hle.trans hlimit)

theorem append (h : NestsBy depth tokens) (h' : NestsBy depth tokens') :
    NestsBy depth (tokens ++ tokens') := by
  intro limit rest hlimit
  rw [List.append_assoc, h limit _ hlimit, h' limit rest hlimit]

theorem singleton (depth : Nat) {t : JsonToken} (h : isBracket t = false) :
    NestsBy depth [t] := by
  intro limit rest _
  cases limit <;> cases t <;> first | rfl | cases h

/-- **Brackets around tokens** nest one deeper. -/
theorem enclose {opening closing : JsonToken}
    (hopen : ∀ limit rest,
      nestsWithin (limit + 1) (opening :: rest) = nestsWithin limit rest)
    (hclose : ∀ limit rest,
      nestsWithin limit (closing :: rest) = nestsWithin (limit + 1) rest)
    (h : NestsBy depth tokens) :
    NestsBy (depth + 1) (opening :: tokens ++ [closing]) := by
  intro limit rest hlimit
  obtain ⟨limit, rfl⟩ := Nat.exists_eq_add_of_le' (Nat.le_of_add_left_le hlimit)
  rw [List.append_assoc, List.cons_append, hopen,
    h limit _ (Nat.le_of_succ_le_succ hlimit)]
  exact hclose limit rest

end NestsBy

/-- Items nest as deep as each of them may. -/
theorem nestsBy_itemsTokens {depth : Nat} {items : List JsonTree}
    (h : ∀ t ∈ items, NestsBy depth t.tokens) :
    NestsBy depth (JsonTree.itemsTokens items) := by
  induction items with
  | nil => exact fun limit rest _ => rfl
  | cons item items ih =>
    obtain ⟨hitem, hitems⟩ := List.forall_mem_cons.mp h
    cases items with
    | nil => exact hitem
    | cons next items =>
      have hcomma : NestsBy depth [.comma] := .singleton depth rfl
      exact hitem.append (hcomma.append (ih hitems))

/-- **The tokens of a tree nest** as deep as the tree. -/
theorem nestsBy_tokens (t : JsonTree) : NestsBy t.depth t.tokens := by
  induction t using JsonTree.induction with
  | null => exact .singleton 0 rfl
  | integer n => exact .singleton 0 rfl
  | string text => exact .singleton 0 rfl
  | array items ih =>
    have hitems : NestsBy (JsonTree.itemsDepth items) (JsonTree.itemsTokens items) :=
      nestsBy_itemsTokens fun t ht => (ih t ht).mono (JsonTree.depth_le_itemsDepth ht)
    refine hitems.enclose (fun _ _ => rfl) ?_
    rintro (_ | limit) rest <;> rfl
  | object name content ih =>
    have hmember : NestsBy content.depth
        ([.string name] ++ ([.colon] ++ content.tokens)) :=
      (NestsBy.singleton _ rfl).append ((NestsBy.singleton _ rfl).append ih)
    refine hmember.enclose (fun _ _ => rfl) ?_
    rintro (_ | limit) rest <;> rfl

end JsonGrammar

namespace JsonTree

/-! ## Integers stand apart -/

/-- Commas stand between items. -/
theorem separate_itemsTokens {items : List JsonTree}
    (h : ∀ t ∈ items, JsonToken.Separate t.tokens) :
    JsonToken.Separate (itemsTokens items) := by
  induction items with
  | nil => exact .nil
  | cons item items ih =>
    obtain ⟨hitem, hitems⟩ := List.forall_mem_cons.mp h
    cases items with
    | nil => exact hitem
    | cons next items =>
      exact hitem.append_cons (show ¬ JsonToken.comma.IsInteger from id) (ih hitems)

/-- **No integer comes directly after another one** in the tokens of a tree. -/
theorem separate_tokens (t : JsonTree) : JsonToken.Separate t.tokens := by
  induction t using JsonTree.induction with
  | null => exact .singleton _
  | integer n => exact .singleton _
  | string text => exact .singleton _
  | array items ih =>
    have hopen : JsonToken.Separate ([] ++ .beginArray :: itemsTokens items) :=
      .append_cons id .nil (separate_itemsTokens ih)
    exact hopen.append_cons (show ¬ JsonToken.endArray.IsInteger from id) .nil
  | object name content ih =>
    have hname : JsonToken.Separate ([] ++ .beginObject :: [.string name]) :=
      .append_cons id .nil (.singleton _)
    have hmember := hname.append_cons (show ¬ JsonToken.colon.IsInteger from id) ih
    exact hmember.append_cons (show ¬ JsonToken.endObject.IsInteger from id) .nil

/-! ## Texts of trees -/

/-- **Every text of a tree is read as the tree**, if its brackets do not nest
too deep. -/
theorem ofText?_of_writtenAs {t : JsonTree} {text : String}
    (h : t.WrittenAs text.toList) (hdepth : t.depth ≤ JsonLibrary.depthLimit) :
    ofText? text = some t := by
  have hnests : JsonGrammar.nestsWithin JsonLibrary.depthLimit t.tokens = true := by
    have hclosed := JsonGrammar.nestsBy_tokens t JsonLibrary.depthLimit [] hdepth
    rw [List.append_nil] at hclosed
    exact hclosed
  unfold ofText?
  rw [JsonToken.jsonTokens?_of_spaced h t.separate_tokens, Option.bind_some,
    ofTokens?, if_pos hnests, JsonGrammar.run_document]
  rfl

/-- **A text is a text of one tree**, however deep its brackets nest. -/
theorem eq_of_writtenAs {t u : JsonTree} {text : List Char}
    (ht : t.WrittenAs text) (hu : u.WrittenAs text) : t = u := by
  have htokens : some t.tokens = some u.tokens :=
    (JsonToken.jsonTokens?_of_spaced ht t.separate_tokens).symm.trans
      (JsonToken.jsonTokens?_of_spaced hu u.separate_tokens)
  have hrun := JsonGrammar.run_document t
  rw [Option.some.inj htokens, JsonGrammar.run_document] at hrun
  cases hrun
  rfl

end JsonTree

end FormulaColumn
