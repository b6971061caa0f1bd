import JaiSyntax.Proofs.Errors.Balance
import JaiSyntax.Proofs.Spans.Reading
/-!
The spans of a tree. The leaves of a tree are laid out over its source, so the children of each node
are laid out over a part of it, one right behind the other, and a node that spans from its first child
to its last spans that part exactly.
-/

set_option autoImplicit false

namespace JaiSyntax

/-! ### Tokens over a text -/

/-- Tokens laid out over a text that starts at `offset`: each spans a piece of the text, right behind
the piece of the token before it. -/
inductive LaidOut : Nat → List Token → List Char → Prop where
  | nil {offset : Nat} : LaidOut offset [] []
  | cons {offset : Nat} {token : Token} {rest : List Token} {piece text : List Char}
      (span : token.span = ⟨offset, offset + utf8Length piece⟩)
      (spelled : token.text = String.ofList piece)
      (later : LaidOut (offset + utf8Length piece) rest text) :
      LaidOut offset (token :: rest) (piece ++ text)

theorem laidOut_tokensFrom (offset : Nat) (pieces : List Lexeme) :
    LaidOut offset (tokensFrom offset pieces) (joinLexemes pieces) := by
  induction pieces generalizing offset with
  | nil => exact .nil
  | cons lexeme rest ih =>
      have front : joinLexemes (lexeme :: rest) = lexeme.text ++ joinLexemes rest :=
        List.flatMap_cons
      rw [tokensFrom, front]
      exact .cons rfl rfl (ih _)

namespace LaidOut

variable {offset : Nat} {tokens left right : List Token} {text : List Char}

/-- Two lists of tokens, one behind the other, are laid out over the two parts of the text. -/
theorem split (laid : LaidOut offset (left ++ right) text) :
    ∃ front back, text = front ++ back ∧ LaidOut offset left front ∧
      LaidOut (offset + utf8Length front) right back := by
  induction left generalizing offset text with
  | nil => exact ⟨[], text, rfl, .nil, laid⟩
  | cons token rest ih =>
      cases laid with
      | @cons _ _ _ piece _ span spelled later =>
          obtain ⟨front, back, rfl, first, second⟩ := ih later
          have joined := (List.append_assoc piece front back).symm
          refine ⟨piece ++ front, back, joined, .cons span spelled first, ?_⟩
          rw [utf8Length_append, ← Nat.add_assoc]
          exact second

/-- A keyword stands where the word stood. -/
theorem kept {leaves : List Token} (laid : LaidOut offset tokens text)
    (same : KeptTokens tokens leaves) : LaidOut offset leaves text := by
  induction same generalizing offset text with
  | nil => exact laid
  | cons head _ ih =>
      cases laid with
      | cons span spelled later =>
          rcases head with rfl | ⟨-, rfl⟩
          · exact .cons span spelled (ih later)
          · exact .cons span spelled (ih later)

theorem textOfTokens_eq (laid : LaidOut offset tokens text) :
    textOfTokens tokens = String.ofList text := by
  induction laid with
  | nil => rfl
  | cons _ spelled _ ih => rw [textOfTokens_cons, spelled, ih, String.ofList_append]

/-- The spans of the tokens slice the text out of a source that it is a part of. -/
theorem slices {before after : List Char} (laid : LaidOut (utf8Length before) tokens text) :
    tokens.flatMap (fun token => token.span.text (before ++ (text ++ after))) = text := by
  induction tokens generalizing before text with
  | nil =>
      cases laid
      rfl
  | cons token rest ih =>
      cases laid with
      | @cons _ _ _ piece text span _ later =>
          rw [← utf8Length_append] at later
          have further := ih later
          rw [List.append_assoc, ← List.append_assoc piece text after] at further
          rw [List.flatMap_cons, further, span, List.append_assoc, span_text]

end LaidOut

/-! ### Children side by side -/

/-- Children that span the bytes from `start` to `stop`, each from where the child before it ends. -/
inductive Child.Adjoin : Nat → List Child → Nat → Prop where
  | nil {offset : Nat} : Adjoin offset [] offset
  | cons {start stop : Nat} {child : Child} {rest : List Child} (starts : child.span.start = start)
      (forward : start ≤ child.span.stop) (later : Adjoin child.span.stop rest stop) :
      Adjoin start (child :: rest) stop

namespace Child.Adjoin

variable {start stop : Nat} {children : List Child}

theorem le (adjoin : Adjoin start children stop) : start ≤ stop := by
  induction adjoin with
  | nil => exact Nat.le_refl _
  | cons _ forward _ ih => exact Nat.le_trans forward ih

theorem first (adjoin : Adjoin start children stop) :
    ∀ child ∈ children.head?, child.span.start = start ∧ child.span.stop ≤ stop := by
  cases adjoin with
  | nil => nofun
  | cons starts _ later =>
      intro child member
      cases member
      exact ⟨starts, later.le⟩

theorem last (adjoin : Adjoin start children stop) :
    ∀ child ∈ children.getLast?, child.span.stop = stop ∧ start ≤ child.span.start := by
  induction adjoin with
  | nil => nofun
  | @cons start stop child rest starts forward later ih =>
      intro other member
      cases later with
      | nil =>
          cases member
          exact ⟨rfl, Nat.le_of_eq starts.symm⟩
      | cons _ _ _ =>
          rw [List.getLast?_cons_cons] at member
          obtain ⟨stops, behind⟩ := ih other member
          exact ⟨stops, Nat.le_trans forward behind⟩

theorem isChain (adjoin : Adjoin start children stop) :
    children.IsChain (fun left right => right.span.start = left.span.stop) := by
  induction adjoin with
  | nil => exact .nil
  | cons _ _ later ih =>
      cases later with
      | nil => exact .singleton _
      | cons starts _ _ => exact .cons_cons starts ih

theorem spanOf_eq (adjoin : Adjoin start children stop) :
    Node.spanOf children start = ⟨start, stop⟩ := by
  by_cases none : children = []
  · subst none
    cases adjoin
    rfl
  · obtain ⟨starts, before⟩ := adjoin.first _ (List.head?_eq_some_head none)
    obtain ⟨stops, behind⟩ := adjoin.last _ (List.getLast?_eq_some_getLast none)
    rw [Node.spanOf, List.head?_eq_some_head none, List.getLast?_eq_some_getLast none]
    change Span.merge _ _ = _
    rw [Span.merge, starts, stops, Nat.min_eq_left behind, Nat.max_eq_right before]

end Child.Adjoin

/-! ### Exact nodes -/

/-- A node that its children fill: they stand side by side from its first byte to its last, and its
text is what its span slices out of the source. -/
structure Node.IsExact (source : List Char) (node : Node) : Prop where
  chain : node.children.IsChain (fun left right => right.span.start = left.span.stop)
  first : ∀ child ∈ node.children.head?, node.span.start = child.span.start
  last : ∀ child ∈ node.children.getLast?, node.span.stop = child.span.stop
  text : node.text = String.ofList (node.span.text source)
  slices : node.leaves.flatMap (fun leaf => leaf.span.text source) = node.span.text source

section

variable {source before text after : List Char}

/-- A node over adjoining children whose leaves are laid out over a part of the source. -/
theorem Node.isExact {node : Node} (whole : source = before ++ (text ++ after))
    (laid : LaidOut (utf8Length before) node.leaves text)
    (span : node.span = ⟨utf8Length before, utf8Length before + utf8Length text⟩)
    (adjoin : Child.Adjoin (utf8Length before) node.children
      (utf8Length before + utf8Length text)) : node.IsExact source := by
  have slice : node.span.text source = text := by
    rw [span, whole, span_text]
  refine ⟨adjoin.isChain, fun child member => ?_, fun child member => ?_, ?_, ?_⟩
  · rw [span, (adjoin.first child member).1]
  · rw [span, (adjoin.last child member).1]
  · rw [slice]
    exact laid.textOfTokens_eq
  · rw [slice, whole]
    exact laid.slices

mutual

/-- A snug child spans the text that its leaves are laid out over, and its nodes are exact. -/
theorem Child.exact_of_laidOut (child : Child) {before text after : List Char}
    (whole : source = before ++ (text ++ after)) (snug : child.Throughout Node.IsSnug)
    (laid : LaidOut (utf8Length before) child.leaves text) :
    child.span = ⟨utf8Length before, utf8Length before + utf8Length text⟩ ∧
      child.Throughout (Node.IsExact source) := by
  cases child with
  | leaf field token =>
      refine ⟨?_, throughout_leaf field token⟩
      cases laid with
      | cons span _ later =>
          cases later
          rw [List.append_nil]
          exact span
  | branch field kind span children =>
      obtain ⟨own, below⟩ := throughout_branch.mp snug
      obtain ⟨adjoin, inner⟩ := Child.adjoin_of_laidOut children whole below laid
      -- The node has a child, so the position it would have without one does not matter.
      have same : span = ⟨utf8Length before, utf8Length before + utf8Length text⟩ := by
        rw [← adjoin.spanOf_eq, Node.spanOf_of_some own.ne_nil]
        exact own.span
      exact ⟨same, throughout_branch.mpr ⟨Node.isExact whole laid same adjoin, inner⟩⟩

/-- Snug children stand side by side over the text that their leaves are laid out over. -/
theorem Child.adjoin_of_laidOut (children : List Child) {before text after : List Char}
    (whole : source = before ++ (text ++ after))
    (snug : ∀ child ∈ children, child.Throughout Node.IsSnug)
    (laid : LaidOut (utf8Length before) (Child.leavesOfList children) text) :
    Child.Adjoin (utf8Length before) children (utf8Length before + utf8Length text) ∧
      ∀ child ∈ children, child.Throughout (Node.IsExact source) := by
  cases children with
  | nil =>
      cases laid
      exact ⟨.nil, List.forall_mem_nil _⟩
  | cons child rest =>
      obtain ⟨own, others⟩ := List.forall_mem_cons.mp snug
      obtain ⟨front, back, rfl, first, later⟩ := laid.split
      rw [List.append_assoc] at whole
      obtain ⟨span, exact⟩ := Child.exact_of_laidOut child whole own first
      rw [← List.append_assoc] at whole
      rw [← utf8Length_append] at later
      obtain ⟨adjoin, exactOthers⟩ := Child.adjoin_of_laidOut rest whole others later
      refine ⟨.cons (congrArg Span.start span) ?_ ?_, List.forall_mem_cons.mpr ⟨exact, exactOthers⟩⟩
      · rw [span]
        exact Nat.le_add_right _ _
      · rw [span]
        rw [utf8Length_append before, Nat.add_assoc, ← utf8Length_append front] at adjoin
        exact adjoin

end

end

/-! ### Whole trees -/

/-- What holds throughout the children of a node holds of all nodes below it. -/
theorem Node.forall_below {holds : Node → Prop} {node : Node}
    (all : ∀ child ∈ node.children, child.Throughout holds) :
    ∀ inner ∈ node.preorder.tail, holds inner := by
  intro inner below
  obtain ⟨child, among, inside⟩ := (Child.mem_preorderOfList node.children).mp below
  exact all child among inner inside

/-- A tree whose leaves are laid out over a whole source spans the source, and its nodes are exact. -/
theorem Node.exact_of_laidOut {tree : Node} {source : List Char}
    (snug : ∀ child ∈ tree.children, child.Throughout Node.IsSnug)
    (span : tree.span = spanOf tree.children 0) (laid : LaidOut 0 tree.leaves source) :
    tree.span = ⟨0, utf8Length source⟩ ∧ ∀ node ∈ tree.preorder, node.IsExact source := by
  have whole : source = [] ++ (source ++ []) := (List.append_nil source).symm
  obtain ⟨adjoin, inner⟩ := Child.adjoin_of_laidOut tree.children whole snug laid
  rw [utf8Length_nil, Nat.zero_add] at adjoin
  rw [adjoin.spanOf_eq] at span
  have own : tree.IsExact source :=
    Node.isExact whole laid (by rw [span, utf8Length_nil, Nat.zero_add]) (by simpa using adjoin)
  exact ⟨span, List.forall_mem_cons.mpr ⟨own, Node.forall_below inner⟩⟩

theorem parse_snug (options : ParseOptions) (source : List Char) :
    ∀ child ∈ (parse options source).tree.children, child.Throughout Node.IsSnug := by
  rw [parse_tree]
  exact fun child member => readSource_snug _ source child (List.mem_reverse.mp member)

theorem parse_laidOut (options : ParseOptions) (source : List Char) :
    LaidOut 0 (parse options source).tree.leaves source := by
  have content := laidOut_tokensFrom 0 (lexemes source)
  rw [← contentTokens_eq, joinLexemes_lexemes] at content
  exact content.kept (leaves_kept options source)

/-- The tree of a source spans all of it and its other nodes have children; the children of each node
stand side by side from one end of it to the other, over the text of the node; and a node other than the
root and the errors neither starts nor ends in layout, a note or a deprecation notice. -/
theorem parse_spans_exactly (options : ParseOptions) (source : List Char) :
    (parse options source).tree.span = ⟨0, utf8Length source⟩ ∧
      (∀ node ∈ (parse options source).tree.descendants.tail, node.children ≠ []) ∧
      (∀ node ∈ (parse options source).tree.descendants, node.IsExact source) ∧
      ∀ node ∈ (parse options source).tree.descendants,
        node.kind ≠ .sourceFile → node.kind ≠ .error →
          node.children.head?.map Child.isSignificant = some true ∧
            node.children.getLast?.map Child.isSignificant = some true := by
  have built := parse_tree options source
  have below := parse_snug options source
  have laid := parse_laidOut options source
  -- Nothing about the parser is needed from here on.
  generalize (parse options source).tree = tree at built below laid ⊢
  rw [Node.descendants_eq]
  have snug := Node.forall_below below
  obtain ⟨span, exact⟩ := Node.exact_of_laidOut below (by rw [built]; rfl) laid
  refine ⟨span, fun node inside => (snug node inside).ne_nil, exact, ?_⟩
  refine List.forall_mem_cons.mpr ⟨fun other => ?_, fun node inside _ sound => ?_⟩
  · exact absurd (congrArg Node.kind built) other
  · exact ⟨(snug node inside).first, (snug node inside).last sound⟩

end JaiSyntax
