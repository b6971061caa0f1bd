import JaiSyntax.Proofs.Reading.Recovery
import JaiSyntax.Tree.Walk
/-!
Conservation of tokens. The tokens of a segment are the leaves of its children and then the tokens
still to be read. Every move keeps them, up to the words that become keywords.
-/

set_option autoImplicit false

namespace JaiSyntax

/-! ### Tokens of a segment -/

/-- Whether a token is kept: as it is, or as a keyword if it is a word. -/
def Token.KeptAs (token kept : Token) : Prop :=
  kept = token ∨ token.kind = .ident ∧ kept = token.retag .keyword

def KeptTokens (tokens kept : List Token) : Prop := List.Forall₂ Token.KeptAs tokens kept

namespace KeptTokens

theorem refl (tokens : List Token) : KeptTokens tokens tokens :=
  List.forall₂_same.mpr (fun _ _ => Or.inl rfl)

theorem of_eq {tokens kept : List Token} (same : kept = tokens) : KeptTokens tokens kept :=
  same ▸ refl tokens

/-- A keyword is no word any more, so a token changes once at most. -/
theorem trans {first second third : List Token} (earlier : KeptTokens first second)
    (later : KeptTokens second third) : KeptTokens first third := by
  induction earlier generalizing third with
  | nil => exact later
  | cons head _ ih =>
      cases later with
      | cons next rest =>
          refine List.Forall₂.cons ?_ (ih rest)
          rcases head with rfl | ⟨word, rfl⟩
          · exact next
          · rcases next with rfl | ⟨absurd, -⟩
            · exact Or.inr ⟨word, rfl⟩
            · cases absurd

theorem append {first second firstKept secondKept : List Token}
    (front : KeptTokens first firstKept) (back : KeptTokens second secondKept) :
    KeptTokens (first ++ second) (firstKept ++ secondKept) :=
  List.rel_append front back

end KeptTokens

theorem Child.leavesOfList_append (first second : List Child) :
    Child.leavesOfList (first ++ second) =
      Child.leavesOfList first ++ Child.leavesOfList second := by
  induction first with
  | nil => rfl
  | cons child rest ih =>
      rw [List.cons_append, Child.leavesOfList, Child.leavesOfList, ih, List.append_assoc]

@[simp] theorem Child.leaves_withField (field : Option Field) (child : Child) :
    (child.withField field).leaves = child.leaves := by
  cases child <;> rfl

@[simp] theorem Child.leaves_ofNode (field : Option Field) (node : Node) :
    (Child.ofNode field node).leaves = node.leaves := rfl

@[simp] theorem Node.leaves_build (kind : NodeKind) (children : List Child) (position : Nat) :
    (Node.build kind children position).leaves = Child.leavesOfList children := rfl

def tokensOfExtras (extras : List Extra) : List Token := extras.flatMap Extra.tokens

def Stop.tokens (stop : Stop) : List Token := stop.token :: tokensOfExtras stop.gap

def TokenCursor.tokens (cursor : TokenCursor) : List Token :=
  tokensOfExtras cursor.gap ++ cursor.ahead.flatMap Stop.tokens

namespace Segment

def tokens (segment : Segment) : List Token :=
  Child.leavesOfList segment.latest.reverse ++ segment.cursor.tokens

end Segment

/-! ### Trees keep their leaves -/

theorem leaves_of_tokens (tokens : List Token) :
    Child.leavesOfList (tokens.map (Child.leaf none)) = tokens := by
  induction tokens with
  | nil => rfl
  | cons token rest ih =>
      rw [List.map_cons, Child.leavesOfList, ih]
      rfl

theorem leaves_noticeChildren (string : Option (List Token)) (tokens : List Token) :
    Child.leavesOfList (noticeChildren string tokens) = (string.getD []).reverse ++ tokens := by
  induction tokens generalizing string with
  | nil =>
      rw [noticeChildren, leaves_of_tokens, List.append_nil]
  | cons token rest ih =>
      cases string with
      | none =>
          simp only [noticeChildren]
          split
          · simp [ih]
          · simp [Child.leavesOfList, Child.leaves, ih]
      | some parts =>
          simp only [noticeChildren]
          split
          · rw [Child.leavesOfList, Child.leaves_ofNode, Node.leaves_build, leaves_of_tokens, ih]
            simp
          · simp [ih]

theorem forall_leaves {holds : Child → Prop} (leaf : ∀ token, holds (.leaf none token))
    (tokens : List Token) : ∀ child ∈ tokens.map (Child.leaf none), holds child := by
  intro child member
  obtain ⟨token, -, rfl⟩ := List.mem_map.mp member
  exact leaf token

/-- What holds of tokens, and of literals between two quotes, holds of the children of a notice. The
literal that is open, if there is one, starts with a quote. -/
theorem forall_noticeChildren {holds : Child → Prop} (leaf : ∀ token, holds (.leaf none token))
    (literal : ∀ (opening closing : Token) (inner : List Token), opening.kind = .quote →
      closing.kind = .quote → holds (.ofNode (some .message)
        (.build .string ((opening :: inner ++ [closing]).map (Child.leaf none)) 0)))
    (string : Option (List Token)) (tokens : List Token)
    (opened : ∀ parts ∈ string, ∃ opening inner,
      parts.reverse = opening :: inner ∧ opening.kind = .quote) :
    ∀ child ∈ noticeChildren string tokens, holds child := by
  induction tokens generalizing string with
  | nil => exact forall_leaves leaf _
  | cons token rest ih =>
      cases string with
      | none =>
          rw [noticeChildren]
          split
          · next quote =>
              refine ih (some [token]) (fun parts member => ?_)
              cases member
              exact ⟨token, [], rfl, eq_of_beq quote⟩
          · exact List.forall_mem_cons.mpr ⟨leaf token, ih none nofun⟩
      | some parts =>
          obtain ⟨opening, inner, same, quoted⟩ := opened parts rfl
          rw [noticeChildren, List.reverse_cons, same]
          split
          · next quote =>
              exact List.forall_mem_cons.mpr
                ⟨literal opening token inner quoted (eq_of_beq quote), ih none nofun⟩
          · refine ih (some (token :: parts)) (fun other member => ?_)
            cases member
            exact ⟨opening, inner ++ [token], by rw [List.reverse_cons, same]; rfl, quoted⟩

theorem leaves_child (extra : Extra) : extra.child.leaves = extra.tokens := by
  cases extra with
  | token single => rfl
  | deprecated group => exact leaves_noticeChildren none group

theorem leaves_children (extras : List Extra) :
    Child.leavesOfList (extras.map Extra.child) = tokensOfExtras extras := by
  induction extras with
  | nil => rfl
  | cons extra rest ih =>
      rw [List.map_cons, Child.leavesOfList, leaves_child, ih]
      rfl

theorem leaves_withoutFields (children : List Child) :
    Child.leavesOfList (children.map (Child.withField none)) = Child.leavesOfList children := by
  induction children with
  | nil => rfl
  | cons child rest ih =>
      rw [List.map_cons, Child.leavesOfList, Child.leavesOfList, ih, Child.leaves_withField]

/-- Reading children as types keeps their leaves. -/
theorem leaves_reinterpretChildren (select : Option Field → Option (Option Field))
    (children : List Child) :
    Child.leavesOfList (reinterpretChildren select children) = Child.leavesOfList children := by
  induction select, children using reinterpretChildren.induct with
  | case1 select => rw [reinterpretChildren]
  | case2 select field token rest ih =>
      rw [reinterpretChildren, Child.leavesOfList, Child.leavesOfList, ih]
  | case3 select field kind span children rest outer inner =>
      rw [reinterpretChildren, Child.leavesOfList, Child.leavesOfList, inner]
      split
      · rfl
      · split
        · rfl
        · next reading same => simp only [Child.leaves, outer reading]

theorem leaves_reinterpretAsType (node : Node) : node.reinterpretAsType.leaves = node.leaves := by
  unfold Node.reinterpretAsType
  split
  · rfl
  · exact leaves_reinterpretChildren _ _

theorem leaves_asParameterList (node : Node) :
    Child.leavesOfList node.asParameterList = node.leaves := by
  unfold Node.asParameterList Node.leaves
  induction node.children with
  | nil => rfl
  | cons child rest ih =>
      rw [List.map_cons, Child.leavesOfList, Child.leavesOfList, ih]
      cases child with
      | leaf field token => rfl
      | branch field kind span children => simp [Child.node?, leaves_reinterpretAsType]; rfl

theorem leaves_replaceLastSignificant {change : Child → List Child}
    (kept : ∀ child, Child.leavesOfList (change child) = child.leaves) (latest : List Child) :
    Child.leavesOfList (replaceLastSignificant change latest).reverse =
      Child.leavesOfList latest.reverse := by
  induction latest with
  | nil => rfl
  | cons child earlier ih =>
      rw [replaceLastSignificant, List.reverse_cons, Child.leavesOfList_append]
      split
      · rw [List.reverse_append, List.reverse_reverse, Child.leavesOfList_append, kept]
        simp [Child.leavesOfList]
      · rw [List.reverse_cons, Child.leavesOfList_append, ih]

end JaiSyntax
