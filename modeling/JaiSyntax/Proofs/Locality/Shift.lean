import JaiSyntax.Proofs.Reading.Basic
/-!
Moving what was read to another place. Tokens, trees and errors keep all but their spans, and everything
that is done with them commutes with the move.
-/

set_option autoImplicit false

namespace JaiSyntax

/-! ### Tokens and trees elsewhere -/

def Token.shift (offset : Nat) (token : Token) : Token :=
  { token with span := token.span.shift offset }

def Extra.shift (offset : Nat) : Extra → Extra
  | .token single => .token (single.shift offset)
  | .deprecated group => .deprecated (group.map (Token.shift offset))

def Stop.shift (offset : Nat) (stop : Stop) : Stop :=
  ⟨stop.token.shift offset, stop.gap.map (Extra.shift offset)⟩

mutual

def Child.shift (offset : Nat) : Child → Child
  | .leaf field token => .leaf field (token.shift offset)
  | .branch field kind span children =>
      .branch field kind (span.shift offset) (Child.shiftAll offset children)

def Child.shiftAll (offset : Nat) : List Child → List Child
  | [] => []
  | child :: rest => child.shift offset :: Child.shiftAll offset rest

end

def Node.shift (offset : Nat) (node : Node) : Node :=
  ⟨node.kind, node.span.shift offset, node.children.map (Child.shift offset)⟩

def SyntaxError.shift (offset : Nat) (error : SyntaxError) : SyntaxError :=
  { error with
    span := error.span.shift offset
    related := error.related.map (fun second => (second.1.shift offset, second.2)) }

def LexError.shift (offset : Nat) (error : LexError) : LexError :=
  { error with span := error.span.shift offset }

variable {offset : Nat}

namespace Span

theorem shift_zero (span : Span) : span.shift 0 = span := rfl

theorem merge_shift (left right : Span) :
    (left.shift offset).merge (right.shift offset) = (left.merge right).shift offset := by
  simp only [merge, shift, Nat.add_min_add_right, Nat.add_max_add_right]

end Span

@[simp] theorem Token.kind_shift (token : Token) : (token.shift offset).kind = token.kind := rfl

@[simp] theorem Token.text_shift (token : Token) : (token.shift offset).text = token.text := rfl

namespace Child

theorem shiftAll_eq_map (children : List Child) :
    shiftAll offset children = children.map (shift offset) := by
  induction children with
  | nil => rfl
  | cons child rest ih => rw [shiftAll, ih, List.map_cons]

theorem shift_leaf (field : Option Field) (token : Token) :
    shift offset (.leaf field token) = .leaf field (token.shift offset) := by
  rw [shift]

theorem shift_branch (field : Option Field) (kind : NodeKind) (span : Span)
    (children : List Child) :
    shift offset (.branch field kind span children) =
      .branch field kind (span.shift offset) (children.map (shift offset)) := by
  rw [shift, shiftAll_eq_map]

@[simp] theorem isSignificant_shift (child : Child) :
    (child.shift offset).isSignificant = child.isSignificant := by
  cases child <;> rw [shift] <;> rfl

@[simp] theorem span_shift (child : Child) :
    (child.shift offset).span = child.span.shift offset := by
  cases child <;> rw [shift] <;> rfl

@[simp] theorem field?_shift (child : Child) : (child.shift offset).field? = child.field? := by
  cases child <;> rw [shift] <;> rfl

theorem withField_shift (field : Option Field) (child : Child) :
    (child.shift offset).withField field = (child.withField field).shift offset := by
  cases child <;> simp only [shift, withField]

theorem shift_ofNode (field : Option Field) (node : Node) :
    (ofNode field node).shift offset = ofNode field (node.shift offset) :=
  shift_branch field node.kind node.span node.children

theorem node?_shift (child : Child) :
    (child.shift offset).node? = child.node?.map (Node.shift offset) := by
  cases child with
  | leaf field token => rw [shift]; rfl
  | branch field kind span children => rw [shift_branch]; rfl

mutual

theorem shift_zero (child : Child) : child.shift 0 = child := by
  cases child with
  | leaf field token => rw [shift]; rfl
  | branch field kind span children =>
      rw [shift, Span.shift_zero, shiftAll_zero children]

theorem shiftAll_zero (children : List Child) : shiftAll 0 children = children := by
  cases children with
  | nil => rfl
  | cons child rest => rw [shiftAll, shift_zero child, shiftAll_zero rest]

end

theorem map_shift_zero (children : List Child) : children.map (shift 0) = children := by
  rw [← shiftAll_eq_map, shiftAll_zero]

end Child

/-! ### Nodes -/

namespace Node

theorem spanOf_shift (children : List Child) (position : Nat) :
    spanOf (children.map (Child.shift offset)) (position + offset) =
      (spanOf children position).shift offset := by
  unfold spanOf
  rw [List.head?_map, List.getLast?_map]
  cases children.head? with
  | none => rfl
  | some first =>
      cases children.getLast? with
      | none => rfl
      | some last => simp only [Option.map_some, Child.span_shift, Span.merge_shift]

theorem build_shift (kind : NodeKind) (children : List Child) (position : Nat) :
    build kind (children.map (Child.shift offset)) (position + offset) =
      (build kind children position).shift offset := by
  simp only [build, shift, spanOf_shift]

end Node

theorem reinterpretChildren_shift (select : Option Field → Option (Option Field)) :
    ∀ children : List Child,
      reinterpretChildren select (children.map (Child.shift offset)) =
        (reinterpretChildren select children).map (Child.shift offset)
  | [] => by simp only [List.map_nil, reinterpretChildren]
  | .leaf field token :: rest => by
      simp only [List.map_cons, Child.shift_leaf, reinterpretChildren,
        reinterpretChildren_shift select rest]
  | .branch field kind span children :: rest => by
      simp only [List.map_cons, Child.shift_branch, reinterpretChildren,
        reinterpretChildren_shift select rest]
      cases select field with
      | none => simp only [Child.shift_branch]
      | some newField =>
          cases typeReading? kind with
          | none => simp only [Child.shift_branch]
          | some reading =>
              simp only [Child.shift_branch, reinterpretChildren_shift reading.select children]
              rw [show (span.shift offset).start = span.start + offset from rfl, Node.spanOf_shift]

namespace Node

theorem reinterpretAsType_shift (node : Node) :
    (node.shift offset).reinterpretAsType = node.reinterpretAsType.shift offset := by
  unfold reinterpretAsType
  rw [show (node.shift offset).kind = node.kind from rfl]
  cases typeReading? node.kind with
  | none => rfl
  | some reading =>
      change build _ (reinterpretChildren _ (node.children.map _)) (node.span.start + offset) = _
      rw [reinterpretChildren_shift, build_shift]

theorem asParameterList_shift (node : Node) :
    (node.shift offset).asParameterList = node.asParameterList.map (Child.shift offset) := by
  unfold asParameterList
  rw [show (node.shift offset).children = node.children.map (Child.shift offset) from rfl,
    List.map_map, List.map_map]
  refine List.map_congr_left (fun child _ => ?_)
  rw [Function.comp, Function.comp, Child.node?_shift]
  cases child.node? with
  | none => rfl
  | some inner =>
      simp only [Option.map_some, reinterpretAsType_shift, Child.shift_ofNode]

end Node

/-! ### Extras -/

theorem Extra.shift_zero (extra : Extra) : extra.shift 0 = extra := by
  cases extra with
  | token single => rfl
  | deprecated group => exact congrArg deprecated (List.map_id group)

theorem Stop.shift_zero (stop : Stop) : stop.shift 0 = stop := by
  have gap : stop.gap.map (Extra.shift 0) = stop.gap :=
    List.map_id'' Extra.shift_zero stop.gap
  rw [shift, gap]
  rfl

/-- The span of a node with children does not depend on where it would stand without any. -/
theorem Node.build_shift_of_ne (offset : Nat) (kind : NodeKind) {children : List Child} (some : children ≠ [])
    (position : Nat) :
    build kind (children.map (Child.shift offset)) position =
      (build kind children position).shift offset := by
  rw [← build_shift]
  obtain ⟨first, rest, rfl⟩ := List.exists_cons_of_ne_nil some
  simp only [build, spanOf, List.map_cons, List.head?_cons, List.getLast?_cons]

theorem leaves_shift (offset : Nat) (parts : List Token) :
    (parts.map (Token.shift offset)).reverse.map (Child.leaf none) =
      (parts.reverse.map (Child.leaf none)).map (Child.shift offset) := by
  rw [← List.map_reverse, List.map_map, List.map_map]
  exact List.map_congr_left (fun token _ => (Child.shift_leaf none token).symm)

theorem noticeChildren_shift (offset : Nat) (string : Option (List Token)) (tokens : List Token) :
    noticeChildren (string.map (List.map (Token.shift offset))) (tokens.map (Token.shift offset)) =
      (noticeChildren string tokens).map (Child.shift offset) := by
  induction tokens generalizing string with
  | nil =>
      cases string with
      | none => rfl
      | some parts => exact leaves_shift offset parts
  | cons token rest ih =>
      have outside := ih none
      rw [Option.map_none] at outside
      cases string with
      | none =>
          have inside := ih (some [token])
          rw [Option.map_some, List.map_singleton] at inside
          cases quote : token.kind == .quote with
          | true => simpa [noticeChildren, quote] using inside
          | false => simp [noticeChildren, quote, Child.shift_leaf, outside]
      | some parts =>
          have inside := ih (some (token :: parts))
          rw [Option.map_some, List.map_cons] at inside
          cases quote : token.kind == .quote with
          | true =>
              have message := leaves_shift offset (token :: parts)
              have built := Node.build_shift_of_ne offset .string
                (show (token :: parts).reverse.map (Child.leaf none) ≠ [] by simp) 0
              rw [← message] at built
              simpa [noticeChildren, quote, outside, Child.shift_ofNode] using
                congrArg (Child.ofNode (some .message)) built
          | false => simpa [noticeChildren, quote] using inside

theorem noticeChildren_ne {string : Option (List Token)} {tokens : List Token}
    (filled : string.getD [] ≠ [] ∨ tokens ≠ []) : noticeChildren string tokens ≠ [] := by
  induction tokens generalizing string with
  | nil =>
      have parts : string.getD [] ≠ [] := filled.resolve_right (fun absurd => absurd rfl)
      simpa [noticeChildren] using parts
  | cons token rest ih =>
      have inside (parts : List Token) : noticeChildren (some (token :: parts)) rest ≠ [] :=
        ih (Or.inl (List.cons_ne_nil token parts))
      rw [noticeChildren.eq_def]
      cases string <;> cases quote : token.kind == .quote <;> simp [quote, inside]

/-- An extra elsewhere, if it has tokens at all. -/
theorem Extra.child_shift {extra : Extra} (filled : extra.tokens ≠ []) :
    (extra.shift offset).child = extra.child.shift offset := by
  cases extra with
  | token single => exact (Child.shift_leaf none single).symm
  | deprecated group =>
      have some : noticeChildren none group ≠ [] := noticeChildren_ne (Or.inr filled)
      have children := noticeChildren_shift offset none group
      rw [Option.map_none] at children
      rw [shift, child, child, Child.shift_ofNode, noticeNode, noticeNode, children,
        Node.build_shift_of_ne offset _ some]

/-! ### Segments -/

theorem lastKindAfter_shift (before : Option NodeKind) (latest : List Child) :
    lastKindAfter before (latest.map (Child.shift offset)) = lastKindAfter before latest := by
  induction latest with
  | nil => rfl
  | cons child rest ih =>
      unfold lastKindAfter at ih ⊢
      rw [List.map_cons, List.find?_cons, List.find?_cons, Child.isSignificant_shift]
      cases child.isSignificant with
      | false => exact ih
      | true =>
          simp only [Child.node?_shift, Option.map_map]
          rfl

/-- A change of the last significant child that does not depend on its place. -/
theorem replaceLastSignificant_shift {change : Child → List Child}
    (commutes : ∀ child : Child,
      change (child.shift offset) = (change child).map (Child.shift offset))
    (latest : List Child) :
    replaceLastSignificant change (latest.map (Child.shift offset)) =
      (replaceLastSignificant change latest).map (Child.shift offset) := by
  induction latest with
  | nil => rfl
  | cons child earlier ih =>
      simp only [List.map_cons, replaceLastSignificant, Child.isSignificant_shift]
      cases child.isSignificant with
      | true => simp only [if_true, commutes, List.map_append, List.map_reverse]
      | false => simp only [Bool.false_eq_true, if_false, ih, List.map_cons]

theorem enclosed_shift (kind : NodeKind) (latest : List Child) (position : Nat) :
    Child.ofNode none (.build kind (latest.map (Child.shift offset)).reverse (position + offset)) =
      (Child.ofNode none (.build kind latest.reverse position)).shift offset := by
  rw [Child.shift_ofNode, ← Node.build_shift, List.map_reverse]

/-! ### Errors -/

/-- A complaint at the same token elsewhere, after a token that ends at the same distance. The brace
matters only to a complaint about it. -/
theorem Complaint.toError_shift (complaint : Complaint) (current : Token)
    {previous other : Token} {opener otherOpener : Span}
    (stop : other.span.stop = previous.span.stop + offset)
    (brace : complaint = .unclosedBrace → otherOpener = opener.shift offset) :
    complaint.toError (current.shift offset) other otherOpener =
      (complaint.toError current previous opener).shift offset := by
  have found : foundWords (current.shift offset) = foundWords current := rfl
  cases complaint with
  | unclosedBrace =>
      simp only [toError, found, brace rfl]
      rfl
  | _ =>
      simp only [toError, found, stop]
      rfl

theorem SyntaxError.shift_zero (error : SyntaxError) : error.shift 0 = error := by
  rcases error with ⟨span, code, message, context, _ | second⟩ <;> rfl

end JaiSyntax
