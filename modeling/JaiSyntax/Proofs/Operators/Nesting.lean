import JaiSyntax.Proofs.Reading.Frame
/-!
How operators nest. A binary expression groups to the left and holds tighter operators on its right,
and an operand of a prefix operator or a conversion is neither a binary expression nor a range. The
one exception is a left operand that ends with a body of its own.
-/

set_option autoImplicit false

namespace JaiSyntax

namespace Node

def significant (node : Node) : List Child := node.children.filter Child.isSignificant

def precedence? (node : Node) : Option Prec :=
  match node.kind, node.significant with
  | .binaryExpression, [_, .leaf _ token, _] => (binaryOperator? token.kind).map BinaryOperator.prec
  | _, _ => none

/-- Whether a node is a construct that ends with a body of its own, or with code as a value. -/
def isClosed (node : Node) : Bool :=
  match node.kind with
  | .anonymousStructType | .anonymousEnumType | .ifExpression | .quickProcedure => true
  | .procedure | .runExpression | .insertExpression => !(node.childrenUnder .body).isEmpty
  | .directiveExpression => (node.leaves.head?.map Token.text) == some "#code"
  | _ => false

end Node

namespace Child

def isRange (child : Child) : Bool := child.node?.any (fun node => node.kind == .range)

def isBinary (child : Child) : Bool := child.node?.any (fun node => node.kind == .binaryExpression)

def precedence? (child : Child) : Option Prec := child.node?.bind Node.precedence?

mutual

/-- Whether a child is a closed construct, or a binary expression whose last operand ends with one. -/
def endsClosed : Child → Bool
  | .leaf _ _ => false
  | .branch _ kind span children =>
      if kind = .binaryExpression then lastEndsClosed children
      else Node.isClosed ⟨kind, span, children⟩

def lastEndsClosed : List Child → Bool
  | [] => false
  | child :: rest =>
      if rest.any Child.isSignificant then lastEndsClosed rest else child.endsClosed

end

end Child

theorem Child.endsClosed_withField (field : Option Field) (child : Child) :
    (child.withField field).endsClosed = child.endsClosed := by
  cases child with
  | leaf role token => rfl
  | branch role kind span children => simp [Child.withField, Child.endsClosed]

theorem Child.lastEndsClosed_eq {children front : List Child} {last : Child}
    (same : children.filter Child.isSignificant = front ++ [last]) :
    Child.lastEndsClosed children = last.endsClosed := by
  induction children generalizing front with
  | nil => simp at same
  | cons child rest ih =>
      rw [Child.lastEndsClosed]
      split
      · next later =>
          cases kept : child.isSignificant with
          | true =>
              rw [List.filter_cons_of_pos kept] at same
              cases front with
              | nil =>
                  obtain ⟨-, none⟩ := List.cons.inj same
                  obtain ⟨other, member, significant⟩ := List.any_eq_true.mp later
                  exact (List.filter_eq_nil_iff.mp none other member significant).elim
              | cons first front => exact ih (List.cons.inj same).2
          | false =>
              rw [List.filter_cons_of_neg (by simp [kept])] at same
              exact ih same
      · next none =>
          have nothing : rest.filter Child.isSignificant = [] :=
            List.filter_eq_nil_iff.mpr (fun other member significant =>
              none (List.any_eq_true.mpr ⟨other, member, significant⟩))
          rw [List.filter_cons, nothing] at same
          split at same
          · cases front with
            | nil => rw [(List.cons.inj same).1]
            | cons first front => simp at same
          · simp at same

/-- A binary expression of an operator of precedence `prec` with its operands. An operator that binds
looser than `prec` may stand on the left only where `lenient` lets it. -/
structure Node.Groups (lenient : Child → Prop) (node : Node) (prec : Prec) (left right : Child) :
    Prop where
  kind : node.kind = .binaryExpression
  children : ∃ token, node.significant = [left, .leaf (some .operator) token, right] ∧
    (binaryOperator? token.kind).map BinaryOperator.prec = some prec
  leftField : left.field? = some .left
  rightField : right.field? = some .right
  leftRange : left.isRange = false
  rightRange : right.isRange = false
  leftPrec : ∀ inner, left.precedence? = some inner → prec ≤ inner ∨ lenient left
  rightPrec : ∀ inner, right.precedence? = some inner → prec < inner

def NodeKind.operandField? : NodeKind → Option (Option Field)
  | .unaryExpression | .pointerExpression => some (some .argument)
  | .castExpression => some (some .value)
  | .address => some none
  | _ => none

/-- Whether the operands of a node nest as the precedences ask for, up to the left operands that
`lenient` lets through. The operand of a prefix operator or a conversion is its last child. -/
def Node.Nests (lenient : Child → Prop) (node : Node) : Prop :=
  (node.kind = .binaryExpression → ∃ prec left right, node.Groups lenient prec left right) ∧
    ∀ field, node.kind.operandField? = some field →
      ∃ operand, node.significant.getLast? = some operand ∧ operand.field? = field ∧
        operand.isBinary = false ∧ operand.isRange = false

def Node.RespectsPrecedence (node : Node) : Prop := node.Nests (fun _ => False)

/-- Whether a node is a binary expression whose left operand binds looser and ends with a closed
construct. -/
def Node.Regroups (node : Node) : Prop :=
  ∃ prec left right inner, node.Groups (fun child => child.endsClosed = true) prec left right ∧
    left.precedence? = some inner ∧ inner < prec

section Nesting

variable {lenient : Child → Prop} {node : Node}

/-- Nothing is asked of a node that is no operator. -/
theorem Node.nests_of_plain (plain : node.kind.isOperator = false) : node.Nests lenient := by
  constructor
  · intro binary
    rw [binary] at plain
    cases plain
  · intro field found
    rcases node with ⟨kind, span, children⟩
    cases kind <;> first | (cases found; done) | cases plain

/-- A node whose operands nest as the precedences ask for, up to left operands that end closed, fails
to respect them only by regrouping. -/
theorem Node.respects_iff (nests : node.Nests (fun child => child.endsClosed = true)) :
    node.RespectsPrecedence ↔ ¬ node.Regroups := by
  constructor
  · rintro ⟨binary, -⟩ ⟨prec, left, right, inner, groups, found, looser⟩
    obtain ⟨token, same, known⟩ := groups.children
    obtain ⟨other, first, second, strict⟩ := binary groups.kind
    obtain ⟨otherToken, otherSame, otherKnown⟩ := strict.children
    rw [same] at otherSame
    simp only [List.cons.injEq, Child.leaf.injEq, true_and, and_true] at otherSame
    obtain ⟨rfl, rfl, rfl⟩ := otherSame
    rw [known] at otherKnown
    cases otherKnown
    rcases strict.leftPrec inner found with tighter | absurd
    · exact Int.not_lt.mpr tighter looser
    · exact absurd
  · intro grouped
    refine ⟨fun binary => ?_, nests.2⟩
    obtain ⟨prec, left, right, groups⟩ := nests.1 binary
    refine ⟨prec, left, right, groups.kind, groups.children, groups.leftField, groups.rightField,
      groups.leftRange, groups.rightRange, fun inner found => ?_, groups.rightPrec⟩
    by_cases tighter : prec ≤ inner
    · exact Or.inl tighter
    · exact (grouped ⟨prec, left, right, inner, groups, found, Int.not_le.mp tighter⟩).elim

theorem Node.kind_of_precedence? {prec : Prec} (found : node.precedence? = some prec) :
    node.kind = .binaryExpression := by
  unfold Node.precedence? at found
  split at found
  · assumption
  · cases found

theorem Node.Groups.precedence? {prec : Prec} {left right : Child}
    (groups : node.Groups lenient prec left right) : node.precedence? = some prec := by
  obtain ⟨token, same, known⟩ := groups.children
  unfold Node.precedence?
  rw [groups.kind, same]
  exact known

/-- Where the precedences are respected, a binary expression on the left binds as tight at least. -/
theorem Node.RespectsPrecedence.left_binds {prec inner : Prec} (respects : node.RespectsPrecedence)
    (found : node.precedence? = some prec)
    (first : node.significant.head?.bind Child.precedence? = some inner) : prec ≤ inner := by
  obtain ⟨other, left, right, groups⟩ := respects.1 (Node.kind_of_precedence? found)
  cases found.symm.trans groups.precedence?
  obtain ⟨token, same, -⟩ := groups.children
  rw [same] at first
  exact (groups.leftPrec inner first).elim id False.elim

end Nesting

end JaiSyntax
