import JaiSyntax.Proofs.Operators.Operands
/-!
The kinds of nodes that a type reads. A type shares its tokens with calls, members, addresses and
procedures, and with the context of a type it becomes none of them: the parts that both share read a
procedure type there, and the rest of a type has productions of its own.
-/

set_option autoImplicit false

namespace JaiSyntax

/-- The kinds that only an expression has: what the tokens of a type are where a value stands. -/
def NodeKind.isValue : NodeKind → Bool
  | .callExpression | .memberExpression | .indexExpression | .dereferenceExpression | .address
  | .pointerExpression | .unaryExpression | .binaryExpression | .parenthesizedExpression | .range
  | .procedure | .quickProcedure => true
  | _ => false

/-- Whether a node may stand for a type. Outside of a type, a procedure may. -/
def Node.IsTypeIn (context : Context) (node : Node) : Prop :=
  node.kind.isValue = true → node.kind = .procedure ∧ context.inType = false

namespace Node

variable {context : Context} {node : Node}

theorem isTypeIn_of_kind {kind : NodeKind} (type : kind.isValue = false) (same : node.kind = kind) :
    node.IsTypeIn context := by
  intro value
  rw [same, type] at value
  cases value

theorem IsTypeIn.notValue (type : node.IsTypeIn context) (inside : context.inType = true) :
    node.kind.isValue = false := by
  by_contra value
  rw [Bool.not_eq_false] at value
  rw [(type value).2] at inside
  cases inside

theorem IsTypeIn.isOperand (type : node.IsTypeIn context) : node.IsOperand .isOpen := by
  constructor
  · intro binary
    have procedure := (type (by rw [binary]; rfl)).1
    rw [binary] at procedure
    cases procedure
  · intro range
    have procedure := (type (by rw [range]; rfl)).1
    rw [range] at procedure
    cases procedure
  · intro absurd
    cases absurd

end Node

namespace Production

variable {resync : Bool} {enter : Entry → Surroundings → Segment → Reading Unit} {α : Type}
  {around : Surroundings} {segment : Segment} {context : Context}

/-! ### Names of types -/

theorem readsNode_typeKind {kind : NodeKind} {body : Production α} (proper : segment.cursor.Proper)
    (type : kind.isValue = false) (ordinary : kind ≠ .deprecatedDirective) :
    (node kind body).ReadsNode resync enter (fun _ node => node.IsTypeIn context) around segment :=
  readsNode_kind proper ordinary (fun _ _ => Node.isTypeIn_of_kind type)

theorem leavesNode_typeKind {kind : NodeKind} {body : Production α} (type : kind.isValue = false)
    (ordinary : kind ≠ .deprecatedDirective) :
    (wrap kind body).LeavesNode resync enter (fun _ node => node.IsTypeIn context) around
      segment :=
  leavesNode_wrap ordinary ((Reading.satisfies_trivial _).weaken
    (fun _ _ _ _ => Node.isTypeIn_of_kind type rfl) (fun _ => id))

theorem readsNode_qualifiedName (proper : segment.cursor.Proper) :
    qualifiedName.ReadsNode resync enter (fun _ node => node.IsTypeIn context) around segment := by
  apply readsNode_marked proper
  have name : identifierNode.LeavesNode resync enter (fun _ node => node.IsTypeIn context)
      (segment.flush.atMark around) segment.flush.emptied :=
    (readsNode_typeKind (proper_emptied proper) rfl (by decide)).leaves
  refine leavesNode_andThen name (fun _ named yields => ?_)
  refine leavesNode_andThen (leavesNode_repeatedly yields (fun start held => ?_))
    (fun _ qualified yields => ?_)
  · apply leavesNode_look
    split
    · exact leavesNode_andThen (leavesNode_bind (fun _ _ => leavesNode_typeKind rfl (by decide)))
        (fun _ _ yields => leavesNode_pure yields)
    · exact leavesNode_pure held
  · unfold onlyIf
    apply leavesNode_look
    split
    · exact leavesNode_bind (fun _ _ => leavesNode_typeKind rfl (by decide))
    · exact leavesNode_pure yields

theorem readsNode_namedType (proper : segment.cursor.Proper) :
    namedType.ReadsNode resync enter (fun _ node => node.IsTypeIn context) around segment := by
  unfold namedType checkWord
  rw [readsNode_look]
  split
  · exact readsNode_typeKind proper rfl (by decide)
  rw [readsNode_look]
  split
  · exact readsNode_typeKind proper rfl (by decide)
  rw [readsNode_look]
  split
  · exact readsNode_typeKind proper rfl (by decide)
  rw [readsNode_look]
  split
  · exact readsNode_typeKind proper rfl (by decide)
  · exact readsNode_qualifiedName proper

/-! ### Parameter lists and directives -/

/-- Inside of a type, a parameter list with its results is a procedure type. -/
theorem readsNode_procedure (proper : segment.cursor.Proper) :
    procedure.ReadsNode resync enter (fun _ node => node.IsTypeIn around.context) around
      segment := by
  refine readsNode_procedureAs proper (fun hasBody hasDirectives node same _ => ?_)
  split at same
  · next valued =>
      rw [Bool.and_eq_true, Bool.not_eq_true'] at valued
      exact fun _ => ⟨same, valued.1⟩
  · exact Node.isTypeIn_of_kind rfl same

/-- A directive that starts an expression has a kind of its own. -/
theorem readsNode_directive (proper : segment.cursor.Proper) :
    directiveExpression.ReadsNode resync enter (fun _ node => node.IsTypeIn context) around
      segment := by
  unfold directiveExpression
  rw [readsNode_look]
  unfold directiveExpressionNamed
  split
  · exact readsNode_pure (readsNode_typeKind proper rfl (by decide))
  · exact readsNode_pure (readsNode_typeKind proper rfl (by decide))
  · exact readsNode_typeKind proper rfl (by decide)
  · exact readsNode_typeKind proper rfl (by decide)
  · exact readsNode_pure (readsNode_typeKind proper rfl (by decide))
  · exact readsNode_pure (readsNode_typeKind proper rfl (by decide))
  · exact readsNode_pure (readsNode_typeKind proper rfl (by decide))
  · exact readsNode_pure (readsNode_typeKind proper rfl (by decide))
  · exact readsNode_pure (readsNode_typeKind proper rfl (by decide))
  · exact readsNode_pure (readsNode_typeKind proper rfl (by decide))
  · exact readsNode_pure (readsNode_typeKind proper rfl (by decide))
  · exact readsNode_pure (readsNode_typeKind proper rfl (by decide))
  · split
    · exact readsNode_pure (readsNode_typeKind proper rfl (by decide))
    · exact readsNode_refuse

/-! ### Types -/

theorem readsNode_discard {production : Production α} {holds : Node → Prop}
    (reads : production.ReadsNode resync enter (fun _ => holds) around segment) :
    (discard production).ReadsNode resync enter (fun _ => holds) around segment := by
  change (production >>= fun _ => (Pure.pure PUnit.unit : Production Unit)).ReadsNode resync enter _
    around segment
  exact readsNode_pure reads

/-- The entry for types reads a single node, and inside of a type that is none that only an expression
has. -/
theorem readsNode_type (proper : segment.cursor.Proper) :
    typeEntry.ReadsNode resync enter (fun _ node => node.IsTypeIn around.context) around
      segment := by
  unfold typeEntry
  rw [readsNode_look]
  split
  · exact readsNode_namedType proper
  · exact readsNode_typeKind proper rfl (by decide)
  · exact readsNode_typeKind proper rfl (by decide)
  · exact readsNode_discard (readsNode_procedure proper)
  · exact readsNode_typeKind proper rfl (by decide)
  · exact readsNode_typeKind proper rfl (by decide)
  · exact readsNode_discard (readsNode_directive proper)
  · exact readsNode_refuse

end Production

/-- Entries for types inside of types read a single node each, of no kind that only an expression
has. -/
def TypesName (enter : Entry → Surroundings → Segment → Reading Unit) : Prop :=
  ∀ around segment, segment.cursor.Proper → around.context.inType = true →
    (enter .type around segment).Satisfies
      (fun _ later => later.Yields (fun node => node.kind.isValue = false) segment.significant)
      (fun _ => True)

namespace Production

theorem readsNode_within {resync : Bool} {enter : Entry → Surroundings → Segment → Reading Unit}
    {α : Type} {change : Context → Context} {body : Production α} {holds : α → Node → Prop}
    {around : Surroundings} {segment : Segment}
    (inside : body.ReadsNode resync enter holds
      { around with context := change around.context } segment) :
    (within change body).ReadsNode resync enter holds around segment := by
  unfold ReadsNode at inside ⊢
  rw [read_within]
  exact inside

/-- What a production asks for as a type is read inside of a type, whatever stands around it. -/
theorem readsNode_asType {resync : Bool} {enter : Entry → Surroundings → Segment → Reading Unit}
    (types : TypesName enter) {around : Surroundings} {segment : Segment}
    (proper : segment.cursor.Proper) :
    type.ReadsNode resync enter (fun _ node => node.kind.isValue = false) around segment := by
  apply readsNode_within
  unfold ReadsNode
  rw [read_enter]
  exact types _ segment proper (Bool.or_true _)

end Production

end JaiSyntax
