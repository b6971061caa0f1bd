import JaiSyntax.Proofs.Reading.Obedience
/-!
Extras under fields. A label goes to the last significant child, so layout, comments, notes and
deprecation notices stay without one. The exception is a parenthesized expression that becomes the
parameter list of a procedure type: every node in it becomes a parameter, and so does a notice.
-/

set_option autoImplicit false

namespace JaiSyntax

/-- Whether a child is a deprecation notice that is recorded as a parameter. -/
def Child.IsListedNotice (child : Child) : Prop :=
  child.field? = some .parameters ∧ child.node?.map Node.kind = some .deprecatedDirective

/-- Whether the extras among the children of a node are under no field, but for notices among the
parameters of a procedure type. -/
def Node.LabelsNoExtra (node : Node) : Prop :=
  ∀ child ∈ node.children, child.isSignificant = false →
    child.field? = none ∨ node.kind = .procedureType ∧ child.IsListedNotice

namespace Child

structure Unlabelled (child : Child) : Prop where
  own : child.isSignificant = false → child.field? = none
  below : child.Throughout Node.LabelsNoExtra

variable {field : Option Field} {kind : NodeKind} {span : Span} {children : List Child}

theorem unlabelled_leaf (token : Token) : (leaf none token).Unlabelled :=
  ⟨fun _ => rfl, throughout_leaf none token⟩

theorem unlabelled_branch (own : kind = .deprecatedDirective → field = none)
    (inner : ∀ child ∈ children, child.Unlabelled) : (branch field kind span children).Unlabelled := by
  constructor
  · exact fun extra => own (by simpa [isSignificant] using extra)
  · refine throughout_branch.mpr ⟨?_, fun child member => (inner child member).below⟩
    exact fun child member extra => Or.inl ((inner child member).own extra)

theorem unlabelled_extra (extra : Extra) : extra.child.Unlabelled := by
  cases extra with
  | token single => exact unlabelled_leaf single
  | deprecated group =>
      refine unlabelled_branch (fun _ => rfl) (forall_noticeChildren unlabelled_leaf ?_ none group nofun)
      exact fun _ _ _ _ _ => unlabelled_branch nofun (forall_leaves unlabelled_leaf _)

theorem Unlabelled.cleared {child : Child} (unlabelled : child.Unlabelled) :
    (child.withField none).Unlabelled :=
  ⟨fun _ => field?_withField none child, throughout_withField.mpr unlabelled.below⟩

theorem Unlabelled.tag {child : Child} (unlabelled : child.Unlabelled) (field : Field)
    (significant : child.isSignificant = true) : (child.withField (some field)).Unlabelled := by
  refine ⟨fun extra => ?_, throughout_withField.mpr unlabelled.below⟩
  rw [isSignificant_withField, significant] at extra
  cases extra

/-- Only a procedure type has extras under a field. -/
theorem Unlabelled.inner (unlabelled : (branch field kind span children).Unlabelled)
    (other : kind ≠ .procedureType) : ∀ child ∈ children, child.Unlabelled := by
  obtain ⟨own, below⟩ := throughout_branch.mp unlabelled.below
  intro child member
  refine ⟨fun extra => (own child member extra).resolve_right ?_, below child member⟩
  exact fun absurd => other absurd.1

/-! ### Expressions read as types -/

def LeavesUnlabelled (select : Option Field → Option (Option Field)) : Prop :=
  ∀ field, select none = some field → field = none

theorem leavesUnlabelled_typeReading {reading : TypeReading}
    (found : typeReading? kind = some reading) :
    kind ≠ .procedureType ∧ LeavesUnlabelled reading.select ∧
      reading.kind ≠ .deprecatedDirective := by
  unfold typeReading? at found
  split at found <;> cases found
  all_goals exact ⟨nofun, fun field same => by simpa using same.symm, nofun⟩

theorem unlabelled_reinterpretChildren (select : Option Field → Option (Option Field))
    (children : List Child) (leaves : LeavesUnlabelled select)
    (unlabelled : ∀ child ∈ children, child.Unlabelled) :
    ∀ child ∈ reinterpretChildren select children, child.Unlabelled := by
  induction select, children using reinterpretChildren.induct with
  | case1 select =>
      rw [reinterpretChildren]
      exact unlabelled
  | case2 select field token rest ih =>
      rw [reinterpretChildren]
      obtain ⟨first, later⟩ := List.forall_mem_cons.mp unlabelled
      exact List.forall_mem_cons.mpr ⟨first, ih leaves later⟩
  | case3 select field kind span children rest inner ih =>
      obtain ⟨first, later⟩ := List.forall_mem_cons.mp unlabelled
      rw [reinterpretChildren]
      refine List.forall_mem_cons.mpr ⟨?_, ih leaves later⟩
      split
      · exact first
      · next newField selected =>
          split
          · refine ⟨fun extra => leaves newField ?_, first.below⟩
            have none : field = none := first.own extra
            exact none ▸ selected
          · next reading found =>
              obtain ⟨other, further, ordinary⟩ := leavesUnlabelled_typeReading found
              exact unlabelled_branch (fun absurd => (ordinary absurd).elim)
                (inner reading further (first.inner other))

theorem Unlabelled.reread {node : Node} (unlabelled : (ofNode field node).Unlabelled) :
    (ofNode field node.reinterpretAsType).Unlabelled := by
  unfold Node.reinterpretAsType
  cases found : typeReading? node.kind with
  | none => exact unlabelled
  | some reading =>
      obtain ⟨other, leaves, ordinary⟩ := leavesUnlabelled_typeReading found
      exact unlabelled_branch (fun absurd => (ordinary absurd).elim)
        (unlabelled_reinterpretChildren _ _ leaves (unlabelled.inner other))

structure Listed (child : Child) : Prop where
  notice : child.IsListedNotice
  below : child.Throughout Node.LabelsNoExtra

theorem Listed.extra {child : Child} (listed : child.Listed) : child.isSignificant = false := by
  cases child with
  | leaf field token => cases listed.notice.2
  | branch field kind span children =>
      have same : kind = .deprecatedDirective := Option.some.inj listed.notice.2
      subst same
      rfl

/-- The parameters that a parenthesized expression becomes: an extra among them is a notice. -/
theorem unlabelled_asParameterList {node : Node} (unlabelled : (ofNode field node).Unlabelled) :
    ∀ child ∈ node.asParameterList, child.Unlabelled ∨ child.Listed := by
  obtain ⟨own, below⟩ := throughout_branch.mp unlabelled.below
  intro child member
  obtain ⟨part, inside, rfl⟩ := List.mem_map.mp member
  cases part with
  | leaf role token =>
      refine Or.inl ⟨fun extra => (own _ inside extra).resolve_right ?_, throughout_leaf role token⟩
      exact fun absurd => by cases absurd.2.2
  | branch role kind span children =>
      have free : (ofNode none ⟨kind, span, children⟩).Unlabelled :=
        ⟨fun _ => rfl, below (branch role kind span children) inside⟩
      have read : (ofNode (some .parameters) (Node.mk kind span children).reinterpretAsType).Throughout
          Node.LabelsNoExtra := free.reread.below
      by_cases notice : kind = .deprecatedDirective
      · subst notice
        exact Or.inr ⟨⟨rfl, rfl⟩, read⟩
      · refine Or.inl ⟨fun extra => ?_, read⟩
        have significant := Segment.isSignificant_reinterpretAsType (some .parameters)
          (show (Node.mk kind span children).kind ≠ .deprecatedDirective from notice)
        exact absurd (significant.symm.trans extra) nofun

end Child

/-! ### The law -/

/-- The law that extras are under no field. It does not allow parentheses to be taken apart. -/
def unlabelledExtras : ChildLaw where
  holds := Child.Unlabelled
  kinds _ := true
  moves move := move != .spliceParameters
  relies _ := True
  leaf := Child.unlabelled_leaf
  extra := Child.unlabelled_extra
  node _ _ inner := Child.unlabelled_branch (fun _ => rfl) inner
  error := rfl
  cleared := Child.Unlabelled.cleared
  tag field significant unlabelled := unlabelled.tag field significant
  reread := Child.Unlabelled.reread
  splice absurd := by cases absurd

namespace Production

instance : unlabelledExtras.rules.Liberal where
  kinds _ _ := rfl
  moves _ other := bne_iff_ne.mpr other

theorem excuses_listed : unlabelledExtras.Excuses Child.Listed where
  extra _ listed := listed.extra
  cleared child listed := ⟨fun _ => Child.field?_withField none child, throughout_withField.mpr listed.below⟩

/-- A procedure type closed around parameters, with the notices among them. -/
theorem reads_procedureType {body : Production Unit}
    (obeys : body.Obeys unlabelledExtras.rules false) {resync : Bool}
    {enter : Entry → Surroundings → Segment → Reading Unit} (entries : unlabelledExtras.Entries enter)
    (around : Surroundings) {segment : Segment} (kept : unlabelledExtras.Kept Child.Listed segment) :
    ((wrap .procedureType body).read resync enter around segment).Satisfies
      (fun _ later => unlabelledExtras.Kept (fun _ => False) later) unlabelledExtras.KeptCleared := by
  rw [read_wrap]
  refine Reading.satisfies_enclosed.mpr ?_
  refine (obeys.reads entries excuses_listed nofun kept).weaken ?_ (fun _ => id)
  intro _ inner reached
  refine ⟨reached.proper, List.forall_mem_singleton.mpr (Or.inl ⟨fun _ => rfl, ?_⟩)⟩
  refine throughout_build (fun child member extra => ?_) (fun child member => ?_)
  · exact (reached.children child (List.mem_reverse.mp member)).imp (fun held => held.own extra)
      (fun listed => ⟨rfl, listed.notice⟩)
  · exact (reached.children child member).elim Child.Unlabelled.below Child.Listed.below

theorem kept_spliced {segment : Segment} (kept : unlabelledExtras.Kept (fun _ => False) segment)
    (around : Surroundings) :
    unlabelledExtras.Kept Child.Listed (segment.apply around .spliceParameters) := by
  refine Segment.Holds.mapLast kept.excusing (fun child significant held part member => ?_)
  have unlabelled : child.Unlabelled := held.resolve_right (fun listed => by
    rw [listed.extra] at significant
    cases significant)
  cases child with
  | leaf field token =>
      obtain rfl := List.mem_singleton.mp member
      exact Or.inl unlabelled
  | branch field kind span children =>
      have whole : (Child.ofNode field ⟨kind, span, children⟩).Unlabelled := unlabelled
      exact Child.unlabelled_asParameterList whole part member

/-- The parentheses before an arrow leave extras without a label outside of the procedure type. -/
theorem obeys_parenthesized (marked : Bool) : parenthesized.Obeys unlabelledExtras.rules marked := by
  have inside : (node .parenthesizedExpression (do
      bump
      fresh expression
      expect .rParen)).Obeys unlabelledExtras.rules false := ⟨rfl, by simp⟩
  refine KeepsOwn.obeys (keepsOwn_bind inside.keepsOwn (fun _ => ?_)) marked
  intro resync enter entries around segment kept
  unfold onlyIf
  rw [read_bind, read_look]
  change Reading.Satisfies (Production.read resync enter (if _ then _ else _) around segment) _ _
  split
  · rw [read_bind, read_act]
    exact reads_procedureType (by simp) entries around (kept_spliced kept around)
  · exact kept

/-! ### The grammar -/

@[simp] theorem unlabelledExtras_kinds (kind : NodeKind) :
    unlabelledExtras.rules.kinds kind = true := rfl

instance : unlabelledExtras.rules.TakesOperands where
  parenthesized := obeys_parenthesized
  inlineCall _ := obeys_marked (by simp [check])

theorem unlabelledExtras_implicitOperand {marked : Bool} :
    implicitOperand.Obeys unlabelledExtras.rules marked := by
  apply obeys_look_bind
  intro kind
  split <;> simp

theorem unlabelledExtras_primary {marked : Bool} : primary.Obeys unlabelledExtras.rules marked := by
  apply obeys_look_bind
  intro kind
  split <;> simp +decide [unlabelledExtras_implicitOperand]

theorem unlabelledExtras_postfixOperator :
    postfixOperator.Obeys unlabelledExtras.rules true := by
  have call : callOperator.Obeys unlabelledExtras.rules true := by simp [callOperator, settle_call]
  have dot : dotOperator.Obeys unlabelledExtras.rules true := by
    apply obeys_look_bind
    intro kind
    split <;> simp [andGoOn, memberOperator, dereferenceOperator, typedLiteral]
  apply obeys_look_bind
  intro kind
  split <;> simp [andGoOn, indexOperator, dereferenceOperator, call, dot]

theorem unlabelledExtras_unaryExpression {marked : Bool}
    (operand : postfixExpression.Obeys unlabelledExtras.rules marked) :
    unaryExpression.Obeys unlabelledExtras.rules marked := by
  apply obeys_look_bind
  intro kind
  split <;> simp [unaryOperator, prefixedOperand, pointerOperator, operand]

theorem unlabelledExtras_binaryOperatorStep (least : Prec) :
    (binaryOperatorStep least).Obeys unlabelledExtras.rules true := by
  apply obeys_look_bind
  intro ranged
  cases ranged with
  | true => simp [rangeOperator]
  | false =>
      apply obeys_look_bind
      intro found
      cases found <;> simp [andGoOn, binaryOperatorOf]

instance : unlabelledExtras.rules.TakesExpressions where
  postfixExpression _ :=
    obeys_marked (by simp [unlabelledExtras_primary, unlabelledExtras_postfixOperator])
  expressionEntry least _ := by
    have operand : postfixExpression.Obeys unlabelledExtras.rules true :=
      obeys_marked (by simp [unlabelledExtras_primary, unlabelledExtras_postfixOperator])
    exact obeys_marked (by
      simp [unlabelledExtras_unaryExpression operand, unlabelledExtras_binaryOperatorStep])

end Production

/-! ### Sources -/

/-- In the tree of any source, an extra is under a field only if it is a deprecation notice that is
recorded as a parameter of a procedure type. -/
theorem parse_labels_notices_only (options : ParseOptions) (source : List Char) :
    ∀ node ∈ (parse options source).tree.preorder, ∀ child ∈ node.children,
      child.isSignificant = false → child.field?.isSome = true →
        node.kind = .procedureType ∧ child.field? = some .parameters ∧
          child.node?.map Node.kind = some .deprecatedDirective := by
  have relied (depth : Nat) :
      unlabelledExtras.relies (readEntry options.resyncOnDeclaration depth) := trivial
  have unlabelled := readSource_obeys options.resyncOnDeclaration relied source
  have root : (Child.ofNode none (parse options source).tree).Unlabelled := by
    rw [parse_tree]
    exact Child.unlabelled_branch nofun
      (fun child member => unlabelled child (List.mem_reverse.mp member))
  intro node member child listed extra labelled
  rcases throughout_ofNode.mp root.below node member child listed extra with none | notice
  · rw [none] at labelled
    cases labelled
  · exact notice

/-- The notice before a parameter of a procedure type that is spelled in parentheses. -/
theorem parse_labels_notices_only_parameter :
    ∃ node ∈ (parse {} "F :: (#deprecated A) -> B;".toList).tree.preorder,
      ∃ child ∈ node.children, child.isSignificant = false ∧ child.field?.isSome = true ∧
        node.kind = .procedureType ∧ child.field? = some .parameters ∧
          child.node?.map Node.kind = some .deprecatedDirective := by
  have found : ∃ node ∈ (parse {} "F :: (#deprecated A) -> B;".toList).tree.preorder,
      ∃ child ∈ node.children, child.isSignificant = false ∧ child.field?.isSome = true := by
    decide +kernel
  obtain ⟨node, member, child, listed, extra, labelled⟩ := found
  exact ⟨node, member, child, listed, extra, labelled,
    parse_labels_notices_only {} _ node member child listed extra labelled⟩

/-- A notice before the first parameter of a procedure type becomes a parameter itself. -/
theorem parse_labels_notice :
    ¬ ∀ node ∈ (parse {} "F :: (#deprecated A) -> B;".toList).tree.preorder,
      ∀ child ∈ node.children, child.isSignificant = false → child.field? = none := by
  decide +kernel

end JaiSyntax
