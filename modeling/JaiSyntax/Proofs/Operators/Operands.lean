import JaiSyntax.Proofs.Operators.Nesting
/-!
What an operand without operators reads: a single node that is neither a binary expression nor a
range, and a closed construct if the operand takes no operators.
-/

set_option autoImplicit false

namespace JaiSyntax

namespace Segment

def significant (segment : Segment) : List Child := segment.latest.filter Child.isSignificant

/-- A segment that holds some significant children and then a single node. -/
def Yields (holds : Node → Prop) (earlier : List Child) (segment : Segment) : Prop :=
  ∃ node, segment.significant = .ofNode none node :: earlier ∧ holds node

variable {holds : Node → Prop} {earlier : List Child} {segment : Segment}

theorem Yields.weaken {other : Node → Prop} (yields : segment.Yields holds earlier)
    (weaker : ∀ node, holds node → other node) : segment.Yields other earlier := by
  obtain ⟨node, same, held⟩ := yields
  exact ⟨node, same, weaker node held⟩

theorem significant_flush (proper : segment.cursor.Proper) :
    segment.flush.significant = segment.significant := by
  have none : (segment.cursor.gap.map Extra.child).reverse.filter Child.isSignificant = [] := by
    refine List.filter_eq_nil_iff.mpr (fun child member => ?_)
    rw [List.mem_reverse, List.mem_map] at member
    obtain ⟨extra, inGap, rfl⟩ := member
    simp [proper.gap extra inGap]
  unfold significant flush
  rw [List.filter_append, none, List.nil_append]

theorem significant_after (later : Segment) (segment : Segment) :
    (later.after segment).significant = later.significant ++ segment.significant :=
  List.filter_append ..

theorem significant_enclosed {kind : NodeKind} (ordinary : kind ≠ .deprecatedDirective)
    (segment : Segment) (position : Nat) :
    (segment.enclosed kind position).significant =
      [.ofNode none (.build kind segment.latest.reverse position)] := by
  have kept : (Child.ofNode none (.build kind segment.latest.reverse position)).isSignificant =
      true := by
    simpa [Child.ofNode, Child.isSignificant, Node.build] using ordinary
  simp [significant, enclosed, kept]

/-- The significant children of a node over a segment. -/
theorem significant_build (kind : NodeKind) (segment : Segment) (position : Nat) :
    (Node.build kind segment.latest.reverse position).significant =
      segment.significant.reverse :=
  List.filter_reverse ..

theorem significant_bumpAs (proper : segment.cursor.Proper)
    (more : segment.cursor.isAtEnd = false) {change : Token → Token}
    (kept : segment.cursor.current.kind.isExtra = false →
      (change segment.cursor.current).kind.isExtra = false) :
    (segment.bumpAs change).significant =
      .leaf none (change segment.cursor.current) :: segment.significant := by
  have visible := kept (current_significant proper more)
  rw [← significant_flush proper]
  simp [significant, latest_bumpAs proper more, Child.isSignificant, visible]

/-- A label on the last significant child. -/
theorem significant_tag {child : Child} (field : Field) (around : Surroundings)
    (same : segment.significant = child :: earlier) :
    (segment.apply around (.tag field)).significant = child.withField (some field) :: earlier := by
  unfold significant at same
  simp only [significant, apply, mapLatest]
  generalize segment.latest = latest at same
  induction latest with
  | nil => cases same
  | cons first rest ih =>
      rw [replaceLastSignificant]
      split
      · next kept =>
          rw [List.filter_cons_of_pos kept] at same
          injection same with head tail
          subst head tail
          simp [isSignificant_withField, kept]
      · next dropped =>
          rw [List.filter_cons_of_neg dropped] at same ⊢
          exact ih same

end Segment

/-- A node that an operand without operators is. It is a closed construct if it takes no
operators. -/
structure Node.IsOperand (ending : Operand) (node : Node) : Prop where
  binary : node.kind ≠ .binaryExpression
  range : node.kind ≠ .range
  closed : ending = .closed → node.isClosed = true

def TypesYield (enter : Entry → Surroundings → Segment → Reading Unit) : Prop :=
  ∀ around segment, segment.cursor.Proper →
    (enter .type around segment).Satisfies
      (fun _ later => later.Yields (Node.IsOperand .isOpen) segment.significant) (fun _ => True)

namespace Production

variable {resync : Bool} {enter : Entry → Surroundings → Segment → Reading Unit} {α β : Type}
  {around : Surroundings} {segment : Segment}

/-! ### Reading a single node -/

@[irreducible]
def ReadsNode (resync : Bool) (enter : Entry → Surroundings → Segment → Reading Unit)
    (production : Production α) (holds : α → Node → Prop) (around : Surroundings)
    (segment : Segment) : Prop :=
  (production.read resync enter around segment).Satisfies
    (fun value later => later.Yields (holds value) segment.significant) (fun _ => True)

/-- Whether a production ends with a single node, of which something holds, since the mark. -/
@[irreducible]
def LeavesNode (resync : Bool) (enter : Entry → Surroundings → Segment → Reading Unit)
    (production : Production α) (holds : α → Node → Prop) (around : Surroundings)
    (segment : Segment) : Prop :=
  (production.read resync enter around segment).Satisfies
    (fun value later => later.Yields (holds value) []) (fun _ => True)

theorem ReadsNode.weaken {production : Production α} {holds other : α → Node → Prop}
    (reads : production.ReadsNode resync enter holds around segment)
    (weaker : ∀ value node, holds value node → other value node) :
    production.ReadsNode resync enter other around segment := by
  unfold ReadsNode at reads ⊢
  exact reads.weaken (fun value _ yields => yields.weaken (weaker value)) (fun _ => id)

/-- A node of whose children something holds. -/
theorem readsNode_node {kind : NodeKind} {body : Production α} {holds : α → Node → Prop}
    (proper : segment.cursor.Proper) (ordinary : kind ≠ .deprecatedDirective)
    (inside : (body.read resync enter around.first segment.flush.emptied).Satisfies
      (fun value inner => ∀ position, holds value (.build kind inner.latest.reverse position))
      (fun _ => True)) :
    (node kind body).ReadsNode resync enter holds around segment := by
  unfold ReadsNode
  rw [read_node]
  refine Reading.satisfies_after.mpr (Reading.satisfies_enclosed.mpr ?_)
  refine inside.weaken (fun value inner held => ⟨.build kind inner.latest.reverse
    segment.flush.cursor.current.span.start, ?_, held _⟩) (fun _ _ => trivial)
  rw [Segment.significant_after, Segment.significant_enclosed ordinary,
    Segment.significant_flush proper, List.singleton_append]

/-- A node of whatever children, of whose kind something holds. -/
theorem readsNode_kind {kind : NodeKind} {body : Production α} {holds : α → Node → Prop}
    (proper : segment.cursor.Proper) (ordinary : kind ≠ .deprecatedDirective)
    (held : ∀ value node, node.kind = kind → holds value node) :
    (node kind body).ReadsNode resync enter holds around segment :=
  readsNode_node proper ordinary ((Reading.satisfies_trivial _).weaken
    (fun value _ _ _ => held value _ rfl) (fun _ => id))

/-- A body with a mark of its own that reads a single node. -/
theorem readsNode_marked {body : Production α} {holds : α → Node → Prop}
    (proper : segment.cursor.Proper)
    (inside : body.LeavesNode resync enter holds (segment.flush.atMark around)
      segment.flush.emptied) :
    (marked body).ReadsNode resync enter holds around segment := by
  unfold LeavesNode at inside
  unfold ReadsNode
  rw [read_marked]
  refine Reading.satisfies_after.mpr (inside.weaken ?_ (fun _ _ => trivial))
  rintro value inner ⟨node, same, held⟩
  refine ⟨node, ?_, held⟩
  rw [Segment.significant_after, same, Segment.significant_flush proper, List.singleton_append]

theorem leavesNode_refuse {complaint : Complaint} {holds : α → Node → Prop} :
    (refuse complaint : Production α).LeavesNode resync enter holds around segment := by
  unfold LeavesNode
  rw [read_refuse]
  trivial

theorem leavesNode_look {γ : Type} {seen : View → γ} {next : γ → Production α}
    {holds : α → Node → Prop}
    (further : (next (seen (segment.view around))).LeavesNode resync enter holds around segment) :
    (look seen >>= next).LeavesNode resync enter holds around segment := by
  unfold LeavesNode at further ⊢
  rw [read_bind, read_look]
  exact further

/-- Whatever is read before a production that ends with a single node. -/
theorem leavesNode_bind {first : Production α} {next : α → Production β}
    {holds : β → Node → Prop}
    (further : ∀ value later, (next value).LeavesNode resync enter holds around later) :
    (first >>= next).LeavesNode resync enter holds around segment := by
  unfold LeavesNode at further ⊢
  rw [read_bind]
  exact (Reading.satisfies_trivial _).andThen (fun value later _ => further value later)

/-- A single node before a production that ends with one again. -/
theorem leavesNode_andThen {first : Production α} {next : α → Production β}
    {held : α → Node → Prop} {holds : β → Node → Prop}
    (front : first.LeavesNode resync enter held around segment)
    (further : ∀ value later, later.Yields (held value) [] →
      (next value).LeavesNode resync enter holds around later) :
    (first >>= next).LeavesNode resync enter holds around segment := by
  unfold LeavesNode at front further ⊢
  rw [read_bind]
  exact Reading.Satisfies.andThen front further

theorem leavesNode_pure {value : α} {holds : α → Node → Prop}
    (yields : segment.Yields (holds value) []) :
    (Production.pure value).LeavesNode resync enter holds around segment := by
  unfold LeavesNode
  rw [read]
  exact yields

theorem leavesNode_value {value : α} {next : α → Production β} {holds : β → Node → Prop}
    (further : (next value).LeavesNode resync enter holds around segment) :
    (Production.pure value >>= next).LeavesNode resync enter holds around segment := by
  unfold LeavesNode at further ⊢
  rw [read_bind, read]
  exact further

/-- A single node in an empty segment. -/
theorem ReadsNode.leaves {production : Production α} {holds : α → Node → Prop}
    (reads : production.ReadsNode resync enter holds around segment.emptied) :
    production.LeavesNode resync enter holds around segment.emptied := by
  unfold ReadsNode at reads
  unfold LeavesNode
  exact reads

/-- A node around everything since the mark is a single node. -/
theorem leavesNode_wrap {kind : NodeKind} {body : Production α} {holds : α → Node → Prop}
    (ordinary : kind ≠ .deprecatedDirective)
    (inside : (body.read resync enter around.first segment).Satisfies
      (fun value inner => ∀ position, holds value (.build kind inner.latest.reverse position))
      (fun _ => True)) :
    (wrap kind body).LeavesNode resync enter holds around segment := by
  unfold LeavesNode
  rw [read_wrap]
  exact Reading.satisfies_enclosed.mpr (inside.weaken
    (fun value inner held => ⟨_, Segment.significant_enclosed ordinary inner _, held _⟩)
    (fun _ => id))

theorem readsNode_refuse {complaint : Complaint} {holds : α → Node → Prop} :
    (refuse complaint : Production α).ReadsNode resync enter holds around segment := by
  unfold ReadsNode
  rw [read_refuse]
  trivial

/-- A look ahead before a single node. -/
theorem readsNode_look {γ : Type} {seen : View → γ} {next : γ → Production α}
    {holds : α → Node → Prop} :
    (look seen >>= next).ReadsNode resync enter holds around segment ↔
      (next (seen (segment.view around))).ReadsNode resync enter holds around segment := by
  unfold ReadsNode
  rw [read_bind, read_look]
  exact Iff.rfl

/-- A single node and then a value. -/
theorem readsNode_pure {body : Production α} {value : β} {holds : β → Node → Prop}
    (inside : body.ReadsNode resync enter (fun _ => holds value) around segment) :
    (body >>= fun _ => (Pure.pure value : Production β)).ReadsNode resync enter holds around segment := by
  unfold ReadsNode at inside ⊢
  rw [read_bind]
  refine inside.andThen (fun _ later yields => ?_)
  rw [read_pure]
  exact yields

/-! ### Single nodes as operands -/

def ReadsOperand (resync : Bool) (enter : Entry → Surroundings → Segment → Reading Unit)
    (production : Production Operand) (around : Surroundings) (segment : Segment) : Prop :=
  production.ReadsNode resync enter (fun ending node => node.IsOperand ending) around segment

/-- An operand with a node of a kind that is neither a binary expression nor a range. -/
theorem readsNode_operand {kind : NodeKind} {body : Production α} (proper : segment.cursor.Proper)
    (ordinary : kind ≠ .deprecatedDirective) (binary : kind ≠ .binaryExpression)
    (range : kind ≠ .range) :
    (node kind body).ReadsNode resync enter (fun _ node => node.IsOperand .isOpen) around
      segment :=
  readsNode_kind proper ordinary (fun _ node same =>
    ⟨same ▸ binary, same ▸ range, fun absurd => by cases absurd⟩)

theorem readsOperand_open {kind : NodeKind} {body : Production Unit}
    (proper : segment.cursor.Proper) (ordinary : kind ≠ .deprecatedDirective)
    (binary : kind ≠ .binaryExpression) (range : kind ≠ .range) :
    (openOperand (node kind body)).ReadsOperand resync enter around segment :=
  readsNode_pure (readsNode_operand proper ordinary binary range)

/-- A closed operand with a node of a kind that always is a closed construct. -/
theorem readsOperand_closed {kind : NodeKind} {body : Production Unit}
    (proper : segment.cursor.Proper) (ordinary : kind ≠ .deprecatedDirective)
    (binary : kind ≠ .binaryExpression) (range : kind ≠ .range)
    (closed : ∀ span children, (Node.mk kind span children).isClosed = true) :
    (closedOperand (node kind body)).ReadsOperand resync enter around segment := by
  refine readsNode_pure (readsNode_kind proper ordinary ?_)
  rintro _ ⟨kind, span, children⟩ rfl
  exact ⟨binary, range, fun _ => closed span children⟩

theorem readsOperand_stringLiteral (proper : segment.cursor.Proper) :
    (openOperand stringLiteral).ReadsOperand resync enter around segment := by
  refine readsNode_pure ?_
  unfold stringLiteral checkDirective
  rw [readsNode_look]
  split
  · exact readsNode_operand proper (by decide) (by decide) (by decide)
  · exact readsNode_operand proper (by decide) (by decide) (by decide)

/-- Whatever is read before the rest of a production. -/
theorem reads_bind {first : Production α} {next : α → Production β}
    {done : β → Segment → Prop}
    (further : ∀ value later, ((next value).read resync enter around later).Satisfies done
      (fun _ => True)) :
    ((first >>= next).read resync enter around segment).Satisfies done (fun _ => True) := by
  rw [read_bind]
  exact (Reading.satisfies_trivial _).andThen (fun value later _ => further value later)

theorem reads_look {γ : Type} {seen : View → γ} {next : γ → Production α}
    {done : α → Segment → Prop} {failed : Segment → Prop}
    (further : ((next (seen (segment.view around))).read resync enter around segment).Satisfies done
      failed) :
    ((look seen >>= next).read resync enter around segment).Satisfies done failed := by
  rw [read_bind, read_look]
  exact further

theorem reads_eat {kind : TokenKind} {next : Bool → Production α} {done : α → Segment → Prop}
    (taken : ∀ later, ((next true).read resync enter around later).Satisfies done (fun _ => True))
    (left : ((next false).read resync enter around segment).Satisfies done (fun _ => True)) :
    ((eat kind >>= next).read resync enter around segment).Satisfies done (fun _ => True) := by
  unfold eat check
  rw [read_bind, read_bind, read_look]
  simp only [Reading.andThen]
  cases (segment.view around).isAt kind with
  | true => exact taken _
  | false => exact left

/-- A body in braces leaves a child that is recorded as the body. -/
theorem reads_bodyBlock {next : Unit → Production α} {done : α → Segment → Prop}
    (further : ∀ later, (∃ child ∈ later.latest, child.field? = some .body) →
      ((next ()).read resync enter around later).Satisfies done (fun _ => True)) :
    ((bodyBlock >>= next).read resync enter around segment).Satisfies done (fun _ => True) := by
  have labelled : (bodyBlock.read resync enter around segment).Satisfies
      (fun _ later => ∃ child ∈ later.latest, child.field? = some .body) (fun _ => True) := by
    unfold bodyBlock block tag
    rw [read_bind, read_node]
    generalize read resync enter _ around.first segment.flush.emptied = reading
    cases reading with
    | failed error later => trivial
    | done value inner =>
        change (read resync enter (act (.tag .body)) around _).Satisfies _ _
        rw [read_act]
        let node := Node.build .block inner.latest.reverse segment.flush.cursor.current.span.start
        refine ⟨(Child.ofNode none node).withField (some .body), ?_, Child.field?_withField _ _⟩
        have significant : (Child.ofNode none node).isSignificant = true := rfl
        simp [Segment.apply, Segment.mapLatest, Segment.after, Segment.enclosed,
          replaceLastSignificant, significant, node]
  rw [read_bind]
  exact labelled.andThen (fun _ later => further later)

theorem childrenUnder_build {kind : NodeKind} {latest : List Child} {position : Nat}
    {field : Field} (some : ∃ child ∈ latest, child.field? = some field) :
    ((Node.build kind latest.reverse position).childrenUnder field).isEmpty = false := by
  obtain ⟨child, member, same⟩ := some
  rw [List.isEmpty_eq_false_iff_exists_mem]
  exact ⟨child, List.mem_filter.mpr ⟨List.mem_reverse.mpr member, by simp [same]⟩⟩

/-! ### Directives -/

theorem readsOperand_compileTime {kind : NodeKind} (proper : segment.cursor.Proper)
    (compiled : kind = .runExpression ∨ kind = .insertExpression) :
    (compileTimeExpression kind).ReadsOperand resync enter around segment := by
  have closes : ∀ (ending : Operand) (inner : Segment) (position : Nat),
      (ending = .closed → ∃ child ∈ inner.latest, child.field? = some .body) →
      (Node.build kind inner.latest.reverse position).IsOperand ending := by
    intro ending inner position some
    refine ⟨?_, ?_, fun same => ?_⟩
    · rcases compiled with rfl | rfl <;> exact fun absurd => by cases absurd
    · rcases compiled with rfl | rfl <;> exact fun absurd => by cases absurd
    · have body : ((Node.build kind inner.latest.reverse position).childrenUnder .body).isEmpty =
          false := childrenUnder_build (some same)
      rcases compiled with rfl | rfl <;> simpa [Node.isClosed, Node.build] using body
  refine readsNode_node proper (by rcases compiled with rfl | rfl <;> decide) ?_
  have body : ∀ start : Segment, ((bodyBlock >>= fun _ =>
      (Pure.pure Operand.closed : Production Operand)).read resync enter around.first
        start).Satisfies (fun ending inner => ∀ position,
          (Node.build kind inner.latest.reverse position).IsOperand ending) (fun _ => True) := by
    intro start
    refine reads_bodyBlock (fun later some => ?_)
    rw [read_pure]
    exact fun position => closes .closed later position (fun _ => some)
  refine reads_bind (fun _ bumped => reads_bind (fun _ optioned => ?_))
  refine reads_eat (fun arrow => reads_bind (fun _ resulted => body resulted)) (reads_look ?_)
  split
  · exact body optioned
  · refine reads_bind (fun _ entered => reads_bind (fun _ tagged => ?_))
    rw [read]
    exact fun position => closes .isOpen tagged position (fun absurd => by cases absurd)

/-- The options of a directive label nothing before them. -/
theorem directiveOptions_orderly {view : View} {covered : Coverage} {after : Unit → Place → Prop}
    (repeated : ∀ view, after () ⟨view, .tight⟩) (skipped : after () ⟨view, covered⟩) :
    directiveOptions.Orderly (fun kind => kind.isPlain = true) false after ⟨view, covered⟩ :=
  orderly_asLongAs (fun _ _ more => covers_bump_name_bind (View.name_of_comma more) (fun _ =>
    covers_onlyIf rfl (fun _ => covers_callArguments (fun _ => id)))) repeated (fun _ => skipped)

/-- Code as a value labels nothing before its options. -/
theorem codeTail_orderly (view : View) :
    (do
      directiveOptions
      if ← check .lBrace then bodyBlock else expressionAs .argument : Production Unit).Orderly
        (fun kind => kind.isPlain = true) false (fun _ _ => True) ⟨view, .nothing⟩ := by
  have tail : ∀ place : Place, (do
      if ← check .lBrace then bodyBlock else expressionAs .argument : Production Unit).Orderly
        (fun kind => kind.isPlain = true) false (fun _ _ => True) place := by
    intro place
    unfold check
    refine Covers.orderly ?_ (fun _ _ => trivial)
    rw [covers_look_bind]
    split
    · exact covers_bodyBlock (fun _ => id)
    · exact covers_expressionAs _
  exact (orderly_bind _ _).mpr (directiveOptions_orderly (fun _ => tail _) (tail _))

theorem readsOperand_code {holds : Node → Prop}
    (plain : ∀ node : Node, node.kind.isOperator = false → holds node)
    (entries : EntriesCover enter) (grow : EntriesGrow holds enter)
    (proper : segment.cursor.Proper) (directive : segment.cursor.current.kind = .directive)
    (name : segment.cursor.current.text = "#code") :
    (closedOperand codeExpression).ReadsOperand resync enter around segment := by
  refine readsNode_pure (readsNode_node proper (by decide) ?_)
  have more : segment.flush.emptied.cursor.isAtEnd = false := by
    change (segment.cursor.current.kind == .eof) = false
    rw [directive]
    rfl
  have inside := proper_emptied proper
  unfold bump
  rw [read_bind, read_act]
  change ((do
      directiveOptions
      if ← check .lBrace then bodyBlock else expressionAs .argument : Production Unit).read resync
    enter around.first segment.flush.emptied.bump).Satisfies _ _
  have bumped : segment.flush.emptied.bump.latest = [.leaf none segment.cursor.current] :=
    Segment.latest_bumpAs inside more id
  have grows := (codeTail_orderly _).grows plain entries grow resync
    (fun absurd => (Bool.false_ne_true absurd).elim) (describes_start _ around.first)
    ((Segment.continues_bump inside).proper inside) (Segment.grows_refl _)
  refine grows.weaken ?_ (fun _ _ => trivial)
  rintro value inner ⟨-, reached, -, ⟨added, same, -⟩, -⟩ position
  refine ⟨nofun, nofun, fun _ => ?_⟩
  rw [bumped] at same
  simp [Node.isClosed, Node.build, Node.leaves, same, Child.leavesOfList, Child.leaves, name]

theorem readsOperand_directive {holds : Node → Prop}
    (plain : ∀ node : Node, node.kind.isOperator = false → holds node)
    (entries : EntriesCover enter) (grow : EntriesGrow holds enter)
    (proper : segment.cursor.Proper) (directive : segment.cursor.current.kind = .directive) :
    directiveExpression.ReadsOperand resync enter around segment := by
  unfold directiveExpression ReadsOperand
  rw [readsNode_look]
  change (directiveExpressionNamed segment.cursor.current.text).ReadsOperand resync enter around
    segment
  unfold directiveExpressionNamed
  split
  · exact readsOperand_open proper (by decide) (by decide) (by decide)
  · exact readsOperand_open proper (by decide) (by decide) (by decide)
  · exact readsOperand_compileTime proper (Or.inl rfl)
  · exact readsOperand_compileTime proper (Or.inr rfl)
  · exact readsOperand_open proper (by decide) (by decide) (by decide)
  · exact readsOperand_open proper (by decide) (by decide) (by decide)
  · exact readsOperand_open proper (by decide) (by decide) (by decide)
  · exact readsOperand_closed proper (by decide) (by decide) (by decide) (fun _ _ => rfl)
  · next same => exact readsOperand_code plain entries grow proper directive same
  · exact readsOperand_open proper (by decide) (by decide) (by decide)
  · exact readsOperand_open proper (by decide) (by decide) (by decide)
  · exact readsOperand_open proper (by decide) (by decide) (by decide)
  · split
    · exact readsOperand_open proper (by decide) (by decide) (by decide)
    · exact readsNode_refuse

/-! ### Procedures and parentheses -/

/-- A part that may be left out, before a production that ends with a single node. -/
theorem leavesNode_optional {given : Bool} {part : Production Unit} {next : Unit → Production β}
    {holds : β → Node → Prop}
    (further : ∀ later, (next ()).LeavesNode resync enter holds around later) :
    (if given then part >>= next else next ()).LeavesNode resync enter holds around segment := by
  cases given with
  | true => exact leavesNode_bind (fun _ later => further later)
  | false => exact further segment

/-- A body in braces that may be left out is recorded as the body of the node that is read. -/
theorem leavesNode_bodyBlock {given : Bool} {next : Unit → Production β} {holds : β → Node → Prop}
    (further : ∀ later, (given = true → ∃ child ∈ later.latest, child.field? = some .body) →
      (next ()).LeavesNode resync enter holds around later) :
    (if given then bodyBlock >>= next else next ()).LeavesNode resync enter holds around
      segment := by
  unfold LeavesNode at further ⊢
  cases given with
  | true => exact reads_bodyBlock (fun later some => further later (fun _ => some))
  | false => exact further segment (fun absurd => by cases absurd)

/-- A procedure is a single node, of the kind of a procedure where it has a body or directives and does
not stand in a type. A body is recorded as such, and does not stand in a type. -/
theorem readsNode_procedureAs {holds : Operand → Node → Prop} (proper : segment.cursor.Proper)
    (held : ∀ (hasBody hasDirectives : Bool) (node : Node),
      node.kind = (if !around.context.inType && (hasBody || hasDirectives) then .procedure
        else .procedureType) →
      (hasBody = true →
        around.context.inType = false ∧ (node.childrenUnder .body).isEmpty = false) →
      holds (if hasBody then .closed else .isOpen) node) :
    procedure.ReadsNode resync enter holds around segment := by
  refine readsNode_marked proper (leavesNode_look (leavesNode_bind (fun _ _ =>
    leavesNode_bind (fun arrow _ => ?_))))
  dsimp only
  refine leavesNode_optional (fun _ => leavesNode_bind (fun hasDirectives directed =>
    leavesNode_look (leavesNode_bodyBlock (fun later recorded => ?_))))
  refine leavesNode_andThen (leavesNode_wrap (by split <;> decide) ?_)
    (fun _ _ yields => leavesNode_pure yields)
  intro position
  refine held _ _ _ rfl (fun given => ?_)
  have some := recorded given
  rw [Bool.and_eq_true, Bool.not_eq_true'] at given
  exact ⟨given.1, childrenUnder_build some⟩

theorem readsOperand_procedure (proper : segment.cursor.Proper) :
    procedure.ReadsOperand resync enter around segment := by
  refine readsNode_procedureAs proper (fun hasBody hasDirectives node same body => ?_)
  have either : node.kind = .procedure ∨ node.kind = .procedureType := by
    rw [same]
    split
    · exact Or.inl rfl
    · exact Or.inr rfl
  refine ⟨?_, ?_, fun closed => ?_⟩
  · rcases either with kind | kind <;> exact fun absurd => by rw [kind] at absurd; cases absurd
  · rcases either with kind | kind <;> exact fun absurd => by rw [kind] at absurd; cases absurd
  · cases hasBody with
    | false => cases closed
    | true =>
        obtain ⟨outside, some⟩ := body rfl
        rw [outside] at same
        unfold Node.isClosed
        rw [same]
        exact congrArg (!·) some

/-- A node around everything since the mark, of a kind that is neither a binary expression nor a
range. -/
theorem leavesNode_operand {kind : NodeKind} {body : Production Unit}
    (ordinary : kind ≠ .deprecatedDirective) (binary : kind ≠ .binaryExpression)
    (range : kind ≠ .range) :
    (wrap kind body).LeavesNode resync enter (fun _ node => node.IsOperand .isOpen) around
      segment :=
  leavesNode_wrap ordinary ((Reading.satisfies_trivial _).weaken
    (fun _ _ _ _ => ⟨binary, range, nofun⟩) (fun _ => id))

theorem readsNode_parenthesized (proper : segment.cursor.Proper) :
    parenthesized.ReadsNode resync enter (fun _ node => node.IsOperand .isOpen) around segment := by
  refine readsNode_marked proper (leavesNode_andThen (readsNode_operand (proper_emptied proper)
    (by decide) (by decide) (by decide)).leaves (fun _ later yields => ?_))
  unfold onlyIf
  refine leavesNode_look ?_
  split
  · exact leavesNode_bind (fun _ _ => leavesNode_operand (by decide) (by decide) (by decide))
  · exact leavesNode_pure yields

theorem readsOperand_parenthesis (proper : segment.cursor.Proper) :
    parenthesis.ReadsOperand resync enter around segment := by
  unfold parenthesis ReadsOperand
  rw [readsNode_look]
  split
  · exact readsOperand_closed proper (by decide) (by decide) (by decide) (fun _ _ => rfl)
  rw [readsNode_look]
  split
  · exact readsOperand_procedure proper
  · exact readsNode_pure (readsNode_parenthesized proper)

/-! ### Words and types -/

theorem readsNode_inlineCall (proper : segment.cursor.Proper) :
    inlineCall.ReadsNode resync enter (fun _ node => node.IsOperand .isOpen) around segment := by
  refine readsNode_marked proper (leavesNode_bind (fun _ _ => leavesNode_bind (fun _ _ =>
    leavesNode_bind (fun _ _ => leavesNode_look ?_))))
  split
  · exact leavesNode_bind (fun _ _ => leavesNode_operand (by decide) (by decide) (by decide))
  · exact leavesNode_refuse

theorem readsOperand_word (proper : segment.cursor.Proper) :
    word.ReadsOperand resync enter around segment := by
  unfold word checkWord ReadsOperand
  rw [readsNode_look]
  split
  · exact readsOperand_open proper (by decide) (by decide) (by decide)
  rw [readsNode_look]
  split
  · exact readsOperand_open proper (by decide) (by decide) (by decide)
  rw [readsNode_look]
  split
  · exact readsOperand_closed proper (by decide) (by decide) (by decide) (fun _ _ => rfl)
  rw [readsNode_look]
  split
  · exact readsOperand_closed proper (by decide) (by decide) (by decide) (fun _ _ => rfl)
  rw [readsNode_look]
  split
  · exact readsOperand_closed proper (by decide) (by decide) (by decide) (fun _ _ => rfl)
  rw [readsNode_look]
  split
  · exact readsOperand_open proper (by decide) (by decide) (by decide)
  rw [readsNode_look]
  split
  · exact readsNode_pure (readsNode_inlineCall proper)
  rw [readsNode_look]
  split
  · exact readsNode_refuse
  rw [readsNode_look]
  split
  · exact readsOperand_open proper (by decide) (by decide) (by decide)
  rw [readsNode_look]
  split
  · exact readsOperand_closed proper (by decide) (by decide) (by decide) (fun _ _ => rfl)
  · exact readsOperand_open proper (by decide) (by decide) (by decide)

/-- A loop that ends with a single node after each of its rounds. -/
theorem leavesNode_repeatedly {body : Production Bool} {holds : Node → Prop}
    (start : segment.Yields holds [])
    (round : ∀ segment, segment.Yields holds [] →
      body.LeavesNode resync enter (fun _ => holds) around segment) :
    (repeatedly body).LeavesNode resync enter (fun _ => holds) around segment := by
  unfold LeavesNode at round ⊢
  rw [read_repeatedly]
  exact Reading.satisfies_iterate_of_kept start round _

theorem readsNode_implicitOperand (proper : segment.cursor.Proper) :
    implicitOperand.ReadsNode resync enter (fun _ node => node.IsOperand .isOpen) around
      segment := by
  unfold implicitOperand
  rw [readsNode_look]
  split
  · exact readsNode_operand proper (by decide) (by decide) (by decide)
  · exact readsNode_operand proper (by decide) (by decide) (by decide)
  · exact readsNode_operand proper (by decide) (by decide) (by decide)
  · exact readsNode_refuse

/-- An operand without operators is a single node. -/
theorem readsOperand_primary {holds : Node → Prop}
    (plain : ∀ node : Node, node.kind.isOperator = false → holds node)
    (entries : EntriesCover enter) (grow : EntriesGrow holds enter) (types : TypesYield enter)
    (proper : segment.cursor.Proper) :
    primary.ReadsOperand resync enter around segment := by
  have type : (openOperand type).ReadsOperand resync enter around segment := by
    refine readsNode_pure ?_
    unfold ReadsNode Production.type
    rw [read_within, read_enter]
    exact types _ segment proper
  unfold primary ReadsOperand
  rw [readsNode_look]
  split
  · exact readsOperand_word proper
  · exact readsOperand_open proper (by decide) (by decide) (by decide)
  · exact readsOperand_open proper (by decide) (by decide) (by decide)
  · exact readsOperand_stringLiteral proper
  · next directive => exact readsOperand_directive plain entries grow proper directive
  · exact readsOperand_parenthesis proper
  · exact type
  · exact type
  · exact readsNode_pure (readsNode_implicitOperand proper)
  · exact readsOperand_open proper (by decide) (by decide) (by decide)
  · exact readsOperand_open proper (by decide) (by decide) (by decide)
  · exact readsNode_refuse

/-! ### Postfix operators -/

/-- A postfix operator leaves a single node, whether there is one or not. -/
theorem leavesNode_postfixOperator
    (start : segment.Yields (fun node => node.IsOperand .isOpen) []) :
    postfixOperator.LeavesNode resync enter (fun _ node => node.IsOperand .isOpen) around
      segment := by
  have goOn : ∀ {body : Production Unit},
      body.LeavesNode resync enter (fun _ node => node.IsOperand .isOpen) around segment →
      (andGoOn body).LeavesNode resync enter (fun _ node => node.IsOperand .isOpen) around
        segment :=
    fun inner => leavesNode_andThen inner (fun _ _ yields => leavesNode_pure yields)
  have dereference : ∀ count, (andGoOn (dereferenceOperator count)).LeavesNode resync enter
      (fun _ node => node.IsOperand .isOpen) around segment := fun count =>
    goOn (leavesNode_bind (fun _ _ => leavesNode_operand (by decide) (by decide) (by decide)))
  unfold postfixOperator
  refine leavesNode_look ?_
  split
  · refine goOn ?_
    unfold callOperator
    rw [settle_call]
    exact leavesNode_value (leavesNode_bind (fun _ _ =>
      leavesNode_operand (by decide) (by decide) (by decide)))
  · exact goOn (leavesNode_bind (fun _ _ =>
      leavesNode_operand (by decide) (by decide) (by decide)))
  · unfold dotOperator
    refine leavesNode_look ?_
    split
    · exact goOn (leavesNode_bind (fun _ _ =>
        leavesNode_operand (by decide) (by decide) (by decide)))
    · exact dereference 2
    · exact goOn (leavesNode_bind (fun _ _ => leavesNode_bind (fun _ _ =>
        leavesNode_operand (by decide) (by decide) (by decide))))
    · exact goOn (leavesNode_bind (fun _ _ => leavesNode_bind (fun _ _ =>
        leavesNode_operand (by decide) (by decide) (by decide))))
    · exact leavesNode_pure start
  · refine leavesNode_look ?_
    split
    · exact leavesNode_pure start
    · exact dereference 1
  · exact leavesNode_pure start

/-- An operand with its postfix operators is a single node. -/
theorem readsOperand_postfix {holds : Node → Prop}
    (plain : ∀ node : Node, node.kind.isOperator = false → holds node)
    (entries : EntriesCover enter) (grow : EntriesGrow holds enter) (types : TypesYield enter)
    (proper : segment.cursor.Proper) :
    postfixExpression.ReadsOperand resync enter around segment := by
  refine readsNode_marked proper ?_
  have first : primary.LeavesNode resync enter (fun ending node => node.IsOperand ending)
      (segment.flush.atMark around) segment.flush.emptied :=
    ReadsNode.leaves (readsOperand_primary plain entries grow types (proper_emptied proper))
  refine leavesNode_andThen first (fun ending later yields => ?_)
  cases ending with
  | closed => exact leavesNode_pure yields
  | isOpen =>
      exact leavesNode_andThen
        (leavesNode_repeatedly yields (fun _ held => leavesNode_postfixOperator held))
        (fun _ _ yields => leavesNode_pure yields)

end Production

end JaiSyntax
