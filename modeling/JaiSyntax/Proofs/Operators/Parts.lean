import JaiSyntax.Proofs.Operators.Climbing
import JaiSyntax.Proofs.Reading.Obedience
/-!
The parts of operators, calls, indexes and members: which children a node of each kind asks for, and
what the productions that read them add to a segment.
-/

set_option autoImplicit false

namespace JaiSyntax

namespace Child

def isNodeUnder (field : Field) : Child → Bool
  | .leaf _ _ => false
  | .branch role _ _ _ => role == some field

def isTokenUnder (field : Field) : Child → Bool
  | .leaf role _ => role == some field
  | .branch _ _ _ _ => false

/-- Whether a child is a token of a kind, under no field. -/
def isTokenOf (kind : TokenKind) : Child → Bool
  | .leaf role token => role == none && token.kind == kind
  | .branch _ _ _ _ => false

def isBinaryOperator : Child → Bool
  | .leaf role token => role == some .operator && (binaryOperator? token.kind).isSome
  | .branch _ _ _ _ => false

@[simp] theorem isTokenUnder_leaf (field : Field) (token : Token) :
    (leaf (some field) token).isTokenUnder field = true :=
  beq_self_eq_true (some field)

@[simp] theorem isTokenOf_leaf (kind : TokenKind) (token : Token) :
    (leaf none token).isTokenOf kind = (token.kind == kind) := rfl

@[simp] theorem isBinaryOperator_leaf (token : Token) :
    (leaf (some .operator) token).isBinaryOperator = (binaryOperator? token.kind).isSome := rfl

theorem field?_of_isTokenOf {kind : TokenKind} {child : Child} (token : child.isTokenOf kind = true) :
    child.field? = none := by
  cases child with
  | leaf role single =>
      simp only [isTokenOf, Bool.and_eq_true, beq_iff_eq] at token
      exact token.1
  | branch role kind span children => cases token

end Child

/-- Whether some significant children are all that a node of a kind asks for. Operators, calls, indexes
and members ask for something. -/
def NodeKind.isCompleteWith (kind : NodeKind) (children : List Child) : Bool :=
  match kind, children with
  | .binaryExpression, [left, operator, right] =>
      left.isNodeUnder .left && operator.isBinaryOperator && right.isNodeUnder .right
  | .range, [low, dots, high] =>
      low.isNodeUnder .rangeFrom && dots.isTokenOf .dotDot && high.isNodeUnder .rangeTo
  | .unaryExpression, [operator, operand] =>
      operator.isTokenUnder .operator && operand.isNodeUnder .argument
  | .dereferenceExpression, [operand, star] =>
      operand.isNodeUnder .argument && star.isTokenOf .star
  | .dereferenceExpression, [operand, dot, star] =>
      operand.isNodeUnder .argument && dot.isTokenOf .dot && star.isTokenOf .star
  | .memberExpression, [dot, member] => dot.isTokenOf .dot && member.isTokenUnder .member
  | .memberExpression, [object, dot, member] =>
      object.isNodeUnder .object && dot.isTokenOf .dot && member.isTokenUnder .member
  | .indexExpression, [object, opening, index, closing] =>
      object.isNodeUnder .object && opening.isTokenOf .lBracket && index.isNodeUnder .index &&
        closing.isTokenOf .rBracket
  | .indexExpression, [object, opening, first, comma, second, closing] =>
      object.isNodeUnder .object && opening.isTokenOf .lBracket && first.isNodeUnder .index &&
        comma.isTokenOf .comma && second.isNodeUnder .index && closing.isTokenOf .rBracket
  | .callExpression, parts => parts.countP (fun part => part.field? == some .function) == 1
  | other, _ => !other.isOperation

def Node.isComplete (node : Node) : Bool := node.kind.isCompleteWith node.significant

theorem isCompleteWith_of_plain {kind : NodeKind} (plain : kind.isOperation = false)
    (children : List Child) : kind.isCompleteWith children = true := by
  unfold NodeKind.isCompleteWith
  split <;> first | cases plain | exact congrArg (!·) plain

theorem Node.isComplete_of_incidental (node : Node) (incidental : node.kind.isIncidental = true) :
    node.isComplete = true := by
  refine isCompleteWith_of_plain ?_ node.significant
  cases same : node.kind <;> first | rfl | (rw [same] at incidental; cases incidental)

/-! ### The law -/

/-- The law that operators, calls, indexes and members are complete. Its rules leave none of them to be
opened but by parts that are taken as a whole. -/
def completeOperations : ChildLaw where
  holds child := child.Throughout (fun node => node.isComplete = true)
  kinds kind := !kind.isOperation
  moves _ := true
  relies := EntriesNest
  leaf := throughout_leaf none
  extra := throughout_extra Node.isComplete_of_incidental
  node _ plain inner :=
    throughout_branch.mpr ⟨isCompleteWith_of_plain (Bool.not_eq_true' _ ▸ plain) _, inner⟩
  error := rfl
  cleared := throughout_withField.mpr
  tag _ _ := throughout_withField.mpr
  reread held :=
    throughout_reinterpretAsType (keptByReading_of_incidental Node.isComplete_of_incidental) held _
  splice _ _ _ :=
    throughout_asParameterList (keptByReading_of_incidental Node.isComplete_of_incidental)

instance : completeOperations.rules.Liberal where
  kinds _ plain := congrArg (!·) plain
  moves _ _ := rfl

abbrev Segment.Complete (segment : Segment) : Prop :=
  completeOperations.Kept (fun _ => False) segment

/-- A node that is complete around children in which everything is. -/
theorem Segment.complete_enclosed {segment : Segment} (complete : segment.Complete)
    {kind : NodeKind} (parts : kind.isCompleteWith segment.significant.reverse = true)
    (position : Nat) : (segment.enclosed kind position).Complete := by
  refine ⟨complete.proper, List.forall_mem_singleton.mpr (Or.inl (throughout_build ?_ ?_))⟩
  · rw [Node.isComplete, Segment.significant_build]
    exact parts
  · exact fun child member => (complete.children child member).resolve_right id

theorem EntriesNest.proper {enter : Entry → Surroundings → Segment → Reading Unit}
    (nests : EntriesNest enter) (entry : Entry) (around : Surroundings) (segment : Segment)
    (proper : segment.cursor.Proper) :
    (enter entry around segment).Satisfies (fun _ later => later.cursor.Proper)
      (fun later => later.cursor.Proper) :=
  (nests.cover entry around segment proper).weaken (fun _ _ reached => reached.1.proper proper)
    (fun _ continues => continues.proper proper)

namespace Production

variable {resync : Bool} {enter : Entry → Surroundings → Segment → Reading Unit} {α β : Type}
  {around : Surroundings} {segment : Segment}

/-! ### Parts of an operator -/

def Adds (resync : Bool) (enter : Entry → Surroundings → Segment → Reading Unit)
    (production : Production α) (holds : Child → Prop) (around : Surroundings)
    (segment : Segment) : Prop :=
  (production.read resync enter around segment).Satisfies
    (fun _ later => later.cursor.Proper ∧
      ∃ child, later.significant = child :: segment.significant ∧ holds child)
    (fun _ => True)

def Fills (resync : Bool) (enter : Entry → Surroundings → Segment → Reading Unit)
    (production : Production α) (kind : NodeKind) (around : Surroundings)
    (segment : Segment) : Prop :=
  (production.read resync enter around segment).Satisfies
    (fun _ later => kind.isCompleteWith later.significant.reverse = true) (fun _ => True)

variable {holds : Child → Prop} {kind : NodeKind}

theorem Adds.andThen {first : Production α} {next : α → Production β} {done : β → Segment → Prop}
    (adds : first.Adds resync enter holds around segment)
    (further : ∀ value later child, later.cursor.Proper →
      later.significant = child :: segment.significant → holds child →
        ((next value).read resync enter around later).Satisfies done (fun _ => True)) :
    ((first >>= next).read resync enter around segment).Satisfies done (fun _ => True) := by
  unfold Adds at adds
  rw [read_bind]
  refine adds.andThen ?_
  rintro value later ⟨proper, child, same, held⟩
  exact further value later child proper same held

theorem Adds.fills {production : Production α} (adds : production.Adds resync enter holds around segment)
    (complete : ∀ child, holds child →
      kind.isCompleteWith (child :: segment.significant).reverse = true) :
    production.Fills resync enter kind around segment := by
  unfold Adds at adds
  refine adds.weaken ?_ (fun _ => id)
  rintro _ later ⟨-, child, same, held⟩
  rw [same]
  exact complete child held

theorem significant_bump (proper : segment.cursor.Proper)
    (visible : segment.cursor.current.kind ≠ .eof) :
    segment.bump.significant = .leaf none segment.cursor.current :: segment.significant :=
  Segment.significant_bumpAs proper (beq_false_of_ne visible) id

/-- A token that is consumed before the rest of a production. -/
theorem reads_bump {next : Unit → Production β} {done : β → Segment → Prop}
    (proper : segment.cursor.Proper) (visible : segment.cursor.current.kind ≠ .eof)
    (further : ∀ later, later.cursor.Proper → later.cursor.current = segment.cursor.peek 1 →
      later.significant = .leaf none segment.cursor.current :: segment.significant →
        ((next ()).read resync enter around later).Satisfies done (fun _ => True)) :
    ((bump >>= next).read resync enter around segment).Satisfies done (fun _ => True) :=
  further segment.bump (Segment.apply_proper proper around .bump) (Segment.peek_bumpAs proper id 0)
    (significant_bump proper visible)

theorem adds_bumpTagged (proper : segment.cursor.Proper)
    (visible : segment.cursor.current.kind ≠ .eof) (field : Field) :
    (bumpTagged field).Adds resync enter (· = .leaf (some field) segment.cursor.current) around
      segment :=
  ⟨Segment.apply_proper proper around .bump, _,
    Segment.significant_tag field around (significant_bump proper visible), rfl⟩

theorem read_eat (token : TokenKind) :
    (eat token).read resync enter around segment =
      if segment.cursor.current.kind == token then .done true segment.bump
      else .done false segment := by
  unfold eat check
  rw [read_bind, read_look]
  change Production.read resync enter (if segment.cursor.current.kind == token then _ else _) around
    segment = _
  split <;> rfl

theorem adds_expect {token : TokenKind} (proper : segment.cursor.Proper) (visible : token ≠ .eof) :
    (expect token).Adds resync enter (·.isTokenOf token = true) around segment := by
  unfold expect Adds
  rw [read_bind, read_eat]
  split
  · next found =>
      have same : segment.cursor.current.kind = token := eq_of_beq found
      refine ⟨Segment.apply_proper proper around .bump, _,
        significant_bump proper (same ▸ visible), ?_⟩
      simp [same]
  · trivial

/-- A label on a single node that was just read. -/
theorem adds_labelled {first : Production Unit} (nests : EntriesNest enter)
    (proper : segment.cursor.Proper)
    (reads : first.ReadsNode resync enter (fun _ _ => True) around segment) (field : Field) :
    (first >>= fun _ => tag field).Adds resync enter (·.isNodeUnder field = true) around segment := by
  have reached : (first.read resync enter around segment).Satisfies _ _ :=
    read_proper nests.proper first around proper
  unfold ReadsNode at reads
  unfold Adds
  rw [read_bind]
  refine ((reached.and reads).weaken (fun _ _ => id) (fun _ _ => trivial)).andThen ?_
  rintro _ later ⟨laterProper, node, same, -⟩
  exact ⟨laterProper, _, Segment.significant_tag field around same, beq_self_eq_true _⟩

/-! ### Parts beside a field -/

/-- Whether a production adds tokens, nodes and expressions only, and records none of them under a
field. -/
def Avoids (field : Field) {α : Type} (production : Production α) : Prop :=
  match production with
  | .pure _ | .look _ | .refuse _ => True
  | .act .bump | .act .bumpKeyword | .act (.report _) => True
  | .act (.tag other) => other ≠ field
  | .act .reinterpretLast | .act .spliceParameters => False
  | .bind first next => first.Avoids field ∧ ∀ value, (next value).Avoids field
  | .within _ body | .opened body | .repeatedly body => body.Avoids field
  | .node kind _ => kind ≠ .deprecatedDirective
  | .enter entry => ∃ least, entry = .expression least
  | .marked _ | .wrap _ _ | .guarded _ => False
termination_by structural production

section Avoids

variable {field : Field}

@[simp] theorem avoids_pure (value : α) : (Pure.pure value : Production α).Avoids field := trivial

@[simp] theorem avoids_value (value : α) : (Production.pure value).Avoids field := trivial

@[simp] theorem avoids_look (seen : View → α) : (look seen).Avoids field := trivial

@[simp] theorem avoids_refuse (complaint : Complaint) :
    (refuse complaint : Production α).Avoids field := trivial

@[simp] theorem avoids_bump : bump.Avoids field := trivial

@[simp] theorem avoids_tag {other : Field} : (tag other).Avoids field ↔ other ≠ field := Iff.rfl

@[simp] theorem avoids_bind (first : Production α) (next : α → Production β) :
    (first >>= next).Avoids field ↔ first.Avoids field ∧ ∀ value, (next value).Avoids field :=
  Iff.rfl

@[simp] theorem avoids_amongArguments (body : Production α) :
    (amongArguments body).Avoids field ↔ body.Avoids field := Iff.rfl

@[simp] theorem avoids_repeatedly (body : Production Bool) :
    (repeatedly body).Avoids field ↔ body.Avoids field := Iff.rfl

@[simp] theorem avoids_node {kind : NodeKind} (body : Production α)
    (ordinary : kind ≠ .deprecatedDirective) : (node kind body).Avoids field := ordinary

@[simp] theorem avoids_expression : expression.Avoids field := ⟨Prec.assignment, rfl⟩

@[simp] theorem avoids_ite (condition : Prop) [Decidable condition] (first second : Production α) :
    (if condition then first else second).Avoids field ↔
      (condition → first.Avoids field) ∧ (¬ condition → second.Avoids field) := by
  split <;> simp_all

@[simp] theorem avoids_expect (kind : TokenKind) : (expect kind).Avoids field := by
  simp [expect, eat, check]

end Avoids

/-- Whether a segment adds children to some significant ones, at least one and none under a field. -/
def AddsBeside (field : Field) (earlier : List Child) (segment : Segment) : Prop :=
  ∃ first more, segment.significant = first :: more ++ earlier ∧
    ∀ child ∈ first :: more, child.field? ≠ some field

theorem AddsBeside.cons {field : Field} {earlier : List Child} (adds : AddsBeside field earlier segment)
    {later : Segment} {child : Child} (same : later.significant = child :: segment.significant)
    (other : child.field? ≠ some field) : AddsBeside field earlier later := by
  obtain ⟨first, more, before, others⟩ := adds
  exact ⟨child, first :: more, by rw [same, before]; rfl, List.forall_mem_cons.mpr ⟨other, others⟩⟩

theorem AddsBeside.bumpAs {field : Field} {earlier : List Child}
    (adds : AddsBeside field earlier segment) (proper : segment.cursor.Proper) {change : Token → Token}
    (kept : segment.cursor.current.kind.isExtra = false →
      (change segment.cursor.current).kind.isExtra = false) :
    AddsBeside field earlier (segment.bumpAs change) := by
  cases ended : segment.cursor.isAtEnd with
  | false => exact adds.cons (Segment.significant_bumpAs proper ended kept) nofun
  | true =>
      obtain ⟨first, more, before, others⟩ := adds
      refine ⟨first, more, ?_, others⟩
      rw [Segment.bumpAs_of_end ended, Segment.significant_flush proper, before]

theorem AddsBeside.tag {field other : Field} {earlier : List Child}
    (adds : AddsBeside field earlier segment) (around : Surroundings) (different : other ≠ field) :
    AddsBeside field earlier (segment.apply around (.tag other)) := by
  obtain ⟨first, more, before, others⟩ := adds
  refine ⟨_, more, Segment.significant_tag other around before, ?_⟩
  refine List.forall_mem_cons.mpr ⟨?_, (List.forall_mem_cons.mp others).2⟩
  rw [Child.field?_withField]
  exact fun same => different (Option.some.inj same)

/-- A node is closed under no field. -/
theorem AddsBeside.node {field : Field} {earlier : List Child} (adds : AddsBeside field earlier segment)
    (nests : EntriesNest enter) (proper : segment.cursor.Proper) {production : Production α}
    (single : production.ReadsNode resync enter (fun _ _ => True) around segment) :
    (production.read resync enter around segment).Satisfies
      (fun _ later => later.cursor.Proper ∧ AddsBeside field earlier later) (fun _ => True) := by
  unfold ReadsNode at single
  refine ((read_proper nests.proper production around proper).and single).weaken ?_ (fun _ _ => trivial)
  rintro _ later ⟨laterProper, node, same, -⟩
  exact ⟨laterProper, adds.cons same nofun⟩

/-- What is added by a production that avoids a field is not under it. -/
theorem Avoids.reads {production : Production α} {field : Field} {earlier : List Child}
    (avoids : production.Avoids field) (nests : EntriesNest enter) (proper : segment.cursor.Proper)
    (adds : AddsBeside field earlier segment) :
    (production.read resync enter around segment).Satisfies
      (fun _ later => later.cursor.Proper ∧ AddsBeside field earlier later) (fun _ => True) := by
  induction production generalizing around segment with
  | pure | look => exact ⟨proper, adds⟩
  | refuse => trivial
  | act move =>
      refine ⟨Segment.apply_proper proper around move, ?_⟩
      cases move with
      | bump => exact adds.bumpAs proper id
      | bumpKeyword => exact adds.bumpAs proper (fun _ => rfl)
      | tag other => exact adds.tag around avoids
      | report => exact adds
      | reinterpretLast | spliceParameters => exact avoids.elim
  | bind first next ihFirst ihNext =>
      rw [read]
      refine (ihFirst avoids.1 proper adds).andThen ?_
      exact fun value _ reached => ihNext value (avoids.2 value) reached.1 reached.2
  | within _ body ih | opened body ih =>
      rw [read]
      exact ih avoids proper adds
  | node kind body => exact adds.node nests proper (readsNode_kind proper avoids (fun _ _ _ => trivial))
  | enter entry =>
      obtain ⟨least, rfl⟩ := avoids
      exact adds.node nests proper (readsNode_operandEntry nests proper least)
  | repeatedly body ih =>
      rw [read]
      let kept (later : Segment) : Prop := later.cursor.Proper ∧ AddsBeside field earlier later
      have start : kept segment := ⟨proper, adds⟩
      exact Reading.satisfies_iterate_of_kept start
        (fun _ reached => ih avoids reached.1 reached.2) _
  | marked | wrap | guarded => exact avoids.elim

end Production

end JaiSyntax
