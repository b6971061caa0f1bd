import JaiSyntax.Proofs.Operators.Parts
/-!
Complete operators. An operator, a call, an index or a member is closed around all of its parts: where
a part is missing, the whole fails before a node is made of it.
-/

set_option autoImplicit false

namespace JaiSyntax

namespace Production

variable {resync : Bool} {enter : Entry → Surroundings → Segment → Reading Unit} {α β : Type}
  {around : Surroundings} {segment : Segment} {kind : NodeKind}

/-! ### Nodes around their parts -/

@[irreducible]
def Completes (resync : Bool) (enter : Entry → Surroundings → Segment → Reading Unit)
    (production : Production α) (around : Surroundings) (segment : Segment) : Prop :=
  (production.read resync enter around segment).Satisfies (fun _ later => later.Complete)
    completeOperations.KeptCleared

theorem completes_look {γ : Type} {seen : View → γ} {next : γ → Production α}
    (further : (next (seen (segment.view around))).Completes resync enter around segment) :
    (look seen >>= next).Completes resync enter around segment := by
  unfold Completes at further ⊢
  rw [read_bind, read_look]
  exact further

theorem completes_act {move : Move} {next : Unit → Production α}
    (further : (next ()).Completes resync enter around (segment.apply around move)) :
    (act move >>= next).Completes resync enter around segment := by
  unfold Completes at further ⊢
  rw [read_bind, read_act]
  exact further

theorem completes_refuse {complaint : Complaint} (complete : segment.Complete) :
    (refuse complaint : Production α).Completes resync enter around segment := by
  unfold Completes
  exact complete.clear completeOperations.excuses_none

theorem completes_settled {value : α} {next : α → Production β}
    (further : (next value).Completes resync enter around segment) :
    (Production.pure value >>= next).Completes resync enter around segment := by
  unfold Completes at further ⊢
  rw [read_bind, read]
  exact further

theorem completes_value {value : α} (complete : segment.Complete) :
    (Production.pure value).Completes resync enter around segment := by
  unfold Completes
  exact complete

/-- A production that obeys the rules of the law. -/
theorem Obeys.completes {production : Production α} {marked : Bool}
    (obeys : production.Obeys completeOperations.rules marked)
    (entries : completeOperations.Entries enter) (complete : segment.Complete) :
    production.Completes resync enter around segment := by
  unfold Completes
  exact obeys.keepsOwn resync enter entries around segment complete

theorem completes_andThen {first : Production α} {next : α → Production β}
    (front : first.Completes resync enter around segment)
    (further : ∀ value later, later.Complete → (next value).Completes resync enter around later) :
    (first >>= next).Completes resync enter around segment := by
  unfold Completes at front further ⊢
  rw [read_bind]
  exact front.andThen further

/-- A single node before the rest of a production. -/
theorem completes_single {first : Production α} {next : α → Production β} {holds : α → Node → Prop}
    {earlier : List Child} (front : first.Completes resync enter around segment)
    (single : (first.read resync enter around segment).Satisfies
      (fun value later => later.Yields (holds value) earlier) (fun _ => True))
    (further : ∀ value later, later.Complete → later.Yields (holds value) earlier →
      (next value).Completes resync enter around later) :
    (first >>= next).Completes resync enter around segment := by
  unfold Completes at front further ⊢
  rw [read_bind]
  refine ((front.and single).weaken (fun _ _ => id) (fun _ => And.left)).andThen ?_
  exact fun value later reached => further value later reached.1 reached.2

theorem completes_wrap {body : Production Unit} (entries : completeOperations.Entries enter)
    (obeys : body.Obeys completeOperations.rules false) (complete : segment.Complete)
    (fills : body.Fills resync enter kind around.first segment) :
    (wrap kind body).Completes resync enter around segment := by
  unfold Completes
  rw [read_wrap]
  refine Reading.satisfies_enclosed.mpr ?_
  refine ((obeys.reads entries completeOperations.excuses_none nofun complete).and fills).weaken ?_
    (fun _ => And.left)
  exact fun _ inner both => Segment.complete_enclosed both.1 both.2 _

theorem completes_node {body : Production Unit} (entries : completeOperations.Entries enter)
    (obeys : body.Obeys completeOperations.rules false) (complete : segment.Complete)
    (fills : body.Fills resync enter kind around.first segment.flush.emptied) :
    (node kind body).Completes resync enter around segment := by
  unfold Completes
  rw [read_node]
  refine Reading.satisfies_after.mpr (Reading.satisfies_enclosed.mpr ?_)
  refine ((obeys.reads entries completeOperations.excuses_none nofun
    (ChildLaw.kept_emptied complete.proper)).and fills).weaken ?_ ?_
  · exact fun _ inner both => complete.flush.after (Segment.complete_enclosed both.1 both.2 _)
  · exact fun inner failed => failed.1.after complete.flush completeOperations.excuses_none

/-- A node around a single one that was read before, which it records under a field. -/
theorem completes_labelled {body : Production Unit} {field : Field}
    (entries : completeOperations.Entries enter) (obeys : body.Obeys completeOperations.rules false)
    (complete : segment.Complete) (yields : segment.Yields (fun _ => True) [])
    (fills : ∀ start first, start.cursor = segment.cursor → start.significant = [first] →
      first.isNodeUnder field = true → body.Fills resync enter kind around.first start) :
    (tag field >>= fun _ => wrap kind body).Completes resync enter around segment := by
  obtain ⟨operand, same, -⟩ := yields
  have labelled := Segment.significant_tag field around same
  exact completes_act (completes_wrap entries obeys (complete.apply completeOperations.excuses_none around rfl)
    (fills _ _ rfl labelled (beq_self_eq_true _)))

/-! ### Binary operators -/

theorem completes_rangeOperator (entries : completeOperations.Entries enter)
    (complete : segment.Complete) (yields : segment.Yields (fun _ => True) [])
    (dots : segment.cursor.current.kind = .dotDot) :
    rangeOperator.Completes resync enter around segment := by
  refine completes_labelled entries ⟨rfl, fun _ _ _ _ => ⟨trivial, fun _ _ _ _ => rfl⟩⟩ complete
    yields (fun start low cursor same under => ?_)
  refine reads_bump (cursor ▸ complete.proper) (by rw [cursor, dots]; decide) ?_
  intro later proper _ reached
  refine (adds_labelled entries.more proper (readsNode_operandEntry entries.more proper _)
    .rangeTo).fills (fun high highUnder => ?_)
  rw [reached, same, cursor]
  simp [NodeKind.isCompleteWith, under, highUnder, dots]

theorem completes_binaryOperator (entries : completeOperations.Entries enter)
    (complete : segment.Complete) (yields : segment.Yields (fun _ => True) [])
    (known : (binaryOperator? segment.cursor.current.kind).isSome = true) (prec : Prec) :
    (binaryOperatorOf prec).Completes resync enter around segment := by
  refine completes_labelled entries ⟨⟨rfl, fun _ _ _ _ => rfl⟩, fun _ _ _ _ =>
    ⟨trivial, fun _ _ _ _ => rfl⟩⟩ complete yields (fun start left cursor same under => ?_)
  have visible : start.cursor.current.kind ≠ .eof := by
    rw [cursor]
    exact fun ended => by rw [ended] at known; cases known
  refine (adds_bumpTagged (cursor ▸ complete.proper) visible .operator).andThen ?_
  rintro _ later _ proper reached rfl
  refine (adds_labelled entries.more proper (readsNode_operandEntry entries.more proper _)
    .right).fills (fun right rightUnder => ?_)
  rw [reached, same, cursor]
  simp [NodeKind.isCompleteWith, under, rightUnder, known]

/-! ### Postfix operators -/

theorem completes_dereference (entries : completeOperations.Entries enter)
    (complete : segment.Complete) (yields : segment.Yields (fun _ => True) [])
    (star : segment.cursor.current.kind = .star) :
    (dereferenceOperator 1).Completes resync enter around segment := by
  refine completes_labelled entries (obeys_times 1 rfl) complete yields
    (fun start operand cursor same under => ?_)
  refine reads_bump (cursor ▸ complete.proper) (by rw [cursor, star]; decide) ?_
  intro last _ _ reached
  change NodeKind.isCompleteWith _ last.significant.reverse = true
  rw [reached, same, cursor]
  simp [NodeKind.isCompleteWith, under, star]

theorem completes_dottedDereference (entries : completeOperations.Entries enter)
    (complete : segment.Complete) (yields : segment.Yields (fun _ => True) [])
    (dot : segment.cursor.current.kind = .dot) (star : (segment.cursor.peek 1).kind = .star) :
    (dereferenceOperator 2).Completes resync enter around segment := by
  refine completes_labelled entries (obeys_times 2 rfl) complete yields
    (fun start operand cursor same under => ?_)
  refine reads_bump (cursor ▸ complete.proper) (by rw [cursor, dot]; decide) ?_
  intro later proper next reached
  rw [cursor] at next
  refine reads_bump proper (by rw [next, star]; decide) ?_
  intro last _ _ ended
  change NodeKind.isCompleteWith _ last.significant.reverse = true
  rw [ended, reached, same, next, cursor]
  simp [NodeKind.isCompleteWith, under, dot, star]

/-- The dot and the name of a member. -/
theorem fills_member (proper : segment.cursor.Proper) (dot : segment.cursor.current.kind = .dot)
    (name : (segment.cursor.peek 1).kind = .ident)
    (object : segment.significant = [] ∨
      ∃ first, segment.significant = [first] ∧ first.isNodeUnder .object = true) :
    (bump >>= fun _ => bumpTagged .member).Fills resync enter .memberExpression around segment := by
  refine reads_bump proper (by rw [dot]; decide) ?_
  intro later proper next reached
  refine (adds_bumpTagged proper (by rw [next, name]; decide) .member).fills ?_
  rintro _ rfl
  rw [reached]
  rcases object with none | ⟨first, same, under⟩
  · rw [none]
    simp [NodeKind.isCompleteWith, dot]
  · rw [same]
    simp [NodeKind.isCompleteWith, dot, under]

theorem completes_memberOperator (entries : completeOperations.Entries enter)
    (complete : segment.Complete) (yields : segment.Yields (fun _ => True) [])
    (dot : segment.cursor.current.kind = .dot) (name : (segment.cursor.peek 1).kind = .ident) :
    memberOperator.Completes resync enter around segment := by
  refine completes_labelled entries ⟨rfl, fun _ _ _ _ => ⟨rfl, fun _ _ _ _ => rfl⟩⟩ complete yields
    (fun start object cursor same under => ?_)
  exact fills_member (cursor ▸ complete.proper) (cursor ▸ dot) (cursor ▸ name)
    (Or.inr ⟨object, same, under⟩)

def IndexesAfter (earlier : List Child) (segment : Segment) : Prop :=
  (∃ index, segment.significant = index :: earlier ∧ index.isNodeUnder .index = true) ∨
    ∃ first comma second, segment.significant = second :: comma :: first :: earlier ∧
      first.isNodeUnder .index = true ∧ comma.isTokenOf .comma = true ∧
        second.isNodeUnder .index = true

theorem reads_indexes (nests : EntriesNest enter) (proper : segment.cursor.Proper) :
    ((do
      expressionAs .index
      if ← eat .comma then expressionAs .index : Production Unit).read resync enter around
        segment).Satisfies
      (fun _ later => later.cursor.Proper ∧ IndexesAfter segment.significant later)
      (fun _ => True) := by
  refine (adds_labelled nests proper (readsNode_expression nests proper) .index).andThen ?_
  intro _ later index laterProper same under
  rw [read_bind, read_eat]
  split
  · next comma =>
      have kind : later.cursor.current.kind = .comma := eq_of_beq comma
      have bumped := Segment.apply_proper laterProper around .bump
      have second : (expressionAs .index).Adds resync enter _ around later.bump :=
        adds_labelled nests bumped (readsNode_expression nests bumped) .index
      refine Reading.Satisfies.weaken second ?_ (fun _ => id)
      rintro _ last ⟨lastProper, other, reached, otherUnder⟩
      refine ⟨lastProper, Or.inr ⟨index, .leaf none later.cursor.current, other, ?_, under, ?_,
        otherUnder⟩⟩
      · rw [reached]
        rw [significant_bump laterProper (by rw [kind]; decide), same]
      · simp [kind]
  · exact ⟨laterProper, Or.inl ⟨index, same, under⟩⟩

theorem completes_indexOperator (entries : completeOperations.Entries enter)
    (complete : segment.Complete) (yields : segment.Yields (fun _ => True) [])
    (opening : segment.cursor.current.kind = .lBracket) :
    indexOperator.Completes resync enter around segment := by
  refine completes_labelled entries (by simp) complete yields
    (fun start object cursor same under => ?_)
  refine reads_bump (cursor ▸ complete.proper) (by rw [cursor, opening]; decide) ?_
  intro later proper _ reached
  rw [read_bind]
  refine Reading.Satisfies.andThen (reads_indexes entries.more proper) ?_
  rintro _ last ⟨lastProper, indexes⟩
  refine (adds_expect lastProper (by decide)).fills (fun closing closed => ?_)
  rw [reached, same, cursor] at indexes
  rcases indexes with ⟨index, indexed, indexUnder⟩ | ⟨first, comma, second, indexed, firstUnder,
    separates, secondUnder⟩
  · rw [indexed]
    simp [NodeKind.isCompleteWith, under, opening, indexUnder, closed]
  · rw [indexed]
    simp [NodeKind.isCompleteWith, under, opening, firstUnder, separates,
      secondUnder, closed]

/-! ### Calls -/

/-- The arguments after a function, which stays the only child under its field. -/
theorem fills_callArguments (nests : EntriesNest enter) (proper : segment.cursor.Proper)
    {function : Child} {rest : List Child} (same : segment.significant = function :: rest)
    (under : function.field? = some .function)
    (others : ∀ child ∈ rest, child.field? ≠ some .function) :
    callArguments.Fills resync enter .callExpression around segment := by
  have none {children : List Child} (free : ∀ child ∈ children, child.field? ≠ some .function) :
      children.countP (fun child => child.field? == some .function) = 0 :=
    List.countP_eq_zero.mpr (fun child member found => free child member (eq_of_beq found))
  unfold callArguments argumentList
  refine (adds_expect proper (by decide)).andThen ?_
  intro _ later opening laterProper reached token
  have adds : AddsBeside .function segment.significant later := by
    refine ⟨opening, [], reached, List.forall_mem_singleton.mpr ?_⟩
    rw [Child.field?_of_isTokenOf token]
    exact nofun
  have avoids : Avoids .function (do
      amongArguments (upToSkipping .rParen .comma (do
        argument expression
        tag .argument
        commaBefore .rParen))
      expect .rParen) := by
    simp [upToSkipping, upTo, asLongAs, eat, check, argument, commaBefore, onlyIf]
  refine (avoids.reads nests laterProper adds).weaken ?_ (fun _ => id)
  · rintro _ last ⟨-, first, more, ended, beside⟩
    have single : List.countP (fun child => child.field? == some .function) last.significant = 1 := by
      rw [ended, same, List.countP_append, none beside, List.countP_cons, none others, under]
      rfl
    change (List.countP _ last.significant.reverse == 1) = true
    rw [List.countP_reverse, single]
    rfl

theorem completes_callOperator (entries : completeOperations.Entries enter)
    (complete : segment.Complete) (yields : segment.Yields (fun _ => True) []) :
    callOperator.Completes resync enter around segment := by
  obtain ⟨function, same, -⟩ := yields
  unfold callOperator
  rw [settle_call]
  refine completes_settled (completes_act (completes_wrap entries obeys_callArguments
    (complete.apply completeOperations.excuses_none around rfl) ?_))
  exact fills_callArguments entries.more complete.proper
    (Segment.significant_tag .function around same) (Child.field?_withField _ _) nofun

/-- The word before a call is not under the field of the function. -/
theorem modifier_fields (proper : segment.cursor.Proper) :
    ∀ child ∈ ((segment.emptied.apply around .bumpKeyword).apply around (.tag .modifier)).significant,
      child.field? ≠ some .function := by
  let free (child : Child) : Prop := child.field? ≠ some .function
  have extras (extra : Extra) : free extra.child := by cases extra <;> exact nofun
  have empty : segment.emptied.Holds free := ⟨proper, fun child member => by cases member⟩
  have word : (segment.emptied.apply around .bumpKeyword).Holds free :=
    empty.bumpAs extras (fun _ => nofun) (fun token => token.retag .keyword)
  have labelled : ((segment.emptied.apply around .bumpKeyword).apply around (.tag .modifier)).Holds
      free := by
    refine word.mapLast (fun child _ _ => List.forall_mem_singleton.mpr ?_)
    change (child.withField _).field? ≠ _
    rw [Child.field?_withField]
    exact nofun
  exact fun child member => labelled.children child (List.mem_of_mem_filter member)

theorem completes_inlineCall (entries : completeOperations.Entries enter)
    (proper : segment.cursor.Proper) :
    ((do
      bumpKeyword
      tag .modifier
      identifierNode
      if ← check .lParen then
        tag .function
        wrap .callExpression callArguments
      else refuse (.expected (.token .lParen)) : Production Unit)).Completes resync enter around
        segment.emptied := by
  have empty : segment.emptied.Complete := ⟨proper, fun child member => by cases member⟩
  have allows (move : Move) : completeOperations.moves move = true := rfl
  have excuses := completeOperations.excuses_none
  let start := (segment.emptied.apply around .bumpKeyword).apply around (.tag .modifier)
  have complete : start.Complete :=
    (empty.apply excuses around (allows _)).apply excuses around (allows _)
  have named : identifierNode.ReadsNode resync enter (fun _ _ => True) around start :=
    readsNode_kind complete.proper (by decide) (fun _ _ _ => trivial)
  have obeys : identifierNode.Obeys completeOperations.rules false := obeys_identifierNode
  unfold ReadsNode at named
  refine completes_act (completes_act (completes_single (obeys.completes entries complete) named ?_))
  rintro _ later laterComplete ⟨function, same, -⟩
  refine completes_look ?_
  split
  · refine completes_act (completes_wrap entries obeys_callArguments
      (laterComplete.apply excuses around rfl) ?_)
    exact fills_callArguments entries.more laterComplete.proper
      (Segment.significant_tag .function around same) (Child.field?_withField _ _)
      (modifier_fields proper)
  · exact completes_refuse laterComplete

/-- A mark in front of a part that leaves everything complete. -/
theorem obeys_completes {body : Production α}
    (completes : ∀ (resync : Bool) (enter : Entry → Surroundings → Segment → Reading Unit),
      completeOperations.Entries enter → ∀ (around : Surroundings) (segment : Segment),
        segment.cursor.Proper → body.Completes resync enter around segment.emptied)
    (marked : Bool) : (Production.marked body).Obeys completeOperations.rules marked := by
  unfold Completes at completes
  exact obeys_marked_whole completes marked

theorem obeys_inlineCall_whole (marked : Bool) :
    inlineCall.Obeys completeOperations.rules marked :=
  obeys_completes (fun _ _ entries _ _ proper => completes_inlineCall entries proper) marked

instance : completeOperations.rules.TakesOperands where
  parenthesized _ := obeys_marked (by simp +decide)
  inlineCall := obeys_inlineCall_whole

/-! ### Operands -/

theorem completes_implicitOperand (entries : completeOperations.Entries enter)
    (complete : segment.Complete) (dot : segment.cursor.current.kind = .dot) :
    implicitOperand.Completes resync enter around segment := by
  unfold implicitOperand
  refine completes_look ?_
  have plain {production : Production Unit}
      (obeys : production.Obeys completeOperations.rules false) :
      production.Completes resync enter around segment := obeys.completes entries complete
  split
  · exact plain (by simp +decide)
  · exact plain (by simp +decide)
  · next name =>
      refine completes_node entries ⟨rfl, fun _ _ _ _ => ⟨rfl, fun _ _ _ _ => rfl⟩⟩ complete ?_
      exact fills_member (proper_emptied complete.proper) dot name (Or.inl rfl)
  · exact plain (obeys_refuse _)

theorem completes_primary (entries : completeOperations.Entries enter)
    (complete : segment.Complete) : primary.Completes resync enter around segment := by
  unfold primary
  refine completes_look ?_
  have plain {production : Production Operand}
      (obeys : production.Obeys completeOperations.rules false) :
      production.Completes resync enter around segment := obeys.completes entries complete
  split
  · exact plain obeys_word
  · exact plain (by simp +decide)
  · exact plain (by simp +decide)
  · exact plain (by simp +decide)
  · exact plain obeys_directiveExpression
  · exact plain obeys_parenthesis
  · exact plain (by simp +decide)
  · exact plain (by simp +decide)
  · next dot =>
      exact completes_andThen (completes_implicitOperand entries complete dot) (fun _ _ reached => completes_value reached)
  · exact plain (by simp +decide)
  · exact plain (by simp +decide)
  · exact plain (obeys_refuse _)

/-- A loop around a single node, each round of which leaves a single node again. -/
theorem completes_repeatedly {body : Production Bool} {holds : Node → Prop}
    (complete : segment.Complete) (yields : segment.Yields holds [])
    (round : ∀ segment, segment.Complete → segment.Yields holds [] →
      body.Completes resync enter around segment)
    (leaves : ∀ segment, segment.Complete → segment.Yields holds [] →
      body.LeavesNode resync enter (fun _ => holds) around segment) :
    (repeatedly body).Completes resync enter around segment := by
  unfold Completes at round ⊢
  rw [read_repeatedly]
  let kept (later : Segment) : Prop := later.Complete ∧ later.Yields holds []
  have start : kept segment := ⟨complete, yields⟩
  refine (Reading.satisfies_iterate_of_kept start (fun later reached => ?_) _).weaken
    (fun _ _ => And.left) (fun _ => id)
  have single := leaves later reached.1 reached.2
  unfold LeavesNode at single
  exact ((round later reached.1 reached.2).and single).weaken (fun _ _ => id) (fun _ => And.left)

theorem completes_andGoOn {body : Production Unit}
    (completes : body.Completes resync enter around segment) :
    (andGoOn body).Completes resync enter around segment :=
  completes_andThen completes (fun _ _ reached => completes_value reached)

theorem completes_dotOperator (entries : completeOperations.Entries enter)
    (complete : segment.Complete) (yields : segment.Yields (fun _ => True) [])
    (dot : segment.cursor.current.kind = .dot) :
    dotOperator.Completes resync enter around segment := by
  have literal (kind : NodeKind) (plain : kind.isOperation = false) {body : Production Unit}
      (obeys : body.Obeys completeOperations.rules false) :
      (typedLiteral kind body).Completes resync enter around segment := by
    have whole : (typedLiteral kind body).Obeys completeOperations.rules true := by
      simp [typedLiteral, plain, obeys]
    exact whole.completes entries complete
  unfold dotOperator
  refine completes_look ?_
  split
  · next name => exact completes_andGoOn (completes_memberOperator entries complete yields dot name)
  · next star => exact completes_andGoOn (completes_dottedDereference entries complete yields dot star)
  · exact completes_andGoOn (literal .structLiteral rfl obeys_structEntries)
  · exact completes_andGoOn (literal .arrayLiteral rfl obeys_arrayEntries)
  · exact completes_value complete

theorem completes_postfixOperator (entries : completeOperations.Entries enter)
    (complete : segment.Complete) (yields : segment.Yields (fun _ => True) []) :
    postfixOperator.Completes resync enter around segment := by
  unfold postfixOperator
  refine completes_look ?_
  split
  · exact completes_andGoOn (completes_callOperator entries complete yields)
  · next opening => exact completes_andGoOn (completes_indexOperator entries complete yields opening)
  · next dot => exact completes_dotOperator entries complete yields dot
  · next star =>
      refine completes_look ?_
      split
      · exact completes_value complete
      · exact completes_andGoOn (completes_dereference entries complete yields star)
  · exact completes_value complete

theorem obeys_postfixExpression_whole (marked : Bool) :
    postfixExpression.Obeys completeOperations.rules marked := by
  refine obeys_completes (fun resync enter entries around segment proper => ?_) marked
  have empty : segment.emptied.Complete := ⟨proper, fun child member => by cases member⟩
  have operand : primary.ReadsOperand resync enter around segment.emptied :=
    readsOperand_primary nestsOpenly_of_plain entries.more.cover entries.more.grow
      entries.more.types proper
  have single := operand.leaves
  unfold LeavesNode at single
  refine completes_single (completes_primary entries empty) single ?_
  intro ending later complete yields
  cases ending with
  | closed => exact completes_value complete
  | isOpen =>
      refine completes_andThen ?_ (fun _ _ reached => completes_value reached)
      refine completes_repeatedly complete yields (fun _ complete yields => ?_)
        (fun _ _ yields => leavesNode_postfixOperator yields)
      exact completes_postfixOperator entries complete (yields.weaken (fun _ _ => trivial))

/-! ### Expressions -/

theorem completes_unaryOperator (entries : completeOperations.Entries enter)
    (complete : segment.Complete) (visible : segment.cursor.current.kind ≠ .eof) :
    unaryOperator.Completes resync enter around segment := by
  refine completes_node entries (by simp) complete ?_
  refine (adds_bumpTagged (proper_emptied complete.proper) visible .operator).andThen ?_
  rintro _ later _ proper reached rfl
  refine (adds_labelled entries.more proper (readsNode_operandEntry entries.more proper _)
    .argument).fills (fun operand under => ?_)
  rw [reached]
  change NodeKind.isCompleteWith _ [_, _] = true
  simp [NodeKind.isCompleteWith, under]

theorem completes_unaryExpression (entries : completeOperations.Entries enter)
    (complete : segment.Complete) : unaryExpression.Completes resync enter around segment := by
  have unary {kind : TokenKind} (same : segment.cursor.current.kind = kind)
      (visible : kind ≠ .eof) : (openOperand unaryOperator).Completes resync enter around segment :=
    completes_andThen (completes_unaryOperator entries complete (same ▸ visible))
      (fun _ _ reached => completes_value reached)
  have plain {production : Production Operand}
      (obeys : production.Obeys completeOperations.rules false) :
      production.Completes resync enter around segment := obeys.completes entries complete
  unfold unaryExpression
  refine completes_look ?_
  split
  · next same => exact unary same (by decide)
  · next same => exact unary same (by decide)
  · next same => exact unary same (by decide)
  · next same => exact unary same (by decide)
  · next same => exact unary same (by decide)
  · exact plain (by simp +decide [prefixedOperand])
  · exact plain (by simp +decide [pointerOperator])
  · refine completes_look ?_
    split
    · exact plain (by simp)
    · refine completes_look ?_
      split
      · exact plain (by simp)
      · exact plain (obeys_postfixExpression_whole false)

/-- Whether there is a binary operator or not, a single node is left. -/
theorem leavesNode_binaryOperatorStep (least : Prec) (yields : segment.Yields (fun _ => True) []) :
    (binaryOperatorStep least).LeavesNode resync enter (fun _ _ => True) around segment := by
  have wrapped {kind : NodeKind} {body : Production Unit} (ordinary : kind ≠ .deprecatedDirective)
      (start : Segment) :
      (wrap kind body).LeavesNode resync enter (fun _ _ => True) around start :=
    leavesNode_wrap ordinary ((Reading.satisfies_trivial _).weaken (fun _ _ _ _ => trivial)
      (fun _ => id))
  unfold binaryOperatorStep
  refine leavesNode_look ?_
  split
  · split
    · have range : rangeOperator.LeavesNode resync enter (fun _ _ => True) around segment :=
        leavesNode_bind (fun _ later => wrapped (by decide) later)
      exact leavesNode_andThen range (fun _ _ single => leavesNode_pure single)
    · exact leavesNode_pure yields
  · refine leavesNode_look ?_
    split
    · exact leavesNode_pure yields
    · next prec _ =>
        have binary : (binaryOperatorOf prec).LeavesNode resync enter (fun _ _ => True) around
            segment := leavesNode_bind (fun _ later => wrapped (by decide) later)
        exact leavesNode_andThen binary (fun _ _ single => leavesNode_pure single)

theorem completes_binaryOperatorStep (least : Prec) (entries : completeOperations.Entries enter)
    (complete : segment.Complete) (yields : segment.Yields (fun _ => True) []) :
    (binaryOperatorStep least).Completes resync enter around segment := by
  unfold binaryOperatorStep
  refine completes_look ?_
  split
  · next ranging =>
      have dots : segment.cursor.current.kind = .dotDot := View.kind_of_isAt ranging
      split
      · exact completes_andThen (completes_rangeOperator entries complete yields dots)
          (fun _ _ reached => completes_value reached)
      · exact completes_value complete
  · refine completes_look ?_
    split
    · exact completes_value complete
    · next prec found =>
        refine completes_andGoOn (completes_binaryOperator entries complete yields ?_ prec)
        obtain ⟨operator, known, -⟩ := Option.map_eq_some_iff.mp (operatorAt?_found found).1
        exact Option.isSome_of_eq_some known

theorem obeys_expressionEntry_whole (least : Prec) (marked : Bool) :
    (expressionEntry least).Obeys completeOperations.rules marked := by
  refine obeys_completes (fun resync enter entries around segment proper => ?_) marked
  have empty : segment.emptied.Complete := ⟨proper, fun child member => by cases member⟩
  have unary : ReadsUnary resync enter unaryExpression around segment.emptied :=
    readsUnary_unaryExpression entries.more proper
  unfold ReadsUnary at unary
  refine completes_single (completes_unaryExpression entries empty)
    (unary.weaken (fun _ _ => And.right) (fun _ _ => trivial)) ?_
  intro ending later complete yields
  cases ending with
  | closed => exact completes_value complete
  | isOpen =>
      exact completes_repeatedly complete (yields.weaken (fun _ _ => trivial))
        (fun _ complete yields => completes_binaryOperatorStep least entries complete yields)
        (fun _ _ yields => leavesNode_binaryOperatorStep least yields)

instance : completeOperations.rules.TakesExpressions where
  postfixExpression := obeys_postfixExpression_whole
  expressionEntry := obeys_expressionEntry_whole

end Production

/-! ### Sources -/

/-- In the tree of any source, operators, calls, indexes and members have all their parts and no
others. -/
theorem parse_completes_operators (options : ParseOptions) (source : List Char) :
    ∀ node ∈ (parse options source).tree.preorder, node.isComplete = true := by
  have relied (depth : Nat) :
      completeOperations.relies (readEntry options.resyncOnDeclaration depth) :=
    readEntry_nests options.resyncOnDeclaration depth
  have complete := readSource_obeys options.resyncOnDeclaration relied source
  have root : (Child.ofNode none (parse options source).tree).Throughout
      (fun node => node.isComplete = true) := by
    rw [parse_tree]
    exact throughout_build (isCompleteWith_of_plain rfl _) complete
  exact throughout_ofNode.mp root

/-- The parts of a sum. -/
theorem parse_completes_operators_sum :
    ∃ node ∈ (parse {} "x = a + b;".toList).tree.preorder,
      node.kind = .binaryExpression ∧ node.isComplete = true := by
  have found : ∃ node ∈ (parse {} "x = a + b;".toList).tree.preorder,
      node.kind = .binaryExpression := by
    decide +kernel
  obtain ⟨node, member, kind⟩ := found
  exact ⟨node, member, kind, parse_completes_operators {} _ node member⟩

end JaiSyntax
