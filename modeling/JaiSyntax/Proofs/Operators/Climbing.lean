import JaiSyntax.Proofs.Reading.Source
import JaiSyntax.Proofs.Type.Kinds
/-!
Climbing by precedence. An expression whose operators bind at least as tight as some level ends before
an operator of that level or a tighter one, unless it ends closed; so the operands of an operator nest
as the precedences ask for, up to left operands that end closed.
-/

set_option autoImplicit false

namespace JaiSyntax

/-- Whether the operands of a node nest, up to left operands that end closed. -/
def Node.NestsOpenly (node : Node) : Prop := node.Nests (fun child => child.endsClosed = true)

theorem nestsOpenly_of_plain (node : Node) (plain : node.kind.isOperator = false) :
    node.NestsOpenly :=
  Node.nests_of_plain plain

/-- A node that an expression can be whose operators bind at least as tight as `least`. -/
structure Node.Binds (least : Prec) (node : Node) : Prop where
  range : node.kind = .range → least ≤ Prec.range
  binary : node.kind = .binaryExpression → ∃ prec, node.precedence? = some prec ∧ least ≤ prec

/-- Whether no operator that binds at least as tight as `least` is left to a node before a view, unless
the node ends closed. Nothing is asked of a range, which takes no operators. -/
def Node.Settles (least : Prec) (view : View) (node : Node) : Prop :=
  node.kind = .range ∨ (Child.ofNode none node).endsClosed = true ∨
    Production.operatorAt? least view = none

/-- The operators bind looser than any prefix operator and tighter than a range. -/
theorem binaryOperator?_bounds {kind : TokenKind} {prec : Prec}
    (found : (binaryOperator? kind).map BinaryOperator.prec = some prec) :
    Prec.range < prec ∧ prec ≤ Prec.multiply := by
  obtain ⟨operator, known, rfl⟩ := Option.map_eq_some_iff.mp found
  have listed : ∀ operator ∈ binaryOperators,
      Prec.range < operator.prec ∧ operator.prec ≤ Prec.multiply := by decide
  exact listed operator (List.mem_of_find?_eq_some known)

theorem Node.precedence?_bounds {node : Node} {prec : Prec} (found : node.precedence? = some prec) :
    Prec.range < prec ∧ prec ≤ Prec.multiply := by
  unfold Node.precedence? at found
  split at found
  · exact binaryOperator?_bounds found
  · cases found

/-- What binds tighter than every binary operator is neither a binary expression nor a range. -/
theorem Node.Binds.tight {least : Prec} {node : Node} (binds : node.Binds least)
    (tight : Prec.multiply < least) : node.kind ≠ .binaryExpression ∧ node.kind ≠ .range := by
  constructor
  · intro binary
    obtain ⟨prec, found, tighter⟩ := binds.binary binary
    have bound := (Node.precedence?_bounds found).2
    exact Int.not_le.mpr tight (Int.le_trans tighter bound)
  · intro range
    exact Int.not_le.mpr tight (Int.le_trans (binds.range range) (by decide))

theorem isBinary_ofNode {field : Option Field} {node : Node}
    (other : node.kind ≠ .binaryExpression) : (Child.ofNode field node).isBinary = false := by
  simpa [Child.isBinary] using other

theorem isRange_ofNode {field : Option Field} {node : Node} (other : node.kind ≠ .range) :
    (Child.ofNode field node).isRange = false := by
  simpa [Child.isRange] using other

/-- A node that can stand on the left of a binary operator before a view, where the operators bind at
least as tight as `least`. -/
structure Node.Climbs (least : Prec) (view : View) (node : Node) : Prop where
  range : node.kind ≠ .range
  binary : node.kind = .binaryExpression → ∃ prec, node.precedence? = some prec ∧ least ≤ prec ∧
    node.Settles (Prec.tighter prec) view

/-- What entries are relied on for: they only add to what was read before, an entry for types reads an
operand, and an entry for expressions reads a node that binds at least as tight as it was asked to and
takes all operators that do. -/
structure EntriesNest (enter : Entry → Surroundings → Segment → Reading Unit) : Prop where
  cover : EntriesCover enter
  grow : EntriesGrow Node.NestsOpenly enter
  types : TypesYield enter
  climb : ∀ least around segment, segment.cursor.Proper →
    (enter (.expression least) around segment).Satisfies
      (fun _ later => later.Yields
        (fun node => node.Binds least ∧ node.Settles least (later.view around)) segment.significant)
      (fun _ => True)

/-- A place in a segment that only added to some children, where `covered` says what was covered since
the token of number `origin`. -/
structure Segment.Stands (earlier : List Child) (origin : Nat) (covered : Coverage)
    (segment : Segment) : Prop where
  proper : segment.cursor.Proper
  grows : segment.Grows Node.NestsOpenly earlier covered.isSome
  started : origin ≤ segment.cursor.position
  covered : segment.Attains covered origin

namespace Production

variable {enter : Entry → Surroundings → Segment → Reading Unit} {α β : Type}
  {around : Surroundings} {segment : Segment} {earlier : List Child} {origin : Nat}
  {covered : Coverage}

theorem describes_stands (stands : segment.Stands earlier origin covered) :
    (Place.mk (segment.view around) covered).Describes around segment origin :=
  ⟨rfl, stands.covered, stands.started⟩

theorem stands_emptied (proper : segment.cursor.Proper) :
    segment.flush.emptied.Stands [] segment.cursor.position .nothing :=
  ⟨proper_emptied proper, Segment.grows_refl _, Nat.le_refl _, .of_nothing⟩

/-! ### Reading on -/

/-- A part without operators and what follows it. -/
theorem reads_part {first : Production α} {next : α → Production β} {done : β → Segment → Prop}
    (nests : EntriesNest enter) (resync : Bool) (stands : segment.Stands earlier origin covered)
    (covers : first.Covers (fun kind => kind.isPlain = true) false
      ⟨segment.view around, covered⟩)
    (further : ∀ value later, later.Stands earlier origin .tight →
      ((next value).read resync enter around later).Satisfies done
        (fun last => last.Grows Node.NestsOpenly earlier false)) :
    ((first >>= next).read resync enter around segment).Satisfies done
      (fun last => last.Grows Node.NestsOpenly earlier false) := by
  rw [read_bind]
  have grows := Orderly.grows covers nestsOpenly_of_plain nests.cover nests.grow resync nofun
    (describes_stands stands) stands.proper stands.grows
  refine Reading.Satisfies.andThen (grows.weaken (fun _ _ => id) (fun _ => And.right)) ?_
  rintro value later ⟨continues, reached, described, grown, ended⟩
  rw [ended] at grown
  exact further value later
    ⟨continues.proper stands.proper, grown, described.origin, ended ▸ described.covered⟩

/-- An operand binds at least as tight as it was asked to, and takes all operators that do. -/
theorem reads_operand (least : Prec) (nests : EntriesNest enter) (resync : Bool)
    (stands : segment.Stands earlier origin covered) :
    ((operand least).read resync enter around segment).Satisfies
      (fun _ later => segment.Continues later ∧ later.Stands earlier origin .tight ∧
        later.Yields (fun node => node.Binds least ∧ node.Settles least (later.view around))
          segment.significant)
      (fun later => later.Grows Node.NestsOpenly earlier false) := by
  unfold operand
  rw [read_enter]
  have covers := nests.cover (.expression least) around segment stands.proper
  have grows := nests.grow (.expression least) around segment stands.proper
  have climbs := nests.climb least around segment stands.proper
  generalize enter (.expression least) around segment = reading at covers grows climbs
  cases reading with
  | failed error later => exact (stands.grows.trans grows).uncovered
  | done value later =>
      obtain ⟨continues, moved⟩ := covers
      have described : (Place.mk (later.view around) .tight).Describes around later origin :=
        describes_entered (describes_stands stands) continues moved
      have grown := stands.grows.trans grows
      rw [Bool.or_true] at grown
      exact ⟨continues, ⟨continues.proper stands.proper, grown, described.origin, described.covered⟩,
        climbs⟩

theorem stands_tag (stands : segment.Stands earlier origin .tight) (around : Surroundings)
    (field : Field) : (segment.apply around (.tag field)).Stands earlier origin .tight := by
  have permits : (Place.mk (segment.view around) .tight).Permits
      (fun reached => reached.covered = .tight) (.tag field) := ⟨rfl, rfl⟩
  have grows := Segment.apply_grows nestsOpenly_of_plain permits (describes_stands stands)
    stands.proper stands.grows
  obtain ⟨continues, reached, described, ended, grown⟩ :=
    Segment.apply_sound grows (describes_stands stands) stands.proper
  rw [ended] at grown
  exact ⟨continues.proper stands.proper, grown, described.origin, ended ▸ described.covered⟩

/-! ### Prefix operators and conversions -/

def EndsWithOperand (field : Option Field) (segment : Segment) : Prop :=
  ∃ operand rest, segment.significant = operand :: rest ∧ operand.field? = field ∧
    operand.isBinary = false ∧ operand.isRange = false

def ReadsUnary (resync : Bool) (enter : Entry → Surroundings → Segment → Reading Unit)
    (production : Production Operand) (around : Surroundings) (segment : Segment) : Prop :=
  (production.read resync enter around segment).Satisfies
    (fun ending later => later.Grows Node.NestsOpenly segment.latest true ∧
      later.Yields (fun node => node.IsOperand ending) segment.significant)
    (fun later => later.Grows Node.NestsOpenly segment.latest false)

/-- The operand at the end of a prefix operator, recorded under a field. -/
theorem reads_argument {least : Prec} {field : Field} (nests : EntriesNest enter) (resync : Bool)
    (tight : Prec.multiply < least) (stands : segment.Stands earlier origin covered) :
    ((do
      operand least
      tag field : Production Unit).read resync enter around segment).Satisfies
      (fun _ later => later.Grows Node.NestsOpenly earlier true ∧
        EndsWithOperand (some field) later)
      (fun later => later.Grows Node.NestsOpenly earlier false) := by
  rw [read_bind]
  refine (reads_operand least nests resync stands).andThen ?_
  rintro _ later ⟨-, stands, node, same, binds, -⟩
  obtain ⟨binary, range⟩ := binds.tight tight
  unfold tag
  rw [read_act]
  refine ⟨(stands_tag stands around field).grows, _, _, Segment.significant_tag field around same,
    Child.field?_withField _ _, ?_, ?_⟩
  · exact isBinary_ofNode binary
  · exact isRange_ofNode range

/-- A prefix operator or a conversion around an operand. -/
theorem readsUnary_node {kind : NodeKind} {body : Production Unit} {field : Option Field}
    {resync : Bool} (proper : segment.cursor.Proper) (found : kind.operandField? = some field)
    (inside : (body.read resync enter around.first segment.flush.emptied).Satisfies
      (fun _ inner => inner.Grows Node.NestsOpenly [] true ∧ EndsWithOperand field inner)
      (fun inner => inner.Grows Node.NestsOpenly [] false)) :
    ReadsUnary resync enter (openOperand (node kind body)) around segment := by
  have start : segment.flush.Grows Node.NestsOpenly segment.latest false :=
    (Segment.grows_refl segment).flush nestsOpenly_of_plain
  have kinds : kind ≠ .deprecatedDirective ∧ kind ≠ .binaryExpression ∧ kind ≠ .range := by
    refine ⟨?_, ?_, ?_⟩ <;> rintro rfl <;> cases found
  have closed : ((node kind body).read resync enter around segment).Satisfies
      (fun _ later => later.Grows Node.NestsOpenly segment.latest true ∧
        later.Yields (fun node => node.IsOperand .isOpen) segment.significant)
      (fun later => later.Grows Node.NestsOpenly segment.latest false) := by
    rw [read_node]
    refine Reading.satisfies_after.mpr (Reading.satisfies_enclosed.mpr (inside.weaken ?_ ?_))
    · rintro _ inner ⟨grown, operand, rest, same, labelled, binary, range⟩
      let built := Node.build kind inner.latest.reverse segment.flush.cursor.current.span.start
      have nests : built.NestsOpenly := by
        refine ⟨fun absurd => (kinds.2.1 absurd).elim, fun other asked => ?_⟩
        have only : some other = some field := asked.symm.trans found
        cases only
        refine ⟨operand, ?_, labelled, binary, range⟩
        rw [Segment.significant_build, same]
        simp
      have grew := start.after (grown.enclosed nests kinds.1)
      refine ⟨grew, built, ?_, kinds.2.1, kinds.2.2, nofun⟩
      rw [Segment.significant_after, Segment.significant_enclosed kinds.1,
        Segment.significant_flush proper, List.singleton_append]
    · exact fun inner grown => (start.after grown).uncovered
  unfold ReadsUnary openOperand
  rw [read_bind]
  refine closed.andThen (fun _ later both => ?_)
  rw [read]
  exact both

theorem readsUnary_unaryOperator {resync : Bool} (nests : EntriesNest enter)
    (proper : segment.cursor.Proper) (notEnd : (segment.view around).kind ≠ .eof) :
    ReadsUnary resync enter (openOperand unaryOperator) around segment :=
  readsUnary_node proper rfl (reads_part nests resync (stands_emptied proper)
    (covers_bumpTagged (by exact notEnd) _)
    (fun _ _ stands => reads_argument nests resync (by decide) stands))

theorem readsUnary_pointerOperator {resync : Bool} (nests : EntriesNest enter)
    (proper : segment.cursor.Proper) (notEnd : (segment.view around).kind ≠ .eof) :
    ReadsUnary resync enter (openOperand pointerOperator) around segment :=
  readsUnary_node proper rfl (reads_part nests resync (stands_emptied proper)
    (covers_bump (by exact notEnd))
    (fun _ _ stands => reads_argument nests resync (by decide) stands))

theorem readsUnary_address {resync : Bool} (nests : EntriesNest enter)
    (proper : segment.cursor.Proper) (notEnd : (segment.view around).kind ≠ .eof) :
    ReadsUnary resync enter (openOperand (prefixedOperand .address)) around segment := by
  refine readsUnary_node proper rfl (reads_part nests resync (stands_emptied proper)
    (covers_bump (by exact notEnd)) (fun _ _ stands => ?_))
  refine (reads_operand Prec.unary nests resync stands).weaken ?_ (fun _ => id)
  rintro _ later ⟨-, stands, node, same, binds, -⟩
  obtain ⟨binary, range⟩ := binds.tight (by decide)
  exact ⟨stands.grows, _, _, same, rfl, isBinary_ofNode binary, isRange_ofNode range⟩

theorem readsUnary_cast {resync : Bool} (nests : EntriesNest enter)
    (proper : segment.cursor.Proper) (word : (segment.view around).kind = .ident) :
    ReadsUnary resync enter (openOperand cast) around segment := by
  refine readsUnary_node proper rfl ?_
  refine reads_part nests resync (stands_emptied proper) (covers_bumpKeyword word)
    (fun _ _ stands => ?_)
  refine reads_part nests resync stands (covers_castModifiers rfl)
    (fun _ _ stands => ?_)
  refine reads_part nests resync stands (covers_expect (by decide))
    (fun _ _ stands => ?_)
  refine reads_part nests resync stands (covers_fresh (fun _ _ => covers_type))
    (fun _ _ stands => ?_)
  refine reads_part nests resync stands (covers_tag rfl _) (fun _ _ stands => ?_)
  refine reads_part nests resync stands (covers_expect (by decide))
    (fun _ _ stands => ?_)
  exact reads_argument nests resync (by decide) stands

theorem readsUnary_automaticCast {resync : Bool} (nests : EntriesNest enter)
    (proper : segment.cursor.Proper) (word : (segment.view around).kind = .ident) :
    ReadsUnary resync enter (openOperand automaticCast) around segment := by
  refine readsUnary_node proper rfl ?_
  refine reads_part nests resync (stands_emptied proper) (covers_bumpKeyword word)
    (fun _ _ stands => ?_)
  refine reads_part nests resync stands (covers_castModifiers rfl)
    (fun _ _ stands => ?_)
  exact reads_argument nests resync (by decide) stands

theorem readsUnary_look {γ : Type} {resync : Bool} {seen : View → γ}
    {next : γ → Production Operand}
    (further : ReadsUnary resync enter (next (seen (segment.view around))) around segment) :
    ReadsUnary resync enter (look seen >>= next) around segment := by
  unfold ReadsUnary at further ⊢
  rw [read_bind, read_look]
  exact further

theorem readsUnary_postfix {resync : Bool} (nests : EntriesNest enter)
    (proper : segment.cursor.Proper) :
    ReadsUnary resync enter postfixExpression around segment := by
  have covers : postfixExpression.Covers (fun kind => kind.isPlain = true) false
      (Place.mk (segment.view around) .nothing) := covers_postfixExpression (fun _ => id)
  have grows := Orderly.grows covers nestsOpenly_of_plain nests.cover nests.grow resync nofun
    (describes_start segment around) proper (Segment.grows_refl segment)
  have operand : postfixExpression.ReadsOperand resync enter around segment :=
    readsOperand_postfix nestsOpenly_of_plain nests.cover nests.grow nests.types proper
  unfold ReadsOperand ReadsNode at operand
  unfold ReadsUnary
  refine (grows.and operand).weaken ?_ (fun _ both => both.1.2)
  rintro ending later ⟨⟨-, reached, -, grown, covered⟩, yields⟩
  rw [covered] at grown
  exact ⟨grown, yields⟩

/-- An operand with its prefix operators is a single node. -/
theorem readsUnary_unaryExpression {resync : Bool} (nests : EntriesNest enter)
    (proper : segment.cursor.Proper) :
    ReadsUnary resync enter unaryExpression around segment := by
  have other : ∀ {kind : TokenKind}, (segment.view around).kind = kind → kind ≠ .eof →
      (segment.view around).kind ≠ .eof := fun same token => same ▸ token
  unfold unaryExpression
  refine readsUnary_look ?_
  split
  · next same => exact readsUnary_unaryOperator nests proper (other same (by decide))
  · next same => exact readsUnary_unaryOperator nests proper (other same (by decide))
  · next same => exact readsUnary_unaryOperator nests proper (other same (by decide))
  · next same => exact readsUnary_unaryOperator nests proper (other same (by decide))
  · next same => exact readsUnary_unaryOperator nests proper (other same (by decide))
  · next same => exact readsUnary_address nests proper (other same (by decide))
  · next same => exact readsUnary_pointerOperator nests proper (other same (by decide))
  refine readsUnary_look ?_
  split
  · next converting =>
      simp only [View.isAtCast, Bool.and_eq_true] at converting
      exact readsUnary_cast nests proper (View.kind_of_isWordAt converting.1)
  refine readsUnary_look ?_
  split
  · next converting =>
      simp only [View.isAtAutomaticCast, Bool.and_eq_true] at converting
      exact readsUnary_automaticCast nests proper (View.kind_of_isWordAt converting.1)
  · exact readsUnary_postfix nests proper

/-! ### Binary operators -/

/-- What is known of an operator that is found. -/
theorem operatorAt?_found {least prec : Prec} {view : View}
    (found : operatorAt? least view = some prec) :
    (binaryOperator? view.kind).map BinaryOperator.prec = some prec ∧ least ≤ prec ∧
      ∀ other, operatorAt? other view = none → prec < other := by
  unfold operatorAt? at found ⊢
  cases known : binaryOperator? view.kind with
  | none =>
      rw [known] at found
      cases found
  | some operator =>
      rw [known] at found
      simp only [Option.ite_none_left_eq_some, Option.some.injEq] at found
      obtain ⟨stays, rfl⟩ := found
      simp only [Bool.or_eq_true, decide_eq_true_eq, not_or] at stays
      refine ⟨rfl, Int.not_lt.mp stays.1, fun other none => ?_⟩
      simp only [stays.2, Bool.or_false, decide_eq_true_eq] at none
      split at none
      · assumption
      · cases none

/-- Whether there is an operator depends on the tokens ahead and the context only. -/
theorem operatorAt?_view {later : Segment} {inside : Surroundings} (least : Prec)
    (cursor : later.cursor = segment.cursor) (context : inside.context = around.context) :
    operatorAt? least (later.view inside) = operatorAt? least (segment.view around) := by
  unfold operatorAt? View.isAtCases View.isAt View.kind Segment.view
  rw [cursor, context]

theorem settles_view {later : Segment} {inside : Surroundings} {least : Prec} {node : Node}
    (settles : node.Settles least (segment.view around)) (cursor : later.cursor = segment.cursor)
    (context : inside.context = around.context) : node.Settles least (later.view inside) := by
  unfold Node.Settles
  rw [operatorAt?_view least cursor context]
  exact settles

theorem climbs_view {later : Segment} {inside : Surroundings} {least : Prec} {node : Node}
    (climbs : node.Climbs least (segment.view around)) (cursor : later.cursor = segment.cursor)
    (context : inside.context = around.context) : node.Climbs least (later.view inside) := by
  refine ⟨climbs.range, fun kind => ?_⟩
  obtain ⟨prec, found, enough, settled⟩ := climbs.binary kind
  exact ⟨prec, found, enough, settles_view settled cursor context⟩

/-- A binary operator that was found, with its operands. -/
theorem groups_build {least prec : Prec} {left right : Node} {token : Token} {view next : View}
    {latest : List Child} {position : Nat}
    (same : (Node.build .binaryExpression latest.reverse position).significant =
      [.ofNode (some .left) left, .leaf (some .operator) token, .ofNode (some .right) right])
    (token_kind : token.kind = view.kind) (found : operatorAt? least view = some prec)
    (climbs : left.Climbs least view) (binds : right.Binds (Prec.tighter prec))
    (settles : right.Settles (Prec.tighter prec) next) :
    (Node.build .binaryExpression latest.reverse position).NestsOpenly ∧
      (Node.build .binaryExpression latest.reverse position).Climbs least next := by
  obtain ⟨known, enough, looser⟩ := operatorAt?_found found
  have bounds := binaryOperator?_bounds known
  rw [← token_kind] at known
  have noRange : right.kind ≠ .range := by
    intro range
    have bound := binds.range range
    exact Int.not_lt.mpr bound (Int.lt_trans bounds.1 (Int.lt_succ prec))
  constructor
  · refine ⟨fun _ => ⟨prec, _, _, rfl, ⟨token, same, known⟩, rfl, rfl, isRange_ofNode climbs.range,
      isRange_ofNode noRange, fun inner leftPrec => ?_, fun inner rightPrec => ?_⟩, nofun⟩
    · change left.precedence? = some inner at leftPrec
      obtain ⟨other, otherFound, -, settled⟩ := climbs.binary (Node.kind_of_precedence? leftPrec)
      cases leftPrec.symm.trans otherFound
      rcases settled with range | closed | none
      · exact (climbs.range range).elim
      · exact Or.inr ((Child.endsClosed_withField (some .left) _).trans closed)
      · exact Or.inl (Int.lt_add_one_iff.mp (looser _ none))
    · change right.precedence? = some inner at rightPrec
      obtain ⟨other, otherFound, tighter⟩ := binds.binary (Node.kind_of_precedence? rightPrec)
      cases rightPrec.symm.trans otherFound
      exact Int.add_one_le_iff.mp tighter
  · refine ⟨nofun, fun _ => ⟨prec, ?_, enough, ?_⟩⟩
    · unfold Node.precedence?
      rw [same]
      exact known
    · rcases settles with range | closed | none
      · exact (noRange range).elim
      · refine Or.inr (Or.inl ?_)
        have ends : Child.lastEndsClosed latest.reverse =
            (Child.ofNode (some .right) right).endsClosed :=
          Child.lastEndsClosed_eq (show latest.reverse.filter _ = [_, _] ++ [_] from same)
        exact ends.trans ((Child.endsClosed_withField (some .right) _).trans closed)
      · exact Or.inr (Or.inr none)

structure BeforeOperator (least : Prec) (around : Surroundings) (origin : Nat)
    (segment : Segment) : Prop where
  stands : segment.Stands [] origin .tight
  yields : segment.Yields (fun node => node.Climbs least (segment.view around)) []

def AfterOperators (least : Prec) (around : Surroundings) (segment : Segment) : Prop :=
  segment.Grows Node.NestsOpenly [] true ∧
    segment.Yields (fun node => node.Binds least ∧ node.Settles least (segment.view around)) []

/-- The current token is consumed and covers something. -/
theorem stands_bump (stands : segment.Stands earlier origin covered)
    (more : segment.cursor.isAtEnd = false) :
    segment.bump.Stands earlier origin .tight :=
  ⟨(Segment.continues_bump stands.proper).proper stands.proper,
    stands.grows.bumpAs_covers nestsOpenly_of_plain stands.proper more id,
    Nat.le_trans stands.started (Segment.continues_bump stands.proper).position_le,
    Segment.attains_bumpAs stands.proper more stands.started id⟩

/-- The operator and the right operand of a binary expression. -/
theorem reads_rightOperand {least : Prec} {left : Child} (nests : EntriesNest enter)
    (resync : Bool) (stands : segment.Stands [] origin .tight) (same : segment.significant = [left])
    (more : segment.cursor.isAtEnd = false) :
    ((do
      bumpTagged .operator
      operand least
      tag .right : Production Unit).read resync enter around segment).Satisfies
      (fun _ later => later.Stands [] origin .tight ∧
        later.cursor.ahead.length < segment.cursor.ahead.length ∧
        ∃ right : Node, later.significant = [.ofNode (some .right) right,
            .leaf (some .operator) segment.cursor.current, left] ∧
          right.Binds least ∧ right.Settles least (later.view around))
      (fun later => later.Grows Node.NestsOpenly [] false) := by
  unfold bumpTagged bump tag
  rw [read_bind, read_bind, read_act]
  change ((do
      act (.tag .operator)
      operand least
      act (.tag .right) : Production Unit).read resync enter around segment.bump).Satisfies _ _
  rw [read_bind, read_act]
  have bumped := stands_bump stands more
  have single : segment.bump.significant = [.leaf none segment.cursor.current, left] :=
    same ▸ Segment.significant_bumpAs stands.proper more id
  have operator := Segment.significant_tag .operator around single
  have moved : segment.bump.cursor.ahead.length < segment.cursor.ahead.length := by
    have total := (Segment.continues_bump stands.proper).position
    have step := Segment.position_bump stands.proper (fun none => by
      rw [stands.proper.isAtEnd_iff.mpr none] at more
      cases more)
    omega
  change ((do
      operand least
      act (.tag .right) : Production Unit).read resync enter around
    (segment.bump.apply around (.tag .operator))).Satisfies _ _
  rw [read_bind]
  refine (reads_operand least nests resync (stands_tag bumped around .operator)).andThen ?_
  rintro _ later ⟨continues, stood, right, rightSame, binds, settles⟩
  rw [read_act]
  have shorter := continues.suffix.length_le
  refine ⟨stands_tag stood around .right, Nat.lt_of_le_of_lt shorter moved, right, ?_, binds, ?_⟩
  · have labelled := Segment.significant_tag .right around rightSame
    rw [labelled]
    exact congrArg _ operator
  · exact settles

theorem reads_binaryOperator {least prec : Prec} (nests : EntriesNest enter) (resync : Bool)
    (before : BeforeOperator least around origin segment)
    (found : operatorAt? least (segment.view around) = some prec) :
    ((binaryOperatorOf prec).read resync enter around segment).Satisfies
      (fun _ later => BeforeOperator least around origin later ∧
        later.cursor.ahead.length < segment.cursor.ahead.length)
      (fun later => later.Grows Node.NestsOpenly [] false) := by
  obtain ⟨stands, left, leftSame, climbs⟩ := before
  have known := (operatorAt?_found found).1
  have more : segment.cursor.isAtEnd = false := by
    rw [Bool.eq_false_iff]
    intro ended
    have none : segment.cursor.current.kind = .eof := eq_of_beq ended
    rw [Segment.kind_view, none] at known
    cases known
  unfold binaryOperatorOf tag
  rw [read_bind, read_act]
  change ((wrap .binaryExpression _).read resync enter around
    (segment.apply around (.tag .left))).Satisfies _ _
  rw [read_wrap]
  refine Reading.satisfies_enclosed.mpr ((reads_rightOperand nests resync
    (stands_tag stands around .left) (Segment.significant_tag .left around leftSame)
    more).weaken ?_ (fun _ => id))
  rintro _ inner ⟨stood, shorter, right, same, binds, settles⟩
  let position := (segment.apply around (.tag .left)).start around
  have children : (Node.build .binaryExpression inner.latest.reverse position).significant =
      [.ofNode (some .left) left, .leaf (some .operator) segment.cursor.current,
        .ofNode (some .right) right] := by
    rw [Segment.significant_build, same]
    rfl
  obtain ⟨nested, climbed⟩ := groups_build children rfl found climbs binds settles
  have grown := stood.grows.enclosed nested (by decide)
  have covers : (inner.enclosed .binaryExpression position).Attains .tight origin :=
    attains_enclosed (by decide) stood.covered rfl
  exact ⟨⟨⟨stood.proper, grown, stood.started, covers⟩, _,
    Segment.significant_enclosed (by decide) inner _, climbs_view climbed rfl rfl⟩, shorter⟩

/-- A round of the loop over binary operators: it takes one more operator, or there is none left that
binds tight enough. -/
theorem reads_operatorStep {least : Prec} (nests : EntriesNest enter) (resync : Bool)
    (before : BeforeOperator least around origin segment) :
    ((binaryOperatorStep least).read resync enter around segment).Satisfies
      (fun goesOn later => if goesOn then
        BeforeOperator least around origin later ∧
          later.cursor.ahead.length < segment.cursor.ahead.length
        else AfterOperators least around later)
      (fun later => later.Grows Node.NestsOpenly [] false) := by
  have stop : operatorAt? least (segment.view around) = none →
      AfterOperators least around segment := by
    intro none
    obtain ⟨stands, node, same, climbs⟩ := before
    refine ⟨stands.grows, node, same, ⟨fun range => (climbs.range range).elim, fun binary => ?_⟩,
      Or.inr (Or.inr none)⟩
    obtain ⟨prec, found, enough, -⟩ := climbs.binary binary
    exact ⟨prec, found, enough⟩
  unfold binaryOperatorStep check
  rw [read_bind, read_look]
  simp only [Reading.andThen]
  split
  · next ranging =>
      have none : operatorAt? least (segment.view around) = none := by
        unfold operatorAt?
        rw [View.kind_of_isAt ranging]
        rfl
      split
      · next loose =>
          have leaves : rangeOperator.LeavesNode resync enter (fun _ node => node.kind = .range)
              around segment := by
            refine leavesNode_bind (fun _ _ => leavesNode_wrap (by decide) ?_)
            exact (Reading.satisfies_trivial _).weaken (fun _ _ _ _ => rfl) (fun _ => id)
          have covers : rangeOperator.Covers (fun kind => kind.isPlain = true) true
              ⟨segment.view around, .tight⟩ := covers_rangeOperator (fun _ => id) rfl
          have grows := Orderly.grows covers nestsOpenly_of_plain nests.cover nests.grow resync
            (fun _ => rfl) (describes_stands before.stands) before.stands.proper before.stands.grows
          unfold LeavesNode at leaves
          rw [read_bind]
          refine ((grows.and leaves).weaken (fun _ _ => id) (fun _ both => both.1.2)).andThen ?_
          rintro _ later ⟨⟨-, reached, -, grown, covered⟩, node, same, range⟩
          rw [read]
          rw [covered] at grown
          exact ⟨grown, node, same, ⟨fun _ => loose, fun binary => by
            rw [range] at binary; cases binary⟩, Or.inl range⟩
      · rw [read]
        exact stop none
  · rw [read_bind, read_look]
    simp only [Reading.andThen]
    split
    · next none =>
        rw [read]
        exact stop none
    · next prec found =>
        unfold andGoOn
        rw [read_bind]
        refine (reads_binaryOperator nests resync before found).andThen (fun _ later both => ?_)
        rw [read]
        exact both

/-- The first operand of an expression, before its binary operators. -/
theorem reads_firstOperand (nests : EntriesNest enter) (resync : Bool)
    (stands : segment.Stands [] origin .nothing) (none : segment.latest = []) :
    (unaryExpression.read resync enter around segment).Satisfies
      (fun ending later => later.Stands [] origin .tight ∧
        later.Yields (fun node => node.IsOperand ending) [])
      (fun later => later.Grows Node.NestsOpenly [] false) := by
  have covers : unaryExpression.Covers (· ≠ .deprecatedDirective) false
      ⟨segment.view around, .nothing⟩ :=
    covers_unaryExpression (fun _ => isPlain_ordinary) (fun kind operator same => by
      rw [same] at operator
      cases operator)
  have sound := Orderly.sound covers (fun _ => id) nests.cover resync (describes_stands stands)
    stands.proper
  have unary : ReadsUnary resync enter unaryExpression around segment :=
    readsUnary_unaryExpression nests stands.proper
  unfold ReadsUnary at unary
  have empty : segment.significant = [] := by
    unfold Segment.significant
    rw [none]
    rfl
  rw [none, empty] at unary
  refine (sound.and unary).weaken ?_ (fun _ both => both.2)
  rintro ending later ⟨⟨continues, reached, described, covered⟩, grown, yields⟩
  exact ⟨⟨continues.proper stands.proper, grown, described.origin,
    covered ▸ described.covered⟩, yields⟩

/-- An operand and its binary operators. -/
theorem reads_operators (least : Prec) (nests : EntriesNest enter) (resync : Bool)
    (stands : segment.Stands [] origin .nothing) (none : segment.latest = []) :
    ((do
      if (← unaryExpression) == .isOpen then
        repeatedly (binaryOperatorStep least) : Production Unit).read resync enter around
          segment).Satisfies
      (fun _ later => AfterOperators least around later)
      (fun later => later.Grows Node.NestsOpenly [] false) := by
  rw [read_bind]
  refine (reads_firstOperand nests resync stands none).andThen ?_
  rintro ending first ⟨stood, node, same, operand⟩
  cases ending with
  | closed =>
      rw [if_neg (by decide), read_pure]
      refine ⟨stood.grows, node, same, ⟨fun range => (operand.range range).elim,
        fun binary => (operand.binary binary).elim⟩, Or.inr (Or.inl ?_)⟩
      simp [Child.endsClosed, Child.ofNode, operand.binary, operand.closed rfl]
  | isOpen =>
      have before : BeforeOperator least around origin first :=
        ⟨stood, node, same, operand.range, fun binary => (operand.binary binary).elim⟩
      rw [if_pos (by decide), read_repeatedly]
      have round : ∀ start, BeforeOperator least around origin start → _ :=
        fun _ before => reads_operatorStep nests resync before
      exact Reading.satisfies_iterate_moving round _ _ (Nat.le_refl _) before

/-- An expression only adds to what was read before it, and takes all operators that bind at least as
tight as it was asked to. -/
theorem reads_expression (least : Prec) (nests : EntriesNest enter) (resync : Bool)
    (proper : segment.cursor.Proper) :
    ((expressionEntry least).read resync enter around segment).Satisfies
      (fun _ later => later.Grows Node.NestsOpenly segment.latest true ∧
        later.Yields (fun node => node.Binds least ∧ node.Settles least (later.view around))
          segment.significant)
      (fun later => later.Grows Node.NestsOpenly segment.latest false) := by
  have start : segment.flush.Grows Node.NestsOpenly segment.latest false :=
    (Segment.grows_refl segment).flush nestsOpenly_of_plain
  unfold expressionEntry
  rw [read_marked]
  refine Reading.satisfies_after.mpr
    ((reads_operators least nests resync (stands_emptied proper) rfl).weaken ?_ ?_)
  · rintro _ inner ⟨grown, node, same, binds, settles⟩
    refine ⟨start.after grown, node, ?_, binds, settles_view settles rfl rfl⟩
    rw [Segment.significant_after, same, Segment.significant_flush proper, List.singleton_append]
  · exact fun inner grown => (start.after grown).uncovered

/-- The production of an entry without operators only adds to what was read before it. -/
theorem reads_plain {production : Production Unit} (nests : EntriesNest enter) (resync : Bool)
    (covers : production.Covers (fun kind => kind.isPlain = true) false
      ⟨segment.view around, .nothing⟩)
    (proper : segment.cursor.Proper) :
    (production.read resync enter around segment).Satisfies
      (fun _ later => later.Grows Node.NestsOpenly segment.latest true)
      (fun later => later.Grows Node.NestsOpenly segment.latest false) := by
  refine (Orderly.grows covers nestsOpenly_of_plain nests.cover nests.grow resync nofun
    (describes_start segment around) proper (Segment.grows_refl segment)).weaken ?_
    (fun _ => And.right)
  rintro _ later ⟨-, reached, -, grown, covered⟩
  rw [covered] at grown
  exact grown

/-! ### Expressions where they are entered -/

theorem readsNode_operandEntry {resync : Bool} {around : Surroundings} {segment : Segment}
    (nests : EntriesNest enter) (proper : segment.cursor.Proper) (least : Prec) :
    (operand least).ReadsNode resync enter (fun _ _ => True) around segment := by
  unfold ReadsNode operand
  rw [read_enter]
  exact (nests.climb least around segment proper).weaken
    (fun _ _ yields => yields.weaken (fun _ _ => trivial)) (fun _ => id)

theorem readsNode_expression {resync : Bool} {around : Surroundings} {segment : Segment}
    (nests : EntriesNest enter) (proper : segment.cursor.Proper) :
    expression.ReadsNode resync enter (fun _ _ => True) around segment := by
  have inner : (operand Prec.assignment).ReadsNode resync enter (fun _ _ => True)
      { around with context := around.context.excluding .type } segment :=
    readsNode_operandEntry nests proper Prec.assignment
  unfold ReadsNode at inner ⊢
  exact inner

end Production

theorem readEntry_nests (resync : Bool) (depth : Nat) : EntriesNest (readEntry resync depth) := by
  induction depth with
  | zero =>
      refine ⟨readEntry_covers resync 0, fun entry around segment proper => ?_,
        fun around segment proper => ?_, fun least around segment proper => ?_⟩
      · exact Segment.grows_refl segment
      · trivial
      · trivial
  | succ depth ih =>
      refine ⟨readEntry_covers resync (depth + 1), fun entry around segment proper => ?_,
        fun around segment proper => ?_, fun least around segment proper => ?_⟩
      · cases entry with
        | expression least =>
            exact (Production.reads_expression least ih resync proper).weaken (fun _ _ => And.left)
              (fun _ => id)
        | type => exact Production.reads_plain ih resync (Production.covers_typeEntry (fun _ => id)) proper
        | statement =>
            exact Production.reads_plain ih resync (Production.covers_statementEntry (fun _ => id)) proper
      · have type : Production.typeEntry.ReadsNode resync (readEntry resync depth)
            (fun _ node => node.IsOperand .isOpen) around segment :=
          (Production.readsNode_type proper).weaken (fun _ _ => Node.IsTypeIn.isOperand)
        unfold Production.ReadsNode at type
        exact type
      · exact (Production.reads_expression least ih resync proper).weaken (fun _ _ => And.right)
          (fun _ _ => trivial)

end JaiSyntax
