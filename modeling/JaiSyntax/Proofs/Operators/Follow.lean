import JaiSyntax.Proofs.Progress.Initial
import JaiSyntax.Proofs.Reading.Source
/-!
What may follow a star. Whether a star multiplies or dereferences is told by a list of the tokens that
operands start with, and an operand is read by productions that know those tokens for themselves. The two
agree except on two dots, which are on the list although no operand starts with them, and on invalid
tokens, which are not although they are read as operands.
-/

set_option autoImplicit false

namespace JaiSyntax

/-! ### Tokens that operands start with -/

namespace View

/-- Whether the current token is one that an operand starts with, other than a directive or a dot. -/
inductive StartsOperand (view : View) : Prop where
  | operator (kind : view.kind ∈ [TokenKind.plus, .minus, .bang, .tilde, .amp, .star, .shl])
  | primary (kind : view.kind ∈ [TokenKind.int, .float, .quote, .lParen, .lBracket, .dollar,
      .tripleDash, .error])
  | word (name : view.kind = .ident) (free : statementWords.contains view.text = false)

/-- Whether an entry is that of a type that starts with a bracket or a dollar sign here. -/
def OpensType (view : View) (entry : Entry) : Prop :=
  entry = .type ∧ (view.kind = .lBracket ∨ view.kind = .dollar)

theorem text_of_isWordAt {view : View} {word : String} (same : view.isWordAt 0 word = true) :
    view.text = word :=
  beq_iff_eq.mp (Bool.and_eq_true_iff.mp same).2

/-- The list that is looked at names these tokens and two dots, but no invalid token. -/
theorem startsOperand_iff {view : View} (directive : view.kind ≠ .directive)
    (dot : view.kind ≠ .dot) :
    view.StartsOperand ↔
      view.canStartOperandAt 0 = true ∧ view.kind ≠ .dotDot ∨ view.kind = .error := by
  have here : view.kindAt 0 = view.kind := rfl
  have text : view.textAt 0 = view.text := rfl
  unfold canStartOperandAt
  rw [here, text]
  constructor
  · rintro (operator | primary | ⟨name, free⟩)
    · left
      simp only [List.mem_cons, List.not_mem_nil, or_false] at operator
      rcases operator with kind | kind | kind | kind | kind | kind | kind <;> simp [kind]
    · simp only [List.mem_cons, List.not_mem_nil, or_false] at primary
      rcases primary with kind | kind | kind | kind | kind | kind | kind | kind <;> simp [kind]
    · left
      rw [name]
      exact ⟨by simpa using free, by decide⟩
  · rintro (⟨listed, range⟩ | error)
    · split at listed
      all_goals try rename_i kind
      case h_1 => exact .word kind (by simpa using listed)
      all_goals first
        | exact .operator (by rw [kind]; decide)
        | exact .primary (by rw [kind]; decide)
        | exact (directive kind).elim
        | exact (dot kind).elim
        | exact (range kind).elim
        | cases listed
    · exact .primary (by rw [error]; decide)

/-- So the list tells where an operand starts, unless two dots or an invalid token are there. -/
theorem listed_iff {view : View} (directive : view.kind ≠ .directive) (dot : view.kind ≠ .dot) :
    (view.canStartOperandAt 0 = true ↔ view.StartsOperand) ↔
      view.kind ≠ .dotDot ∧ view.kind ≠ .error := by
  have here : view.kindAt 0 = view.kind := rfl
  have range : view.kind = .dotDot → view.canStartOperandAt 0 = true := by
    intro dots
    rw [canStartOperandAt, here, dots]
  have invalid : view.kind = .error → ¬ view.canStartOperandAt 0 = true := by
    intro error
    rw [canStartOperandAt, here, error]
    exact Bool.false_ne_true
  rw [startsOperand_iff directive dot]
  constructor
  · intro same
    constructor
    · intro dots
      rcases same.mp (range dots) with ⟨-, other⟩ | error
      · exact other dots
      · cases dots.symm.trans error
    · exact fun error => invalid error (same.mpr (Or.inr error))
  · rintro ⟨noRange, valid⟩
    exact ⟨fun listed => Or.inl ⟨listed, noRange⟩,
      fun starts => starts.elim And.left (fun error => (valid error).elim)⟩

end View

namespace Production

/-! ### Operands that consume a token -/

section Operands

variable {entered : Entry → Prop} {view : View}

theorem consumes_leafNode (kind : NodeKind) (more : view.kind ≠ .eof) :
    (leafNode kind).Consumes entered view :=
  (initially_node kind bump).mpr (consumes_bump more)

theorem consumes_keywordNode (kind : NodeKind) (more : view.kind ≠ .eof) :
    (keywordNode kind).Consumes entered view :=
  (initially_node kind bumpKeyword).mpr (consumes_bumpKeyword more)

theorem consumes_openOperand {body : Production Unit} (inner : body.Consumes entered view) :
    (openOperand body).Consumes entered view := consumes_andThen inner

theorem consumes_closedOperand {body : Production Unit} (inner : body.Consumes entered view) :
    (closedOperand body).Consumes entered view := consumes_andThen inner

theorem consumes_stringLiteral (quote : view.kind = .quote) :
    stringLiteral.Consumes entered view := by
  have more : view.kind ≠ .eof := View.not_end_of_kind quote (by decide)
  have opens : view.isAt .quote = true := beq_iff_eq.mpr quote
  have body : stringBody.Consumes entered view := by
    simp only [stringBody, initially_bind, initially_check, initially_ite]
    exact ⟨fun _ => (consumes_bump more).weaken (fun _ => False.elim),
      fun closed => (closed opens).elim⟩
  simp only [stringLiteral, initially_bind, initially_checkDirective, initially_ite]
  exact ⟨fun _ => consumes_andThen (consumes_bumpTagged _ more), fun _ => body⟩

theorem consumes_parenthesis (opens : view.kind = .lParen) :
    parenthesis.Consumes entered view := by
  have more : view.kind ≠ .eof := View.not_end_of_kind opens (by decide)
  have list : parameterList.Consumes entered view :=
    consumes_andThen (consumes_expect opens (by decide))
  have procedure : procedure.Consumes entered view := by
    simp only [Production.procedure, initially_marked, initially_bind, initially_look]
    exact fun _ _ => list.weaken (fun _ => False.elim)
  simp only [parenthesis, initially_bind, initially_look, initially_ite]
  refine fun _ _ => ⟨fun _ => ?_, fun _ _ _ => ⟨fun _ => procedure, fun _ => ?_⟩⟩
  · exact consumes_closedOperand (consumes_andThen (consumes_bump more))
  · exact consumes_openOperand (consumes_andThen (consumes_andThen (consumes_bump more)))

theorem consumes_word (name : view.kind = .ident)
    (free : statementWords.contains view.text = false) : word.Consumes entered view := by
  have more : view.kind ≠ .eof := View.not_end_of_kind name (by decide)
  have keyword (kind : NodeKind) : (keywordNode kind).Consumes entered view :=
    consumes_keywordNode kind more
  have identifier : identifierNode.Consumes entered view := consumes_leafNode _ more
  have starts : bumpKeyword.Consumes entered view := consumes_bumpKeyword more
  have introduced : introducer.Consumes entered view := by
    simp only [introducer, initially_bind, initially_check, initially_ite]
    exact ⟨fun _ => starts, fun _ => consumes_bump more⟩
  have ordinary : ¬ view.isWordIn statementWords = true := by
    rw [View.isWordIn, free, Bool.and_false]
    exact Bool.false_ne_true
  simp only [word, initially_bind, initially_checkWord, initially_look, initially_ite]
  refine ⟨fun _ => consumes_openOperand (keyword _), fun _ => ?_⟩
  refine ⟨fun _ => consumes_openOperand (keyword _), fun _ => ?_⟩
  refine ⟨fun _ => consumes_closedOperand (consumes_andThen starts), fun _ => ?_⟩
  refine ⟨fun _ => consumes_closedOperand (consumes_andThen starts), fun _ => ?_⟩
  refine ⟨fun _ => consumes_closedOperand (consumes_andThen introduced), fun _ => ?_⟩
  refine fun _ _ => ⟨fun _ => consumes_openOperand (consumes_andThen starts), fun _ => ?_⟩
  refine fun _ _ => ⟨fun _ => consumes_openOperand (consumes_andThen starts), fun _ => ?_⟩
  refine ⟨fun stops => (ordinary stops).elim, fun _ => ?_⟩
  refine ⟨fun _ => consumes_openOperand (consumes_leafNode _ more), fun _ => ?_⟩
  exact fun _ _ => ⟨fun _ => consumes_closedOperand (consumes_andThen identifier),
    fun _ => consumes_openOperand identifier⟩

/-- A type that starts with a bracket or a dollar sign consumes it. -/
theorem consumes_typeEntry (kind : view.kind = .lBracket ∨ view.kind = .dollar) :
    typeEntry.Consumes entered view := by
  have more : view.kind ≠ .eof := by
    rcases kind with kind | kind <;> exact View.not_end_of_kind kind (by decide)
  simp only [typeEntry, initially_bind, initially_look, View.kind_around]
  intro _ _
  rcases kind with kind | kind
  · rw [kind]
    exact consumes_andThen (consumes_bump more)
  · rw [kind]
    exact consumes_andThen (consumes_bump more)

end Operands

section Types

variable {view : View}

/-- An operand consumes a token where one can start, as far as types do. -/
theorem consumes_primary (starts : view.StartsOperand)
    (plain : view.kind ∉ [TokenKind.plus, .minus, .bang, .tilde, .amp, .star, .shl]) :
    primary.Consumes view.OpensType view := by
  have leaf (node : NodeKind) {kind : TokenKind} (here : view.kind = kind) (token : kind ≠ .eof) :
      (openOperand (leafNode node)).Consumes view.OpensType view :=
    consumes_openOperand (consumes_leafNode node (View.not_end_of_kind here token))
  have typed (kind : view.kind = .lBracket ∨ view.kind = .dollar) :
      (openOperand type).Consumes view.OpensType view := consumes_openOperand ⟨rfl, kind⟩
  simp only [primary, initially_bind, initially_look, View.kind_around]
  intro _ _
  cases starts with
  | operator kind => exact (plain kind).elim
  | word name free =>
      rw [name]
      exact consumes_word name free
  | primary kind =>
      simp only [List.mem_cons, List.not_mem_nil, or_false] at kind
      rcases kind with kind | kind | kind | kind | kind | kind | kind | kind <;> rw [kind]
      · exact leaf _ kind (by decide)
      · exact leaf _ kind (by decide)
      · exact consumes_openOperand (consumes_stringLiteral kind)
      · exact consumes_parenthesis kind
      · exact typed (Or.inl kind)
      · exact typed (Or.inr kind)
      · exact leaf _ kind (by decide)
      · exact leaf _ kind (by decide)

theorem consumes_unaryExpression (starts : view.StartsOperand) :
    unaryExpression.Consumes view.OpensType view := by
  simp only [unaryExpression, initially_bind, initially_look, View.kind_around]
  intro _ _
  split
  case h_8 =>
    rename_i plus minus bang tilde amp star shift
    simp only [initially_bind, initially_look, initially_ite]
    have keyword (word : String) (name : view.isWordAt 0 word = true) :
        bumpKeyword.Consumes view.OpensType view :=
      consumes_bumpKeyword (View.not_end_of_kind (View.kind_of_isWordAt name) (by decide))
    refine fun _ _ => ⟨fun converts => ?_, fun _ _ _ => ⟨fun converts => ?_, fun _ => ?_⟩⟩
    · exact consumes_openOperand (consumes_andThen (keyword _ (Bool.and_eq_true_iff.mp converts).1))
    · exact consumes_openOperand (consumes_andThen (keyword _ (Bool.and_eq_true_iff.mp converts).1))
    · refine consumes_andThen (consumes_primary starts ?_)
      simp only [List.mem_cons, List.not_mem_nil, or_false, not_or]
      exact ⟨plus, minus, bang, tilde, amp, star, shift⟩
  all_goals
    rename_i here
    have more := View.not_end_of_kind here (by decide)
    first
      | exact consumes_openOperand (consumes_andThen (consumes_bumpTagged _ more))
      | exact consumes_openOperand (consumes_andThen (consumes_bump more))

theorem declines_word (name : view.kind = .ident)
    (reserved : statementWords.contains view.text = true) : word.Declines view := by
  have listed : view.text ∈ statementWords := List.contains_iff_mem.mp reserved
  have others : ∀ text ∈ statementWords, ∀ words ∈ [["true", "false"], ["null"], structWords,
      enumWords, ["ifx"], ["inline", "no_inline"]], words.contains text = false := by decide
  have isOther {words : List String} (known : words ∈ [["true", "false"], ["null"], structWords,
      enumWords, ["ifx"], ["inline", "no_inline"]]) : ¬ view.isWordIn words = true := by
    rw [View.isWordIn, others _ listed _ known, Bool.and_false]
    exact Bool.false_ne_true
  have isStop : view.isWordIn statementWords = true := by
    rw [View.isWordIn, reserved, Bool.and_true]
    exact beq_iff_eq.mpr name
  simp only [word, initially_bind, initially_checkWord, initially_look, initially_ite]
  refine ⟨fun other => (isOther (by decide) other).elim, fun _ => ?_⟩
  refine ⟨fun other => (isOther (by decide) other).elim, fun _ => ?_⟩
  refine ⟨fun other => (isOther (by decide) other).elim, fun _ => ?_⟩
  refine ⟨fun other => (isOther (by decide) other).elim, fun _ => ?_⟩
  refine ⟨fun other => (isOther (by decide) other).elim, fun _ => ?_⟩
  refine fun _ _ => ⟨fun asked => ?_, fun _ _ _ => ⟨fun inlined => ?_, fun _ => ?_⟩⟩
  · have spelled := View.text_of_isWordAt (Bool.and_eq_true_iff.mp asked).1
    exact absurd (spelled ▸ listed) (by decide)
  · exact (isOther (by decide) (Bool.and_eq_true_iff.mp inlined).1).elim
  · exact ⟨fun _ => trivial, fun other => (other isStop).elim⟩

theorem declines_primary (stops : ¬ view.StartsOperand) (directive : view.kind ≠ .directive)
    (dot : view.kind ≠ .dot) : primary.Declines view := by
  simp only [primary, initially_bind, initially_look, View.kind_around]
  intro _ _
  split
  case h_1 =>
    rename_i name
    refine declines_word name (Bool.of_not_eq_false (fun free => stops (.word name free)))
  case h_12 => trivial
  all_goals
    rename_i here
    first
      | exact (directive here).elim
      | exact (dot here).elim
      | exact (stops (.primary (by rw [here]; decide))).elim

theorem declines_unaryExpression (stops : ¬ view.StartsOperand) (directive : view.kind ≠ .directive)
    (dot : view.kind ≠ .dot) : unaryExpression.Declines view := by
  simp only [unaryExpression, initially_bind, initially_look, View.kind_around]
  intro _ _
  split
  case h_8 =>
    simp only [initially_bind, initially_look, initially_ite]
    have noWord {word : String} (free : statementWords.contains word = false)
        (same : view.isWordAt 0 word = true) : False :=
      stops (.word (View.kind_of_isWordAt same) (View.text_of_isWordAt same ▸ free))
    refine fun _ _ => ⟨fun converts => ?_, fun _ _ _ => ⟨fun converts => ?_, fun _ => ?_⟩⟩
    · exact (noWord (by decide) (Bool.and_eq_true_iff.mp converts).1).elim
    · exact (noWord (by decide) (Bool.and_eq_true_iff.mp converts).1).elim
    · exact declines_andThen (declines_primary stops directive dot)
  all_goals
    rename_i here
    exact (stops (.operator (by rw [here]; decide))).elim

end Types

/-- A star that no operand follows is consumed as a dereference. -/
theorem consumes_postfixOperator {view : View} (star : view.kind = .star)
    (ends : view.canStartOperandAt 1 = false) : postfixOperator.Consumes (fun _ => False) view := by
  have more : view.kind ≠ .eof := View.not_end_of_kind star (by decide)
  have bumped : (times 1 bump).Consumes (fun _ => False) view := consumes_andThen (consumes_bump more)
  have dereference : (dereferenceOperator 1).Consumes (fun _ => False) view :=
    ⟨fun absurd => (Bool.false_ne_true absurd).elim, fun _ => bumped⟩
  simp only [postfixOperator, initially_bind, initially_look, View.kind_around, star,
    initially_ite]
  intro _ _ context last
  refine ⟨fun starts => ?_, fun _ => consumes_andThen dereference⟩
  have same : (view.around context last).canStartOperandAt 1 = view.canStartOperandAt 1 := rfl
  rw [same, ends] at starts
  cases starts

end Production

/-! ### States -/

namespace ParserState

variable {resync : Bool} {scope : Scope} {state : ParserState}

/-- Whether reading an operand consumes a token, even if it fails. -/
def ReadsOperand (resync : Bool) (scope : Scope) (state : ParserState) : Prop :=
  ∃ outcome, Evaluates resync Production.unaryExpression scope state outcome ∧
    state.cursor.position < outcome.state.cursor.position

def RefusesOperand (resync : Bool) (scope : Scope) (state : ParserState) : Prop :=
  ∃ error last, Evaluates resync Production.unaryExpression scope state (.failed error last) ∧
    last.cursor.position = state.cursor.position

/-- Whether the look at the current token tells what becomes of reading an operand there. -/
def ForeseesOperand (resync : Bool) (scope : Scope) (state : ParserState) : Prop :=
  if (state.view scope).canStartOperandAt 0 = true then state.ReadsOperand resync scope
  else state.RefusesOperand resync scope

/-- Whether no postfix operator is read, so that the current token is left to the binary operators. -/
def LeavesOperator (resync : Bool) (scope : Scope) (state : ParserState) : Prop :=
  Evaluates resync Production.postfixOperator scope state (.done false state)

theorem ReadsOperand.not_refuses (reads : state.ReadsOperand resync scope) :
    ¬ state.RefusesOperand resync scope := by
  rintro ⟨error, last, refused, same⟩
  obtain ⟨outcome, read, moved⟩ := reads
  rw [read.unique refused] at moved
  exact Nat.ne_of_gt moved same

theorem readsOperand_of_starts (proper : state.cursor.Proper)
    (starts : state.cursor.view.StartsOperand) : state.ReadsOperand resync scope := by
  have evaluates := Production.steady_unaryExpression.evaluates resync scope state proper
  refine ⟨_, evaluates, evaluates.consumes proper ?_ (Production.consumes_unaryExpression starts)⟩
  rintro entry ⟨rfl, kind⟩
  exact Production.consumes_typeEntry kind

theorem refusesOperand_of_stops (proper : state.cursor.Proper)
    (stops : ¬ state.cursor.view.StartsOperand) (directive : state.current.kind ≠ .directive)
    (dot : state.current.kind ≠ .dot) : state.RefusesOperand resync scope := by
  have evaluates := Production.steady_unaryExpression.evaluates resync scope state proper
  obtain ⟨error, last, failed, same⟩ :=
    evaluates.declines proper (Production.declines_unaryExpression stops directive dot)
  exact ⟨error, last, failed ▸ evaluates, same⟩

/-- An operand is read where one of these tokens stands, or else refused. -/
theorem readsOperand_iff (proper : state.cursor.Proper)
    (directive : state.current.kind ≠ .directive) (dot : state.current.kind ≠ .dot) :
    state.ReadsOperand resync scope ↔ state.cursor.view.StartsOperand := by
  refine ⟨fun reads => ?_, readsOperand_of_starts proper⟩
  by_contra stops
  exact reads.not_refuses (refusesOperand_of_stops proper stops directive dot)

theorem foreseesOperand_iff (proper : state.cursor.Proper)
    (directive : state.current.kind ≠ .directive) (dot : state.current.kind ≠ .dot) :
    state.ForeseesOperand resync scope ↔
      state.current.kind ≠ .dotDot ∧ state.current.kind ≠ .error := by
  have reads : state.ReadsOperand resync scope ↔ state.cursor.view.StartsOperand :=
    readsOperand_iff proper directive dot
  have refuses : state.RefusesOperand resync scope ↔ ¬ state.cursor.view.StartsOperand :=
    ⟨fun refuses starts => (readsOperand_of_starts proper starts).not_refuses refuses,
      fun stops => refusesOperand_of_stops proper stops directive dot⟩
  have looked : state.ForeseesOperand resync scope ↔
      (state.cursor.view.canStartOperandAt 0 = true ↔ state.cursor.view.StartsOperand) := by
    unfold ForeseesOperand
    change (if state.cursor.view.canStartOperandAt 0 = true then _ else _) ↔ _
    rw [reads, refuses]
    by_cases listed : state.cursor.view.canStartOperandAt 0 = true <;> simp [listed]
  exact looked.trans (View.listed_iff directive dot)

/-- The tokens behind the current one are ahead once that is consumed. -/
theorem peek_bump (proper : state.cursor.Proper) (more : state.isAtEnd = false) (distance : Nat) :
    state.bump.cursor.peek distance = state.cursor.peek (distance + 1) := by
  obtain ⟨stop, rest, ahead, bumped⟩ := cursor_bumpAs_of_token proper more id
  rw [bump, bumped, TokenCursor.peek, TokenCursor.peek, ahead]
  rfl

theorem leavesOperator_iff (proper : state.cursor.Proper) (star : state.current.kind = .star) :
    state.LeavesOperator resync scope ↔ state.cursor.view.canStartOperandAt 1 = true := by
  constructor
  · intro leaves
    by_contra ends
    have consumed := leaves.consumes proper (fun _ none => none.elim)
      (Production.consumes_postfixOperator star (Bool.eq_false_iff.mpr ends))
    exact Nat.lt_irrefl _ consumed
  · intro starts
    have here : (state.view scope).kind = .star := star
    have listed : (state.view scope).canStartOperandAt 1 = true := starts
    refine .bind (.look View.kind scope state) ?_
    rw [here]
    refine .bind (.look (·.canStartOperandAt 1) scope state) ?_
    rw [if_pos listed]
    exact .pure false scope state

/-- A star is left to the binary operators just if an operand is read behind it, unless two dots or an
invalid token stand there. -/
theorem leavesStar_iff_readsOperand (proper : state.cursor.Proper) (star : state.current.kind = .star)
    (directive : (state.cursor.peek 1).kind ≠ .directive)
    (dot : (state.cursor.peek 1).kind ≠ .dot) :
    (state.LeavesOperator resync scope ↔ state.bump.ReadsOperand resync scope) ↔
      (state.cursor.peek 1).kind ≠ .dotDot ∧ (state.cursor.peek 1).kind ≠ .error := by
  have more : state.isAtEnd = false := by
    change (state.current.kind == .eof) = false
    rw [star]
    rfl
  have next : state.bump.cursor.peek 0 = state.cursor.peek 1 := peek_bump proper more 0
  have behind : state.bump.current.kind = (state.cursor.peek 1).kind := congrArg Token.kind next
  have listed : state.bump.cursor.view.canStartOperandAt 0 =
      state.cursor.view.canStartOperandAt 1 := by
    have kind : state.bump.cursor.view.kindAt 0 = state.cursor.view.kindAt 1 := behind
    have text : state.bump.cursor.view.textAt 0 = state.cursor.view.textAt 1 :=
      congrArg Token.text next
    rw [View.canStartOperandAt, View.canStartOperandAt, kind, text]
  have later : state.bump.cursor.Proper := (precedes_bumpAs proper id).proper
  rw [← behind] at directive dot
  rw [leavesOperator_iff proper star, ← listed, readsOperand_iff later directive dot, ← behind]
  exact View.listed_iff directive dot

/-- The look at the current token agrees with what becomes of reading an operand there, except for two
dots and invalid tokens; so a star is left to the binary operators just if an operand is read behind it,
with the same exceptions. -/
theorem operand_look_agrees_iff (resync : Bool) (scope : Scope) (state : ParserState)
    (proper : state.cursor.Proper) (directive : state.current.kind ≠ .directive)
    (dot : state.current.kind ≠ .dot) :
    (state.ForeseesOperand resync scope ↔
        state.current.kind ≠ .dotDot ∧ state.current.kind ≠ .error) ∧
      (state.current.kind = .star → (state.cursor.peek 1).kind ≠ .directive →
        (state.cursor.peek 1).kind ≠ .dot →
          ((state.LeavesOperator resync scope ↔ state.bump.ReadsOperand resync scope) ↔
            (state.cursor.peek 1).kind ≠ .dotDot ∧ (state.cursor.peek 1).kind ≠ .error)) :=
  ⟨foreseesOperand_iff proper directive dot, leavesStar_iff_readsOperand proper⟩

/-- A star before a name multiplies, and the name is read as its operand. -/
theorem operand_look_agrees_at_name :
    let state := ParserState.initial 2 (lex "*b".toList).tokens
    state.ForeseesOperand true .outermost ∧
      (state.LeavesOperator true .outermost ↔ state.bump.ReadsOperand true .outermost) := by
  have star : (ParserState.initial 2 (lex "*b".toList).tokens).current.kind = .star := by
    decide +kernel
  have name : ((ParserState.initial 2 (lex "*b".toList).tokens).cursor.peek 1).kind = .ident := by
    decide +kernel
  have agrees := operand_look_agrees_iff true .outermost
    (ParserState.initial 2 (lex "*b".toList).tokens) (TokenCursor.ofTokens_proper _ _)
    (by rw [star]; decide) (by rw [star]; decide)
  exact ⟨agrees.1.mpr (by rw [star]; decide),
    (agrees.2 star (by rw [name]; decide) (by rw [name]; decide)).mpr (by rw [name]; decide)⟩

/-- Two dots are looked upon as the start of an operand and refused as one. So a star in front of a
range is no dereference, and a statement with one has an error. -/
theorem operand_look_disagrees_at_range :
    (∃ state : ParserState, state.cursor.Proper ∧ state.current.kind ≠ .directive ∧
      state.current.kind ≠ .dot ∧ ¬ state.ForeseesOperand true .outermost) ∧
      (parse {} "x := p*..q;".toList).errors ≠ [] := by
  refine ⟨⟨ParserState.initial 3 (lex "..q".toList).tokens, ?_⟩, by decide +kernel⟩
  have dots : (ParserState.initial 3 (lex "..q".toList).tokens).current.kind = .dotDot := by
    decide +kernel
  have proper := TokenCursor.ofTokens_proper 3 (lex "..q".toList).tokens
  have directive : (ParserState.initial 3 (lex "..q".toList).tokens).current.kind ≠ .directive := by
    rw [dots]
    decide
  have dot : (ParserState.initial 3 (lex "..q".toList).tokens).current.kind ≠ .dot := by
    rw [dots]
    decide
  refine ⟨proper, directive, dot, fun foresees => ?_⟩
  exact ((foreseesOperand_iff proper directive dot).mp foresees).1 dots

end ParserState

end JaiSyntax
