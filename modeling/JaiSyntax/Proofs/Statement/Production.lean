import JaiSyntax.Proofs.Expression.Reading
import JaiSyntax.Proofs.Reading.Declaration
import JaiSyntax.Proofs.Statement.Term
/-!
Reading the words of statements. Each production for a statement is read wherever its expressions and the
statements inside it are.
-/

set_option autoImplicit false

namespace JaiSyntax

/-! ### Ends of expressions -/

def boundaryKinds : List TokenKind := [.semicolon, .eq, .lBrace, .ident]

theorem Follows.of_boundary {rest : List SourceWord} (undoubled : Undoubled rest)
    (boundary : SourceWord.kindAt rest 0 ∈ boundaryKinds) (least : Prec) : Follows rest least := by
  have boundaries : ∀ kind ∈ boundaryKinds,
      (kind ≠ .arrow ∧ kind ∉ [TokenKind.lParen, .lBracket, .dot, .dotDot]) ∧
        kind ≠ .star ∧ binaryOperator? kind = none := by
    decide
  obtain ⟨⟨noArrow, noOperand⟩, noStar, noOperator⟩ := boundaries _ boundary
  constructor
  · exact undoubled.quiet noArrow
  · exact noOperand
  · exact fun star => absurd star noStar
  · intro operator found
    rw [noOperator] at found
    cases found

/-- An expression is read in front of what goes on a statement. -/
theorem Expression.takes (resync : Bool) {depth : Nat} (value : Expression)
    (deep : value.1.words.length ≤ depth) {rest : List SourceWord} (undoubled : Undoubled rest)
    (boundary : SourceWord.kindAt rest 0 ∈ boundaryKinds) :
    Production.expression.TakesTerm resync (readEntry resync (depth + 1)) value.1 rest := by
  have climbs := (value.1.climbs resync value.2 depth deep).2
  intro context built
  exact Production.takes_within _
    (climbs.operand (.of_boundary undoubled boundary _) value.1.level_bounds _ built)

theorem Expression.takes_semicolon (resync : Bool) {depth : Nat} (value : Expression)
    (deep : value.1.words.length ≤ depth) {rest : List SourceWord} (undoubled : Undoubled rest) :
    Production.expression.TakesTerm resync (readEntry resync (depth + 1)) value.1
      (.fixed .semicolon :: rest) := by
  have boundary : TokenKind.semicolon ∈ boundaryKinds := by decide
  exact value.takes resync deep undoubled.semicolon boundary

/-! ### Views of statements -/

namespace View.Sees

variable {view : View} {context : Context} {stage : Stage} {word : SourceWord}
  {rest : List SourceWord} {built : List Skeleton}

theorem isWordIn_eq (sees : view.Sees context ⟨word :: rest, built⟩) (words : List String) :
    view.isWordIn words = (word.kind == .ident && words.contains word.text) := by
  rw [View.isWordIn, View.isAt, sees.kind, sees.text]
  rfl

theorem isWordIn_absent {text : String} (sees : view.Sees context stage)
    (absent : ∀ word ∈ stage.words.head?, ¬ (word.kind = .ident ∧ word.text = text)) :
    view.isWordIn [text] = false := by
  obtain ⟨words, built⟩ := stage
  cases words with
  | nil =>
      rw [View.isWordIn, View.isAt, sees.kind]
      rfl
  | cons word rest =>
      rw [sees.isWordIn_eq]
      have other := absent word rfl
      simpa using other

/-- A declaration has a colon behind its name, or a comma and further names. -/
theorem isAtDeclaration_eq (sees : view.Sees context stage)
    (plain : SourceWord.kindAt stage.words 1 ∉ [TokenKind.colon, .colonColon, .comma]) :
    view.isAtDeclaration = false := by
  simp only [List.mem_cons, List.not_mem_nil, or_false, not_or] at plain
  obtain ⟨noColon, noDouble, noComma⟩ := plain
  unfold View.isAtDeclaration namesBeforeColon
  rw [sees.kinds 0, sees.kinds 1]
  split
  · next same => exact absurd same noColon
  · next same => exact absurd same noDouble
  · next same => exact absurd same noComma
  · exact Bool.and_false _

theorem isAtOperatorDeclaration_eq (sees : view.Sees context stage)
    (undoubled : Undoubled stage.words) : view.isAtOperatorDeclaration = false := by
  have same : view.kindAt = SourceWord.kindAt stage.words := funext sees.kinds
  unfold View.isAtOperatorDeclaration operatorLengthAt?
  simp only [same, undoubled.doubleColonAt?_eq, Option.isSome_none, Bool.and_false]
  simp

end View.Sees

namespace Production

variable {resync : Bool} {enter : Entry → Surroundings → Segment → Reading Unit} {context : Context}
  {words rest : List SourceWord} {built inner : List Skeleton} {last : Stage}

/-! ### Words of the grammar -/

theorem takes_eatWord (text : String) :
    (eatWord text).Takes resync enter context ⟨.keyword text :: rest, built⟩ true
      ⟨rest, SourceWord.keywordLeaf text :: built⟩ := by
  refine takes_then (fun view sees => ?_) (takes_seq (takes_bumpKeyword _ _ _) (takes_pure true _))
  rw [sees.isWordIn_eq]
  simp [SourceWord.keyword]

theorem skips_eatWord {text : String} {stage : Stage}
    (absent : ∀ word ∈ stage.words.head?, ¬ (word.kind = .ident ∧ word.text = text)) :
    (eatWord text).Takes resync enter context stage false stage :=
  takes_else (fun _ sees => sees.isWordIn_absent absent) (takes_pure false _)

/-! ### What a statement starts with -/

/-- A word of the grammar that starts a statement. -/
theorem statementEntry_takes_word {text : String}
    (plain : SourceWord.kindAt words 0 ∉ [TokenKind.colon, .colonColon, .comma])
    (taken : (wordStatement text).Takes resync enter context ⟨.keyword text :: words, built⟩ () last) :
    statementEntry.Takes resync enter context ⟨.keyword text :: words, built⟩ () last := by
  refine takes_bind (takes_look (fun _ sees => sees.kind)) ?_
  refine takes_else (fun view sees => sees.isAtDeclaration_eq plain) ?_
  exact takes_bind (takes_look (fun _ sees => sees.text)) taken

/-- A name starts an expression unless the grammar takes it for a word of its own. -/
theorem wordStatement_takes_expression {text : String} (free : text ∉ reservedWords)
    {first : Stage} (undoubled : Undoubled first.words)
    (taken : expressionStatement.Takes resync enter context first () last) :
    (wordStatement text).Takes resync enter context first () last := by
  have reserved : ∀ word ∈ ["if", "while", "for", "return", "break", "continue", "defer", "using",
      "remove", "push_context"], word ∈ reservedWords := by
    decide
  unfold wordStatement
  split
  case h_11 =>
    exact takes_else (fun _ sees => sees.isAtOperatorDeclaration_eq undoubled) taken
  case h_12 => exact taken
  all_goals exact absurd (reserved _ (by decide)) free

/-- An expression that starts a statement. -/
theorem statementEntry_takes_expression {term : Term} (undoubled : Undoubled rest)
    (plain : SourceWord.kindAt rest 0 ∉ [TokenKind.colon, .colonColon, .comma])
    (taken : expressionStatement.Takes resync enter context ⟨term.words ++ rest, built⟩ () last) :
    statementEntry.Takes resync enter context ⟨term.words ++ rest, built⟩ () last := by
  obtain ⟨first, more, words, starts, -⟩ := term.words_eq
  have whole := undoubled.term term
  have second (named : first.kind = .ident) :
      SourceWord.kindAt (term.words ++ rest) 1 ∉ [TokenKind.colon, .colonColon, .comma] := by
    have continuing : ∀ kind ∈ continuationKinds,
        kind ∉ [TokenKind.colon, .colonColon, .comma] := by
      decide
    rcases term.second_kind rest (by rw [words]; exact named) with known | same
    · exact continuing _ known
    · rw [same]
      exact plain
  rw [words, List.cons_append] at taken whole second ⊢
  refine takes_bind (takes_look (fun _ sees => sees.kind)) ?_
  rw [SourceWord.kindAt_cons_zero]
  rcases starts with ⟨ident, free⟩ | other
  · rw [ident]
    refine takes_else (fun view sees => sees.isAtDeclaration_eq (second ident)) ?_
    exact takes_bind (takes_look (fun _ sees => sees.text))
      (wordStatement_takes_expression free whole taken)
  · have kinds : first.kind = .int ∨ first.kind = .lParen ∨ first.kind = .plus ∨
        first.kind = .minus ∨ first.kind = .bang ∨ first.kind = .tilde ∨ first.kind = .amp := by
      simpa [unaryTokens] using other
    rcases kinds with kind | kind | kind | kind | kind | kind | kind <;> rw [kind] <;> exact taken

/-! ### Expressions and assignments -/

theorem expressionStatement_takes_value {term : Term}
    (taken : expression.TakesTerm resync enter term (.fixed .semicolon :: rest)) :
    expressionStatement.Takes resync enter context ⟨term.words ++ .fixed .semicolon :: rest, built⟩ ()
      ⟨.fixed .semicolon :: rest, term.skeleton :: built⟩ := by
  change Takes resync enter context _ _ () ⟨_, [term.skeleton] ++ built⟩
  refine takes_marked (takes_seq (taken _ _) (takes_else (fun view sees => ?_) (takes_pure () _)))
  rw [View.isAt, View.isAt, sees.kind]
  rfl

/-- An assignment to a single target. -/
theorem expressionStatement_takes_assignment {target value : Term}
    (targeted : expression.TakesTerm resync enter target
      (.fixed .eq :: (value.words ++ .fixed .semicolon :: rest)))
    (valued : expression.TakesTerm resync enter value (.fixed .semicolon :: rest)) :
    expressionStatement.Takes resync enter context
      ⟨target.words ++ .fixed .eq :: (value.words ++ .fixed .semicolon :: rest), built⟩ ()
      ⟨.fixed .semicolon :: rest, .branch none .assignmentStatement
        [target.skeleton.withField (some .left), (SourceWord.fixed .eq).leaf (some .operator),
          value.skeleton.withField (some .right)] :: built⟩ := by
  have alone (built : List Skeleton) : furtherTargets.Takes resync enter context
      ⟨.fixed .eq :: (value.words ++ .fixed .semicolon :: rest), built⟩ ()
      ⟨.fixed .eq :: (value.words ++ .fixed .semicolon :: rest), built⟩ :=
    takes_repeatedly (loops_stop (takes_bind (skips_eat TokenKind.noConfusion) (takes_pure false _)))
  have assigned (built : List Skeleton) : (do
      bumpTagged .operator
      expressionsAs .right : Production Unit).Takes resync enter context
      ⟨.fixed .eq :: (value.words ++ .fixed .semicolon :: rest), built⟩ ()
      ⟨.fixed .semicolon :: rest, value.skeleton.withField (some .right) ::
        (SourceWord.fixed .eq).leaf (some .operator) :: built⟩ :=
    takes_seq (takes_bumpTagged .operator)
      (takes_commaSeparated (valued.tagged .right) TokenKind.noConfusion)
  have wrapped (built : List Skeleton) : (assignmentTail .assignmentStatement).Takes resync enter
      context ⟨.fixed .eq :: (value.words ++ .fixed .semicolon :: rest), built⟩ () _ :=
    takes_wrap (by decide) (assigned built)
  change Takes resync enter context _ _ () ⟨_, [_] ++ built⟩
  refine takes_marked (takes_seq (targeted _ _) (takes_then (fun view sees => ?_) ?_))
  · rw [View.isAt, View.isAt, sees.kind]
    rfl
  · refine takes_seq (takes_tag .left _ _ _) (takes_seq (alone _) (takes_bind (takes_check .eq) ?_))
    exact wrapped _

/-! ### Jumps -/

def returnedValues : Production Unit :=
  onlyIf (fun view => !view.isAt .semicolon && !view.endsAt .rBrace) (expressionsAs .value)

theorem takes_returnedValues {value : Option Expression}
    (valued : ∀ inner, value = some inner →
      expression.TakesTerm resync enter inner.1 (.fixed .semicolon :: rest)) :
    returnedValues.Takes resync enter context ⟨valueWords value ++ .fixed .semicolon :: rest, built⟩ ()
      ⟨.fixed .semicolon :: rest, valueSkeletons value ++ built⟩ := by
  cases value with
  | none =>
      refine skips_onlyIf (fun view sees => ?_)
      rw [View.isAt, sees.kind]
      rfl
  | some value =>
      have read := valued value rfl
      obtain ⟨first, more, words, starts, -⟩ := value.1.words_eq
      refine takes_onlyIf (fun view sees => ?_)
        (takes_commaSeparated (read.tagged .value) TokenKind.noConfusion)
      have kinds : ∀ kind ∈ TokenKind.ident :: .int :: .lParen :: unaryTokens,
          (!(kind == .semicolon) && !((kind == .rBrace) || (kind == .eof))) = true := by
        decide
      rw [View.endsAt, View.isAtEnd, View.isAt, View.isAt, View.isAt, sees.kind, valueWords, words]
      exact kinds _ starts.kind

/-- A return, with a value or without one. -/
theorem takes_returnJump {value : Option Expression}
    (valued : ∀ inner, value = some inner →
      expression.TakesTerm resync enter inner.1 (.fixed .semicolon :: rest)) :
    returnJump.Takes resync enter context
      ⟨.keyword "return" :: (valueWords value ++ .fixed .semicolon :: rest), built⟩ ()
      ⟨.fixed .semicolon :: rest, .branch none .returnStatement
        (SourceWord.keywordLeaf "return" :: valueSkeletons value) :: built⟩ := by
  have inside : (do bumpKeyword; returnedValues : Production Unit).Takes resync enter context
      ⟨.keyword "return" :: (valueWords value ++ .fixed .semicolon :: rest), []⟩ ()
      ⟨.fixed .semicolon :: rest, valueSkeletons value ++ [SourceWord.keywordLeaf "return"]⟩ :=
    takes_seq (takes_bumpKeyword _ _ _) (takes_returnedValues valued)
  have single : valueSkeletons value = (valueSkeletons value).reverse := by
    cases value <;> rfl
  have same : SourceWord.keywordLeaf "return" :: valueSkeletons value =
      (valueSkeletons value ++ [SourceWord.keywordLeaf "return"]).reverse := by
    rw [List.reverse_append, ← single]
    rfl
  rw [same]
  exact takes_node (by decide) inside

theorem takes_label (label : Option Name) :
    (onlyIf (·.isAt .ident) (bumpTagged .label)).Takes resync enter context
      ⟨labelWords label ++ .fixed .semicolon :: rest, built⟩ ()
      ⟨.fixed .semicolon :: rest, labelSkeletons label ++ built⟩ := by
  cases label with
  | none =>
      refine skips_onlyIf (fun view sees => ?_)
      rw [View.isAt, sees.kind]
      rfl
  | some label =>
      refine takes_onlyIf (fun view sees => ?_) (takes_bumpTagged .label)
      rw [View.isAt, sees.kind]
      rfl

/-- A jump of a loop, with a label or without one. -/
theorem takes_loopJump (jump : LoopJump) (label : Option Name) :
    (loopJump jump.kind).Takes resync enter context
      ⟨.keyword jump.text :: (labelWords label ++ .fixed .semicolon :: rest), built⟩ ()
      ⟨.fixed .semicolon :: rest, .branch none jump.kind
        (SourceWord.keywordLeaf jump.text :: labelSkeletons label) :: built⟩ := by
  have significant : jump.kind ≠ .deprecatedDirective := by
    cases jump <;> decide
  have inside : (do
      bumpKeyword
      onlyIf (·.isAt .ident) (bumpTagged .label) : Production Unit).Takes resync enter context
      ⟨.keyword jump.text :: (labelWords label ++ .fixed .semicolon :: rest), []⟩ ()
      ⟨.fixed .semicolon :: rest, labelSkeletons label ++ [SourceWord.keywordLeaf jump.text]⟩ :=
    takes_seq (takes_bumpKeyword _ _ _) (takes_label label)
  have single : labelSkeletons label = (labelSkeletons label).reverse := by
    cases label <;> rfl
  have same : SourceWord.keywordLeaf jump.text :: labelSkeletons label =
      (labelSkeletons label ++ [SourceWord.keywordLeaf jump.text]).reverse := by
    rw [List.reverse_append, ← single]
    rfl
  rw [same]
  exact takes_node significant inside

/-! ### Lists of statements -/

def listStep (condition : View → Bool) : Production Bool := do
  if ← look condition then
    listedStatement
    pure true
  else pure false

theorem loops_listed {condition : View → Bool} {outcome : List Skeleton}
    (more : ∀ view : View, view.Sees context ⟨words, built⟩ → condition view = true)
    (starts : SourceWord.kindAt words 0 ≠ .semicolon)
    (taken : (substatement none).Takes resync enter context ⟨words, []⟩ () ⟨rest, outcome⟩)
    (shorter : rest.length < words.length)
    (later : (listStep condition).Loops resync enter context ⟨rest, outcome ++ built⟩ last) :
    (listStep condition).Loops resync enter context ⟨words, built⟩ last := by
  have step : (listStep condition).Takes resync enter context ⟨words, built⟩ true
      ⟨rest, outcome ++ built⟩ :=
    takes_then more (takes_seq (takes_listedStatement starts taken) (takes_pure true _))
  exact loops_step step shorter later

theorem loops_listed_stop {condition : View → Bool} {stage : Stage}
    (ended : ∀ view : View, view.Sees context stage → condition view = false) :
    (listStep condition).Loops resync enter context stage stage :=
  loops_stop (takes_else ended (takes_pure false stage))

theorem takes_block {skeletons : List Skeleton}
    (loops : (listStep (fun view => !view.endsAt .rBrace)).Loops resync enter .none
      ⟨words ++ .fixed .rBrace :: rest, [(SourceWord.fixed .lBrace).leaf none]⟩
      ⟨.fixed .rBrace :: rest, skeletons.reverse ++ [(SourceWord.fixed .lBrace).leaf none]⟩) :
    block.Takes resync enter context ⟨.fixed .lBrace :: (words ++ .fixed .rBrace :: rest), built⟩ ()
      ⟨rest, .branch none .block ((SourceWord.fixed .lBrace).leaf none ::
        (skeletons ++ [(SourceWord.fixed .rBrace).leaf none])) :: built⟩ := by
  have inside : (do
      expect .lBrace
      fresh statementList
      closeBrace : Production Unit).Takes resync enter context
      ⟨.fixed .lBrace :: (words ++ .fixed .rBrace :: rest), []⟩ ()
      ⟨rest, (SourceWord.fixed .rBrace).leaf none ::
        (skeletons.reverse ++ [(SourceWord.fixed .lBrace).leaf none])⟩ :=
    takes_seq (takes_expect rfl) (takes_seq (takes_within _ (takes_repeatedly loops))
      (takes_bind (takes_eat rfl) (takes_pure () _)))
  have same : (SourceWord.fixed .lBrace).leaf none ::
      (skeletons ++ [(SourceWord.fixed .rBrace).leaf none]) =
        ((SourceWord.fixed .rBrace).leaf none ::
          (skeletons.reverse ++ [(SourceWord.fixed .lBrace).leaf none])).reverse := by
    simp
  rw [same]
  exact takes_node (by decide) (takes_opened inside)

/-! ### Statements with statements inside -/

theorem takes_deferred
    (taken : (substatement (some .body)).Takes resync enter context
      ⟨words, [SourceWord.keywordLeaf "defer"]⟩ () ⟨rest, inner⟩) :
    deferred.Takes resync enter context ⟨.keyword "defer" :: words, built⟩ ()
      ⟨rest, .branch none .deferStatement inner.reverse :: built⟩ :=
  takes_node (by decide) (takes_seq (takes_bumpKeyword _ _ _) taken)

/-- A loop with a condition that is no declaration. -/
theorem takes_whileLoop {condition : Term}
    (conditioned : expression.TakesTerm resync enter condition words)
    (plain : SourceWord.kindAt words 0 ≠ .colon)
    (taken : (substatement (some .body)).Takes resync enter context
      ⟨words, [condition.skeleton.withField (some .condition), SourceWord.keywordLeaf "while"]⟩ ()
      ⟨rest, inner⟩) :
    whileLoop.Takes resync enter context ⟨.keyword "while" :: (condition.words ++ words), built⟩ ()
      ⟨rest, .branch none .whileStatement inner.reverse :: built⟩ := by
  have unnamed (built : List Skeleton) (view : View)
      (sees : view.Sees context ⟨condition.words ++ words, built⟩) :
      view.isNameBefore .colon = false := by
    rw [View.isNameBefore, View.isAt, sees.kind, sees.kinds 1]
    by_cases named : SourceWord.kindAt (condition.words ++ words) 0 = .ident
    · have continuing : ∀ kind ∈ continuationKinds, kind ≠ .colon := by
        decide
      have noColon : SourceWord.kindAt (condition.words ++ words) 1 ≠ .colon := by
        rcases condition.second_kind words named with known | same
        · exact continuing _ known
        · exact same ▸ plain
      rw [beq_false_of_ne noColon, Bool.and_false]
    · rw [beq_false_of_ne named, Bool.false_and]
  have inside : (do
      bumpKeyword
      onlyIf (·.isNameBefore .colon) conditionName
      expressionAs .condition
      substatement (some .body) : Production Unit).Takes resync enter context
      ⟨.keyword "while" :: (condition.words ++ words), []⟩ () ⟨rest, inner⟩ :=
    takes_seq (takes_bumpKeyword _ _ _) (takes_seq (skips_onlyIf (unnamed _))
      (takes_seq (conditioned.tagged .condition) taken))
  exact takes_node (by decide) inside

def alternatives : Production Unit := do
  substatement (some .consequence)
  if ← eatWord "else" then substatement (some .alternative)

theorem takes_branch {condition : Term}
    (conditioned : expression.TakesTerm resync enter condition (.keyword "then" :: words))
    (taken : alternatives.Takes resync enter context
      ⟨words, [SourceWord.keywordLeaf "then", condition.skeleton.withField (some .condition),
        SourceWord.keywordLeaf "if"]⟩ () ⟨rest, inner⟩) :
    branch.Takes resync enter context
      ⟨.keyword "if" :: (condition.words ++ .keyword "then" :: words), built⟩ ()
      ⟨rest, .branch none .ifStatement inner.reverse :: built⟩ := by
  have significant : NodeKind.ifStatement ≠ .deprecatedDirective := by decide
  have inside : (do discard (eatWord "then"); alternatives : Production Unit).Takes resync enter
      context ⟨.keyword "then" :: words, [condition.skeleton.withField (some .condition),
        SourceWord.keywordLeaf "if"]⟩ () ⟨rest, inner⟩ :=
    takes_seq (takes_discard (takes_eatWord "then")) taken
  have wrapped : branchTail.Takes resync enter context
      ⟨.keyword "then" :: words, [condition.skeleton.withField (some .condition),
        SourceWord.keywordLeaf "if"]⟩ () ⟨rest, [.branch none .ifStatement inner.reverse]⟩ :=
    takes_wrap significant inside
  change Takes resync enter context _ _ () ⟨_, [_] ++ built⟩
  refine takes_marked (takes_seq (takes_bind (takes_check .ident) (takes_bumpKeyword _ _ _)) ?_)
  refine takes_seq (takes_within _ (conditioned _ _)) (takes_seq (takes_tag .condition _ _ _) ?_)
  refine takes_else (fun view sees => ?_) wrapped
  rw [View.isAt, sees.kind]
  rfl

end Production

end JaiSyntax
