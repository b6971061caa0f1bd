import JaiSyntax.Proofs.Progress.Start
/-!
Where the productions of the grammar start. Expressions may start with a type and statements with an
expression; apart from that every production consumes a token before it enters an entry. So the grammar
is steady, and every entry consumes a token.
-/

set_option autoImplicit false

namespace JaiSyntax.Production

section Operands

variable {bound : Nat} {view : View} {α : Type}

/-! ### Entries and small nodes -/

theorem advances_expression (ranked : 1 < bound) : expression.Advances bound view := ranked

theorem advances_type (ranked : 0 < bound) : type.Advances bound view := ranked

@[simp] theorem steady_operand (least : Prec) : (operand least).Steady := trivial

@[simp] theorem steady_expression : expression.Steady := trivial

@[simp] theorem steady_type : type.Steady := trivial

@[simp] theorem steady_expressionAs (field : Field) : (expressionAs field).Steady := by
  simp [expressionAs]

@[simp] theorem steady_typeAs (field : Field) : (typeAs field).Steady := by
  simp [typeAs]

@[simp] theorem steady_expressionsAs (field : Field) : (expressionsAs field).Steady := by
  simp [expressionsAs]

theorem advances_leafNode (kind : NodeKind) (notEnd : view.kind ≠ .eof) :
    (leafNode kind).Advances bound view := by
  simp [leafNode, notEnd]

theorem advances_keywordNode (kind : NodeKind) (notEnd : view.kind ≠ .eof) :
    (keywordNode kind).Advances bound view := by
  simp [keywordNode, notEnd]

@[simp] theorem steady_leafNode (kind : NodeKind) : (leafNode kind).Steady := by
  simp [leafNode]

@[simp] theorem steady_keywordNode (kind : NodeKind) : (keywordNode kind).Steady := by
  simp [keywordNode]

@[simp] theorem steady_identifierNode : identifierNode.Steady := steady_leafNode _

@[simp] theorem starts_settle {after : NodeKind → Prop} (first : NodeKind)
    (others : List NodeKind) (further : ∀ kind, after kind) :
    (settle first others).Starts bound view after := by
  simp only [settle]
  split <;> simp [further]

@[simp] theorem steady_settle (first : NodeKind) (others : List NodeKind) :
    (settle first others).Steady := by
  simp only [settle]
  split <;> simp

/-! ### Literals and arguments -/

theorem advances_stringBody : stringBody.Advances bound view := by
  simp only [stringBody, starts_bind, starts_check, starts_ite, starts_bump]
  refine ⟨fun quote ended => ?_, fun _ => starts_refuse _⟩
  exact absurd ended (View.not_end_of_isAt quote (by decide))

theorem advances_characterLiteral (notEnd : view.kind ≠ .eof) :
    characterLiteral.Advances bound view := by
  simp [characterLiteral, notEnd]

theorem advances_stringLiteral (notEnd : view.kind ≠ .eof) :
    stringLiteral.Advances bound view := by
  simp only [stringLiteral, starts_bind, starts_checkDirective, starts_ite, starts_node]
  exact ⟨fun _ => advances_characterLiteral notEnd, fun _ => advances_stringBody⟩

@[simp] theorem steady_stringBody : stringBody.Steady := by
  have pieces : (asLongAs (fun view => view.isAt .stringContent || view.isAt .escapeSequence)
      bump).Steady := by
    refine steady_asLongAs steady_bump (fun view piece => starts_bump.mpr (fun ended => ?_))
    rw [View.isAt, View.isAt, ended] at piece
    exact absurd piece (by decide)
  simp [stringBody, pieces]

@[simp] theorem steady_characterLiteral : characterLiteral.Steady := by
  simp [characterLiteral]

@[simp] theorem steady_stringLiteral : stringLiteral.Steady := by
  simp [stringLiteral]

@[simp] theorem steady_heredoc : heredoc.Steady := by
  simp [heredoc]

theorem advances_argument {positional : Production Unit} (notEnd : view.kind ≠ .eof)
    (inner : positional.Advances bound view) : (argument positional).Advances bound view := by
  simp [argument, notEnd, inner]

@[simp] theorem steady_argument {positional : Production Unit} (inner : positional.Steady) :
    (argument positional).Steady := by
  simp [argument, inner]

theorem advances_argumentList (positional : Production Unit) :
    (argumentList positional).Advances bound view :=
  starts_andThen (advances_expect (by decide))

theorem steady_argumentList {positional : Production Unit} (inner : positional.Steady)
    (advances : ∀ view, positional.Advances 3 view) : (argumentList positional).Steady := by
  simp only [argumentList, steady_bind, steady_expect, steady_amongArguments, true_and,
    implies_true, and_true]
  refine fun _ => steady_upToSkipping (by simp [inner]) (by decide) (fun view notEnd => ?_)
  exact starts_andThen (advances_argument notEnd (advances view))

@[simp] theorem steady_callArguments : callArguments.Steady :=
  steady_argumentList steady_expression (fun _ => advances_expression (by decide))

theorem advances_callArguments : callArguments.Advances bound view := advances_argumentList _

theorem advances_literalEntry (notEnd : view.kind ≠ .eof) (ranked : 1 < bound) :
    literalEntry.Advances bound view := by
  have identifier : identifierNode.Advances bound view := advances_leafNode _ notEnd
  simp only [literalEntry, starts_bind, starts_look, starts_ite, starts_node]
  exact fun _ _ => ⟨fun _ => starts_of_advances identifier, fun _ => advances_expression ranked⟩

@[simp] theorem steady_literalEntries (close : TokenKind) : (literalEntries close).Steady := by
  refine steady_repeatedly (by simp [literalEntry]) (fun view => idles_look_bind (fun _ _ => ?_))
  rw [View.endsAt_around]
  cases more : view.endsAt close with
  | true => exact rfl
  | false => exact idles_andThen (advances_literalEntry (View.not_end_of_endsAt more) (by decide))

@[simp] theorem steady_structEntries : structEntries.Steady := by
  simp [structEntries]

@[simp] theorem steady_arrayEntries : arrayEntries.Steady := by
  simp [arrayEntries]

/-! ### Statements where they stand -/

@[simp] theorem steady_terminator (kind : NodeKind) : (terminator kind).Steady := by
  unfold terminator
  split <;> simp

/-- A statement is entered unless a semicolon stands in its place. -/
theorem advances_substatement (field : Option Field) (ranked : 2 < bound) :
    (substatement field).Advances bound view :=
  starts_eat (by decide) (fun _ => ranked)

@[simp] theorem steady_substatement (field : Option Field) : (substatement field).Steady := by
  simp only [substatement, steady_bind, steady_eat, true_and]
  intro taken
  cases taken with
  | true => exact steady_pure ()
  | false =>
      refine ⟨steady_enter _, fun _ => ⟨steady_look _, fun kind => ?_⟩⟩
      cases field <;> cases kind <;> simp

/-- A statement in a list consumes a token, even if it fails. -/
theorem advances_listedStatement (notEnd : view.kind ≠ .eof) (ranked : 2 < bound) :
    listedStatement.Advances bound view := by
  refine starts_eat (by decide) (fun _ => ?_)
  exact ⟨advances_substatement none ranked, notEnd⟩

@[simp] theorem steady_listedStatement : listedStatement.Steady := by
  simp [listedStatement]

@[simp] theorem steady_statementList : statementList.Steady :=
  steady_upTo steady_listedStatement
    (fun _ notEnd => advances_listedStatement notEnd (by decide))

theorem advances_block : block.Advances bound view :=
  starts_andThen (advances_expect (by decide))

@[simp] theorem steady_block : block.Steady := by
  simp [block]

@[simp] theorem steady_bodyBlock : bodyBlock.Steady := by
  simp [bodyBlock]

/-! ### Directives and procedures -/

theorem advances_commaAndName {body : Production Unit}
    (more : (view.isAt .comma && view.kindAt 1 == .ident) = true) :
    (bump >>= fun _ => body).Advances bound view := by
  rw [Bool.and_eq_true] at more
  exact starts_andThen (starts_bump.mpr (View.not_end_of_isAt more.1 (by decide)))

@[simp] theorem steady_directiveOptions : directiveOptions.Steady :=
  steady_asLongAs (by simp) (fun _ more => advances_commaAndName more)

@[simp] theorem steady_modifierArguments (name : String) : (modifierArguments name).Steady := by
  simp [modifierArguments]

theorem advances_directiveModifier (notEnd : view.kind ≠ .eof) :
    directiveModifier.Advances bound view := by
  simp [directiveModifier, notEnd]

@[simp] theorem steady_directiveModifier : directiveModifier.Steady := by
  simp [directiveModifier]

theorem steady_directiveModifiers {accepts : View → Bool}
    (token : ∀ view, accepts view = true → view.kind ≠ .eof) :
    (directiveModifiers accepts).Steady := by
  refine steady_look_bind (fun _ => ⟨steady_asLongAs (by simp) (fun view accepted => ?_), by simp⟩)
  exact starts_andThen (advances_directiveModifier (token view accepted))

@[simp] theorem steady_defaultValue : defaultValue.Steady := by
  simp [defaultValue]

theorem advances_parameter (notEnd : view.kind ≠ .eof) : parameter.Advances bound view := by
  refine starts_onlyIf (fun _ _ _ => ?_) (starts_asLongAs (fun _ _ _ => ?_) ?_)
  · simp [notEnd]
  · simp [notEnd]
  · simp [notEnd]

@[simp] theorem steady_parameter : parameter.Steady := by
  have modifiers : (asLongAs (·.isAt .dollar) (bumpTagged .modifier)).Steady := by
    refine steady_asLongAs (by simp) (fun view dollar => ?_)
    exact (starts_bumpTagged _).mpr (View.not_end_of_isAt dollar (by decide))
  simp [parameter, modifiers]

theorem advances_parameterList : parameterList.Advances bound view :=
  starts_andThen (advances_expect (by decide))

@[simp] theorem steady_parameterList : parameterList.Steady := by
  simp only [parameterList, steady_bind, steady_expect, steady_amongArguments, true_and,
    implies_true, and_true]
  refine fun _ => steady_upTo (by simp) (fun view notEnd => ?_)
  simp only [starts_bind, starts_look, starts_ite]
  refine fun _ _ => ⟨fun _ => ?_, fun _ => ?_⟩
  · exact starts_of_advances (advances_parameter notEnd)
  · exact starts_of_advances (advances_type (by decide))

theorem advances_result (notEnd : view.kind ≠ .eof) (ranked : 0 < bound) :
    result.Advances bound view := by
  simp only [result, starts_bind, starts_look, starts_ite, starts_node, starts_bumpTagged]
  exact fun _ _ => ⟨fun _ ended => absurd ended notEnd,
    fun _ => starts_of_advances (advances_type ranked)⟩

@[simp] theorem steady_result : result.Steady := by
  simp [result]

@[simp] theorem steady_results : results.Steady := by
  have listed : (upTo .rParen (do
      result
      commaBefore .rParen)).Steady := by
    refine steady_upTo (by simp) (fun view notEnd => ?_)
    exact starts_andThen (advances_result notEnd (by decide))
  have further : (asLongAs (fun view => !view.context.inArguments && view.isAt .comma) (do
      bump
      result)).Steady := by
    refine steady_asLongAs (by simp) (fun view comma => ?_)
    rw [Bool.and_eq_true] at comma
    exact starts_andThen (starts_bump.mpr (View.not_end_of_isAt comma.2 (by decide)))
  simp [results, listed, further]

theorem advances_procedure : procedure.Advances bound view := by
  simp only [procedure, starts_marked, starts_bind, starts_look]
  exact fun _ _ => starts_of_advances advances_parameterList

@[simp] theorem steady_procedure : procedure.Steady := by
  have modifiers : (directiveModifiers (·.isDirectiveIn procedureDirectives)).Steady :=
    steady_directiveModifiers (fun _ directive =>
      View.not_end_of_kind (View.kind_of_isDirectiveIn directive) (by decide))
  simp [procedure, modifiers]

/-! ### Structs, enums and directives in expressions -/

@[simp] theorem steady_afterDoubleColon {body : Production Unit} (inner : body.Steady) :
    (afterDoubleColon body).Steady := by
  refine steady_look_bind (fun colons => ?_)
  cases colons <;> simp [inner]

@[simp] theorem steady_structTail : structTail.Steady := by
  have modifiers : (directiveModifiers (·.isAt .directive)).Steady :=
    steady_directiveModifiers (fun _ directive => View.not_end_of_isAt directive (by decide))
  simp [structTail, modifiers]

theorem advances_enumMember (notEnd : view.kind ≠ .eof) : enumMember.Advances bound view := by
  simp [enumMember, notEnd]

@[simp] theorem steady_enumMember : enumMember.Steady := by
  simp [enumMember]

@[simp] theorem steady_enumMembers : enumMembers.Steady := by
  refine steady_upToSkipping (by simp) (by decide) (fun view notEnd => ?_)
  simp only [starts_bind, starts_check, starts_ite, starts_guarded]
  exact ⟨fun _ => ⟨advances_enumMember notEnd, notEnd⟩, fun _ => ⟨starts_refuse _, notEnd⟩⟩

theorem advances_enumDirective (notEnd : view.kind ≠ .eof) : enumDirective.Advances bound view := by
  simp only [enumDirective, starts_bind, starts_checkDirective, starts_ite]
  exact ⟨fun _ => advances_leafNode _ notEnd,
    fun _ => starts_of_advances (advances_directiveModifier notEnd)⟩

@[simp] theorem steady_enumDirective : enumDirective.Steady := by
  simp [enumDirective]

@[simp] theorem steady_enumTail : enumTail.Steady := by
  have directives : (asLongAs (·.isAt .directive) enumDirective).Steady :=
    steady_asLongAs steady_enumDirective (fun _ directive =>
      advances_enumDirective (View.not_end_of_isAt directive (by decide)))
  simp [enumTail, directives]

theorem advances_anonymousStruct (notEnd : view.kind ≠ .eof) :
    anonymousStruct.Advances bound view := by
  simp [anonymousStruct, notEnd]

@[simp] theorem steady_anonymousStruct : anonymousStruct.Steady := by
  simp [anonymousStruct]

theorem advances_anonymousEnum (notEnd : view.kind ≠ .eof) :
    anonymousEnum.Advances bound view := by
  simp [anonymousEnum, notEnd]

@[simp] theorem steady_anonymousEnum : anonymousEnum.Steady := by
  simp [anonymousEnum]

theorem advances_introducer (notEnd : view.kind ≠ .eof) : introducer.Advances bound view := by
  simp [introducer, notEnd]

@[simp] theorem steady_introducer : introducer.Steady := by
  simp [introducer]

@[simp] theorem steady_conditionalBranch : conditionalBranch.Steady := by
  have expressions : (upToSkipping .rBrace .semicolon (do
      expression
      onlyIf (fun view => !view.isAt .rBrace) (expect .semicolon))).Steady :=
    steady_upToSkipping (by simp) (by decide)
      (fun _ _ => starts_andThen (advances_expression (by decide)))
  simp [conditionalBranch, expressions]

theorem advances_conditionalExpression (notEnd : view.kind ≠ .eof) :
    conditionalExpression.Advances bound view :=
  starts_andThen (advances_introducer notEnd)

@[simp] theorem steady_conditionalExpression : conditionalExpression.Steady := by
  simp [conditionalExpression]

theorem advances_openOperand {body : Production Unit} (inner : body.Advances bound view) :
    (openOperand body).Advances bound view := inner

theorem advances_closedOperand {body : Production Unit} (inner : body.Advances bound view) :
    (closedOperand body).Advances bound view := inner

@[simp] theorem steady_openOperand (body : Production Unit) :
    (openOperand body).Steady ↔ body.Steady := by
  simp [openOperand]

@[simp] theorem steady_closedOperand (body : Production Unit) :
    (closedOperand body).Steady ↔ body.Steady := by
  simp [closedOperand]

@[simp] theorem steady_compileTimeExpression (kind : NodeKind) :
    (compileTimeExpression kind).Steady := by
  simp [compileTimeExpression]

/-- What a directive starts consumes the directive. -/
theorem advances_directiveExpression (notEnd : view.kind ≠ .eof) :
    directiveExpression.Advances bound view := by
  refine starts_look_bind (fun context last => ?_)
  unfold directiveExpressionNamed
  split
  · exact advances_openOperand (advances_characterLiteral notEnd)
  · simp [openOperand, heredoc, notEnd]
  · simp [compileTimeExpression, notEnd]
  · simp [compileTimeExpression, notEnd]
  · simp [openOperand, typeLiteral, notEnd]
  · simp [openOperand, libraryDirective, notEnd]
  · simp [openOperand, libraryDirective, notEnd]
  · exact advances_closedOperand (advances_conditionalExpression notEnd)
  · simp [closedOperand, codeExpression, notEnd]
  · simp [openOperand, appliedDirective, notEnd]
  · simp [openOperand, appliedDirective, notEnd]
  · simp [openOperand, appliedDirective, notEnd]
  · simp [openOperand, plainDirective, notEnd]

@[simp] theorem steady_directiveExpression : directiveExpression.Steady := by
  refine steady_look_bind (fun name => ?_)
  unfold directiveExpressionNamed
  split <;> simp [typeLiteral, libraryDirective, codeExpression, appliedDirective, plainDirective]

/-! ### Types -/

theorem advances_typeArgument (ranked : 1 < bound) : typeArgument.Advances bound view := by
  refine starts_look_bind (fun context last => ?_)
  split
  · exact advances_type (Nat.lt_of_succ_lt ranked)
  · exact advances_type (Nat.lt_of_succ_lt ranked)
  · exact advances_type (Nat.lt_of_succ_lt ranked)
  · exact advances_type (Nat.lt_of_succ_lt ranked)
  · exact advances_expression ranked

@[simp] theorem steady_typeArgument : typeArgument.Steady := by
  refine steady_look_bind (fun kind => ?_)
  split <;> simp

theorem advances_qualifiedName (notEnd : view.kind ≠ .eof) : qualifiedName.Advances bound view :=
  starts_andThen (advances_leafNode _ notEnd)

@[simp] theorem steady_qualifiedName : qualifiedName.Steady := by
  have members : (asLongAs (fun view => view.isAt .dot && view.kindAt 1 == .ident) (do
      tag .object
      wrap .qualifiedType (do
        bump
        bumpTagged .member))).Steady := by
    refine steady_asLongAs (by simp) (fun view more => ?_)
    rw [Bool.and_eq_true] at more
    have notEnd := View.not_end_of_isAt more.1 (by decide)
    simp [notEnd]
  have arguments : (argumentList typeArgument).Steady :=
    steady_argumentList steady_typeArgument (fun _ => advances_typeArgument (by decide))
  simp [qualifiedName, members, arguments]

theorem advances_typeOf (notEnd : view.kind ≠ .eof) : typeOf.Advances bound view := by
  simp [typeOf, notEnd]

@[simp] theorem steady_typeOf : typeOf.Steady := by
  simp [typeOf]

theorem advances_namedType (notEnd : view.kind ≠ .eof) : namedType.Advances bound view := by
  simp only [namedType, starts_bind, starts_checkWord, starts_look, starts_ite]
  refine ⟨fun _ => advances_anonymousStruct notEnd, fun _ =>
    ⟨fun _ => advances_anonymousEnum notEnd, fun _ _ _ =>
      ⟨fun _ => advances_typeOf notEnd, fun _ =>
        ⟨fun _ => advances_leafNode _ notEnd, fun _ => advances_qualifiedName notEnd⟩⟩⟩⟩

/-- A type starts with a token of its own. -/
theorem advances_typeEntry : typeEntry.Advances bound view := by
  refine starts_look_bind (fun context last => ?_)
  rw [View.kind_around]
  split
  · next name => exact advances_namedType (View.not_end_of_kind name (by decide))
  · next star => simp [prefixedType, star]
  · next bracket => simp [arrayType, bracket]
  · exact advances_procedure
  · next dollar => simp [polymorphicType, dollar]
  · next dots => simp [prefixedType, dots]
  · next directive => exact advances_directiveExpression (View.not_end_of_kind directive (by decide))
  · exact starts_refuse _

@[simp] theorem steady_typeEntry : typeEntry.Steady := by
  refine steady_look_bind (fun kind => ?_)
  split <;> simp [prefixedType, arrayType, polymorphicType, namedType]

/-! ### Operands -/

@[simp] theorem steady_quickBody : quickBody.Steady := by
  simp [quickBody]

theorem advances_quickParameter (notEnd : view.kind ≠ .eof) :
    quickParameter.Advances bound view := by
  simp only [quickParameter, starts_bind, starts_check, starts_look, starts_ite]
  exact fun _ _ => ⟨fun _ => advances_parameter notEnd, fun _ =>
    ⟨fun _ => advances_leafNode _ notEnd, fun _ => starts_refuse _⟩⟩

@[simp] theorem steady_quickProcedure : quickProcedure.Steady := by
  have parameters : (upTo .rParen (do
      quickParameter
      tag .parameters
      commaBefore .rParen)).Steady :=
    steady_upTo (by simp [quickParameter])
      (fun _ notEnd => starts_andThen (advances_quickParameter notEnd))
  simp [quickProcedure, parameters]

theorem advances_parenthesis (notEnd : view.kind ≠ .eof) : parenthesis.Advances bound view := by
  simp only [parenthesis, starts_bind, starts_look, starts_ite]
  refine fun _ _ => ⟨fun _ => ?_, fun _ _ _ => ⟨fun _ => advances_procedure, fun _ => ?_⟩⟩
  · simp [closedOperand, quickProcedure, notEnd]
  · simp [openOperand, parenthesized, notEnd]

@[simp] theorem steady_parenthesis : parenthesis.Steady := by
  simp [parenthesis, parenthesized]

theorem advances_word (notEnd : view.kind ≠ .eof) : word.Advances bound view := by
  have identifier : identifierNode.Advances bound view := advances_leafNode _ notEnd
  have single : singleQuickProcedure.Advances bound view := starts_andThen identifier
  have inlined : inlineCall.Advances bound view := by simp [inlineCall, notEnd]
  simp only [word, starts_bind, starts_checkWord, starts_look, starts_ite]
  refine ⟨fun _ => advances_openOperand (advances_keywordNode _ notEnd), fun _ => ?_⟩
  refine ⟨fun _ => advances_openOperand (advances_keywordNode _ notEnd), fun _ => ?_⟩
  refine ⟨fun _ => advances_closedOperand (advances_anonymousStruct notEnd), fun _ => ?_⟩
  refine ⟨fun _ => advances_closedOperand (advances_anonymousEnum notEnd), fun _ => ?_⟩
  refine ⟨fun _ => advances_closedOperand (advances_conditionalExpression notEnd), fun _ => ?_⟩
  refine fun _ _ => ⟨fun _ => advances_openOperand (advances_typeOf notEnd), fun _ => ?_⟩
  refine fun _ _ => ⟨fun _ => advances_openOperand inlined, fun _ => ?_⟩
  refine ⟨fun _ => starts_refuse _, fun _ => ?_⟩
  refine ⟨fun _ => advances_openOperand (advances_leafNode _ notEnd), fun _ => ?_⟩
  exact fun _ _ => ⟨fun _ => advances_closedOperand single, fun _ => advances_openOperand identifier⟩

@[simp] theorem steady_word : word.Steady := by
  simp [word, inlineCall, singleQuickProcedure]

@[simp] theorem steady_implicitOperand : implicitOperand.Steady := by
  refine steady_look_bind (fun kind => ?_)
  split <;> simp

theorem advances_implicitOperand (notEnd : view.kind ≠ .eof) :
    implicitOperand.Advances bound view := by
  refine starts_look_bind (fun context last => ?_)
  split <;> simp [structEntries, arrayEntries, notEnd]

/-- An operand starts with a token of its own or with a type. -/
theorem advances_primary (ranked : 0 < bound) : primary.Advances bound view := by
  refine starts_look_bind (fun context last => ?_)
  rw [View.kind_around]
  have leaf {kind : TokenKind} (node : NodeKind) (here : view.kind = kind) (token : kind ≠ .eof) :
      (openOperand (leafNode node)).Advances bound view :=
    advances_openOperand (advances_leafNode node (View.not_end_of_kind here token))
  split
  · next name => exact advances_word (View.not_end_of_kind name (by decide))
  · next int => exact leaf _ int (by decide)
  · next float => exact leaf _ float (by decide)
  · next quote => exact advances_stringLiteral (View.not_end_of_kind quote (by decide))
  · next directive => exact advances_directiveExpression (View.not_end_of_kind directive (by decide))
  · next paren => exact advances_parenthesis (View.not_end_of_kind paren (by decide))
  · exact advances_openOperand (advances_type ranked)
  · exact advances_openOperand (advances_type ranked)
  · next dot => exact advances_implicitOperand (View.not_end_of_kind dot (by decide))
  · next dashes => exact leaf _ dashes (by decide)
  · next error => exact leaf _ error (by decide)
  · exact starts_refuse _

@[simp] theorem steady_primary : primary.Steady := by
  refine steady_look_bind (fun kind => ?_)
  split <;> simp

/-! ### Operators -/

/-- A postfix operator has a token of its own. -/
theorem idles_postfixOperator : postfixOperator.Idles view (fun goesOn => goesOn = false) := by
  refine idles_look_bind (fun context last => ?_)
  rw [View.kind_around]
  split
  · refine idles_andThen (starts_settle _ _ (fun kind => (starts_tag _).mpr ?_))
    exact (starts_wrap kind callArguments).mpr advances_callArguments
  · next bracket => exact idles_andThen (by simp [indexOperator, bracket])
  · next dot =>
      refine idles_look_bind (fun context last => ?_)
      split
      · exact idles_andThen (by simp [memberOperator, dot])
      · exact idles_andThen (by simp [dereferenceOperator, times, dot])
      · exact idles_andThen (by simp [typedLiteral, structEntries, dot])
      · exact idles_andThen (by simp [typedLiteral, arrayEntries, dot])
      · exact rfl
  · next star =>
      refine idles_look_bind (fun context last => ?_)
      split
      · exact rfl
      · exact idles_andThen (by simp [dereferenceOperator, times, star])
  · exact rfl

@[simp] theorem steady_postfixOperator : postfixOperator.Steady := by
  refine steady_look_bind (fun kind => ?_)
  split
  · simp [andGoOn, callOperator]
  · simp [andGoOn, indexOperator]
  · refine steady_look_bind (fun next => ?_)
    split <;> simp [andGoOn, memberOperator, dereferenceOperator, typedLiteral]
  · simp [andGoOn, dereferenceOperator]
  · trivial

theorem advances_postfixExpression (ranked : 0 < bound) :
    postfixExpression.Advances bound view :=
  starts_andThen (advances_primary ranked)

@[simp] theorem steady_postfixExpression : postfixExpression.Steady := by
  have operators : (repeatedly postfixOperator).Steady :=
    steady_repeatedly steady_postfixOperator (fun _ => idles_postfixOperator)
  simp [postfixExpression, operators]

@[simp] theorem steady_castModifiers : castModifiers.Steady :=
  steady_asLongAs (by simp) (fun _ more => advances_commaAndName more)

@[simp] theorem steady_unaryExpression : unaryExpression.Steady := by
  refine steady_look_bind (fun kind => ?_)
  split <;> simp [unaryOperator, prefixedOperand, pointerOperator, cast, automaticCast, castValue]

theorem advances_unaryExpression (ranked : 0 < bound) : unaryExpression.Advances bound view := by
  have unary {kind : TokenKind} (here : view.kind = kind) (token : kind ≠ .eof) :
      (openOperand unaryOperator).Advances bound view := by
    have notEnd := View.not_end_of_kind here token
    simp [openOperand, unaryOperator, notEnd]
  refine starts_look_bind (fun context last => ?_)
  rw [View.kind_around]
  split
  · next plus => exact unary plus (by decide)
  · next minus => exact unary minus (by decide)
  · next bang => exact unary bang (by decide)
  · next tilde => exact unary tilde (by decide)
  · next amp => exact unary amp (by decide)
  · next star => simp [openOperand, prefixedOperand, star]
  · next shift => simp [openOperand, pointerOperator, shift]
  · refine starts_look_bind (fun context last => ?_)
    rw [starts_ite]
    refine ⟨fun converts => ?_, fun _ => starts_look_bind (fun context last => ?_)⟩
    · rw [View.isAtCast, Bool.and_eq_true] at converts
      have name : view.kind = .ident := View.kind_of_isWordAt converts.1
      simp [openOperand, cast, name]
    · rw [starts_ite]
      refine ⟨fun converts => ?_, fun _ => advances_postfixExpression ranked⟩
      rw [View.isAtAutomaticCast, Bool.and_eq_true] at converts
      have name : view.kind = .ident := View.kind_of_isWordAt converts.1
      simp [openOperand, automaticCast, name]

theorem not_end_of_operatorAt {least prec : Prec} (found : operatorAt? least view = some prec) :
    view.kind ≠ .eof := by
  intro ended
  rw [operatorAt?, ended] at found
  cases found

/-- A binary operator has a token of its own. -/
theorem idles_binaryOperatorStep (least : Prec) :
    (binaryOperatorStep least).Idles view (fun goesOn => goesOn = false) := by
  refine idles_look_bind (fun context last => ?_)
  rw [View.isAt_around]
  cases dots : view.isAt .dotDot with
  | true =>
      have notEnd := View.not_end_of_isAt dots (by decide)
      simp only [if_true]
      split
      · exact idles_andThen (by simp [rangeOperator, notEnd])
      · exact rfl
  | false =>
      refine idles_look_bind (fun context last => ?_)
      split
      · exact rfl
      · next found =>
          have notEnd : (view.around context last).kind ≠ .eof := not_end_of_operatorAt found
          rw [View.kind_around] at notEnd
          exact idles_andThen (by simp [binaryOperatorOf, notEnd])

@[simp] theorem steady_binaryOperatorStep (least : Prec) : (binaryOperatorStep least).Steady := by
  refine ⟨steady_check _, fun dots => ?_⟩
  cases dots with
  | true => simp [rangeOperator]
  | false =>
      refine steady_look_bind (fun found => ?_)
      cases found <;> simp [andGoOn, binaryOperatorOf]

theorem advances_expressionEntry (least : Prec) (ranked : 0 < bound) :
    (expressionEntry least).Advances bound view :=
  starts_andThen (advances_unaryExpression ranked)

@[simp] theorem steady_expressionEntry (least : Prec) : (expressionEntry least).Steady := by
  have operators : (repeatedly (binaryOperatorStep least)).Steady :=
    steady_repeatedly (steady_binaryOperatorStep least) (fun _ => idles_binaryOperatorStep least)
  simp [expressionEntry, operators]

end Operands

section Statements

variable {bound : Nat} {view : View}

/-! ### Declarations -/

theorem advances_importTail (notEnd : view.kind ≠ .eof) : importTail.Advances bound view := by
  simp [importTail, notEnd]

@[simp] theorem steady_importTail : importTail.Steady := by
  simp [importTail]

theorem steady_afterCommas {body : Production Unit} (inner : body.Steady) :
    (asLongAs (·.isAt .comma) (do
      bump
      body)).Steady :=
  steady_asLongAs (by simp [inner])
    (fun _ comma => starts_andThen (starts_bump.mpr (View.not_end_of_isAt comma (by decide))))

@[simp] theorem steady_procedureModifier : procedureModifier.Steady := by
  simp [procedureModifier]

@[simp] theorem steady_valueDefinition : valueDefinition.Steady := by
  simp [valueDefinition, steady_afterCommas]

@[simp] theorem steady_definition : definition.Steady := by
  simp [definition]

@[simp] theorem steady_declarationTail (isSingle : Bool) : (declarationTail isSingle).Steady := by
  refine steady_look_bind (fun colons => ?_)
  cases colons <;> simp [typedDefinition]

theorem advances_declaration (notEnd : view.kind ≠ .eof) : declaration.Advances bound view := by
  simp [declaration, notEnd]

@[simp] theorem steady_declaration : declaration.Steady := by
  simp [declaration, steady_afterCommas]

theorem advances_operatorDeclaration (notEnd : view.kind ≠ .eof) :
    operatorDeclaration.Advances bound view := by
  simp [operatorDeclaration, notEnd]

@[simp] theorem steady_operatorDeclaration : operatorDeclaration.Steady := by
  simp [operatorDeclaration]

/-! ### Control flow -/

theorem advances_switchCase (notEnd : view.kind ≠ .eof) : switchCase.Advances bound view := by
  simp [switchCase, notEnd]

@[simp] theorem steady_switchCase : switchCase.Steady := by
  have statements : (asLongAs (fun view => !view.isWordAt 0 "case" && !view.endsAt .rBrace)
      listedStatement).Steady := by
    refine steady_asLongAs steady_listedStatement (fun view more => ?_)
    rw [Bool.and_eq_true, Bool.not_eq_true', Bool.not_eq_true'] at more
    exact advances_listedStatement (View.not_end_of_endsAt more.2) (by decide)
  simp [switchCase, statements]

@[simp] theorem steady_switchCases : switchCases.Steady := by
  refine steady_upToSkipping (by simp) (by decide) (fun view notEnd => ?_)
  simp only [starts_bind, starts_checkWord, starts_ite, starts_guarded]
  exact ⟨fun _ => ⟨advances_switchCase notEnd, notEnd⟩, fun _ => ⟨starts_refuse _, notEnd⟩⟩

theorem advances_branch (notEnd : view.kind ≠ .eof) : branch.Advances bound view :=
  starts_andThen (advances_introducer notEnd)

@[simp] theorem steady_branch : branch.Steady := by
  simp [branch, casesTail, branchTail]

@[simp] theorem steady_whileLoop : whileLoop.Steady := by
  simp [whileLoop, conditionName]

@[simp] theorem steady_forLoop : forLoop.Steady := by
  simp [forLoop, loopModifiers, loopNames]

/-! ### Statements -/

theorem advances_assemblyLine : assemblyLine.Advances bound view := by
  simp only [assemblyLine, starts_bind, starts_check, starts_look, starts_ite]
  refine ⟨fun name _ _ => ?_, fun _ => starts_refuse _⟩
  have notEnd := View.not_end_of_isAt name (by decide)
  exact ⟨fun _ => by simp [assemblyDeclaration, notEnd], fun _ => by simp [assemblyInstruction, notEnd]⟩

@[simp] theorem steady_assemblyLine : assemblyLine.Steady := by
  simp [assemblyLine, assemblyDeclaration, assemblyInstruction, assemblyOperand]

@[simp] theorem steady_instructionSets : instructionSets.Steady := by
  refine steady_repeatedly (by simp) (fun view => idles_look_bind (fun _ _ => ?_))
  rw [View.isAt_around]
  cases name : view.isAt .ident with
  | true => exact idles_andThen ((starts_bumpTagged _).mpr (View.not_end_of_isAt name (by decide)))
  | false => exact rfl

@[simp] theorem steady_assembly : assembly.Steady := by
  have lines : (upToSkipping .rBrace .semicolon (guarded assemblyLine)).Steady :=
    steady_upToSkipping (by simp) (by decide)
      (fun _ notEnd => ⟨advances_assemblyLine, notEnd⟩)
  simp [assembly, lines]

theorem advances_expressionStatement (ranked : 1 < bound) :
    expressionStatement.Advances bound view :=
  starts_andThen (advances_expression ranked)

@[simp] theorem steady_furtherTargets : furtherTargets.Steady := by
  refine steady_repeatedly (by simp [andGoOn]) (fun view => ?_)
  exact idles_bind (idles_eat (by decide) rfl)

@[simp] theorem steady_expressionStatement : expressionStatement.Steady := by
  simp [expressionStatement, assignmentTail]

@[simp] theorem steady_usingStatement : usingStatement.Steady := by
  simp [usingStatement, steady_afterCommas]

@[simp] theorem steady_compileTimeStatement (kind : NodeKind) :
    (compileTimeStatement kind).Steady := by
  simp [compileTimeStatement]

@[simp] theorem steady_markedStatement (kind : NodeKind) : (markedStatement kind).Steady := by
  simp [markedStatement]

theorem advances_directiveStatementNamed (name : String) (notEnd : view.kind ≠ .eof)
    (ranked : 1 < bound) : (directiveStatementNamed name).Advances bound view := by
  unfold directiveStatementNamed
  split
  · exact advances_importTail notEnd
  · simp [loadDirective, notEnd]
  · simp [compileTimeStatement, notEnd]
  · simp [compileTimeStatement, notEnd]
  · simp [assertion, notEnd]
  · simp [markedStatement, notEnd]
  · simp [moduleParameters, notEnd]
  · exact advances_leafNode _ notEnd
  · simp [assembly, notEnd]
  · exact advances_branch notEnd
  · split
    · simp [markedStatement, notEnd]
    · split
      · exact advances_expressionStatement ranked
      · simp [otherDirective, notEnd]

@[simp] theorem steady_directiveStatementNamed (name : String) :
    (directiveStatementNamed name).Steady := by
  unfold directiveStatementNamed
  split <;> simp [loadDirective, assertion, moduleParameters, otherDirective]

theorem advances_wordStatement (word : String) (notEnd : view.kind ≠ .eof) (ranked : 1 < bound) :
    (wordStatement word).Advances bound view := by
  unfold wordStatement
  split
  · exact advances_branch notEnd
  · simp [whileLoop, notEnd]
  · simp [forLoop, notEnd]
  · simp [returnJump, notEnd]
  · simp [loopJump, notEnd]
  · simp [loopJump, notEnd]
  · simp [deferred, notEnd]
  · simp [usingStatement, notEnd]
  · simp [removal, notEnd]
  · simp [pushedContext, notEnd]
  · refine starts_look_bind (fun context last => ?_)
    rw [starts_ite]
    exact ⟨fun _ => advances_operatorDeclaration notEnd, fun _ => advances_expressionStatement ranked⟩
  · exact advances_expressionStatement ranked

@[simp] theorem steady_wordStatement (word : String) : (wordStatement word).Steady := by
  unfold wordStatement
  split <;> simp [returnJump, loopJump, deferred, removal, pushedContext]

/-- A statement starts with a token of its own or with an expression. -/
theorem advances_statementEntry (ranked : 1 < bound) : statementEntry.Advances bound view := by
  refine starts_look_bind (fun context last => ?_)
  rw [View.kind_around]
  split
  · exact advances_block
  · next directive =>
      refine starts_look_bind (fun context last => ?_)
      exact advances_directiveStatementNamed _ (View.not_end_of_kind directive (by decide)) ranked
  · next hash => simp [spacedDirective, hash]
  · next name =>
      have notEnd := View.not_end_of_kind name (by decide)
      refine starts_look_bind (fun context last => ?_)
      rw [starts_ite]
      refine ⟨fun _ => advances_declaration notEnd, fun _ => starts_look_bind (fun context last => ?_)⟩
      exact advances_wordStatement _ notEnd ranked
  · exact advances_expressionStatement ranked

@[simp] theorem steady_statementEntry : statementEntry.Steady := by
  refine steady_look_bind (fun kind => ?_)
  split <;> simp [directiveStatement, spacedDirective]

/-! ### Entries -/

/-- What an entry stands for consumes a token, and it first enters entries of lower ranks only. -/
theorem advances_ofEntry (entry : Entry) (view : View) :
    (ofEntry entry).Advances entry.rank view := by
  cases entry with
  | expression least => exact advances_expressionEntry least Nat.one_pos
  | type => exact advances_typeEntry
  | statement => exact advances_statementEntry Nat.one_lt_two

theorem steady_ofEntry (entry : Entry) : (ofEntry entry).Steady := by
  cases entry with
  | expression least => exact steady_expressionEntry least
  | type => exact steady_typeEntry
  | statement => exact steady_statementEntry

theorem steady_sourceFile : sourceFile.Steady := by
  refine steady_asLongAs steady_listedStatement (fun view more => ?_)
  rw [Bool.not_eq_true'] at more
  exact advances_listedStatement (View.not_end_of_isAtEnd more) (by decide)

end Statements

end JaiSyntax.Production
