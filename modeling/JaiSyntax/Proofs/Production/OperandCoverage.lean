import JaiSyntax.Proofs.Production.Coverage
import JaiSyntax.Production.Expression
/-!
Coverage of directives, procedures, types and expressions.
-/

set_option autoImplicit false

namespace JaiSyntax.Production

variable {allowed : NodeKind → Prop} {marked : Bool} {α β : Type} {place : Place}
variable (plain : ∀ kind : NodeKind, kind.isPlain = true → allowed kind)

include plain

/-! ### Directives -/

theorem covers_directiveOptions (covered : place.covered = .tight) :
    directiveOptions.Covers allowed marked place :=
  covers_asLongAs covered (fun _ more =>
    covers_bump_name_bind (View.name_of_comma more) (fun _ =>
      covers_onlyIf rfl (fun _ => covers_callArguments plain)))

theorem covers_modifierArguments (name : String) (covered : place.covered = .tight) :
    (modifierArguments name).Covers allowed marked place := by
  unfold modifierArguments
  split
  · refine covers_bind (covers_onlyIf covered (fun word => ?_)) (fun _ _ => ?_)
    · have notEnd := View.not_end_of_isAt word (by decide)
      exact covers_bind (covers_identifierNode plain notEnd) (fun _ _ => covers_tag rfl _)
    · exact covers_onlyIf rfl (fun _ =>
        covers_bind (covers_stringLiteral plain) (fun _ _ => covers_tag rfl _))
  · split
    · exact covers_bind (covers_operand _) (fun _ _ => covers_tag rfl _)
    · exact covers_pure covered _

theorem covers_directiveModifier (notEnd : place.view.kind ≠ .eof) :
    directiveModifier.Covers allowed marked place := by
  unfold directiveModifier
  rw [covers_look_bind]
  split
  · exact covers_node (plain _ rfl)
      (covers_bind (covers_bump notEnd) (fun _ _ => covers_bodyBlock plain))
  · exact covers_node (plain _ rfl)
      (covers_bind (covers_bump notEnd) (fun _ _ => covers_modifierArguments plain _ rfl))

theorem covers_directiveModifiers {accepts : View → Bool} (covered : place.covered = .tight)
    (directive : ∀ view, accepts view = true → view.kind = .directive) :
    (directiveModifiers accepts).Covers allowed marked place := by
  unfold directiveModifiers
  rw [covers_look_bind]
  refine covers_bind (covers_asLongAs covered (fun view accepted => ?_))
    (fun _ _ => covers_pure rfl _)
  refine covers_bind (covers_directiveModifier plain ?_) (fun _ _ => covers_tag rfl _)
  rw [directive view accepted]
  decide

/-! ### Procedures -/

omit plain in
theorem covers_defaultValue (covered : place.covered = .tight) :
    defaultValue.Covers allowed marked place :=
  covers_eat_bind (by decide) (fun _ => covers_expressionAs _) (covers_pure covered _)

omit plain in
theorem covers_parameterTail (some : place.covered.isSome = true ∨ place.view.kind ≠ .eof) :
    (do
      bumpTagged .name
      expect .colon
      onlyIf (fun view => !view.isAt .eq) (typeAs .type)
      defaultValue : Production Unit).Covers allowed marked place := by
  refine covers_bumpTagged_bind some (fun _ _ => ?_)
  refine covers_bind (covers_expect (by decide)) (fun _ _ => ?_)
  exact covers_bind (covers_onlyIf rfl (fun _ => covers_typeAs _))
    (fun _ _ => covers_defaultValue rfl)

omit plain in
/-- A parameter that starts with neither `using` nor a dollar sign starts with its name. -/
theorem name_of_isAtParameter {view : View} (at_parameter : view.isAtParameter = true)
    (noUsing : view.isWordIn ["using"] = false) (noDollar : view.isAt .dollar = false) :
    view.kind = .ident := by
  have noWord : view.isWordAt 0 "using" = false := by
    simpa [View.isWordIn, View.isAt, View.isWordAt, View.kind, View.text] using noUsing
  have noDollars : view.dollarsFrom 0 = 0 := by
    have first : (view.kindAt 0 == .dollar) = false := noDollar
    simp [View.dollarsFrom, List.range_succ, first]
  have named : (view.kindAt 0 == .ident && view.kindAt 1 == .colon) = true := by
    simpa [View.isAtParameter, noWord, noDollars] using at_parameter
  simp only [Bool.and_eq_true, beq_iff_eq] at named
  exact named.1

theorem covers_parameter (at_parameter : place.view.isAtParameter = true) :
    parameter.Covers allowed marked place := by
  refine covers_node (plain _ rfl) ?_
  refine (orderly_bind _ _).mpr (orderly_onlyIf (fun using_word => ?_) (fun noUsing => ?_))
  · have word := View.kind_of_isWordIn using_word
    refine Covers.orderly (covers_bind (covers_bumpKeyword word) (fun _ _ => covers_tag rfl _))
      (fun _ _ => ?_)
    refine covers_bind (covers_asLongAs rfl (fun _ dollar => ?_))
      (fun _ _ => covers_parameterTail (Or.inl rfl))
    exact covers_bumpTagged (View.not_end_of_isAt dollar (by decide)) _
  · refine (orderly_bind _ _).mpr (orderly_asLongAs (fun view covered dollar => ?_)
      (fun _ => covers_parameterTail (Or.inl rfl)) (fun noDollar => ?_))
    · exact covers_bumpTagged (View.not_end_of_isAt dollar (by decide)) _
    · have word := name_of_isAtParameter at_parameter noUsing noDollar
      exact covers_parameterTail (Or.inr (View.not_end_of_word word))

theorem covers_parameterList : parameterList.Covers allowed marked place := by
  refine covers_bind (covers_expect (by decide)) (fun _ _ => ?_)
  refine covers_bind (covers_amongArguments (fun _ => covers_upTo rfl (fun _ _ => ?_)))
    (fun _ _ => covers_expect (by decide))
  rw [covers_look_bind]
  split
  · next at_parameter =>
      exact covers_bind (covers_parameter plain at_parameter) (fun _ _ =>
        covers_bind (covers_tag rfl _) (fun _ _ => covers_commaBefore _ rfl))
  · exact covers_bind covers_type (fun _ _ =>
      covers_bind (covers_tag rfl _) (fun _ _ => covers_commaBefore _ rfl))

theorem covers_result : result.Covers allowed marked place := by
  unfold result
  rw [covers_look_bind]
  split
  · next named =>
      have notEnd := View.not_end_of_word (View.kind_of_isNameBefore named)
      refine covers_bind (covers_node (plain _ rfl) ?_) (fun _ _ => covers_tag rfl _)
      exact covers_bind (covers_bumpTagged (by exact notEnd) _) (fun _ _ =>
        covers_bump_bind (fun _ =>
          covers_bind (covers_typeAs _) (fun _ _ => covers_defaultValue rfl)))
  · exact covers_bind covers_type (fun _ _ => covers_tag rfl _)

theorem covers_results : results.Covers allowed marked place := by
  unfold results
  rw [covers_look_bind]
  split
  · next named =>
      simp only [Bool.and_eq_true] at named
      have notEnd := View.not_end_of_isAt named.1.1 (by decide)
      refine covers_bind (covers_bump notEnd) (fun _ _ => ?_)
      refine covers_bind (covers_amongArguments (fun _ => covers_upTo rfl (fun _ _ => ?_)))
        (fun _ _ => covers_expect (by decide))
      exact covers_bind (covers_result plain) (fun _ _ => covers_commaBefore _ rfl)
  · refine covers_bind (covers_result plain) (fun _ _ => covers_asLongAs rfl (fun _ _ => ?_))
    exact covers_bump_bind (fun _ => covers_result plain)

theorem covers_procedure : procedure.Covers allowed marked place := by
  refine covers_marked ?_
  rw [covers_look_bind]
  refine covers_bind (covers_parameterList plain) (fun _ _ => ?_)
  have tail : ∀ view : View, Covers allowed (do
      let hasDirectives ← directiveModifiers (·.isDirectiveIn procedureDirectives)
      let hasBody ← look (fun view => !place.view.context.inType && view.isAt .lBrace)
      if hasBody then bodyBlock
      wrap (if !place.view.context.inType && (hasBody || hasDirectives) then
        .procedure else .procedureType) (Pure.pure ())
      Pure.pure (if hasBody then Operand.closed else Operand.isOpen)) true ⟨view, .tight⟩ := by
    intro view
    refine covers_bind (covers_directiveModifiers plain rfl
      (fun _ accepted => View.kind_of_isDirectiveIn accepted)) (fun hasDirectives next => ?_)
    rw [covers_look_bind]
    have closing : ∀ (hasBody : Bool) (reached : View), Covers allowed (do
        wrap (if !place.view.context.inType && (hasBody || hasDirectives) then
          .procedure else .procedureType) (Pure.pure ())
        Pure.pure (if hasBody then Operand.closed else Operand.isOpen)) true ⟨reached, .tight⟩ := by
      intro hasBody reached
      refine covers_bind (covers_wrap ?_ (fun _ => covers_pure rfl _)) (fun _ _ => covers_pure rfl _)
      split <;> exact plain _ rfl
    generalize (!place.view.context.inType && (Place.mk next .tight).view.isAt .lBrace) = hasBody
    cases hasBody with
    | true => exact covers_bind (covers_bodyBlock plain) (fun _ _ => closing true _)
    | false => exact closing false _
  exact covers_eat_bind (by decide)
    (fun _ => covers_bind (covers_results plain) (fun _ view => tail view)) (tail _)

/-! ### Directives in the place of an expression -/

omit plain in
theorem covers_introducer (notEnd : place.view.kind ≠ .eof) :
    introducer.Covers allowed marked place := by
  unfold introducer check
  rw [covers_look_bind]
  split
  · next word => exact covers_bumpKeyword (View.kind_of_isAt word)
  · exact covers_bump notEnd

theorem covers_conditionalBranch : conditionalBranch.Covers allowed marked place := by
  unfold conditionalBranch check
  rw [covers_look_bind]
  split
  · next brace =>
      have notEnd := View.not_end_of_isAt brace (by decide)
      refine covers_node (plain _ rfl) (covers_opened ?_)
      refine covers_bind (covers_bump notEnd) (fun _ _ => ?_)
      refine covers_bind (covers_fresh (fun _ _ => ?_)) (fun _ _ => covers_closeBrace rfl)
      exact covers_upToSkipping (by decide) rfl (fun _ _ _ =>
        covers_bind covers_expression (fun _ _ =>
          covers_onlyIf rfl (fun _ => covers_expect (by decide))))
  · exact covers_expression

theorem covers_conditionalExpression (notEnd : place.view.kind ≠ .eof) :
    conditionalExpression.Covers allowed marked place := by
  refine covers_node (plain _ rfl) ?_
  refine covers_bind (covers_introducer (by exact notEnd)) (fun _ _ => ?_)
  refine covers_bind (covers_expressionAs _) (fun _ _ => ?_)
  refine covers_bind (covers_discard (covers_eatWord _ rfl)) (fun _ _ => ?_)
  refine covers_bind (covers_conditionalBranch plain) (fun _ _ => ?_)
  refine covers_bind (covers_tag rfl _) (fun _ _ => ?_)
  exact covers_eatWord_bind
    (fun _ => covers_bind (covers_conditionalBranch plain) (fun _ _ => covers_tag rfl _))
    (covers_pure rfl _)

theorem covers_compileTimeExpression {kind : NodeKind} (permitted : allowed kind)
    (notEnd : place.view.kind ≠ .eof) :
    (compileTimeExpression kind).Covers allowed marked place := by
  refine covers_node permitted ?_
  refine covers_bind (covers_bump (by exact notEnd)) (fun _ _ => ?_)
  refine covers_bind (covers_directiveOptions plain rfl) (fun _ _ => ?_)
  refine covers_eat_bind (by decide) (fun _ => ?_) ?_
  · exact covers_bind (covers_results plain) (fun _ _ =>
      covers_bind (covers_bodyBlock plain) (fun _ _ => covers_pure rfl _))
  · unfold check
    rw [if_neg Bool.false_ne_true, covers_look_bind]
    split
    · exact covers_bind (covers_bodyBlock plain) (fun _ _ => covers_pure rfl _)
    · exact covers_bind (covers_operand _) (fun _ _ =>
        covers_bind (covers_tag rfl _) (fun _ _ => covers_pure rfl _))

theorem covers_codeExpression (notEnd : place.view.kind ≠ .eof) :
    codeExpression.Covers allowed marked place := by
  refine covers_node (plain _ rfl) ?_
  refine covers_bind (covers_bump (by exact notEnd)) (fun _ _ => ?_)
  refine covers_bind (covers_directiveOptions plain rfl) (fun _ _ => ?_)
  unfold check
  rw [covers_look_bind]
  split
  · exact covers_bodyBlock plain
  · exact covers_expressionAs _

theorem covers_typeLiteral (notEnd : place.view.kind ≠ .eof) :
    typeLiteral.Covers allowed marked place :=
  covers_node (plain _ rfl)
    (covers_bind (covers_bump (by exact notEnd)) (fun _ _ =>
      covers_bind (covers_directiveOptions plain rfl) (fun _ _ => covers_typeAs _)))

theorem covers_libraryDirective (notEnd : place.view.kind ≠ .eof) :
    libraryDirective.Covers allowed marked place :=
  covers_node (plain _ rfl)
    (covers_bind (covers_bump (by exact notEnd)) (fun _ _ =>
      covers_bind (covers_directiveOptions plain rfl) (fun _ _ =>
        covers_bind (covers_stringLiteral plain) (fun _ _ => covers_tag rfl _))))

theorem covers_appliedDirective (notEnd : place.view.kind ≠ .eof) :
    appliedDirective.Covers allowed marked place :=
  covers_node (plain _ rfl)
    (covers_bind (covers_bump (by exact notEnd)) (fun _ _ =>
      covers_bind (covers_operand _) (fun _ _ => covers_tag rfl _)))

theorem covers_plainDirective (notEnd : place.view.kind ≠ .eof) :
    plainDirective.Covers allowed marked place :=
  covers_node (plain _ rfl)
    (covers_bind (covers_bump (by exact notEnd)) (fun _ _ =>
      covers_onlyIf rfl (fun _ => covers_callArguments plain)))

omit plain in
theorem covers_openOperand {body : Production Unit} (inner : body.Covers allowed marked place) :
    (openOperand body).Covers allowed marked place :=
  covers_bind inner (fun _ _ => covers_pure rfl _)

omit plain in
theorem covers_closedOperand {body : Production Unit} (inner : body.Covers allowed marked place) :
    (closedOperand body).Covers allowed marked place :=
  covers_bind inner (fun _ _ => covers_pure rfl _)

theorem covers_directiveExpressionNamed (name : String) (notEnd : place.view.kind ≠ .eof) :
    (directiveExpressionNamed name).Covers allowed marked place := by
  unfold directiveExpressionNamed
  split
  · exact covers_openOperand (covers_characterLiteral plain notEnd)
  · exact covers_openOperand (covers_heredoc plain notEnd)
  · exact covers_compileTimeExpression plain (plain _ rfl) notEnd
  · exact covers_compileTimeExpression plain (plain _ rfl) notEnd
  · exact covers_openOperand (covers_typeLiteral plain notEnd)
  · exact covers_openOperand (covers_libraryDirective plain notEnd)
  · exact covers_openOperand (covers_libraryDirective plain notEnd)
  · exact covers_closedOperand (covers_conditionalExpression plain notEnd)
  · exact covers_closedOperand (covers_codeExpression plain notEnd)
  · exact covers_openOperand (covers_appliedDirective plain notEnd)
  · exact covers_openOperand (covers_appliedDirective plain notEnd)
  · exact covers_openOperand (covers_appliedDirective plain notEnd)
  · split
    · exact covers_openOperand (covers_plainDirective plain notEnd)
    · exact covers_refuse _

theorem covers_directiveExpression (notEnd : place.view.kind ≠ .eof) :
    directiveExpression.Covers allowed marked place := by
  unfold directiveExpression
  rw [covers_look_bind]
  exact covers_directiveExpressionNamed plain _ notEnd

/-! ### Structs and enums -/

omit plain in
theorem covers_afterDoubleColon {body : Production Unit} (covered : place.covered = .tight)
    (inner : ∀ reached, body.Covers allowed marked reached) :
    (afterDoubleColon body).Covers allowed marked place := by
  unfold afterDoubleColon
  rw [covers_look_bind]
  split
  · exact covers_bumps_bind _ inner
  · exact covers_pure covered _

theorem covers_structTail (covered : place.covered = .tight) :
    structTail.Covers allowed marked place := by
  refine covers_bind (covers_onlyIf covered (fun _ => covers_parameterList plain)) (fun _ _ => ?_)
  refine covers_bind (covers_discard (covers_directiveModifiers plain rfl
    (fun _ accepted => View.kind_of_isAt accepted))) (fun _ _ => covers_opened ?_)
  refine covers_bind (covers_expect (by decide)) (fun _ _ => ?_)
  exact covers_bind (covers_fresh (fun _ _ => covers_statementList rfl))
    (fun _ _ => covers_closeBrace rfl)

theorem covers_enumMember (notEnd : place.view.kind ≠ .eof) :
    enumMember.Covers allowed marked place := by
  refine covers_bind (covers_node (plain _ rfl) ?_) (fun _ _ => ?_)
  · exact covers_bind (covers_bumpTagged (by exact notEnd) _) (fun _ _ =>
      covers_afterDoubleColon rfl (fun _ => covers_expressionAs _))
  · exact covers_eat_bind (by decide) (fun _ => covers_pure rfl _)
      (covers_onlyIf rfl (fun _ => covers_report rfl _))

theorem covers_enumMembers (covered : place.covered = .tight) :
    enumMembers.Covers allowed marked place := by
  refine covers_upToSkipping (by decide) covered (fun _ notEnd notSemicolon => ?_)
  unfold check
  rw [covers_look_bind]
  split
  · exact covers_guarded notEnd notSemicolon (covers_enumMember plain notEnd)
  · exact covers_guarded notEnd notSemicolon (covers_refuse _)

theorem covers_enumDirective (notEnd : place.view.kind ≠ .eof) :
    enumDirective.Covers allowed marked place := by
  unfold enumDirective checkDirective
  rw [covers_look_bind]
  split
  · exact covers_leafNode (plain _ rfl) notEnd
  · exact covers_bind (covers_directiveModifier plain notEnd) (fun _ _ => covers_tag rfl _)

theorem covers_enumTail (covered : place.covered = .tight) :
    enumTail.Covers allowed marked place := by
  refine covers_bind (covers_onlyIf covered (fun _ => covers_typeAs _)) (fun _ _ => ?_)
  refine covers_bind (covers_asLongAs rfl (fun _ directive =>
    covers_enumDirective plain (View.not_end_of_isAt directive (by decide))))
    (fun _ _ => covers_opened ?_)
  refine covers_bind (covers_expect (by decide)) (fun _ _ => ?_)
  exact covers_bind (covers_fresh (fun _ _ => covers_enumMembers plain rfl))
    (fun _ _ => covers_closeBrace rfl)

theorem covers_anonymousStruct (word : place.view.kind = .ident) :
    anonymousStruct.Covers allowed marked place :=
  covers_node (plain _ rfl)
    (covers_bind (covers_bumpKeyword word) (fun _ _ => covers_structTail plain rfl))

theorem covers_anonymousEnum (word : place.view.kind = .ident) :
    anonymousEnum.Covers allowed marked place :=
  covers_node (plain _ rfl)
    (covers_bind (covers_bumpKeyword word) (fun _ _ => covers_enumTail plain rfl))

/-! ### Types -/

omit plain in
theorem covers_typeArgument : typeArgument.Covers allowed marked place := by
  unfold typeArgument
  rw [covers_look_bind]
  split
  all_goals first | exact covers_type | exact covers_expression

theorem covers_qualifiedName (notEnd : place.view.kind ≠ .eof) :
    qualifiedName.Covers allowed marked place := by
  refine covers_marked (covers_bind (covers_identifierNode plain (by exact notEnd)) (fun _ _ => ?_))
  refine covers_bind (covers_asLongAs rfl (fun _ more => ?_)) (fun _ _ => ?_)
  · simp only [Bool.and_eq_true, beq_iff_eq] at more
    exact covers_tag_bind rfl (covers_wrap (plain _ rfl) (fun _ =>
      covers_bump_name (by exact more.2) _))
  · exact covers_onlyIf rfl (fun _ =>
      covers_bind (covers_tag rfl _) (fun _ _ => covers_wrap (plain _ rfl) (fun _ =>
        covers_argumentList plain (fun _ => covers_typeArgument))))

theorem covers_typeOf (word : place.view.kind = .ident) :
    typeOf.Covers allowed marked place :=
  covers_node (plain _ rfl)
    (covers_bind (covers_bumpKeyword word) (fun _ _ =>
      covers_bind (covers_expect (by decide)) (fun _ _ =>
        covers_bind (covers_fresh (fun _ _ => covers_expression)) (fun _ _ =>
          covers_bind (covers_tag rfl _) (fun _ _ => covers_expect (by decide))))))

theorem covers_namedType (word : place.view.kind = .ident) :
    namedType.Covers allowed marked place := by
  have notEnd := View.not_end_of_word word
  unfold namedType checkWord
  rw [covers_look_bind]
  split
  · exact covers_anonymousStruct plain word
  · rw [covers_look_bind]
    split
    · exact covers_anonymousEnum plain word
    · rw [covers_look_bind]
      split
      · exact covers_typeOf plain word
      · rw [covers_look_bind]
        split
        · exact covers_leafNode (plain _ rfl) notEnd
        · exact covers_qualifiedName plain notEnd

theorem covers_arrayType (notEnd : place.view.kind ≠ .eof) :
    arrayType.Covers allowed marked place := by
  refine covers_node (plain _ rfl)
    (covers_bind (covers_bump (by exact notEnd)) (fun _ view => ?_))
  have tail : ∀ reached, Covers allowed (do
      expect .rBracket
      onlyIf (·.canStartType) (typeAs .element)) false reached := fun _ =>
    covers_bind (covers_expect (by decide)) (fun _ _ =>
      covers_onlyIf rfl (fun _ => covers_typeAs _))
  unfold check
  rw [covers_look_bind]
  split
  · exact covers_bump_bind tail
  · exact covers_bind (covers_onlyIf rfl (fun _ =>
      covers_bind (covers_fresh (fun _ _ => covers_expression)) (fun _ _ => covers_tag rfl _)))
      (fun _ _ => tail _)

theorem covers_polymorphicType (notEnd : place.view.kind ≠ .eof) :
    polymorphicType.Covers allowed marked place :=
  covers_node (plain _ rfl)
    (covers_bind (covers_bump (by exact notEnd)) (fun _ _ =>
      covers_bind (covers_discard (covers_eat (by decide) rfl)) (fun _ _ =>
        covers_bind (covers_expectName _) (fun _ _ =>
          covers_eat_bind (by decide) (fun _ => covers_typeAs _) (covers_pure rfl _)))))

omit plain in
theorem covers_prefixedType {kind : NodeKind} (permitted : allowed kind)
    (notEnd : place.view.kind ≠ .eof) : (prefixedType kind).Covers allowed marked place :=
  covers_node permitted
    (covers_bind (covers_bump (by exact notEnd)) (fun _ _ => covers_type))

theorem covers_typeEntry : typeEntry.Covers allowed marked place := by
  unfold typeEntry
  rw [covers_look_bind]
  have other : ∀ {kind : TokenKind}, place.view.kind = kind → kind ≠ .eof →
      place.view.kind ≠ .eof := fun same token => same ▸ token
  split
  · next word => exact covers_namedType plain word
  · next star => exact covers_prefixedType (plain _ rfl) (other star (by decide))
  · next bracket => exact covers_arrayType plain (other bracket (by decide))
  · exact covers_discard (covers_procedure plain)
  · next dollar => exact covers_polymorphicType plain (other dollar (by decide))
  · next dots => exact covers_prefixedType (plain _ rfl) (other dots (by decide))
  · next directive =>
      exact covers_discard (covers_directiveExpression plain (other directive (by decide)))
  · exact covers_refuse _

/-! ### Primary expressions -/

theorem covers_quickBody : quickBody.Covers allowed marked place := by
  refine covers_bump_bind (fun _ => ?_)
  unfold check
  rw [covers_look_bind]
  split
  · exact covers_bind (covers_block plain) (fun _ _ => covers_tag rfl _)
  · exact covers_bind covers_expression (fun _ _ => covers_tag rfl _)

theorem covers_quickParameter : quickParameter.Covers allowed marked place := by
  unfold quickParameter check
  rw [covers_look_bind]
  split
  · next at_parameter => exact covers_parameter plain at_parameter
  · rw [covers_look_bind]
    split
    · next name => exact covers_identifierNode plain (View.not_end_of_isAt name (by decide))
    · exact covers_refuse _

theorem covers_quickProcedure (notEnd : place.view.kind ≠ .eof) :
    quickProcedure.Covers allowed marked place := by
  refine covers_node (plain _ rfl)
    (covers_bind (covers_bump (by exact notEnd)) (fun _ _ => ?_))
  refine covers_bind (covers_amongArguments (fun _ => covers_upTo rfl (fun _ _ => ?_))) (fun _ _ => ?_)
  · exact covers_bind (covers_quickParameter plain) (fun _ _ =>
      covers_bind (covers_tag rfl _) (fun _ _ => covers_commaBefore _ rfl))
  · exact covers_bind (covers_expect (by decide)) (fun _ _ => covers_quickBody plain)

theorem covers_singleQuickProcedure (notEnd : place.view.kind ≠ .eof) :
    singleQuickProcedure.Covers allowed marked place :=
  covers_node (plain _ rfl)
    (covers_bind (covers_identifierNode plain (by exact notEnd)) (fun _ _ =>
      covers_bind (covers_tag rfl _) (fun _ _ => covers_quickBody plain)))

theorem covers_parenthesized (notEnd : place.view.kind ≠ .eof) :
    parenthesized.Covers allowed marked place := by
  refine covers_marked (covers_bind (covers_node (plain _ rfl) ?_) (fun _ view => ?_))
  · exact covers_bind (covers_bump (by exact notEnd)) (fun _ _ =>
      covers_bind (covers_fresh (fun _ _ => covers_expression)) (fun _ _ =>
        covers_expect (by decide)))
  · refine covers_onlyIf rfl (fun arrow => ?_)
    have arrowNotEnd := View.not_end_of_isAt arrow (by decide)
    refine (orderly_bind _ _).mpr ⟨rfl, fun _ => covers_wrap (plain _ rfl) (fun _ => ?_)⟩
    exact covers_bind (covers_bump (by exact arrowNotEnd)) (fun _ _ =>
      covers_results plain)

theorem covers_parenthesis (notEnd : place.view.kind ≠ .eof) :
    parenthesis.Covers allowed marked place := by
  unfold parenthesis
  rw [covers_look_bind]
  split
  · exact covers_closedOperand (covers_quickProcedure plain notEnd)
  · rw [covers_look_bind]
    split
    · exact covers_procedure plain
    · exact covers_openOperand (covers_parenthesized plain notEnd)

theorem covers_inlineCall (word : place.view.kind = .ident)
    (name : place.view.kindAt 1 = .ident) : inlineCall.Covers allowed marked place := by
  refine covers_marked ((orderly_bind _ _).mpr ⟨word, fun previous last => ?_⟩)
  have notEnd : (place.view.next previous last).kind ≠ .eof := by
    rw [View.kind_next, name]
    decide
  refine (orderly_bind _ _).mpr ⟨rfl, ?_⟩
  refine covers_bind (covers_identifierNode plain (by exact notEnd)) (fun _ view => ?_)
  unfold check
  rw [covers_look_bind]
  split
  · exact covers_bind (covers_tag rfl _) (fun _ _ =>
      covers_wrap (plain _ rfl) (fun _ => covers_callArguments plain))
  · exact covers_refuse _

theorem covers_implicitOperand :
    implicitOperand.Covers allowed marked place := by
  unfold implicitOperand
  rw [covers_look_bind]
  split
  · next brace => exact covers_node (plain _ rfl) (covers_structEntries plain (by exact brace))
  · next bracket => exact covers_node (plain _ rfl) (covers_arrayEntries plain (by exact bracket))
  · next name => exact covers_node (plain _ rfl) (covers_bump_name (by exact name) _)
  · exact covers_refuse _

theorem covers_word (at_word : place.view.kind = .ident) :
    word.Covers allowed marked place := by
  have notEnd := View.not_end_of_word at_word
  unfold word checkWord
  rw [covers_look_bind]
  split
  · exact covers_openOperand (covers_keywordNode (plain _ rfl) at_word)
  rw [covers_look_bind]
  split
  · exact covers_openOperand (covers_keywordNode (plain _ rfl) at_word)
  rw [covers_look_bind]
  split
  · exact covers_closedOperand (covers_anonymousStruct plain at_word)
  rw [covers_look_bind]
  split
  · exact covers_closedOperand (covers_anonymousEnum plain at_word)
  rw [covers_look_bind]
  split
  · exact covers_closedOperand (covers_conditionalExpression plain notEnd)
  rw [covers_look_bind]
  split
  · exact covers_openOperand (covers_typeOf plain at_word)
  rw [covers_look_bind]
  split
  · next inlining =>
      simp only [Bool.and_eq_true, beq_iff_eq] at inlining
      exact covers_openOperand (covers_inlineCall plain at_word inlining.2)
  rw [covers_look_bind]
  split
  · exact covers_refuse _
  rw [covers_look_bind]
  split
  · exact covers_openOperand (covers_leafNode (plain _ rfl) notEnd)
  rw [covers_look_bind]
  split
  · exact covers_closedOperand (covers_singleQuickProcedure plain notEnd)
  · exact covers_openOperand (covers_identifierNode plain notEnd)

theorem covers_primary : primary.Covers allowed marked place := by
  unfold primary
  rw [covers_look_bind]
  have other : ∀ {kind : TokenKind}, place.view.kind = kind → kind ≠ .eof →
      place.view.kind ≠ .eof := fun same token => same ▸ token
  split
  · next at_word => exact covers_word plain at_word
  · next int => exact covers_openOperand (covers_leafNode (plain _ rfl) (other int (by decide)))
  · next float => exact covers_openOperand (covers_leafNode (plain _ rfl) (other float (by decide)))
  · exact covers_openOperand (covers_stringLiteral plain)
  · next directive => exact covers_directiveExpression plain (other directive (by decide))
  · next paren => exact covers_parenthesis plain (other paren (by decide))
  · exact covers_openOperand covers_type
  · exact covers_openOperand covers_type
  · exact covers_openOperand (covers_implicitOperand plain)
  · next dash => exact covers_openOperand (covers_leafNode (plain _ rfl) (other dash (by decide)))
  · next error => exact covers_openOperand (covers_leafNode (plain _ rfl) (other error (by decide)))
  · exact covers_refuse _

/-! ### Postfix operators -/

theorem covers_callOperator (covered : place.covered = .tight) :
    callOperator.Covers allowed true place := by
  unfold callOperator
  rw [settle_call]
  refine (orderly_bind _ _).mpr ((orderly_pure _).mpr ?_)
  exact covers_bind (covers_tag covered _) (fun _ _ =>
    covers_wrap (plain _ rfl) (fun _ => covers_callArguments plain))

theorem covers_indexOperator (covered : place.covered = .tight) :
    indexOperator.Covers allowed true place := by
  refine covers_bind (covers_tag covered _) (fun _ _ => covers_wrap (plain _ rfl) (fun _ => ?_))
  refine covers_bump_bind (fun _ => ?_)
  refine covers_bind (covers_fresh (fun _ _ => ?_)) (fun _ _ => covers_expect (by decide))
  exact covers_bind (covers_expressionAs _) (fun _ _ =>
    covers_eat_bind (by decide) (fun _ => covers_expressionAs _) (covers_pure rfl _))

theorem covers_memberOperator (covered : place.covered = .tight)
    (name : place.view.kindAt 1 = .ident) : memberOperator.Covers allowed true place :=
  covers_tag_bind covered (covers_wrap (plain _ rfl) (fun _ => covers_bump_name (by exact name) _))

theorem covers_dereferenceOperator (count : Nat) (covered : place.covered = .tight)
    (tokens : ∀ distance < count, place.view.kindAt distance ≠ .eof) :
    (dereferenceOperator count).Covers allowed true place :=
  covers_tag_bind covered (covers_wrap (plain _ rfl) (fun _ =>
    covers_times_bump count covered (by exact tokens)))

omit plain in
theorem covers_typedLiteral {kind : NodeKind} {entries : Production Unit}
    (permitted : allowed kind) (covered : place.covered = .tight)
    (inner : ∀ reached : Place, reached.view.kindAt = place.view.kindAt →
      entries.Covers allowed false reached) :
    (typedLiteral kind entries).Covers allowed true place := by
  refine (orderly_bind _ _).mpr ⟨Coverage.isSome_of_tight covered, fun last => ?_⟩
  exact covers_tag_bind covered (covers_wrap permitted (fun _ => inner _ rfl))

omit plain in
theorem covers_andGoOn {body : Production Unit} (inner : body.Covers allowed marked place) :
    (andGoOn body).Covers allowed marked place :=
  covers_bind inner (fun _ _ => covers_pure rfl _)

theorem covers_dotOperator (covered : place.covered = .tight) (notEnd : place.view.kind ≠ .eof) :
    dotOperator.Covers allowed true place := by
  unfold dotOperator
  rw [covers_look_bind]
  split
  · next name => exact covers_andGoOn (covers_memberOperator plain covered name)
  · next star =>
      refine covers_andGoOn (covers_dereferenceOperator plain 2 covered (fun distance less => ?_))
      match distance with
      | 0 => exact notEnd
      | 1 =>
          rw [star]
          decide
  · next brace =>
      exact covers_andGoOn (covers_typedLiteral (plain _ rfl) covered
        (fun _ same => covers_structEntries plain (by rw [same]; exact brace)))
  · next bracket =>
      exact covers_andGoOn (covers_typedLiteral (plain _ rfl) covered
        (fun _ same => covers_arrayEntries plain (by rw [same]; exact bracket)))
  · exact covers_pure covered _

theorem covers_postfixOperator (covered : place.covered = .tight) :
    postfixOperator.Covers allowed true place := by
  unfold postfixOperator
  rw [covers_look_bind]
  split
  · exact covers_andGoOn (covers_callOperator plain covered)
  · exact covers_andGoOn (covers_indexOperator plain covered)
  · next dot =>
      refine covers_dotOperator plain covered ?_
      rw [dot]
      decide
  · next star =>
      rw [covers_look_bind]
      split
      · exact covers_pure covered _
      · refine covers_andGoOn (covers_dereferenceOperator plain 1 covered (fun distance less => ?_))
        rw [Nat.lt_one_iff.mp less]
        change place.view.kind ≠ .eof
        rw [star]
        decide
  · exact covers_pure covered _

theorem covers_postfixExpression : postfixExpression.Covers allowed marked place := by
  refine covers_marked (covers_bind (covers_primary plain) (fun kind view => ?_))
  cases kind with
  | isOpen =>
      exact covers_bind (covers_repeatedly rfl (fun _ => covers_postfixOperator plain rfl))
        (fun _ _ => covers_pure rfl _)
  | closed => exact covers_pure rfl _

/-! ### Unary and binary operators -/

section Operators

variable (operators : ∀ kind : NodeKind, kind.isOperator = true → allowed kind)

include operators

omit plain in
theorem covers_prefixedOperand (notEnd : place.view.kind ≠ .eof) :
    (prefixedOperand .address).Covers allowed marked place :=
  covers_node (operators _ rfl)
    (covers_bind (covers_bump (by exact notEnd)) (fun _ _ => covers_operand _))

omit plain in
theorem covers_unaryOperator (notEnd : place.view.kind ≠ .eof) :
    unaryOperator.Covers allowed marked place :=
  covers_node (operators _ rfl)
    (covers_bind (covers_bumpTagged (by exact notEnd) _) (fun _ _ =>
      covers_bind (covers_operand _) (fun _ _ => covers_tag rfl _)))

omit plain in
theorem covers_pointerOperator (notEnd : place.view.kind ≠ .eof) :
    pointerOperator.Covers allowed marked place :=
  covers_node (operators _ rfl)
    (covers_bind (covers_bump (by exact notEnd)) (fun _ _ =>
      covers_bind (covers_operand _) (fun _ _ => covers_tag rfl _)))

omit plain operators in
theorem covers_castModifiers (covered : place.covered = .tight) :
    castModifiers.Covers allowed marked place :=
  covers_asLongAs covered (fun _ more => covers_bump_name (View.name_of_comma more) _)

omit plain operators in
theorem covers_castValue : castValue.Covers allowed marked place :=
  covers_bind (covers_operand _) (fun _ _ => covers_tag rfl _)

omit plain in
theorem covers_cast (word : place.view.kind = .ident) : cast.Covers allowed marked place :=
  covers_node (operators _ rfl)
    (covers_bind (covers_bumpKeyword word) (fun _ _ =>
      covers_bind (covers_castModifiers rfl) (fun _ _ =>
        covers_bind (covers_expect (by decide)) (fun _ _ =>
          covers_bind (covers_fresh (fun _ _ => covers_type)) (fun _ _ =>
            covers_bind (covers_tag rfl _) (fun _ _ =>
              covers_bind (covers_expect (by decide)) (fun _ _ => covers_castValue)))))))

omit plain in
theorem covers_automaticCast (word : place.view.kind = .ident) :
    automaticCast.Covers allowed marked place :=
  covers_node (operators _ rfl)
    (covers_bind (covers_bumpKeyword word) (fun _ _ =>
      covers_bind (covers_castModifiers rfl) (fun _ _ => covers_castValue)))

theorem covers_unaryExpression : unaryExpression.Covers allowed marked place := by
  unfold unaryExpression
  rw [covers_look_bind]
  have other : ∀ {kind : TokenKind}, place.view.kind = kind → kind ≠ .eof →
      place.view.kind ≠ .eof := fun same token => same ▸ token
  split
  · next at_kind =>
      exact covers_openOperand (covers_unaryOperator operators (other at_kind (by decide)))
  · next at_kind =>
      exact covers_openOperand (covers_unaryOperator operators (other at_kind (by decide)))
  · next at_kind =>
      exact covers_openOperand (covers_unaryOperator operators (other at_kind (by decide)))
  · next at_kind =>
      exact covers_openOperand (covers_unaryOperator operators (other at_kind (by decide)))
  · next at_kind =>
      exact covers_openOperand (covers_unaryOperator operators (other at_kind (by decide)))
  · next at_kind =>
      exact covers_openOperand (covers_prefixedOperand operators (other at_kind (by decide)))
  · next at_kind =>
      exact covers_openOperand (covers_pointerOperator operators (other at_kind (by decide)))
  · rw [covers_look_bind]
    split
    · next converting =>
        simp only [View.isAtCast, Bool.and_eq_true] at converting
        exact covers_openOperand
          (covers_cast operators (View.kind_of_isWordAt converting.1))
    · rw [covers_look_bind]
      split
      · next converting =>
          simp only [View.isAtAutomaticCast, Bool.and_eq_true] at converting
          exact covers_openOperand
            (covers_automaticCast operators (View.kind_of_isWordAt converting.1))
      · exact covers_postfixExpression plain

omit operators in
theorem covers_rangeOperator (covered : place.covered = .tight) :
    rangeOperator.Covers allowed true place :=
  covers_bind (covers_tag covered _) (fun _ _ => covers_wrap (plain _ rfl) (fun _ =>
    covers_bump_bind (fun _ =>
      covers_bind (covers_operand _) (fun _ _ => covers_tag rfl _))))

omit plain in
theorem covers_binaryOperatorOf (prec : Prec) (covered : place.covered = .tight) :
    (binaryOperatorOf prec).Covers allowed true place :=
  covers_bind (covers_tag covered _) (fun _ _ => covers_wrap (operators _ rfl) (fun _ =>
    covers_bumpTagged_bind (Or.inl rfl) (fun _ _ =>
      covers_bind (covers_operand _) (fun _ _ => covers_tag rfl _))))

theorem covers_binaryOperatorStep (least : Prec) (covered : place.covered = .tight) :
    (binaryOperatorStep least).Covers allowed true place := by
  unfold binaryOperatorStep check
  rw [covers_look_bind]
  split
  · split
    · exact covers_bind (covers_rangeOperator plain covered) (fun _ _ => covers_pure rfl _)
    · exact covers_pure covered _
  · rw [covers_look_bind]
    split
    · exact covers_pure covered _
    · exact covers_andGoOn (covers_binaryOperatorOf operators _ covered)

theorem covers_expressionEntry (least : Prec) :
    (expressionEntry least).Covers allowed marked place := by
  refine covers_marked (covers_bind (covers_unaryExpression plain operators) (fun kind view => ?_))
  cases kind with
  | isOpen =>
      exact covers_repeatedly rfl (fun _ => covers_binaryOperatorStep plain operators least rfl)
  | closed => exact covers_pure rfl _

end Operators

end JaiSyntax.Production
