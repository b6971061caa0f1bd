import JaiSyntax.Proofs.Production.OperandCoverage
import JaiSyntax.Production.Statement
/-!
Coverage of declarations, control flow and statements, and of what every entry stands for.
-/

set_option autoImplicit false

namespace JaiSyntax.Production

variable {allowed : NodeKind → Prop} {marked : Bool} {α β : Type} {place : Place}
variable (plain : ∀ kind : NodeKind, kind.isPlain = true → allowed kind)

include plain

/-! ### Assembly -/

theorem covers_assemblyDeclaration (notEnd : place.view.kind ≠ .eof) :
    assemblyDeclaration.Covers allowed marked place :=
  covers_node (plain _ rfl)
    (covers_bind (covers_bumpTagged (by exact notEnd) _) (fun _ _ =>
      covers_bump_bind (fun _ =>
        covers_bind (covers_expectName _) (fun _ _ =>
          covers_eat_bind (by decide) (fun _ => covers_expectName _) (covers_pure rfl _)))))

theorem covers_assemblyOperand : assemblyOperand.Covers allowed marked place := by
  unfold assemblyOperand check
  rw [covers_look_bind]
  split
  · next bracket =>
      have notEnd := View.not_end_of_isAt bracket (by decide)
      refine covers_bind (covers_node (plain _ rfl) ?_) (fun _ _ => covers_tag rfl _)
      exact covers_bind (covers_bump (by exact notEnd)) (fun _ _ =>
        covers_bind covers_expression (fun _ _ => covers_expect (by decide)))
  · exact covers_bind covers_expression (fun _ _ => covers_tag rfl _)

theorem covers_assemblyInstruction (notEnd : place.view.kind ≠ .eof) :
    assemblyInstruction.Covers allowed marked place :=
  covers_node (plain _ rfl)
    (covers_bind (covers_bumpTagged (by exact notEnd) _) (fun _ _ =>
      covers_bind (covers_onlyIf rfl (fun sized => by
        simp only [Bool.and_eq_true, beq_iff_eq] at sized
        exact covers_bump_name sized.2 _))
        (fun _ _ => covers_onlyIf rfl (fun _ =>
          covers_commaSeparated (covers_assemblyOperand plain)
            (fun _ => covers_assemblyOperand plain)))))

theorem covers_assemblyLine : assemblyLine.Covers allowed marked place := by
  have ending : ∀ view : View, Covers allowed (do
      unless ← eat .semicolon do
        onlyIf (fun view => !view.isAt .rBrace) (act (.report .missingAfterAssemblyLine)))
      marked ⟨view, .tight⟩ := fun _ =>
    covers_eat_bind (by decide) (fun _ => covers_pure rfl _)
      (covers_onlyIf rfl (fun _ => covers_report rfl _))
  unfold assemblyLine check
  rw [covers_look_bind]
  split
  · next name =>
      have notEnd := View.not_end_of_isAt name (by decide)
      rw [covers_look_bind]
      split
      · exact covers_bind (covers_assemblyDeclaration plain notEnd) (fun _ _ => ending _)
      · exact covers_bind (covers_assemblyInstruction plain notEnd) (fun _ _ => ending _)
  · exact covers_refuse_bind _ _

omit plain in
theorem covers_instructionSets (covered : place.covered = .tight) :
    instructionSets.Covers allowed marked place := by
  refine covers_repeatedly covered (fun view => ?_)
  unfold check
  rw [covers_look_bind]
  split
  · next name =>
      exact covers_bind (covers_bumpTagged (View.not_end_of_isAt name (by decide)) _)
        (fun _ _ => covers_eat (by decide) rfl)
  · exact covers_pure rfl _

theorem covers_assembly (notEnd : place.view.kind ≠ .eof) :
    assembly.Covers allowed marked place := by
  refine covers_node (plain _ rfl)
    (covers_bind (covers_bump (by exact notEnd)) (fun _ _ => ?_))
  refine covers_bind (covers_instructionSets rfl) (fun _ _ => covers_opened ?_)
  refine covers_bind (covers_expect (by decide)) (fun _ _ => ?_)
  refine covers_bind (covers_fresh (fun _ _ => ?_)) (fun _ _ => covers_closeBrace rfl)
  exact covers_upToSkipping (by decide) rfl (fun _ notEnd notSemicolon =>
    covers_guarded notEnd notSemicolon (covers_assemblyLine plain))

/-! ### Control flow -/

theorem covers_switchCase (word : place.view.kind = .ident) :
    switchCase.Covers allowed marked place := by
  refine covers_node (plain _ rfl) (covers_bind (covers_bumpKeyword word) (fun _ _ => ?_))
  refine covers_bind (covers_onlyIf rfl (fun _ => covers_expressionAs _)) (fun _ _ => ?_)
  exact covers_bind (covers_expect (by decide)) (fun _ _ =>
    covers_asLongAs rfl (fun view more => covers_listedStatement (by
      simp only [View.endsAt, View.isAtEnd, Bool.and_eq_true, Bool.not_eq_true',
        Bool.or_eq_false_iff] at more
      exact beq_eq_false_iff_ne.mp more.2.2)))

theorem covers_switchCases (covered : place.covered = .tight) :
    switchCases.Covers allowed marked place := by
  refine covers_upToSkipping (by decide) covered (fun _ notEnd notSemicolon => ?_)
  unfold checkWord
  rw [covers_look_bind]
  split
  · next at_case =>
      exact covers_guarded notEnd notSemicolon
        (covers_switchCase plain (View.kind_of_isWordIn at_case))
  · exact covers_guarded notEnd notSemicolon (covers_refuse _)

theorem covers_casesTail (brace : place.view.kindAt 1 = .lBrace) :
    casesTail.Covers allowed true place := by
  refine covers_wrap (plain _ rfl) (fun _ => (orderly_bind _ _).mpr (fun _ _ => covers_opened ?_))
  refine covers_bind (covers_bump ?_) (fun _ _ => ?_)
  · rw [View.kind_next, View.kindAt_withLast, brace]
    decide
  · exact covers_bind (covers_fresh (fun _ _ => covers_switchCases plain rfl))
      (fun _ _ => covers_closeBrace rfl)

theorem covers_branchTail (covered : place.covered = .tight) :
    branchTail.Covers allowed true place :=
  covers_wrap (plain _ rfl) (fun _ =>
    covers_bind (covers_discard (covers_eatWord _ covered)) (fun _ _ =>
      covers_bind (covers_substatement _) (fun _ _ =>
        covers_eatWord_bind (fun _ => covers_substatement (some .alternative))
          (covers_pure rfl _))))

theorem covers_branch (notEnd : place.view.kind ≠ .eof) :
    branch.Covers allowed marked place := by
  refine covers_marked (covers_bind (covers_introducer (by exact notEnd))
    (fun _ _ => ?_))
  refine covers_bind (covers_within covers_expression) (fun _ _ => ?_)
  refine covers_bind (covers_tag rfl _) (fun _ _ => ?_)
  rw [covers_look_bind]
  split
  · next cases =>
      simp only [Bool.and_eq_true, beq_iff_eq] at cases
      exact covers_casesTail plain cases.2
  · exact covers_branchTail plain rfl

omit plain in
theorem covers_conditionName (covered : place.covered = .tight) :
    conditionName.Covers allowed marked place :=
  covers_bumpTagged_bind (Or.inl (Coverage.isSome_of_tight covered)) (fun _ _ =>
    covers_bump_bind (fun _ =>
      covers_onlyIf_bind (fun _ => covers_typeAs _) (fun _ => covers_expect (by decide))))

theorem covers_whileLoop (word : place.view.kind = .ident) :
    whileLoop.Covers allowed marked place :=
  covers_node (plain _ rfl)
    (covers_bind (covers_bumpKeyword word) (fun _ _ =>
      covers_bind (covers_onlyIf rfl (fun _ => covers_conditionName rfl)) (fun _ _ =>
        covers_bind (covers_expressionAs _) (fun _ _ => covers_substatement _))))

omit plain in
theorem covers_loopModifiers (covered : place.covered = .tight) :
    loopModifiers.Covers allowed marked place :=
  covers_bind (covers_onlyIf covered (fun directive =>
      covers_bumpTagged (by rw [View.kind_of_isDirectiveIn directive]; decide) _))
    (fun _ _ => covers_bind (covers_onlyIf rfl (fun less =>
        covers_bumpTagged (View.not_end_of_isAt less (by decide)) _))
      (fun _ _ => covers_onlyIf rfl (fun star =>
        covers_bumpTagged (View.not_end_of_isAt star (by decide)) _)))

omit plain in
theorem covers_loopNames (covered : place.covered = .tight) :
    loopNames.Covers allowed marked place := by
  refine (orderly_bind _ _).mpr ((orderly_bind _ _).mpr ?_)
  refine orderly_bumpTagged (Or.inl (Coverage.isSome_of_tight covered)) (fun _ _ => ?_)
  have some := Place.isSome_bumped (Or.inl (Coverage.isSome_of_tight covered))
  -- A name may be missing behind a comma, so a round keeps no more than that something was read.
  refine (orderly_repeatedly _).mpr (orderly_eat_bind (by decide) (fun view => ?_) (fun _ => ?_))
  · refine (orderly_bind _ _).mpr (orderly_bumpTagged (Or.inl rfl) (fun _ _ => ?_))
    refine ⟨.loose, Coverage.loose_le (Place.isSome_bumped (Or.inl rfl)), fun view => ?_,
      fun _ => covers_expect (by decide)⟩
    refine orderly_eat_bind (by decide) (fun view => ?_)
      (fun _ => (orderly_pure false).mpr (Coverage.le_refl _))
    exact (orderly_bind _ _).mpr (orderly_bumpTagged (Or.inl rfl) (fun _ _ =>
      (orderly_pure true).mpr (Coverage.loose_le (Place.isSome_bumped (Or.inl rfl)))))
  · exact (orderly_pure false).mpr (covers_expect (by decide))

theorem covers_forLoop (word : place.view.kind = .ident) :
    forLoop.Covers allowed marked place :=
  covers_node (plain _ rfl)
    (covers_bind (covers_bumpKeyword word) (fun _ _ =>
      covers_bind (covers_loopModifiers rfl) (fun _ _ =>
        covers_bind (covers_onlyIf rfl (fun _ => covers_loopNames rfl)) (fun _ _ =>
          covers_bind covers_expression (fun _ _ => covers_substatement _)))))

theorem covers_returnJump (word : place.view.kind = .ident) :
    returnJump.Covers allowed marked place :=
  covers_node (plain _ rfl)
    (covers_bind (covers_bumpKeyword word) (fun _ _ =>
      covers_onlyIf rfl (fun _ => covers_expressionsAs _)))

theorem covers_loopJump {kind : NodeKind} (permitted : kind.isPlain = true)
    (word : place.view.kind = .ident) : (loopJump kind).Covers allowed marked place :=
  covers_node (plain _ permitted)
    (covers_bind (covers_bumpKeyword word) (fun _ _ =>
      covers_onlyIf rfl (fun label =>
        covers_bumpTagged (View.not_end_of_isAt label (by decide)) _)))

theorem covers_deferred (word : place.view.kind = .ident) :
    deferred.Covers allowed marked place :=
  covers_node (plain _ rfl)
    (covers_bind (covers_bumpKeyword word) (fun _ _ => covers_substatement _))

theorem covers_removal (word : place.view.kind = .ident) :
    removal.Covers allowed marked place :=
  covers_node (plain _ rfl)
    (covers_bind (covers_bumpKeyword word) (fun _ _ =>
      covers_onlyIf rfl (fun _ => covers_expressionAs _)))

theorem covers_pushedContext (word : place.view.kind = .ident) :
    pushedContext.Covers allowed marked place :=
  covers_node (plain _ rfl)
    (covers_bind (covers_bumpKeyword word) (fun _ _ =>
      covers_bind (covers_expressionAs _) (fun _ _ => covers_bodyBlock plain)))

/-! ### Declarations -/

theorem covers_importTail (notEnd : place.view.kind ≠ .eof) :
    importTail.Covers allowed marked place :=
  covers_bind (covers_bump notEnd) (fun _ _ =>
    covers_bind (covers_directiveOptions plain rfl) (fun _ _ =>
      covers_bind (covers_stringLiteral plain) (fun _ _ =>
        covers_bind (covers_tag rfl _) (fun _ _ =>
          covers_onlyIf rfl (fun _ => covers_callArguments plain)))))

omit plain in
/-- A modifier may be missing, so nothing is known behind it. -/
theorem orderly_procedureModifier {after : Unit → Place → Prop}
    (further : ∀ reached, after () reached) :
    procedureModifier.Orderly allowed marked after place := by
  refine orderly_onlyIf (fun modifier => ?_) (fun _ => further place)
  simp only [Bool.and_eq_true] at modifier
  exact Covers.orderly (covers_bind (covers_bumpKeyword (View.kind_of_isWordIn modifier.1))
    (fun _ _ => covers_tag rfl _)) (fun _ _ => further _)

/-- What holds after a part of a declaration: something was read, and the kind is an allowed one. -/
def Declared (allowed : NodeKind → Prop) (kind : NodeKind) (reached : Place) : Prop :=
  reached.covered = .tight ∧ allowed kind

theorem orderly_valueDefinition :
    valueDefinition.Orderly allowed marked (Declared allowed) place := by
  refine (orderly_bind _ _).mpr (orderly_procedureModifier (fun _ => ?_))
  refine (orderly_bind _ _).mpr (Covers.orderly covers_expression (fun _ _ => ?_))
  refine (orderly_bind _ _).mpr ((orderly_look _).mpr ?_)
  split
  · exact (orderly_pure _).mpr ⟨rfl, plain _ rfl⟩
  · refine (orderly_bind _ _).mpr (Covers.orderly (covers_tag rfl _) (fun _ _ => ?_))
    refine (orderly_bind _ _).mpr (Covers.orderly (covers_asLongAs rfl (fun _ _ => ?_))
      (fun _ _ => (orderly_pure _).mpr ⟨rfl, plain _ rfl⟩))
    exact covers_bump_bind (fun _ => covers_expressionAs _)

theorem orderly_definition :
    definition.Orderly allowed marked (Declared allowed) place := by
  unfold definition checkWord checkDirective
  refine (orderly_bind _ _).mpr ((orderly_look _).mpr ?_)
  split
  · next at_struct =>
      have word := View.kind_of_isWordIn at_struct
      rw [settle_struct]
      refine (orderly_bind _ _).mpr ((orderly_pure _).mpr ?_)
      refine (orderly_bind _ _).mpr (Covers.orderly (covers_bumpKeyword word) (fun _ _ => ?_))
      exact (orderly_bind _ _).mpr (Covers.orderly (covers_structTail plain rfl)
        (fun _ _ => (orderly_pure _).mpr ⟨rfl, plain _ rfl⟩))
  refine (orderly_bind _ _).mpr ((orderly_look _).mpr ?_)
  split
  · next at_enum =>
      have word := View.kind_of_isWordIn at_enum
      rw [settle_enum]
      refine (orderly_bind _ _).mpr ((orderly_pure _).mpr ?_)
      refine (orderly_bind _ _).mpr (Covers.orderly (covers_bumpKeyword word) (fun _ _ => ?_))
      exact (orderly_bind _ _).mpr (Covers.orderly (covers_enumTail plain rfl)
        (fun _ _ => (orderly_pure _).mpr ⟨rfl, plain _ rfl⟩))
  refine (orderly_bind _ _).mpr ((orderly_look _).mpr ?_)
  split
  · next directive =>
      have notEnd : place.view.kind ≠ .eof := by
        rw [View.kind_of_isDirectiveIn directive]
        decide
      exact (orderly_bind _ _).mpr (Covers.orderly (covers_importTail plain notEnd)
        (fun _ _ => (orderly_pure _).mpr ⟨rfl, plain _ rfl⟩))
  · exact orderly_valueDefinition plain

theorem orderly_typedDefinition (covered : place.covered = .tight) :
    typedDefinition.Orderly allowed marked (Declared allowed) place := by
  refine (orderly_bind _ _).mpr
    (Covers.orderly (covers_onlyIf covered (fun _ => covers_typeAs _)) (fun _ _ => ?_))
  refine orderly_eat_bind (by decide) (fun _ => ?_) (fun _ => ?_)
  · exact (orderly_bind _ _).mpr (Covers.orderly (covers_expressionsAs _)
      (fun _ _ => (orderly_pure _).mpr ⟨rfl, plain _ rfl⟩))
  · refine orderly_eat_bind (by decide) (fun _ => ?_) (fun _ => ?_)
    · exact (orderly_bind _ _).mpr (Covers.orderly (covers_expressionsAs _)
        (fun _ _ => (orderly_pure _).mpr ⟨rfl, plain _ rfl⟩))
    · exact (orderly_pure _).mpr ⟨rfl, plain _ rfl⟩

theorem orderly_declarationTail (isSingle : Bool) :
    (declarationTail isSingle).Orderly allowed marked (Declared allowed) place := by
  unfold declarationTail
  refine (orderly_bind _ _).mpr ((orderly_look _).mpr ?_)
  split
  · refine (orderly_bind _ _).mpr ((orderly_bumps _).weaken (fun _ reached _ => ?_))
    cases isSingle with
    | true => exact orderly_definition plain
    | false =>
        exact (orderly_bind _ _).mpr (Covers.orderly (covers_expressionsAs _)
          (fun _ _ => (orderly_pure _).mpr ⟨rfl, plain _ rfl⟩))
  · exact (orderly_bind _ _).mpr (Covers.orderly (covers_expect (by decide))
      (fun _ _ => orderly_typedDefinition plain rfl))

theorem covers_declaration (notEnd : place.view.kind ≠ .eof) :
    declaration.Covers allowed marked place := by
  refine covers_marked (covers_bind (covers_bumpTagged (by exact notEnd) _) (fun _ view => ?_))
  rw [covers_look_bind]
  refine covers_bind (covers_asLongAs rfl (fun _ _ => ?_)) (fun _ _ => ?_)
  · exact covers_bump_bind (fun _ => covers_expectName _)
  · refine (orderly_bind _ _).mpr ((orderly_declarationTail plain _).weaken ?_)
    rintro kind ⟨reached, covered⟩ ⟨same, permitted⟩
    cases same
    exact covers_wrap permitted (fun _ => covers_pure rfl _)

theorem covers_operatorDeclaration (word : place.view.kind = .ident) :
    operatorDeclaration.Covers allowed marked place := by
  refine covers_node (plain _ rfl) (covers_bind (covers_bumpKeyword word) (fun _ view => ?_))
  rw [covers_look_bind]
  have names : ∀ count, (times count (bumpTagged .operator)).Orderly allowed false
      (fun _ reached => reached.covered.isSome = true) ⟨view, .tight⟩ := fun count =>
    orderly_times count rfl
      (fun _ some => orderly_bumpTagged (Or.inl some) (fun _ _ => Place.isSome_bumped (Or.inl some)))
  refine (orderly_bind _ _).mpr ((names _).weaken (fun _ reached _ => ?_))
  refine (orderly_bind _ _).mpr ((orderly_look _).mpr ?_)
  refine covers_bumps_bind _ (fun _ => ?_)
  exact (orderly_bind _ _).mpr (orderly_procedureModifier (fun _ => covers_expression))

/-! ### Statements -/

omit plain in
theorem covers_furtherTargets (covered : place.covered = .tight) :
    furtherTargets.Covers allowed marked place := by
  refine covers_repeatedly covered (fun view => ?_)
  refine covers_eat_bind (by decide) (fun next => ?_) (covers_pure rfl _)
  unfold check
  rw [if_pos rfl, covers_look_bind]
  split
  · exact covers_pure rfl _
  · exact covers_andGoOn (covers_expressionAs _)

omit plain in
theorem covers_assignmentTail {kind : NodeKind} (permitted : allowed kind)
    (covered : place.covered = .tight) : (assignmentTail kind).Covers allowed true place :=
  covers_wrap permitted (fun _ =>
    covers_bumpTagged_bind (Or.inl (Coverage.isSome_of_tight covered))
      (fun _ _ => covers_expressionsAs _))

theorem covers_expressionStatement : expressionStatement.Covers allowed marked place := by
  refine covers_marked (covers_bind covers_expression (fun _ view => ?_))
  rw [covers_look_bind]
  split
  · refine covers_bind (covers_tag rfl _) (fun _ _ => ?_)
    refine covers_bind (covers_furtherTargets rfl) (fun _ _ => ?_)
    unfold check
    rw [covers_look_bind]
    split
    · exact covers_assignmentTail (plain _ rfl) rfl
    · rw [covers_look_bind]
      split
      · exact covers_assignmentTail (plain _ rfl) rfl
      · exact covers_refuse _
  · exact covers_pure rfl _

theorem covers_usingStatement (word : place.view.kind = .ident) :
    usingStatement.Covers allowed marked place := by
  refine covers_node (plain _ rfl) (covers_bind (covers_bumpKeyword word) (fun _ _ => ?_))
  refine covers_bind (covers_tag rfl _) (fun _ _ => ?_)
  refine covers_bind (covers_asLongAs rfl (fun _ _ => ?_)) (fun _ _ => covers_substatement _)
  refine covers_bump_bind (fun _ => ?_)
  exact covers_bind (covers_discard (covers_postfixExpression plain)) (fun _ _ =>
    covers_tag rfl _)

theorem covers_compileTimeStatement {kind : NodeKind} (permitted : allowed kind)
    (notEnd : place.view.kind ≠ .eof) :
    (compileTimeStatement kind).Covers allowed marked place := by
  refine covers_node permitted
    (covers_bind (covers_bump (by exact notEnd)) (fun _ _ => ?_))
  refine covers_bind (covers_directiveOptions plain rfl) (fun _ _ => ?_)
  exact covers_eat_bind (by decide)
    (fun _ => covers_bind (covers_results plain) (fun _ _ => covers_bodyBlock plain))
    (covers_substatement none)

theorem covers_loadDirective (notEnd : place.view.kind ≠ .eof) :
    loadDirective.Covers allowed marked place :=
  covers_node (plain _ rfl)
    (covers_bind (covers_bump (by exact notEnd)) (fun _ _ =>
      covers_bind (covers_stringLiteral plain) (fun _ _ => covers_tag rfl _)))

theorem covers_assertion (notEnd : place.view.kind ≠ .eof) :
    assertion.Covers allowed marked place :=
  covers_node (plain _ rfl)
    (covers_bind (covers_bump (by exact notEnd)) (fun _ _ =>
      covers_bind (covers_expressionAs _) (fun _ _ =>
        covers_eat_bind (by decide) (fun _ => covers_expressionAs _) (covers_pure rfl _))))

theorem covers_moduleParameters (notEnd : place.view.kind ≠ .eof) :
    moduleParameters.Covers allowed marked place :=
  covers_node (plain _ rfl)
    (covers_bind (covers_bump (by exact notEnd)) (fun _ _ =>
      covers_bind (covers_parameterList plain) (fun _ _ =>
        covers_onlyIf rfl (fun _ => covers_parameterList plain))))

omit plain in
theorem covers_markedStatement {kind : NodeKind} (permitted : allowed kind)
    (notEnd : place.view.kind ≠ .eof) :
    (markedStatement kind).Covers allowed marked place :=
  covers_node permitted
    (covers_bind (covers_bump (by exact notEnd)) (fun _ _ => covers_substatement _))

theorem covers_otherDirective (notEnd : place.view.kind ≠ .eof) :
    otherDirective.Covers allowed marked place :=
  covers_node (plain _ rfl)
    (covers_bind (covers_bump (by exact notEnd)) (fun _ _ =>
      covers_onlyIf rfl (fun _ => covers_callArguments plain)))

theorem covers_directiveStatementNamed (name : String) (notEnd : place.view.kind ≠ .eof) :
    (directiveStatementNamed name).Covers allowed marked place := by
  unfold directiveStatementNamed
  split
  · exact covers_node (plain _ rfl) (covers_importTail plain (by exact notEnd))
  · exact covers_loadDirective plain notEnd
  · exact covers_compileTimeStatement plain (plain _ rfl) notEnd
  · exact covers_compileTimeStatement plain (plain _ rfl) notEnd
  · exact covers_assertion plain notEnd
  · exact covers_markedStatement (plain _ rfl) notEnd
  · exact covers_moduleParameters plain notEnd
  · exact covers_leafNode (plain _ rfl) notEnd
  · exact covers_assembly plain notEnd
  · exact covers_branch plain notEnd
  · split
    · exact covers_markedStatement (plain _ rfl) notEnd
    · split
      · exact covers_expressionStatement plain
      · exact covers_otherDirective plain notEnd

theorem covers_spacedDirective (notEnd : place.view.kind ≠ .eof) :
    spacedDirective.Covers allowed marked place :=
  covers_node (plain _ rfl)
    (covers_bind (covers_bump (by exact notEnd)) (fun _ _ => covers_expectName _))

theorem covers_wordStatement (name : String) (word : place.view.kind = .ident) :
    (wordStatement name).Covers allowed marked place := by
  have notEnd := View.not_end_of_word word
  unfold wordStatement
  split
  · exact covers_branch plain notEnd
  · exact covers_whileLoop plain word
  · exact covers_forLoop plain word
  · exact covers_returnJump plain word
  · exact covers_loopJump plain rfl word
  · exact covers_loopJump plain rfl word
  · exact covers_deferred plain word
  · exact covers_usingStatement plain word
  · exact covers_removal plain word
  · exact covers_pushedContext plain word
  · rw [covers_look_bind]
    split
    · exact covers_operatorDeclaration plain word
    · exact covers_expressionStatement plain
  · exact covers_expressionStatement plain

theorem covers_statementEntry : statementEntry.Covers allowed marked place := by
  unfold statementEntry
  rw [covers_look_bind]
  have other : ∀ {kind : TokenKind}, place.view.kind = kind → kind ≠ .eof →
      place.view.kind ≠ .eof := fun same token => same ▸ token
  split
  · exact covers_block plain
  · next directive =>
      unfold directiveStatement
      rw [covers_look_bind]
      exact covers_directiveStatementNamed plain _ (other directive (by decide))
  · next hash => exact covers_spacedDirective plain (other hash (by decide))
  · next word =>
      rw [covers_look_bind]
      split
      · exact covers_declaration plain (View.not_end_of_word word)
      · rw [covers_look_bind]
        exact covers_wordStatement plain _ word
  · exact covers_expressionStatement plain

omit plain in
/-- Every entry covers something, and none makes a node of an extra. -/
theorem covers_ofEntry (entry : Entry) :
    (ofEntry entry).Covers (· ≠ .deprecatedDirective) marked place := by
  have plain : ∀ kind : NodeKind, kind.isPlain = true → kind ≠ .deprecatedDirective := by
    rintro kind isPlain rfl
    cases isPlain
  cases entry with
  | expression least =>
      refine covers_expressionEntry plain ?_ least
      rintro kind isOperator rfl
      cases isOperator
  | type => exact covers_typeEntry plain
  | statement => exact covers_statementEntry plain

end JaiSyntax.Production
