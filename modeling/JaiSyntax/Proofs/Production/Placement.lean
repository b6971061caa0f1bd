import JaiSyntax.Proofs.Reading.Placement
/-!
The grammar places types. Only a type, a result and the type of a conversion are labelled where types
are asked for, each right after it was read; what stands before a literal is read as a type, but its
label is inside of the literal.
-/

set_option autoImplicit false

namespace JaiSyntax

namespace Production

section Rules

variable {α β : Type} {strict : Bool}

@[simp] theorem places_pure (value : α) : (Pure.pure value : Production α).Places strict := trivial

@[simp] theorem places_value (value : α) : (Production.pure value).Places strict := trivial

@[simp] theorem places_bind (first : Production α) (next : α → Production β) :
    (first >>= next).Places strict ↔
      (first.Places strict ∧ ∀ value, (next value).Places strict) ∨
        (first >>= next).KeepsPlaces strict :=
  Iff.rfl

@[simp] theorem places_look (read : View → α) : (look read).Places strict := trivial

theorem places_look_bind {read : View → α} {next : α → Production β}
    (further : ∀ value, (next value).Places strict) : (look read >>= next).Places strict :=
  Or.inl ⟨places_look read, further⟩

/-- A value that is settled already. -/
theorem places_pure_bind {value : α} {next : α → Production β} (further : (next value).Places strict) :
    (Pure.pure value >>= next).Places strict :=
  Or.inr further.keeps

@[simp] theorem places_refuse (complaint : Complaint) :
    (refuse complaint : Production α).Places strict := trivial

@[simp] theorem places_enter (entry : Entry) : (enter entry).Places strict := trivial

@[simp] theorem places_within (change : Context → Context) (body : Production α) :
    (within change body).Places strict ↔ body.Places strict := Iff.rfl

@[simp] theorem places_node (kind : NodeKind) (body : Production α) :
    (node kind body).Places strict ↔ body.Places kind.isTyped := Iff.rfl

@[simp] theorem places_marked (body : Production α) :
    (marked body).Places strict ↔ body.Places true := Iff.rfl

@[simp] theorem places_wrap (kind : NodeKind) (body : Production α) :
    (wrap kind body).Places strict ↔
      (kind.isTyped = true → strict = true) ∧ body.Places kind.isTyped := Iff.rfl

@[simp] theorem places_opened (body : Production α) :
    (opened body).Places strict ↔ body.Places strict := Iff.rfl

@[simp] theorem places_guarded (body : Production Unit) :
    (guarded body).Places strict ↔ body.Places true := Iff.rfl

@[simp] theorem places_repeatedly (body : Production Bool) :
    (repeatedly body).Places strict ↔ body.Places strict := Iff.rfl

@[simp] theorem places_ite (condition : Prop) [Decidable condition]
    (first second : Production α) :
    (if condition then first else second).Places strict ↔
      (condition → first.Places strict) ∧ (¬ condition → second.Places strict) := by
  split <;> simp_all

end Rules

/-! ### Labels on types -/

section Labels

variable {α : Type} {strict : Bool}

/-- A label right after a type. -/
theorem keepsPlaces_label {first : Production Unit} (field : Field)
    (reads : ∀ (resync : Bool) (enter : Entry → Surroundings → Segment → Reading Unit),
      EntriesPlace enter → ∀ (around : Surroundings) (segment : Segment), segment.cursor.Proper →
        first.ReadsNode resync enter (fun _ node => node.kind.isValue = false) around segment)
    (places : first.Places strict) : (first >>= fun _ => tag field).KeepsPlaces strict := by
  intro resync enter entries around segment place
  have kept := places.keeps resync enter entries around segment place
  have type := reads resync enter entries around segment place.proper
  unfold ReadsNode at type
  rw [read_bind]
  refine ((kept.and type).weaken (fun _ _ => id) (fun _ => And.left)).andThen ?_
  rintro value later ⟨reached, yields⟩
  exact reached.tag around yields field

theorem keepsPlaces_assoc {first : Production Unit} {second : Production Unit}
    {third : Production α}
    (keeps : ((first >>= fun _ => second) >>= fun _ => third).KeepsPlaces strict) :
    (first >>= fun _ => second >>= fun _ => third).KeepsPlaces strict := by
  intro resync enter entries around segment place
  have kept := keeps resync enter entries around segment place
  rw [read_bind, read_bind] at kept
  rw [read_bind]
  cases same : first.read resync enter around segment with
  | done value later =>
      rw [same] at kept
      exact kept
  | failed error later =>
      rw [same] at kept
      exact kept

/-- A label and then a node around everything since the mark: the label is inside of the node. -/
theorem keepsPlaces_labelled {kind : NodeKind} {body : Production α} {field : Field}
    (free : field.isForTypes false = false) (loose : kind.isTyped = false)
    (inside : body.Places false) :
    (tag field >>= fun _ => wrap kind body).KeepsPlaces strict := by
  intro resync enter entries around segment place
  have loosened : segment.InPlace (Field.isForTypes false) :=
    place.weaken (fun _ types => Field.isForTypes_loose.mp types ▸ rfl)
  have labelled : (segment.apply around (.tag field)).InPlace (Field.isForTypes kind.isTyped) := by
    rw [loose]
    exact loosened.apply around free
  rw [← loose] at inside
  exact reads_wrap inside.keeps entries around labelled _

end Labels

section Grammar

variable {α : Type} {strict : Bool}

/-! ### Tokens and control -/

@[simp] theorem places_bump : bump.Places strict := rfl

@[simp] theorem places_bumpKeyword : bumpKeyword.Places strict := rfl

@[simp] theorem places_report (complaint : Complaint) :
    (act (.report complaint)).Places strict := rfl

@[simp] theorem places_reinterpretLast : (act .reinterpretLast).Places strict := rfl

@[simp] theorem places_spliceParameters : (act .spliceParameters).Places strict := rfl

/-- A label under a field that is kept for types nowhere. -/
@[simp] theorem places_tag {field : Field} (free : field.isForTypes true = false) :
    (tag field).Places strict :=
  Field.isForTypes_free free

@[simp] theorem places_bumpTagged {field : Field} (free : field.isForTypes true = false) :
    (bumpTagged field).Places strict :=
  Or.inl ⟨places_bump, fun _ => places_tag free⟩

@[simp] theorem places_eat (kind : TokenKind) : (eat kind).Places strict := by
  simp [eat, check]

@[simp] theorem places_eatWord (word : String) : (eatWord word).Places strict := by
  simp [eatWord, checkWord]

@[simp] theorem places_expect (kind : TokenKind) : (expect kind).Places strict := by
  simp [expect]

@[simp] theorem places_expectName {field : Field} (free : field.isForTypes true = false) :
    (expectName field).Places strict := by
  simp [expectName, check, free]

@[simp] theorem places_closeBrace : closeBrace.Places strict := by
  simp [closeBrace]

@[simp] theorem places_discard (body : Production α) (inner : body.Places strict) :
    (discard body).Places strict :=
  Or.inl ⟨inner, fun _ => trivial⟩

@[simp] theorem places_onlyIf (condition : View → Bool) {body : Production Unit}
    (inner : body.Places strict) : (onlyIf condition body).Places strict := by
  simp [onlyIf, inner]

@[simp] theorem places_asLongAs (condition : View → Bool) {body : Production Unit}
    (inner : body.Places strict) : (asLongAs condition body).Places strict := by
  simp [asLongAs, inner]

@[simp] theorem places_upTo (close : TokenKind) {body : Production Unit}
    (inner : body.Places strict) : (upTo close body).Places strict :=
  places_asLongAs _ inner

@[simp] theorem places_upToSkipping (close separator : TokenKind) {body : Production Unit}
    (inner : body.Places strict) : (upToSkipping close separator body).Places strict :=
  places_upTo close (by simp [inner])

@[simp] theorem places_commaSeparated {item : Production Unit} (inner : item.Places strict) :
    (commaSeparated item).Places strict := by
  simp [commaSeparated, inner]

@[simp] theorem places_commaBefore (close : TokenKind) : (commaBefore close).Places strict := by
  simp [commaBefore]

@[simp] theorem places_times (count : Nat) {body : Production Unit} (inner : body.Places strict) :
    (times count body).Places strict := by
  induction count with
  | zero => trivial
  | succ count ih => exact Or.inl ⟨inner, fun _ => ih⟩

@[simp] theorem places_fresh (body : Production α) :
    (fresh body).Places strict ↔ body.Places strict := Iff.rfl

@[simp] theorem places_amongArguments (body : Production α) :
    (amongArguments body).Places strict ↔ body.Places strict := Iff.rfl

/-! ### Entries and small nodes -/

@[simp] theorem places_operand (least : Prec) : (operand least).Places strict := trivial

@[simp] theorem places_expression : expression.Places strict := trivial

@[simp] theorem places_type : type.Places strict := trivial

@[simp] theorem places_expressionAs {field : Field} (free : field.isForTypes true = false) :
    (expressionAs field).Places strict :=
  Or.inl ⟨places_expression, fun _ => places_tag free⟩

@[simp] theorem places_typeAs (field : Field) : (typeAs field).Places strict := by
  refine Or.inr (keepsPlaces_label field ?_ places_type)
  exact fun _ _ entries _ _ proper => readsNode_asType entries.name proper

@[simp] theorem places_expressionsAs {field : Field} (free : field.isForTypes true = false) :
    (expressionsAs field).Places strict :=
  places_commaSeparated (places_expressionAs free)

@[simp] theorem places_leafNode (kind : NodeKind) : (leafNode kind).Places strict := places_bump

@[simp] theorem places_keywordNode (kind : NodeKind) : (keywordNode kind).Places strict :=
  places_bumpKeyword

@[simp] theorem places_identifierNode : identifierNode.Places strict := places_bump

/-! ### Literals and arguments -/

@[simp] theorem places_stringBody : stringBody.Places strict := by
  simp +decide [stringBody, check]

@[simp] theorem places_characterLiteral : characterLiteral.Places strict := by
  simp +decide [characterLiteral]

@[simp] theorem places_stringLiteral : stringLiteral.Places strict := by
  simp +decide [stringLiteral, checkDirective]

@[simp] theorem places_heredoc : heredoc.Places strict := by
  simp +decide [heredoc]

theorem places_argument {positional : Production Unit} (inner : positional.Places strict) :
    (argument positional).Places strict := by
  simp +decide [argument, check, inner]

theorem places_argumentList {positional : Production Unit} (inner : positional.Places strict) :
    (argumentList positional).Places strict := by
  simp +decide [argumentList, places_argument, inner]

@[simp] theorem places_callArguments : callArguments.Places strict :=
  places_argumentList places_expression

@[simp] theorem places_literalEntry : literalEntry.Places strict := by
  simp +decide [literalEntry]

/-- The entries of a literal are labelled as an array type labels its element. -/
theorem places_literalEntries (close : TokenKind) : (literalEntries close).Places false := by
  have label : (tag .element).Places false := rfl
  simp [literalEntries, label]

theorem places_structEntries : structEntries.Places false := by
  simp +decide [structEntries, places_literalEntries]

theorem places_arrayEntries : arrayEntries.Places false := by
  simp +decide [arrayEntries, places_literalEntries]

/-! ### Statements where they stand -/

@[simp] theorem places_terminator (kind : NodeKind) : (terminator kind).Places strict := by
  unfold terminator
  split <;> simp

@[simp] theorem places_substatement {field : Option Field}
    (free : ∀ role, field = some role → role.isForTypes true = false) :
    (substatement field).Places strict := by
  refine Or.inl ⟨places_eat _, fun taken => ?_⟩
  cases taken with
  | true => exact places_pure ()
  | false =>
      refine Or.inl ⟨places_enter _, fun _ => Or.inl ⟨places_look _, fun kind => ?_⟩⟩
      cases field with
      | none => cases kind <;> simp
      | some role =>
          refine Or.inl ⟨places_tag (free role rfl), fun _ => ?_⟩
          cases kind <;> simp

@[simp] theorem places_listedStatement : listedStatement.Places strict := by
  simp [listedStatement]

@[simp] theorem places_statementList : statementList.Places strict :=
  places_upTo _ places_listedStatement

@[simp] theorem places_block : block.Places strict := by
  simp [block]

@[simp] theorem places_bodyBlock : bodyBlock.Places strict := by
  simp +decide [bodyBlock]

/-! ### Directives and procedures -/

@[simp] theorem places_directiveOptions : directiveOptions.Places strict := by
  simp +decide [directiveOptions]

@[simp] theorem places_modifierArguments (name : String) :
    (modifierArguments name).Places strict := by
  simp +decide [modifierArguments]

@[simp] theorem places_directiveModifier : directiveModifier.Places strict := by
  simp [directiveModifier]

@[simp] theorem places_directiveModifiers (accepts : View → Bool) :
    (directiveModifiers accepts).Places strict := by
  simp +decide [directiveModifiers]

@[simp] theorem places_defaultValue : defaultValue.Places strict := by
  simp +decide [defaultValue]

@[simp] theorem places_parameter : parameter.Places strict := by
  simp +decide [parameter]

@[simp] theorem places_parameterList : parameterList.Places strict := by
  simp +decide [parameterList]

/-- A result is labelled once it was read, with its name or without. -/
@[simp] theorem places_result : result.Places strict := by
  apply places_look_bind
  intro named
  cases named with
  | true =>
      refine Or.inr (keepsPlaces_label .result (fun _ _ _ _ _ proper => ?_) (by simp +decide))
      exact readsNode_kind proper (by decide) (fun _ _ same => by rw [same]; rfl)
  | false =>
      refine Or.inr (keepsPlaces_label .result (fun _ _ entries _ _ proper => ?_) places_type)
      exact readsNode_asType entries.name proper

@[simp] theorem places_results : results.Places strict := by
  simp [results]

@[simp] theorem places_procedure : procedure.Places strict := by
  simp [procedure]

/-! ### Structs, enums and directives in expressions -/

@[simp] theorem places_afterDoubleColon {body : Production Unit} (inner : body.Places strict) :
    (afterDoubleColon body).Places strict := by
  apply places_look_bind
  intro colons
  cases colons with
  | none => exact places_pure ()
  | some count => simp [inner]

@[simp] theorem places_structTail : structTail.Places strict := by
  simp [structTail]

@[simp] theorem places_enumMember : enumMember.Places strict := by
  simp +decide [enumMember]

@[simp] theorem places_enumMembers : enumMembers.Places strict := by
  simp [enumMembers, check]

@[simp] theorem places_enumDirective : enumDirective.Places strict := by
  simp +decide [enumDirective, checkDirective]

@[simp] theorem places_enumTail : enumTail.Places strict := by
  simp [enumTail]

@[simp] theorem places_anonymousStruct : anonymousStruct.Places strict := by
  simp [anonymousStruct]

@[simp] theorem places_anonymousEnum : anonymousEnum.Places strict := by
  simp [anonymousEnum]

@[simp] theorem places_introducer : introducer.Places strict := by
  simp [introducer, check]

@[simp] theorem places_conditionalBranch : conditionalBranch.Places strict := by
  simp [conditionalBranch, check]

@[simp] theorem places_conditionalExpression : conditionalExpression.Places strict := by
  simp +decide [conditionalExpression]

@[simp] theorem places_compileTimeExpression (kind : NodeKind) :
    (compileTimeExpression kind).Places strict := by
  simp +decide [compileTimeExpression, check]

@[simp] theorem places_openOperand {body : Production Unit} (inner : body.Places strict) :
    (openOperand body).Places strict := by
  simp [openOperand, inner]

@[simp] theorem places_closedOperand {body : Production Unit} (inner : body.Places strict) :
    (closedOperand body).Places strict := by
  simp [closedOperand, inner]

@[simp] theorem places_directiveExpressionNamed (name : String) :
    (directiveExpressionNamed name).Places strict := by
  unfold directiveExpressionNamed
  split <;> simp +decide [typeLiteral, libraryDirective, codeExpression, appliedDirective,
    plainDirective, check]

@[simp] theorem places_directiveExpression : directiveExpression.Places strict := by
  simp [directiveExpression]

/-! ### Types -/

@[simp] theorem places_typeArgument : typeArgument.Places strict := by
  apply places_look_bind
  intro kind
  split <;> simp

/-- A name with arguments is labelled in the node around the two. -/
@[simp] theorem places_qualifiedName : qualifiedName.Places strict := by
  have applied : (tag .type >>= fun _ =>
      wrap .parameterizedStructType (argumentList typeArgument)).Places true :=
    Or.inr (keepsPlaces_labelled rfl rfl (places_argumentList places_typeArgument))
  simp +decide [qualifiedName, places_onlyIf _ applied]

@[simp] theorem places_namedType : namedType.Places strict := by
  simp +decide [namedType, checkWord, typeOf]

@[simp] theorem places_arrayType : arrayType.Places strict := by
  simp +decide [arrayType, check]

@[simp] theorem places_polymorphicType : polymorphicType.Places strict := by
  simp +decide [polymorphicType]

theorem places_typeEntry : typeEntry.Places strict := by
  apply places_look_bind
  intro kind
  split <;> simp [prefixedType]

/-! ### Expressions -/

@[simp] theorem places_quickBody : quickBody.Places strict := by
  simp +decide [quickBody, check]

@[simp] theorem places_quickProcedure : quickProcedure.Places strict := by
  simp +decide [quickProcedure, quickParameter, check]

@[simp] theorem places_parenthesis : parenthesis.Places strict := by
  simp +decide [parenthesis, parenthesized]

@[simp] theorem places_implicitOperand : implicitOperand.Places strict := by
  apply places_look_bind
  intro kind
  split
  · exact places_structEntries
  · exact places_arrayEntries
  · simp +decide
  · simp

@[simp] theorem places_word : word.Places strict := by
  simp +decide [word, checkWord, typeOf, inlineCall, singleQuickProcedure, check]

@[simp] theorem places_primary : primary.Places strict := by
  apply places_look_bind
  intro kind
  split <;> simp

@[simp] theorem places_callOperator : callOperator.Places strict := by
  unfold callOperator
  rw [settle_call]
  apply places_pure_bind
  simp +decide

/-- What stands before a literal is labelled in the literal. -/
theorem places_typedLiteral {kind : NodeKind} {entries : Production Unit}
    (loose : kind.isTyped = false) (inner : entries.Places false) :
    (typedLiteral kind entries).Places strict :=
  Or.inl ⟨places_reinterpretLast, fun _ => Or.inr (keepsPlaces_labelled rfl loose inner)⟩

@[simp] theorem places_andGoOn {body : Production Unit} (inner : body.Places strict) :
    (andGoOn body).Places strict := by
  simp [andGoOn, inner]

@[simp] theorem places_dotOperator : dotOperator.Places strict := by
  apply places_look_bind
  intro kind
  split
  · simp +decide [memberOperator]
  · simp +decide [dereferenceOperator]
  · exact places_andGoOn (places_typedLiteral rfl places_structEntries)
  · exact places_andGoOn (places_typedLiteral rfl places_arrayEntries)
  · simp

@[simp] theorem places_postfixOperator : postfixOperator.Places strict := by
  apply places_look_bind
  intro kind
  split <;> simp +decide [andGoOn, indexOperator, dereferenceOperator]

@[simp] theorem places_postfixExpression : postfixExpression.Places strict := by
  simp [postfixExpression]

@[simp] theorem places_castModifiers : castModifiers.Places strict := by
  simp +decide [castModifiers]

@[simp] theorem places_castValue : castValue.Places strict := by
  simp +decide [castValue]

/-- The type of a conversion is labelled right after it was read. -/
@[simp] theorem places_cast : cast.Places strict := by
  have type : (fresh type >>= fun _ => tag .type).KeepsPlaces true :=
    keepsPlaces_label .type (fun _ _ entries _ _ proper =>
      readsNode_within (readsNode_asType entries.name proper)) ((places_fresh _).mpr places_type)
  have converted : (fresh Production.type >>= fun _ => tag .type >>= fun _ =>
      expect .rParen >>= fun _ => castValue).Places true :=
    Or.inr (keepsPlaces_assoc (keepsPlaces_bind type (fun _ => Places.keeps (by simp))))
  have opened : (expect .lParen >>= fun _ => fresh Production.type >>= fun _ => tag .type >>= fun _ =>
      expect .rParen >>= fun _ => castValue).Places true :=
    Or.inl ⟨places_expect _, fun _ => converted⟩
  exact Or.inl ⟨places_bumpKeyword, fun _ => Or.inl ⟨places_castModifiers, fun _ => opened⟩⟩

@[simp] theorem places_unaryExpression : unaryExpression.Places strict := by
  apply places_look_bind
  intro kind
  split <;> simp +decide [unaryOperator, prefixedOperand, pointerOperator, automaticCast]

@[simp] theorem places_binaryOperatorStep (least : Prec) :
    (binaryOperatorStep least).Places strict := by
  apply places_look_bind
  intro ranged
  cases ranged with
  | true => simp +decide [rangeOperator]
  | false =>
      apply places_look_bind
      intro found
      cases found <;> simp +decide [binaryOperatorOf]

theorem places_expressionEntry (least : Prec) : (expressionEntry least).Places strict := by
  simp [expressionEntry]

/-! ### Declarations -/

@[simp] theorem places_importTail : importTail.Places strict := by
  simp +decide [importTail]

@[simp] theorem places_procedureModifier : procedureModifier.Places strict := by
  simp +decide [procedureModifier]

@[simp] theorem places_valueDefinition : valueDefinition.Places strict := by
  simp +decide [valueDefinition]

@[simp] theorem places_definition : definition.Places strict := by
  simp [definition, checkWord, checkDirective, settle_struct, settle_enum]

@[simp] theorem places_typedDefinition : typedDefinition.Places strict := by
  simp +decide [typedDefinition]

@[simp] theorem places_declarationTail (isSingle : Bool) :
    (declarationTail isSingle).Places strict := by
  apply places_look_bind
  intro colons
  cases colons <;> simp +decide

@[simp] theorem places_declaration : declaration.Places strict := by
  simp +decide [declaration]

@[simp] theorem places_operatorDeclaration : operatorDeclaration.Places strict := by
  simp +decide [operatorDeclaration]

/-! ### Control flow -/

@[simp] theorem places_switchCase : switchCase.Places strict := by
  simp +decide [switchCase]

@[simp] theorem places_switchCases : switchCases.Places strict := by
  simp [switchCases, checkWord]

@[simp] theorem places_branch : branch.Places strict := by
  simp +decide [branch, casesTail, branchTail]

@[simp] theorem places_whileLoop : whileLoop.Places strict := by
  simp +decide [whileLoop, conditionName]

@[simp] theorem places_loopNames : loopNames.Places strict := by
  simp +decide [loopNames]

@[simp] theorem places_forLoop : forLoop.Places strict := by
  simp +decide [forLoop, loopModifiers]

@[simp] theorem places_returnJump : returnJump.Places strict := by
  simp +decide [returnJump]

/-! ### Statements -/

@[simp] theorem places_assemblyOperand : assemblyOperand.Places strict := by
  simp +decide [assemblyOperand, check]

/-- The class of a register is a word. -/
@[simp] theorem places_assemblyDeclaration : assemblyDeclaration.Places strict := by
  have label : (bumpTagged .type).Places false := Or.inl ⟨places_bump, fun _ => rfl⟩
  have name : (expectName .type).Places false := by simp [expectName, check, label]
  have register : (eat .tripleEq >>= fun taken =>
      if taken then expectName .register else Pure.pure ()).Places false := by
    simp +decide
  refine Or.inl ⟨places_bumpTagged rfl, fun _ => Or.inl ⟨places_bump, fun _ => ?_⟩⟩
  exact Or.inl ⟨name, fun _ => register⟩

@[simp] theorem places_assemblyLine : assemblyLine.Places strict := by
  simp +decide [assemblyLine, check, assemblyInstruction]

@[simp] theorem places_assembly : assembly.Places strict := by
  simp +decide [assembly, instructionSets, check]

@[simp] theorem places_expressionStatement : expressionStatement.Places strict := by
  simp +decide [expressionStatement, furtherTargets, assignmentTail, check, andGoOn]

@[simp] theorem places_usingStatement : usingStatement.Places strict := by
  simp +decide [usingStatement]

@[simp] theorem places_compileTimeStatement (kind : NodeKind) :
    (compileTimeStatement kind).Places strict := by
  simp [compileTimeStatement]

@[simp] theorem places_markedStatement (kind : NodeKind) :
    (markedStatement kind).Places strict := by
  simp [markedStatement]

@[simp] theorem places_directiveStatementNamed (name : String) :
    (directiveStatementNamed name).Places strict := by
  unfold directiveStatementNamed
  split <;> simp +decide [loadDirective, assertion, moduleParameters, otherDirective]

@[simp] theorem places_wordStatement (word : String) : (wordStatement word).Places strict := by
  unfold wordStatement
  split <;> simp +decide [loopJump, deferred, removal, pushedContext]

theorem places_statementEntry : statementEntry.Places strict := by
  apply places_look_bind
  intro kind
  split <;> simp +decide [directiveStatement, spacedDirective]

/-- What an entry stands for places types. -/
theorem places_ofEntry (entry : Entry) : (ofEntry entry).Places strict := by
  cases entry with
  | expression least => exact places_expressionEntry least
  | type => exact places_typeEntry
  | statement => exact places_statementEntry

theorem places_sourceFile : sourceFile.Places strict := by
  simp [sourceFile]

end Grammar

end Production

end JaiSyntax
