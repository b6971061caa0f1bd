import JaiSyntax.Proofs.Production.Canonical
/-!
Rules for productions. A production obeys some rules if it opens nodes of the allowed kinds only and makes
allowed moves only, and if a node around a mark belongs to a mark of its own. What the rules do not allow
may still happen after a mark, in a part that is taken as a whole.

Rules that allow everything but operators, calls and members, and the taking apart of parentheses, are
obeyed by the whole grammar once they are obeyed by the few productions that do just that.
-/

set_option autoImplicit false

namespace JaiSyntax

/-- The kinds of nodes that are an operator, a call, an index or a member with what it is applied to. -/
def NodeKind.isOperation : NodeKind → Bool
  | .binaryExpression | .range | .unaryExpression | .dereferenceExpression | .memberExpression
  | .indexExpression | .callExpression => true
  | _ => false

theorem NodeKind.isOperation_of_isDeclaration {kind : NodeKind} (declares : kind.isDeclaration = true) :
    kind.isOperation = false := by
  cases kind <;> first | rfl | cases declares

/-- The kinds of nodes that may be opened, the moves that may be made, and the productions that are
taken as a whole. -/
structure Rules where
  kinds : NodeKind → Bool
  moves : Move → Bool
  whole : {α : Type} → Production α → Prop

namespace Production

/-- Whether a production obeys some rules, where `marked` says that the innermost mark is its own. -/
def Obeys (rules : Rules) {α : Type} (production : Production α) (marked : Bool) : Prop :=
  match production with
  | .pure _ | .look _ | .refuse _ | .enter _ => True
  | .act move => rules.moves move = true
  | .bind first next =>
      first.Obeys rules marked ∧
        ∀ value view later, first.Leads value view later → (next value).Obeys rules marked
  | .within _ body | .opened body | .repeatedly body => body.Obeys rules marked
  | .node kind body => rules.kinds kind = true ∧ body.Obeys rules false
  | .marked body => body.Obeys rules true ∨ rules.whole (.marked body)
  | .wrap kind body => marked = true ∧ rules.kinds kind = true ∧ body.Obeys rules false
  | .guarded body => body.Obeys rules false
termination_by structural production

section Rules

variable {rules : Rules} {marked : Bool} {α β : Type}

@[simp] theorem obeys_pure (value : α) : (Pure.pure value : Production α).Obeys rules marked :=
  trivial

@[simp] theorem obeys_value (value : α) : (Production.pure value).Obeys rules marked := trivial

@[simp] theorem obeys_bind (first : Production α) (next : α → Production β) :
    (first >>= next).Obeys rules marked ↔
      first.Obeys rules marked ∧
        ∀ value view later, first.Leads value view later → (next value).Obeys rules marked :=
  Iff.rfl

theorem obeys_andThen {first : Production α} {next : α → Production β}
    (front : first.Obeys rules marked) (further : ∀ value, (next value).Obeys rules marked) :
    (first >>= next).Obeys rules marked :=
  ⟨front, fun value _ _ _ => further value⟩

@[simp] theorem obeys_look (read : View → α) : (look read).Obeys rules marked := trivial

theorem obeys_look_bind {read : View → α} {next : α → Production β}
    (further : ∀ value, (next value).Obeys rules marked) : (look read >>= next).Obeys rules marked :=
  obeys_andThen (obeys_look read) further

@[simp] theorem obeys_act (move : Move) :
    (act move).Obeys rules marked ↔ rules.moves move = true := Iff.rfl

@[simp] theorem obeys_refuse (complaint : Complaint) :
    (refuse complaint : Production α).Obeys rules marked := trivial

@[simp] theorem obeys_enter (entry : Entry) : (enter entry).Obeys rules marked := trivial

@[simp] theorem obeys_within (change : Context → Context) (body : Production α) :
    (within change body).Obeys rules marked ↔ body.Obeys rules marked := Iff.rfl

@[simp] theorem obeys_node (kind : NodeKind) (body : Production α) :
    (node kind body).Obeys rules marked ↔
      rules.kinds kind = true ∧ body.Obeys rules false := Iff.rfl

@[simp] theorem obeys_wrap (kind : NodeKind) (body : Production α) :
    (wrap kind body).Obeys rules marked ↔
      marked = true ∧ rules.kinds kind = true ∧ body.Obeys rules false := Iff.rfl

/-- A mark in front of a part that obeys the rules itself. -/
@[simp] theorem obeys_marked {body : Production α} (inner : body.Obeys rules true) :
    (Production.marked body).Obeys rules marked := Or.inl inner

@[simp] theorem obeys_opened (body : Production α) :
    (opened body).Obeys rules marked ↔ body.Obeys rules marked := Iff.rfl

@[simp] theorem obeys_guarded (body : Production Unit) :
    (guarded body).Obeys rules marked ↔ body.Obeys rules false := Iff.rfl

@[simp] theorem obeys_repeatedly (body : Production Bool) :
    (repeatedly body).Obeys rules marked ↔ body.Obeys rules marked := Iff.rfl

@[simp] theorem obeys_ite (condition : Prop) [Decidable condition] (first second : Production α) :
    (if condition then first else second).Obeys rules marked ↔
      (condition → first.Obeys rules marked) ∧ (¬ condition → second.Obeys rules marked) := by
  split <;> simp_all

end Rules

end Production

/-- Rules that allow everything but operators, calls and members, and the taking apart of
parentheses. -/
class Rules.Liberal (rules : Rules) : Prop where
  kinds : ∀ kind : NodeKind, kind.isOperation = false → rules.kinds kind = true
  moves : ∀ move, move ≠ .spliceParameters → rules.moves move = true

class Rules.TakesOperands (rules : Rules) : Prop extends rules.Liberal where
  parenthesized : ∀ marked, Production.parenthesized.Obeys rules marked
  inlineCall : ∀ marked, Production.inlineCall.Obeys rules marked

class Rules.TakesExpressions (rules : Rules) : Prop extends rules.TakesOperands where
  postfixExpression : ∀ marked, Production.postfixExpression.Obeys rules marked
  expressionEntry : ∀ least marked, (Production.expressionEntry least).Obeys rules marked

namespace Production

section Operands

variable {rules : Rules} [rules.Liberal] {marked : Bool} {α : Type}

@[simp] theorem liberal_kinds {kind : NodeKind} (plain : kind.isOperation = false) :
    rules.kinds kind = true :=
  Rules.Liberal.kinds kind plain

@[simp] theorem liberal_moves {move : Move} (other : move ≠ .spliceParameters) :
    rules.moves move = true :=
  Rules.Liberal.moves move other

/-! ### Tokens and control -/

@[simp] theorem obeys_bump : bump.Obeys rules marked := liberal_moves nofun

@[simp] theorem obeys_bumpKeyword : bumpKeyword.Obeys rules marked := liberal_moves nofun

@[simp] theorem obeys_tag (field : Field) : (tag field).Obeys rules marked := liberal_moves nofun

@[simp] theorem obeys_bumpTagged (field : Field) : (bumpTagged field).Obeys rules marked :=
  obeys_andThen obeys_bump (fun _ => obeys_tag field)

@[simp] theorem obeys_eat (kind : TokenKind) : (eat kind).Obeys rules marked := by
  simp [eat, check]

@[simp] theorem obeys_eatWord (word : String) : (eatWord word).Obeys rules marked := by
  simp [eatWord, checkWord]

@[simp] theorem obeys_expect (kind : TokenKind) : (expect kind).Obeys rules marked := by
  simp [expect]

@[simp] theorem obeys_expectName (field : Field) : (expectName field).Obeys rules marked := by
  simp [expectName, check]

@[simp] theorem obeys_closeBrace : closeBrace.Obeys rules marked := by
  simp [closeBrace]

omit [rules.Liberal] in
@[simp] theorem obeys_discard {body : Production α} (inner : body.Obeys rules marked) :
    (discard body).Obeys rules marked :=
  obeys_andThen inner (fun _ => trivial)

omit [rules.Liberal] in
@[simp] theorem obeys_onlyIf (condition : View → Bool) {body : Production Unit}
    (inner : body.Obeys rules marked) : (onlyIf condition body).Obeys rules marked := by
  simp [onlyIf, inner]

omit [rules.Liberal] in
@[simp] theorem obeys_asLongAs (condition : View → Bool) {body : Production Unit}
    (inner : body.Obeys rules marked) : (asLongAs condition body).Obeys rules marked := by
  simp [asLongAs, inner]

omit [rules.Liberal] in
@[simp] theorem obeys_upTo (close : TokenKind) {body : Production Unit}
    (inner : body.Obeys rules marked) : (upTo close body).Obeys rules marked :=
  obeys_asLongAs _ inner

@[simp] theorem obeys_upToSkipping (close separator : TokenKind) {body : Production Unit}
    (inner : body.Obeys rules marked) : (upToSkipping close separator body).Obeys rules marked :=
  obeys_upTo close (by simp [inner])

@[simp] theorem obeys_commaSeparated {item : Production Unit} (inner : item.Obeys rules marked) :
    (commaSeparated item).Obeys rules marked := by
  simp [commaSeparated, inner]

@[simp] theorem obeys_commaBefore (close : TokenKind) : (commaBefore close).Obeys rules marked := by
  simp [commaBefore]

omit [rules.Liberal] in
@[simp] theorem obeys_times (count : Nat) {body : Production Unit}
    (inner : body.Obeys rules marked) : (times count body).Obeys rules marked := by
  induction count with
  | zero => trivial
  | succ count ih => exact obeys_andThen inner (fun _ => ih)

omit [rules.Liberal] in
@[simp] theorem obeys_fresh (body : Production α) :
    (fresh body).Obeys rules marked ↔ body.Obeys rules marked := Iff.rfl

omit [rules.Liberal] in
@[simp] theorem obeys_amongArguments (body : Production α) :
    (amongArguments body).Obeys rules marked ↔ body.Obeys rules marked := Iff.rfl

/-! ### Entries and small nodes -/

omit [rules.Liberal] in
@[simp] theorem obeys_operand (least : Prec) : (operand least).Obeys rules marked := trivial

omit [rules.Liberal] in
@[simp] theorem obeys_expression : expression.Obeys rules marked := trivial

omit [rules.Liberal] in
@[simp] theorem obeys_type : type.Obeys rules marked := trivial

@[simp] theorem obeys_expressionAs (field : Field) : (expressionAs field).Obeys rules marked :=
  obeys_andThen obeys_expression (fun _ => obeys_tag field)

@[simp] theorem obeys_typeAs (field : Field) : (typeAs field).Obeys rules marked :=
  obeys_andThen obeys_type (fun _ => obeys_tag field)

@[simp] theorem obeys_expressionsAs (field : Field) : (expressionsAs field).Obeys rules marked :=
  obeys_commaSeparated (obeys_expressionAs field)

@[simp] theorem obeys_leafNode {kind : NodeKind} (plain : kind.isOperation = false) :
    (leafNode kind).Obeys rules marked :=
  ⟨liberal_kinds plain, obeys_bump⟩

@[simp] theorem obeys_keywordNode {kind : NodeKind} (plain : kind.isOperation = false) :
    (keywordNode kind).Obeys rules marked :=
  ⟨liberal_kinds plain, obeys_bumpKeyword⟩

@[simp] theorem obeys_identifierNode : identifierNode.Obeys rules marked := obeys_leafNode rfl

/-! ### Literals and arguments -/

@[simp] theorem obeys_stringBody : stringBody.Obeys rules marked := by
  simp [stringBody, check]

@[simp] theorem obeys_characterLiteral : characterLiteral.Obeys rules marked := by
  simp +decide [characterLiteral]

@[simp] theorem obeys_stringLiteral : stringLiteral.Obeys rules marked := by
  simp +decide [stringLiteral, checkDirective]

@[simp] theorem obeys_heredoc : heredoc.Obeys rules marked := by
  simp +decide [heredoc]

@[simp] theorem obeys_argument {positional : Production Unit}
    (inner : positional.Obeys rules marked) : (argument positional).Obeys rules marked := by
  simp +decide [argument, check, inner]

@[simp] theorem obeys_argumentList {positional : Production Unit}
    (inner : positional.Obeys rules marked) : (argumentList positional).Obeys rules marked := by
  simp [argumentList, inner]

@[simp] theorem obeys_callArguments : callArguments.Obeys rules marked :=
  obeys_argumentList obeys_expression

@[simp] theorem obeys_literalEntries (close : TokenKind) :
    (literalEntries close).Obeys rules marked := by
  simp +decide [literalEntries, literalEntry]

@[simp] theorem obeys_structEntries : structEntries.Obeys rules marked := by
  simp [structEntries]

@[simp] theorem obeys_arrayEntries : arrayEntries.Obeys rules marked := by
  simp [arrayEntries]

/-! ### Statements where they stand -/

@[simp] theorem obeys_terminator (kind : NodeKind) : (terminator kind).Obeys rules marked := by
  unfold terminator
  split <;> simp

@[simp] theorem obeys_substatement (field : Option Field) :
    (substatement field).Obeys rules marked := by
  refine obeys_andThen (obeys_eat _) (fun taken => ?_)
  cases taken with
  | true => exact obeys_pure ()
  | false =>
      refine obeys_andThen (obeys_enter _) (fun _ => obeys_look_bind (fun kind => ?_))
      cases field <;> cases kind <;> simp

@[simp] theorem obeys_listedStatement : listedStatement.Obeys rules marked := by
  simp [listedStatement]

@[simp] theorem obeys_statementList : statementList.Obeys rules marked :=
  obeys_upTo _ obeys_listedStatement

@[simp] theorem obeys_block : block.Obeys rules marked := by
  simp +decide [block]

@[simp] theorem obeys_bodyBlock : bodyBlock.Obeys rules marked := by
  simp [bodyBlock]

/-! ### Directives and procedures -/

@[simp] theorem obeys_directiveOptions : directiveOptions.Obeys rules marked := by
  simp [directiveOptions]

@[simp] theorem obeys_modifierArguments (name : String) :
    (modifierArguments name).Obeys rules marked := by
  simp [modifierArguments]

@[simp] theorem obeys_directiveModifier : directiveModifier.Obeys rules marked := by
  simp +decide [directiveModifier]

@[simp] theorem obeys_directiveModifiers (accepts : View → Bool) :
    (directiveModifiers accepts).Obeys rules marked := by
  simp [directiveModifiers]

@[simp] theorem obeys_defaultValue : defaultValue.Obeys rules marked := by
  simp [defaultValue]

@[simp] theorem obeys_parameter : parameter.Obeys rules marked := by
  simp +decide [parameter]

@[simp] theorem obeys_parameterList : parameterList.Obeys rules marked := by
  simp [parameterList]

@[simp] theorem obeys_result : result.Obeys rules marked := by
  simp +decide [result]

@[simp] theorem obeys_results : results.Obeys rules marked := by
  simp [results]

@[simp] theorem obeys_procedure : procedure.Obeys rules marked := by
  have kinds (condition : Prop) [Decidable condition] :
      (if condition then NodeKind.procedure else .procedureType).isOperation = false := by
    split <;> rfl
  simp [procedure, kinds]

/-! ### Structs, enums and directives in expressions -/

@[simp] theorem obeys_afterDoubleColon {body : Production Unit} (inner : body.Obeys rules marked) :
    (afterDoubleColon body).Obeys rules marked := by
  apply obeys_look_bind
  intro colons
  cases colons <;> simp [inner]

@[simp] theorem obeys_structTail : structTail.Obeys rules marked := by
  simp [structTail]

@[simp] theorem obeys_enumMember : enumMember.Obeys rules marked := by
  simp +decide [enumMember]

@[simp] theorem obeys_enumTail : enumTail.Obeys rules marked := by
  simp +decide [enumTail, enumDirective, enumMembers, check, checkDirective]

@[simp] theorem obeys_anonymousStruct : anonymousStruct.Obeys rules marked := by
  simp +decide [anonymousStruct]

@[simp] theorem obeys_anonymousEnum : anonymousEnum.Obeys rules marked := by
  simp +decide [anonymousEnum]

@[simp] theorem obeys_introducer : introducer.Obeys rules marked := by
  simp [introducer, check]

@[simp] theorem obeys_conditionalBranch : conditionalBranch.Obeys rules marked := by
  simp +decide [conditionalBranch, check]

@[simp] theorem obeys_conditionalExpression : conditionalExpression.Obeys rules marked := by
  simp +decide [conditionalExpression]

@[simp] theorem obeys_compileTimeExpression {kind : NodeKind} (plain : kind.isOperation = false) :
    (compileTimeExpression kind).Obeys rules marked := by
  simp [compileTimeExpression, check, plain]

omit [rules.Liberal] in
@[simp] theorem obeys_openOperand {body : Production Unit} (inner : body.Obeys rules marked) :
    (openOperand body).Obeys rules marked := by
  simp [openOperand, inner]

omit [rules.Liberal] in
@[simp] theorem obeys_closedOperand {body : Production Unit} (inner : body.Obeys rules marked) :
    (closedOperand body).Obeys rules marked := by
  simp [closedOperand, inner]

@[simp] theorem obeys_directiveExpressionNamed (name : String) :
    (directiveExpressionNamed name).Obeys rules marked := by
  unfold directiveExpressionNamed
  split <;> simp +decide [typeLiteral, libraryDirective, codeExpression, appliedDirective,
    plainDirective, check]

@[simp] theorem obeys_directiveExpression : directiveExpression.Obeys rules marked := by
  simp [directiveExpression]

/-! ### Types -/

omit [rules.Liberal] in
@[simp] theorem obeys_typeArgument : typeArgument.Obeys rules marked := by
  apply obeys_look_bind
  intro kind
  split <;> simp

@[simp] theorem obeys_qualifiedName : qualifiedName.Obeys rules marked :=
  obeys_marked (by simp +decide)

@[simp] theorem obeys_typeOf : typeOf.Obeys rules marked := by
  simp +decide [typeOf]

@[simp] theorem obeys_typeEntry : typeEntry.Obeys rules marked := by
  apply obeys_look_bind
  intro kind
  split <;> simp +decide [prefixedType, arrayType, polymorphicType, namedType, check, checkWord]

/-! ### Operands -/

@[simp] theorem obeys_quickBody : quickBody.Obeys rules marked := by
  simp [quickBody, check]

@[simp] theorem obeys_quickProcedure : quickProcedure.Obeys rules marked := by
  simp +decide [quickProcedure, quickParameter, check]

omit [rules.Liberal] in
@[simp] theorem obeys_parenthesis [rules.TakesOperands] : parenthesis.Obeys rules marked := by
  simp [parenthesis, Rules.TakesOperands.parenthesized]

omit [rules.Liberal] in
@[simp] theorem obeys_word [rules.TakesOperands] : word.Obeys rules marked := by
  simp +decide [word, checkWord, singleQuickProcedure, Rules.TakesOperands.inlineCall]

@[simp] theorem obeys_castValue : castValue.Obeys rules marked := by
  simp [castValue]

@[simp] theorem obeys_castModifiers : castModifiers.Obeys rules marked := by
  simp [castModifiers]

@[simp] theorem obeys_cast : cast.Obeys rules marked := by
  simp +decide [cast]

@[simp] theorem obeys_automaticCast : automaticCast.Obeys rules marked := by
  simp +decide [automaticCast]

end Operands

section Grammar

variable {rules : Rules} [rules.TakesExpressions] {marked : Bool}

@[simp] theorem obeys_postfixExpression : postfixExpression.Obeys rules marked :=
  Rules.TakesExpressions.postfixExpression marked

/-! ### Declarations -/

@[simp] theorem obeys_importTail : importTail.Obeys rules marked := by
  simp [importTail]

@[simp] theorem obeys_valueDefinition : valueDefinition.Obeys rules marked := by
  simp [valueDefinition, procedureModifier]

@[simp] theorem obeys_definition : definition.Obeys rules marked := by
  simp [definition, checkWord, checkDirective, settle_struct, settle_enum]

@[simp] theorem obeys_declarationTail (isSingle : Bool) :
    (declarationTail isSingle).Obeys rules marked := by
  apply obeys_look_bind
  intro colons
  cases colons <;> simp [typedDefinition]

@[simp] theorem obeys_declaration : declaration.Obeys rules marked := by
  refine obeys_marked (obeys_andThen (obeys_bumpTagged _) (fun _ => obeys_look_bind (fun isSingle => ?_)))
  refine obeys_andThen (by simp) (fun _ => ⟨obeys_declarationTail isSingle, ?_⟩)
  intro kind view later leads
  exact ⟨rfl, liberal_kinds (NodeKind.isOperation_of_isDeclaration (leads_declarationTail leads)),
    obeys_pure ()⟩

@[simp] theorem obeys_operatorDeclaration : operatorDeclaration.Obeys rules marked := by
  simp +decide [operatorDeclaration, procedureModifier]

/-! ### Control flow -/

@[simp] theorem obeys_switchCases : switchCases.Obeys rules marked := by
  simp +decide [switchCases, checkWord, switchCase]

@[simp] theorem obeys_branch : branch.Obeys rules marked :=
  obeys_marked (by simp +decide [casesTail, branchTail])

@[simp] theorem obeys_whileLoop : whileLoop.Obeys rules marked := by
  simp +decide [whileLoop, conditionName]

@[simp] theorem obeys_forLoop : forLoop.Obeys rules marked := by
  simp +decide [forLoop, loopModifiers, loopNames]

/-! ### Statements -/

@[simp] theorem obeys_assemblyOperand : assemblyOperand.Obeys rules marked := by
  simp +decide [assemblyOperand, check]

@[simp] theorem obeys_assemblyLine : assemblyLine.Obeys rules marked := by
  simp +decide [assemblyLine, check, assemblyDeclaration, assemblyInstruction]

@[simp] theorem obeys_assembly : assembly.Obeys rules marked := by
  simp +decide [assembly, instructionSets, check]

@[simp] theorem obeys_expressionStatement : expressionStatement.Obeys rules marked :=
  obeys_marked (by simp +decide [furtherTargets, assignmentTail, check, andGoOn])

@[simp] theorem obeys_usingStatement : usingStatement.Obeys rules marked := by
  simp +decide [usingStatement]

@[simp] theorem obeys_compileTimeStatement {kind : NodeKind} (plain : kind.isOperation = false) :
    (compileTimeStatement kind).Obeys rules marked := by
  simp [compileTimeStatement, plain]

@[simp] theorem obeys_markedStatement {kind : NodeKind} (plain : kind.isOperation = false) :
    (markedStatement kind).Obeys rules marked := by
  simp [markedStatement, plain]

@[simp] theorem obeys_directiveStatementNamed (name : String) :
    (directiveStatementNamed name).Obeys rules marked := by
  unfold directiveStatementNamed
  split <;> simp +decide [loadDirective, assertion, moduleParameters, otherDirective]

@[simp] theorem obeys_wordStatement (word : String) : (wordStatement word).Obeys rules marked := by
  unfold wordStatement
  split <;> simp +decide [returnJump, loopJump, deferred, removal, pushedContext]

@[simp] theorem obeys_statementEntry : statementEntry.Obeys rules marked := by
  apply obeys_look_bind
  intro kind
  split <;> simp +decide [directiveStatement, spacedDirective]

/-- What an entry stands for obeys the rules. -/
theorem obeys_ofEntry (entry : Entry) : (ofEntry entry).Obeys rules marked := by
  cases entry with
  | expression least => exact Rules.TakesExpressions.expressionEntry least marked
  | type => exact obeys_typeEntry
  | statement => exact obeys_statementEntry

theorem obeys_sourceFile : sourceFile.Obeys rules marked := by
  simp [sourceFile]

end Grammar

end Production

end JaiSyntax
