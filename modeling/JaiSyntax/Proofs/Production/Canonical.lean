import JaiSyntax.Proofs.Production.Coverage
import JaiSyntax.Production.Statement
/-!
Canonical productions. Errors and blocks are made in one way each: an error node that a production opens
is the invalid token at the current place, a block is what the production of blocks reads, and a quick
procedure is opened where a look has found its arrow. Roots and deprecation notices are opened by none. Only
parentheses are taken apart, and no complaint is about a gap in the declared conflicts.
-/

set_option autoImplicit false

namespace JaiSyntax

/-- Whether a complaint is about the source and not about the conflicts that the grammar declares. -/
@[simp] def Complaint.isDecided : Complaint → Bool
  | .ambiguous _ _ => false
  | .expected _ | .unclosedBrace | .missingTerminator _ | .missingAfterEnumMember
  | .missingAfterAssemblyLine => true

@[simp] def Move.Suits (move : Move) (view : View) : Prop :=
  match move with
  | .report complaint => complaint.isDecided = true
  | .spliceParameters => view.lastNode = some .parenthesizedExpression
  | .bump | .bumpKeyword | .tag _ | .reinterpretLast => True

namespace Production

inductive IsToken : {α : Type} → Production α → Prop where
  | token : IsToken bump

def bracedStatements : Production Unit :=
  opened (do
    expect .lBrace
    fresh statementList
    closeBrace)

inductive IsStatements : {α : Type} → Production α → Prop where
  | statements : IsStatements bracedStatements

def listedQuickProcedure : Production Unit := do
  bump
  amongArguments (upTo .rParen (do
    quickParameter
    tag .parameters
    commaBefore .rParen))
  expect .rParen
  quickBody

def bareQuickProcedure : Production Unit := do
  identifierNode
  tag .parameters
  quickBody

/-- The productions of the inside of a quick procedure, at tokens where a look has found its arrow. -/
inductive IsQuick (kindAt : Nat → TokenKind) : {α : Type} → Production α → Prop where
  | listed (opens : kindAt 0 = .lParen) (arrow : closesBeforeArrow kindAt 63 0 1 = true) :
      IsQuick kindAt listedQuickProcedure
  | bare (name : kindAt 0 = .ident) (arrow : kindAt 1 = .fatArrow) :
      IsQuick kindAt bareQuickProcedure

end Production

namespace NodeKind

/-- Whether any production may open a node of a kind. The others are made in a single place each. -/
def isCommon : NodeKind → Bool
  | .sourceFile | .error | .block | .deprecatedDirective | .quickProcedure => false
  | _ => true

def isDeclaration : NodeKind → Bool
  | .variableDeclaration | .constDeclaration | .procedureDeclaration | .structDeclaration
  | .enumDeclaration | .importDirective => true
  | _ => false

theorem isCommon_of_isDeclaration {kind : NodeKind} (declares : kind.isDeclaration = true) :
    kind.isCommon = true := by
  cases kind <;> first | rfl | cases declares

def Admits (kind : NodeKind) {α : Type} (body : Production α) (view : View) : Prop :=
  match kind with
  | .error => view.kind = .error ∧ body.IsToken
  | .block => body.IsStatements
  | .quickProcedure => body.IsQuick view.kindAt
  | .sourceFile | .deprecatedDirective => False
  | _ => True

theorem admits_common {kind : NodeKind} (common : kind.isCommon = true) {α : Type}
    (body : Production α) (view : View) : kind.Admits body view := by
  unfold Admits
  split <;> trivial

end NodeKind

namespace Production

/-- Whether a production may lead from a view to a value and a view. Looking ahead changes no view, and a
node that is not an extra is the last one after it was read. -/
def Leads {α : Type} (production : Production α) (value : α) (view later : View) : Prop :=
  match production with
  | .pure result => value = result ∧ later = view
  | .bind first next =>
      ∃ result middle, first.Leads result view middle ∧ (next result).Leads value middle later
  | .look read => value = read view ∧ later = view
  | .refuse _ => False
  | .node kind body =>
      (kind ≠ .deprecatedDirective → later.lastNode = some kind) ∧
        ∃ start final, body.Leads value start final
  | .within _ body | .marked body | .wrap _ body | .opened body =>
      ∃ start final, body.Leads value start final
  | .act _ | .guarded _ | .repeatedly _ | .enter _ => True
termination_by structural production

/-- Whether a production opens nodes as their kinds admit it, makes moves where they suit and refuses for
a decided reason, from a view on. -/
def Canonical {α : Type} (production : Production α) (view : View) : Prop :=
  match production with
  | .pure _ | .look _ | .enter _ => True
  | .act move => move.Suits view
  | .refuse complaint => complaint.isDecided = true
  | .bind first next =>
      first.Canonical view ∧
        ∀ value later, first.Leads value view later → (next value).Canonical later
  | .node kind body => kind.Admits body view ∧ ∀ inside, body.Canonical inside
  | .wrap kind body => kind.isCommon = true ∧ ∀ inside, body.Canonical inside
  | .within _ body | .marked body | .opened body => ∀ inside, body.Canonical inside
  | .guarded body => ∀ inside, body.Canonical inside
  | .repeatedly body => ∀ inside, body.Canonical inside
termination_by structural production

section Rules

variable {α β : Type} {view later : View}

@[simp] theorem leads_pure (value result : α) :
    (Pure.pure result : Production α).Leads value view later ↔ value = result ∧ later = view :=
  Iff.rfl

@[simp] theorem leads_value (value result : α) :
    (Production.pure result).Leads value view later ↔ value = result ∧ later = view :=
  Iff.rfl

@[simp] theorem leads_bind (first : Production α) (next : α → Production β) (value : β) :
    (first >>= next).Leads value view later ↔
      ∃ result middle, first.Leads result view middle ∧ (next result).Leads value middle later :=
  Iff.rfl

@[simp] theorem leads_look (read : View → α) (value : α) :
    (look read).Leads value view later ↔ value = read view ∧ later = view :=
  Iff.rfl

@[simp] theorem leads_node {kind : NodeKind} (ordinary : kind ≠ .deprecatedDirective)
    (body : Production α) (value : α) :
    (node kind body).Leads value view later ↔
      later.lastNode = some kind ∧ ∃ start final, body.Leads value start final :=
  ⟨fun leads => ⟨leads.1 ordinary, leads.2⟩, fun leads => ⟨fun _ => leads.1, leads.2⟩⟩

@[simp] theorem leads_ite (condition : Prop) [Decidable condition] (first second : Production α)
    (value : α) :
    (if condition then first else second).Leads value view later ↔
      if condition then first.Leads value view later else second.Leads value view later := by
  split <;> exact Iff.rfl

@[simp] theorem canonical_pure (value : α) : (Pure.pure value : Production α).Canonical view :=
  trivial

@[simp] theorem canonical_value (value : α) : (Production.pure value).Canonical view := trivial

@[simp] theorem canonical_bind (first : Production α) (next : α → Production β) :
    (first >>= next).Canonical view ↔
      first.Canonical view ∧
        ∀ value later, first.Leads value view later → (next value).Canonical later :=
  Iff.rfl

@[simp] theorem canonical_look (read : View → α) : (look read).Canonical view := trivial

theorem canonical_look_bind (read : View → α) (next : α → Production β) :
    (look read >>= next).Canonical view ↔ (next (read view)).Canonical view := by
  simp

@[simp] theorem canonical_act (move : Move) : (act move).Canonical view ↔ move.Suits view := Iff.rfl

@[simp] theorem canonical_refuse (complaint : Complaint) :
    (refuse complaint : Production α).Canonical view ↔ complaint.isDecided = true :=
  Iff.rfl

@[simp] theorem canonical_enter (entry : Entry) : (enter entry).Canonical view := trivial

@[simp] theorem canonical_within (change : Context → Context) (body : Production α) :
    (within change body).Canonical view ↔ ∀ inside, body.Canonical inside :=
  Iff.rfl

/-- A node of a kind that any production may open. -/
@[simp] theorem canonical_node {kind : NodeKind} (common : kind.isCommon = true)
    (body : Production α) :
    (node kind body).Canonical view ↔ ∀ inside, body.Canonical inside :=
  ⟨And.right, fun inner => ⟨NodeKind.admits_common common body view, inner⟩⟩

@[simp] theorem canonical_marked (body : Production α) :
    (marked body).Canonical view ↔ ∀ inside, body.Canonical inside :=
  Iff.rfl

@[simp] theorem canonical_wrap (kind : NodeKind) (body : Production α) :
    (wrap kind body).Canonical view ↔
      kind.isCommon = true ∧ ∀ inside, body.Canonical inside :=
  Iff.rfl

@[simp] theorem canonical_opened (body : Production α) :
    (opened body).Canonical view ↔ ∀ inside, body.Canonical inside :=
  Iff.rfl

@[simp] theorem canonical_guarded (body : Production Unit) :
    (guarded body).Canonical view ↔ ∀ inside, body.Canonical inside :=
  Iff.rfl

@[simp] theorem canonical_repeatedly (body : Production Bool) :
    (repeatedly body).Canonical view ↔ ∀ inside, body.Canonical inside :=
  Iff.rfl

@[simp] theorem canonical_ite (condition : Prop) [Decidable condition]
    (first second : Production α) :
    (if condition then first else second).Canonical view ↔
      (condition → first.Canonical view) ∧ (¬ condition → second.Canonical view) := by
  split <;> simp_all

end Rules

section Grammar

variable {α : Type} {view : View}

/-! ### Tokens and control -/

@[simp] theorem canonical_bump : bump.Canonical view := trivial

@[simp] theorem canonical_bumpKeyword : bumpKeyword.Canonical view := trivial

@[simp] theorem canonical_tag (field : Field) : (tag field).Canonical view := trivial

@[simp] theorem canonical_bumpTagged (field : Field) : (bumpTagged field).Canonical view := by
  simp [bumpTagged]

@[simp] theorem canonical_eat (kind : TokenKind) : (eat kind).Canonical view := by
  simp [eat, check]

@[simp] theorem canonical_eatWord (word : String) : (eatWord word).Canonical view := by
  simp [eatWord, checkWord]

@[simp] theorem canonical_expect (kind : TokenKind) : (expect kind).Canonical view := by
  simp [expect]

@[simp] theorem canonical_expectName (field : Field) : (expectName field).Canonical view := by
  simp [expectName, check]

@[simp] theorem canonical_closeBrace : closeBrace.Canonical view := by
  simp [closeBrace]

@[simp] theorem canonical_discard (body : Production α) :
    (discard body).Canonical view ↔ body.Canonical view :=
  ⟨And.left, fun inner => ⟨inner, fun _ _ _ => trivial⟩⟩

@[simp] theorem canonical_onlyIf (condition : View → Bool) (body : Production Unit) :
    (onlyIf condition body).Canonical view ↔ (condition view = true → body.Canonical view) := by
  simp [onlyIf]

@[simp] theorem canonical_asLongAs (condition : View → Bool) (body : Production Unit) :
    (asLongAs condition body).Canonical view ↔
      ∀ inside, condition inside = true → body.Canonical inside := by
  simp [asLongAs]

theorem canonical_upTo (close : TokenKind) {body : Production Unit}
    (inner : ∀ inside, body.Canonical inside) : (upTo close body).Canonical view := by
  simp [upTo, inner]

theorem canonical_upToSkipping (close separator : TokenKind) {body : Production Unit}
    (inner : ∀ inside, body.Canonical inside) :
    (upToSkipping close separator body).Canonical view :=
  canonical_upTo close (fun _ => by simp [inner])

theorem canonical_commaSeparated {item : Production Unit}
    (inner : ∀ inside, item.Canonical inside) : (commaSeparated item).Canonical view := by
  simp [commaSeparated, inner]

@[simp] theorem canonical_commaBefore (close : TokenKind) :
    (commaBefore close).Canonical view := by
  simp [commaBefore]

theorem canonical_times (count : Nat) {body : Production Unit}
    (inner : ∀ inside, body.Canonical inside) : (times count body).Canonical view := by
  induction count generalizing view with
  | zero => trivial
  | succ count ih => exact ⟨inner view, fun _ _ _ => ih⟩

@[simp] theorem canonical_fresh (body : Production α) :
    (fresh body).Canonical view ↔ ∀ inside, body.Canonical inside :=
  Iff.rfl

@[simp] theorem canonical_amongArguments (body : Production α) :
    (amongArguments body).Canonical view ↔ ∀ inside, body.Canonical inside :=
  Iff.rfl

/-! ### Entries and small nodes -/

@[simp] theorem canonical_operand (least : Prec) : (operand least).Canonical view :=
  canonical_enter _

@[simp] theorem canonical_expression : expression.Canonical view := by
  simp [expression]

@[simp] theorem canonical_type : type.Canonical view := by
  simp [type]

@[simp] theorem canonical_expressionAs (field : Field) : (expressionAs field).Canonical view := by
  simp [expressionAs]

@[simp] theorem canonical_typeAs (field : Field) : (typeAs field).Canonical view := by
  simp [typeAs]

@[simp] theorem canonical_expressionsAs (field : Field) :
    (expressionsAs field).Canonical view :=
  canonical_commaSeparated (fun _ => canonical_expressionAs field)

@[simp] theorem canonical_leafNode {kind : NodeKind} (common : kind.isCommon = true) :
    (leafNode kind).Canonical view := by
  simp [leafNode, common]

@[simp] theorem canonical_keywordNode {kind : NodeKind} (common : kind.isCommon = true) :
    (keywordNode kind).Canonical view := by
  simp [keywordNode, common]

@[simp] theorem canonical_identifierNode : identifierNode.Canonical view := by
  simp +decide [identifierNode]

/-! ### Literals and arguments -/

@[simp] theorem canonical_stringBody : stringBody.Canonical view := by
  simp [stringBody, check]

@[simp] theorem canonical_characterLiteral : characterLiteral.Canonical view := by
  simp +decide [characterLiteral]

@[simp] theorem canonical_stringLiteral : stringLiteral.Canonical view := by
  simp +decide [stringLiteral, checkDirective]

@[simp] theorem canonical_heredoc : heredoc.Canonical view := by
  simp +decide [heredoc]

theorem canonical_argument {positional : Production Unit}
    (inner : ∀ inside, positional.Canonical inside) : (argument positional).Canonical view := by
  simp +decide [argument, check, inner]

theorem canonical_argumentList {positional : Production Unit}
    (inner : ∀ inside, positional.Canonical inside) :
    (argumentList positional).Canonical view := by
  simp [argumentList, canonical_upToSkipping, canonical_argument, inner]

@[simp] theorem canonical_callArguments : callArguments.Canonical view :=
  canonical_argumentList (fun _ => canonical_expression)

@[simp] theorem canonical_literalEntry : literalEntry.Canonical view := by
  simp +decide [literalEntry]

@[simp] theorem canonical_literalEntries (close : TokenKind) :
    (literalEntries close).Canonical view := by
  simp [literalEntries]

@[simp] theorem canonical_structEntries : structEntries.Canonical view := by
  simp [structEntries]

@[simp] theorem canonical_arrayEntries : arrayEntries.Canonical view := by
  simp [arrayEntries]

/-! ### Statements where they stand -/

@[simp] theorem canonical_terminator (kind : NodeKind) : (terminator kind).Canonical view := by
  unfold terminator
  split <;> simp

@[simp] theorem canonical_substatement (field : Option Field) :
    (substatement field).Canonical view := by
  refine ⟨canonical_eat _, fun taken reached _ => ?_⟩
  cases taken with
  | true => exact canonical_pure ()
  | false =>
      refine ⟨canonical_enter _, fun _ _ _ => ⟨canonical_look _, fun kind _ _ => ?_⟩⟩
      cases field with
      | none => cases kind <;> simp
      | some role =>
          refine ⟨canonical_tag role, fun _ _ _ => ?_⟩
          cases kind <;> simp

@[simp] theorem canonical_listedStatement : listedStatement.Canonical view := by
  simp [listedStatement]

@[simp] theorem canonical_statementList : statementList.Canonical view :=
  canonical_upTo _ (fun _ => canonical_listedStatement)

@[simp] theorem canonical_block : block.Canonical view :=
  ⟨.statements, fun _ => by simp⟩

@[simp] theorem canonical_bodyBlock : bodyBlock.Canonical view := by
  simp [bodyBlock]

/-! ### Directives and procedures -/

@[simp] theorem canonical_directiveOptions : directiveOptions.Canonical view := by
  simp [directiveOptions]

@[simp] theorem canonical_modifierArguments (name : String) :
    (modifierArguments name).Canonical view := by
  simp [modifierArguments]

@[simp] theorem canonical_directiveModifier : directiveModifier.Canonical view := by
  simp +decide [directiveModifier]

@[simp] theorem canonical_directiveModifiers (accepts : View → Bool) :
    (directiveModifiers accepts).Canonical view := by
  simp [directiveModifiers]

@[simp] theorem canonical_defaultValue : defaultValue.Canonical view := by
  simp [defaultValue]

@[simp] theorem canonical_parameter : parameter.Canonical view := by
  simp +decide [parameter]

@[simp] theorem canonical_parameterList : parameterList.Canonical view := by
  simp [parameterList, canonical_upTo]

@[simp] theorem canonical_result : result.Canonical view := by
  simp +decide [result]

@[simp] theorem canonical_results : results.Canonical view := by
  simp [results, canonical_upTo]

@[simp] theorem canonical_procedure : procedure.Canonical view := by
  simp +decide [procedure, apply_ite NodeKind.isCommon]

/-! ### Structs, enums and directives in expressions -/

theorem canonical_afterDoubleColon {body : Production Unit}
    (inner : ∀ inside, body.Canonical inside) : (afterDoubleColon body).Canonical view := by
  unfold afterDoubleColon
  rw [canonical_look_bind]
  split <;> simp [canonical_times, inner]

@[simp] theorem canonical_structTail : structTail.Canonical view := by
  simp [structTail]

@[simp] theorem canonical_enumMember : enumMember.Canonical view := by
  simp +decide [enumMember, canonical_afterDoubleColon]

@[simp] theorem canonical_enumMembers : enumMembers.Canonical view := by
  simp [enumMembers, canonical_upToSkipping, check]

@[simp] theorem canonical_enumDirective : enumDirective.Canonical view := by
  simp +decide [enumDirective, checkDirective]

@[simp] theorem canonical_enumTail : enumTail.Canonical view := by
  simp [enumTail]

@[simp] theorem canonical_anonymousStruct : anonymousStruct.Canonical view := by
  simp +decide [anonymousStruct]

@[simp] theorem canonical_anonymousEnum : anonymousEnum.Canonical view := by
  simp +decide [anonymousEnum]

@[simp] theorem canonical_introducer : introducer.Canonical view := by
  simp [introducer, check]

@[simp] theorem canonical_conditionalBranch : conditionalBranch.Canonical view := by
  simp +decide [conditionalBranch, check, canonical_upToSkipping]

@[simp] theorem canonical_conditionalExpression : conditionalExpression.Canonical view := by
  simp +decide [conditionalExpression]

theorem canonical_compileTimeExpression {kind : NodeKind} (common : kind.isCommon = true) :
    (compileTimeExpression kind).Canonical view := by
  simp [compileTimeExpression, common, check]

@[simp] theorem canonical_openOperand (body : Production Unit) :
    (openOperand body).Canonical view ↔ body.Canonical view := by
  simp [openOperand]

@[simp] theorem canonical_closedOperand (body : Production Unit) :
    (closedOperand body).Canonical view ↔ body.Canonical view := by
  simp [closedOperand]

@[simp] theorem canonical_directiveExpressionNamed (name : String) :
    (directiveExpressionNamed name).Canonical view := by
  unfold directiveExpressionNamed
  split <;> simp +decide [canonical_compileTimeExpression, typeLiteral, libraryDirective,
    codeExpression, appliedDirective, plainDirective, check]

@[simp] theorem canonical_directiveExpression : directiveExpression.Canonical view := by
  simp [directiveExpression]

/-! ### Types -/

@[simp] theorem canonical_typeArgument : typeArgument.Canonical view := by
  unfold typeArgument
  rw [canonical_look_bind]
  split <;> simp

@[simp] theorem canonical_qualifiedName : qualifiedName.Canonical view := by
  simp +decide [qualifiedName, canonical_argumentList]

@[simp] theorem canonical_namedType : namedType.Canonical view := by
  simp +decide [namedType, checkWord, typeOf]

@[simp] theorem canonical_arrayType : arrayType.Canonical view := by
  simp +decide [arrayType, check]

@[simp] theorem canonical_polymorphicType : polymorphicType.Canonical view := by
  simp +decide [polymorphicType]

theorem canonical_typeEntry : typeEntry.Canonical view := by
  unfold typeEntry
  rw [canonical_look_bind]
  split <;> simp +decide [prefixedType]

/-! ### Expressions -/

@[simp] theorem canonical_quickBody : quickBody.Canonical view := by
  simp [quickBody, check]

/-- The look for an arrow behind the parentheses has just been made. -/
theorem canonical_quickProcedure (opens : view.kind = .lParen)
    (arrow : view.isAtQuickParameters = true) : quickProcedure.Canonical view :=
  ⟨.listed opens arrow, fun _ => by simp +decide [canonical_upTo, quickParameter, check]⟩

theorem canonical_singleQuickProcedure (single : view.isNameBefore .fatArrow = true) :
    singleQuickProcedure.Canonical view := by
  obtain ⟨name, arrow⟩ := Bool.and_eq_true_iff.mp single
  exact ⟨.bare (eq_of_beq name) (eq_of_beq arrow), fun _ => by simp⟩

/-- The parentheses before an arrow have just been read. -/
@[simp] theorem canonical_parenthesized : parenthesized.Canonical view := by
  refine fun _ => ⟨by simp +decide, fun _ later leads => ?_⟩
  have last : later.lastNode = some .parenthesizedExpression := leads.1 (by decide)
  simp +decide [last]

theorem canonical_parenthesis (opens : view.kind = .lParen) : parenthesis.Canonical view := by
  simp +contextual [parenthesis, canonical_quickProcedure, opens]

@[simp] theorem canonical_implicitOperand : implicitOperand.Canonical view := by
  unfold implicitOperand
  rw [canonical_look_bind]
  split <;> simp +decide

@[simp] theorem canonical_word : word.Canonical view := by
  simp +decide [word, checkWord, typeOf, inlineCall, check]
  exact fun _ _ _ _ _ _ _ _ _ => canonical_singleQuickProcedure

theorem canonical_invalidToken (invalid : view.kind = .error) : (leafNode .error).Canonical view :=
  ⟨⟨invalid, .token⟩, fun _ => canonical_bump⟩

@[simp] theorem canonical_primary : primary.Canonical view := by
  unfold primary
  rw [canonical_look_bind]
  split <;> simp +decide [canonical_invalidToken, canonical_parenthesis, *]

@[simp] theorem canonical_callOperator : callOperator.Canonical view := by
  simp +decide [callOperator, settle_call]

@[simp] theorem canonical_dotOperator : dotOperator.Canonical view := by
  unfold dotOperator
  rw [canonical_look_bind]
  split <;> simp +decide [andGoOn, memberOperator, dereferenceOperator, typedLiteral,
    canonical_times]

@[simp] theorem canonical_postfixOperator : postfixOperator.Canonical view := by
  unfold postfixOperator
  rw [canonical_look_bind]
  split <;> simp +decide [andGoOn, indexOperator, dereferenceOperator, canonical_times]

@[simp] theorem canonical_postfixExpression : postfixExpression.Canonical view := by
  simp [postfixExpression]

@[simp] theorem canonical_castModifiers : castModifiers.Canonical view := by
  simp [castModifiers]

@[simp] theorem canonical_unaryExpression : unaryExpression.Canonical view := by
  unfold unaryExpression
  rw [canonical_look_bind]
  split <;> simp +decide [unaryOperator, prefixedOperand, pointerOperator, cast, castValue,
    automaticCast]

@[simp] theorem canonical_binaryOperatorStep (least : Prec) :
    (binaryOperatorStep least).Canonical view := by
  unfold binaryOperatorStep check
  rw [canonical_look_bind]
  split
  · simp +decide [rangeOperator]
  · rw [canonical_look_bind]
    split <;> simp +decide [andGoOn, binaryOperatorOf]

theorem canonical_expressionEntry (least : Prec) : (expressionEntry least).Canonical view := by
  simp [expressionEntry]

/-! ### Declarations -/

@[simp] theorem canonical_importTail : importTail.Canonical view := by
  simp [importTail]

@[simp] theorem canonical_procedureModifier : procedureModifier.Canonical view := by
  simp [procedureModifier]

@[simp] theorem canonical_valueDefinition : valueDefinition.Canonical view := by
  simp [valueDefinition]

@[simp] theorem canonical_definition : definition.Canonical view := by
  simp [definition, checkWord, checkDirective, settle_struct, settle_enum]

@[simp] theorem canonical_typedDefinition : typedDefinition.Canonical view := by
  simp [typedDefinition]

@[simp] theorem canonical_declarationTail (isSingle : Bool) :
    (declarationTail isSingle).Canonical view := by
  unfold declarationTail
  rw [canonical_look_bind]
  split <;> simp [canonical_times]

/-- A definition by a value makes a procedure or a constant. -/
theorem leads_valueDefinition {kind : NodeKind} {later : View}
    (leads : valueDefinition.Leads kind view later) :
    kind = .procedureDeclaration ∨ kind = .constDeclaration := by
  simp only [valueDefinition, leads_bind, leads_look, leads_ite] at leads
  obtain ⟨_, _, -, _, _, -, _, _, -, ends⟩ := leads
  split at ends
  · exact Or.inl ends.1
  · obtain ⟨_, _, -, _, _, -, ends⟩ := ends
    exact Or.inr ends.1

theorem leads_definition {kind : NodeKind} {later : View}
    (leads : definition.Leads kind view later) : kind.isDeclaration = true := by
  simp only [definition, checkWord, checkDirective, settle_struct, settle_enum, leads_bind,
    leads_look, leads_ite] at leads
  obtain ⟨_, _, -, leads⟩ := leads
  have valued : ∀ {start final : View}, valueDefinition.Leads kind start final →
      kind.isDeclaration = true := by
    intro start final value
    rcases leads_valueDefinition value with rfl | rfl <;> rfl
  split at leads
  · obtain ⟨_, _, ⟨rfl, -⟩, _, _, -, _, _, -, ends⟩ := leads
    exact ends.1 ▸ rfl
  obtain ⟨_, _, -, leads⟩ := leads
  split at leads
  · obtain ⟨_, _, ⟨rfl, -⟩, _, _, -, _, _, -, ends⟩ := leads
    exact ends.1 ▸ rfl
  obtain ⟨_, _, -, leads⟩ := leads
  split at leads
  · obtain ⟨_, _, -, ends⟩ := leads
    exact ends.1 ▸ rfl
  · exact valued leads

/-- The rest of a declaration tells which one it is. -/
theorem leads_declarationTail {isSingle : Bool} {kind : NodeKind} {later : View}
    (leads : (declarationTail isSingle).Leads kind view later) : kind.isDeclaration = true := by
  obtain ⟨colons, _, -, leads⟩ := leads
  cases colons with
  | none =>
      obtain ⟨_, _, -, _, _, -, taken, _, -, leads⟩ := leads
      rw [leads_ite] at leads
      split at leads
      · obtain ⟨_, _, -, ends⟩ := leads
        exact ends.1 ▸ rfl
      · obtain ⟨_, _, -, leads⟩ := leads
        rw [leads_ite] at leads
        split at leads
        · obtain ⟨_, _, -, ends⟩ := leads
          exact ends.1 ▸ rfl
        · exact leads.1 ▸ rfl
  | some count =>
      obtain ⟨_, _, -, leads⟩ := leads
      rw [leads_ite] at leads
      split at leads
      · exact leads_definition leads
      · obtain ⟨_, _, -, ends⟩ := leads
        exact ends.1 ▸ rfl

@[simp] theorem canonical_declaration : declaration.Canonical view := by
  intro inside
  refine ⟨canonical_bumpTagged _, fun _ _ _ => ⟨canonical_look _, fun _ _ _ => ⟨by simp, fun _ _ _ =>
    ⟨canonical_declarationTail _, ?_⟩⟩⟩⟩
  intro kind later leads
  exact ⟨NodeKind.isCommon_of_isDeclaration (leads_declarationTail leads), fun _ => canonical_pure _⟩

@[simp] theorem canonical_operatorDeclaration : operatorDeclaration.Canonical view := by
  simp +decide [operatorDeclaration, canonical_times]

/-! ### Control flow -/

@[simp] theorem canonical_switchCases : switchCases.Canonical view := by
  simp +decide [switchCases, canonical_upToSkipping, checkWord, switchCase]

@[simp] theorem canonical_branch : branch.Canonical view := by
  simp +decide [branch, casesTail, branchTail]

@[simp] theorem canonical_whileLoop : whileLoop.Canonical view := by
  simp +decide [whileLoop, conditionName]

@[simp] theorem canonical_forLoop : forLoop.Canonical view := by
  simp +decide [forLoop, loopModifiers, loopNames, canonical_commaSeparated]

@[simp] theorem canonical_returnJump : returnJump.Canonical view := by
  simp +decide [returnJump]

/-! ### Statements -/

@[simp] theorem canonical_assemblyOperand : assemblyOperand.Canonical view := by
  simp +decide [assemblyOperand, check]

@[simp] theorem canonical_assemblyLine : assemblyLine.Canonical view := by
  simp +decide [assemblyLine, check, assemblyDeclaration, assemblyInstruction,
    canonical_commaSeparated]

@[simp] theorem canonical_assembly : assembly.Canonical view := by
  simp +decide [assembly, instructionSets, canonical_upToSkipping, check]

@[simp] theorem canonical_expressionStatement : expressionStatement.Canonical view := by
  simp +decide [expressionStatement, furtherTargets, assignmentTail, check, andGoOn]

@[simp] theorem canonical_usingStatement : usingStatement.Canonical view := by
  simp +decide [usingStatement]

theorem canonical_compileTimeStatement {kind : NodeKind} (common : kind.isCommon = true) :
    (compileTimeStatement kind).Canonical view := by
  simp [compileTimeStatement, common]

theorem canonical_markedStatement {kind : NodeKind} (common : kind.isCommon = true) :
    (markedStatement kind).Canonical view := by
  simp [markedStatement, common]

@[simp] theorem canonical_directiveStatementNamed (name : String) :
    (directiveStatementNamed name).Canonical view := by
  unfold directiveStatementNamed
  split <;> simp +decide [canonical_compileTimeStatement, canonical_markedStatement, loadDirective,
    assertion, moduleParameters, otherDirective]

@[simp] theorem canonical_wordStatement (word : String) : (wordStatement word).Canonical view := by
  unfold wordStatement
  split <;> simp +decide [loopJump, deferred, removal, pushedContext]

theorem canonical_statementEntry : statementEntry.Canonical view := by
  unfold statementEntry
  rw [canonical_look_bind]
  split <;> simp +decide [directiveStatement, spacedDirective]

/-- What an entry stands for is canonical. -/
theorem canonical_ofEntry (entry : Entry) : (ofEntry entry).Canonical view := by
  cases entry with
  | expression least => exact canonical_expressionEntry least
  | type => exact canonical_typeEntry
  | statement => exact canonical_statementEntry

theorem canonical_sourceFile : sourceFile.Canonical view := by
  simp [sourceFile]

end Grammar

end Production

end JaiSyntax
