import Mathlib.Data.List.TakeWhile
import JaiSyntax.Proofs.Brackets.Level
import JaiSyntax.Proofs.Locality.Statement
/-!
The grammar is level: where a production consumes a bracket, it either fails, reports an error or
consumes one that closes it.
-/

set_option autoImplicit false

namespace JaiSyntax.Production

variable {α β : Type} {kindAt : Nat → TokenKind}

/-- A token that is no bracket, and what follows it. -/
theorem level_bump_bind {next : Unit → Production α} (plain : (kindAt 0).isBracket = false)
    (further : (next ()).Level (fun distance => kindAt (distance + 1))) :
    (bump >>= next).Level kindAt :=
  Or.inl ⟨plain, reaches_bump.mpr further⟩

theorem level_bumpKeyword_bind {next : Unit → Production α} (plain : (kindAt 0).isBracket = false)
    (further : (next ()).Level (fun distance => kindAt (distance + 1))) :
    (bumpKeyword >>= next).Level kindAt :=
  Or.inl ⟨plain, reaches_bumpKeyword.mpr further⟩

theorem level_bumpTagged_bind {field : Field} {next : Unit → Production α}
    (plain : (kindAt 0).isBracket = false)
    (further : (next ()).Level (fun distance => kindAt (distance + 1))) :
    (bumpTagged field >>= next).Level kindAt :=
  Or.inl ⟨level_bumpTagged field plain, (reaches_bumpTagged field).mpr further⟩

theorem level_tag_bind {field : Field} {next : Unit → Production α}
    (further : (next ()).Level kindAt) : (tag field >>= next).Level kindAt :=
  Or.inl ⟨level_tag field, (reaches_tag field).mpr further⟩

/-- A token that may be taken, of a kind that is no bracket. -/
theorem level_eat_bind {kind : TokenKind} {next : Bool → Production α}
    (plain : kind.isBracket = false) (further : ∀ taken later, (next taken).Level later) :
    (eat kind >>= next).Level kindAt :=
  level_andThen (level_eat plain) further

/-! ### Directives and procedures -/

@[simp] theorem level_directiveOptions : directiveOptions.Level kindAt := by
  refine level_asLongAs (fun view found => ?_)
  obtain ⟨comma, name⟩ := Bool.and_eq_true_iff.mp found
  refine level_bump_bind (plain_of_isAt comma rfl) (level_bumpTagged_bind ?_ ?_)
  · rw [eq_of_beq name]
    rfl
  · exact level_onlyIf (fun _ _ _ => level_callArguments)

theorem level_modifierArguments (name : String) : (modifierArguments name).Level kindAt := by
  have library (start : Nat → TokenKind) : (onlyIf (·.isAt .ident) (do
      identifierNode
      tag .argument)).Level start :=
    level_onlyIf (fun view same found =>
      level_andThen (level_identifierNode (same ▸ plain_of_isAt found rfl)) (fun _ _ => level_tag _))
  unfold modifierArguments
  split
  · refine level_andThen (library _) (fun _ _ => level_onlyIf (fun _ _ _ => ?_))
    exact level_andThen level_stringLiteral (fun _ _ => level_tag _)
  · simp

theorem level_directiveModifier (plain : (kindAt 0).isBracket = false) :
    directiveModifier.Level kindAt := by
  refine level_look_bind (fun view same => ?_)
  split
  · exact level_bump_bind plain level_bodyBlock
  · exact level_bump_bind plain (level_modifierArguments _)

/-- Modifying directives where what is accepted is a directive. -/
theorem level_directiveModifiers {accepts : View → Bool}
    (directive : ∀ view, accepts view = true → view.isAt .directive = true) :
    (directiveModifiers accepts).Level kindAt := by
  refine level_look_bind (fun _ _ => level_andThen (level_asLongAs (fun view found => ?_))
    (fun _ _ => level_pure _))
  exact level_andThen (level_directiveModifier (plain_of_isAt (directive view found) rfl))
    (fun _ _ => level_tag _)

@[simp] theorem level_defaultValue : defaultValue.Level kindAt :=
  level_eat_bind rfl (fun taken _ => by cases taken <;> simp)

/-- Whether no bracket stands behind the dollar signs ahead. -/
def PlainBehindDollars (kindAt : Nat → TokenKind) : Prop :=
  ∃ count, (∀ place < count, kindAt place = .dollar) ∧
    kindAt count ≠ .dollar ∧ (kindAt count).isBracket = false

theorem PlainBehindDollars.plain (behind : PlainBehindDollars kindAt) :
    (kindAt 0).isBracket = false := by
  obtain ⟨count, dollars, -, plain⟩ := behind
  cases count with
  | zero => exact plain
  | succ count =>
      rw [dollars 0 (Nat.zero_lt_succ count)]
      rfl

theorem PlainBehindDollars.next (behind : PlainBehindDollars kindAt) (dollar : kindAt 0 = .dollar) :
    PlainBehindDollars (fun distance => kindAt (distance + 1)) := by
  obtain ⟨count, dollars, other, plain⟩ := behind
  cases count with
  | zero => exact absurd dollar other
  | succ count =>
      exact ⟨count, fun place before => dollars _ (Nat.succ_lt_succ before), other, plain⟩

/-- What the look for a parameter counts are dollar signs. -/
theorem dollar_of_dollarsFrom {view : View} {start place : Nat}
    (before : place < view.dollarsFrom start) : view.kindAt (start + place) = .dollar := by
  have first := (List.takeWhile_prefix (fun place => view.kindAt place == .dollar)
    (l := (List.range 3).drop start)).getElem before
  have counted := List.mem_takeWhile_imp (List.getElem_mem before)
  rw [first, List.getElem_drop, List.getElem_range] at counted
  exact eq_of_beq counted

theorem plainBehindDollars_of_name {count : Nat}
    (dollars : ∀ place < count, kindAt place = .dollar) (name : kindAt count = .ident) :
    PlainBehindDollars kindAt :=
  ⟨count, dollars, by rw [name]; decide⟩

theorem plainBehindDollars_of_isAtParameter {view : View} (found : view.isAtParameter = true) :
    PlainBehindDollars view.kindAt ∧
      (view.kindAt 0 = .ident → PlainBehindDollars (fun distance => view.kindAt (distance + 1))) := by
  obtain ⟨name, colon⟩ := Bool.and_eq_true_iff.mp found
  replace name := eq_of_beq name
  replace colon := eq_of_beq colon
  cases word : view.isWordAt 0 "using" with
  | true =>
      simp only [word, if_true] at name colon
      have here : view.kindAt 0 = .ident := eq_of_beq (Bool.and_eq_true_iff.mp word).1
      refine ⟨plainBehindDollars_of_name (fun _ before => absurd before (Nat.not_lt_zero _)) here,
        fun _ => ?_⟩
      have dollars (place : Nat) (before : place < view.dollarsFrom 1) :
          view.kindAt (place + 1) = .dollar :=
        (congrArg view.kindAt (Nat.add_comm place 1)).trans (dollar_of_dollarsFrom before)
      exact plainBehindDollars_of_name dollars ((congrArg view.kindAt (Nat.add_comm _ 1)).trans name)
  | false =>
      simp only [word, Bool.false_eq_true, if_false, Nat.zero_add] at name colon
      have dollars (place : Nat) (before : place < view.dollarsFrom 0) :
          view.kindAt place = .dollar := by
        rw [← Nat.zero_add place]
        exact dollar_of_dollarsFrom before
      refine ⟨plainBehindDollars_of_name dollars name, fun here => ?_⟩
      have none : view.dollarsFrom 0 = 0 := by
        by_contra some
        have dollar := dollars 0 (Nat.pos_of_ne_zero some)
        rw [here] at dollar
        cases dollar
      rw [none, Nat.zero_add] at colon
      exact ⟨0, nofun, by beta_reduce; rw [colon]; decide⟩

theorem level_parameter {view : View} (found : view.isAtParameter = true) :
    parameter.Level view.kindAt := by
  obtain ⟨behind, behindWord⟩ := plainBehindDollars_of_isAtParameter found
  have round (view : View) (kept : PlainBehindDollars view.kindAt)
      (dollar : view.isAt .dollar = true) :
      (bumpTagged .modifier).Level view.kindAt ∧
        (bumpTagged .modifier).Reaches view.kindAt (fun _ later => PlainBehindDollars later) :=
    ⟨level_bumpTagged _ kept.plain, (reaches_bumpTagged _).mpr (kept.next (eq_of_beq dollar))⟩
  have named {ahead : Nat → TokenKind} (start : PlainBehindDollars ahead) :
      (do
        asLongAs (·.isAt .dollar) (bumpTagged .modifier)
        bumpTagged .name
        expect .colon
        onlyIf (fun view => !view.isAt .eq) (typeAs .type)
        defaultValue).Level ahead := by
    obtain ⟨dollars, behindDollars⟩ := level_asLongAs_of_kept start round
    refine Or.inl ⟨dollars, fun _ _ _ passes => ?_⟩
    refine level_bumpTagged_bind (behindDollars _ _ _ passes).plain ?_
    exact level_andThen (level_expect rfl) (fun _ _ => level_andThen
      (level_onlyIf (fun _ _ _ => level_typeAs _)) (fun _ _ => level_defaultValue))
  refine Or.inl ⟨level_onlyIf (fun _ same word =>
    level_bumpKeyword_bind (same ▸ plain_of_isWordIn word) (level_tag _)), ?_⟩
  refine (reaches_onlyIf _ _).mpr (fun other same => ⟨fun word => ?_, fun _ => named behind⟩)
  have here : view.kindAt 0 = .ident := same ▸ eq_of_beq (Bool.and_eq_true_iff.mp word).1
  exact (reaches_bind _ _).mpr (reaches_bumpKeyword.mpr ((reaches_tag _).mpr (named (behindWord here))))

@[simp] theorem level_parameterList : parameterList.Level kindAt := by
  refine level_between (opens_expect rfl) (fun _ => level_upTo _ (fun start => ?_))
    (fun _ => closes_expect rfl rfl)
  refine level_choice (fun view same found => ?_) (by simp)
  exact level_andThen (same ▸ level_parameter found) (fun _ _ => by simp)

/-- What is behind a name and the token after it. -/
theorem plain_of_isNameBefore {view : View} {kind : TokenKind} (found : view.isNameBefore kind = true)
    (plain : kind.isBracket = false) :
    (view.kindAt 0).isBracket = false ∧ (view.kindAt 1).isBracket = false := by
  obtain ⟨name, second⟩ := Bool.and_eq_true_iff.mp found
  refine ⟨plain_of_isAt name rfl, ?_⟩
  rw [eq_of_beq second]
  exact plain

@[simp] theorem level_result : result.Level kindAt := by
  refine level_choice (fun view same found => ?_) (by simp)
  obtain ⟨name, colon⟩ := plain_of_isNameBefore found rfl
  rw [same] at name colon
  simp [level_bumpTagged, name, colon]

@[simp] theorem level_results : results.Level kindAt := by
  refine level_look_bind (fun view same => ?_)
  split
  · next found =>
      simp only [Bool.and_eq_true] at found
      have opening : kindAt 0 = .lParen := same ▸ eq_of_beq found.1.1
      exact level_between (opens_bump (by rw [opening]; rfl)) (fun _ => level_upTo _ (fun _ => by simp))
        (fun _ => closes_expect rfl rfl)
  · refine level_andThen level_result (fun _ _ => level_asLongAs (fun view found => ?_))
    exact level_bump_bind (plain_of_isAt (Bool.and_eq_true_iff.mp found).2 rfl) level_result

theorem directive_of_isDirectiveIn {names : List String} (view : View)
    (found : view.isDirectiveIn names = true) : view.isAt .directive = true :=
  (Bool.and_eq_true_iff.mp found).1

@[simp] theorem level_procedure : procedure.Level kindAt := by
  refine level_look_bind (fun view same => level_andThen level_parameterList (fun _ _ => ?_))
  refine level_eat_bind rfl (fun taken _ => ?_)
  have directives (start : Nat → TokenKind) :
      (directiveModifiers (·.isDirectiveIn procedureDirectives)).Level start :=
    level_directiveModifiers directive_of_isDirectiveIn
  cases taken <;> simp [directives]

/-! ### Structs, enums and directives in expressions -/

/-- A double colon is one or two tokens that are no brackets. -/
theorem level_doubleColon {colons : Nat} (found : doubleColonAt? kindAt 0 = some colons) :
    (times colons bump).Level kindAt := by
  unfold doubleColonAt? at found
  split at found
  · next fused =>
      cases found
      exact level_bump_bind (by rw [fused]; rfl) (level_pure ())
  · next colon =>
      split at found
      · next second =>
          cases found
          refine level_bump_bind (by rw [colon]; rfl) (level_bump_bind ?_ (level_pure ()))
          exact (congrArg TokenKind.isBracket (eq_of_beq second)).trans rfl
      · cases found
  · cases found

theorem level_afterDoubleColon {body : Production Unit} (inner : ∀ start, body.Level start) :
    (afterDoubleColon body).Level kindAt := by
  refine level_look_bind (fun view same => ?_)
  split
  · next colons found => exact level_andThen (level_doubleColon (same ▸ found)) (fun _ _ => inner _)
  · trivial

@[simp] theorem level_structTail : structTail.Level kindAt := by
  refine level_andThen (level_onlyIf (fun _ _ _ => level_parameterList)) (fun _ _ => ?_)
  refine level_andThen (level_discard (level_directiveModifiers (fun _ => id))) (fun _ _ => ?_)
  exact level_braces (fun _ => level_statementList)

@[simp] theorem level_enumMember (plain : (kindAt 0).isBracket = false) : enumMember.Level kindAt := by
  refine level_andThen (level_bumpTagged_bind plain (level_afterDoubleColon (fun _ => by simp)))
    (fun _ _ => level_eat_bind rfl (fun taken _ => ?_))
  cases taken with
  | true => trivial
  | false => exact level_onlyIf (fun _ _ _ => level_report _)

@[simp] theorem level_enumMembers : enumMembers.Level kindAt := by
  refine level_upToSkipping rfl (fun start => level_choice (fun view same found => ?_) trivial)
  exact level_enumMember (same ▸ plain_of_isAt found rfl)

theorem level_enumDirective (plain : (kindAt 0).isBracket = false) : enumDirective.Level kindAt := by
  refine level_look_bind (fun view same => ?_)
  split
  · exact level_leafNode plain
  · exact level_andThen (level_directiveModifier plain) (fun _ _ => level_tag _)

@[simp] theorem level_enumTail : enumTail.Level kindAt := by
  refine level_andThen (level_onlyIf (fun _ _ _ => level_typeAs _)) (fun _ _ => ?_)
  refine level_andThen (level_asLongAs (fun view found => ?_)) (fun _ _ => ?_)
  · exact level_enumDirective (plain_of_isAt found rfl)
  · exact level_braces (fun _ => level_enumMembers)

theorem level_anonymousStruct (plain : (kindAt 0).isBracket = false) :
    anonymousStruct.Level kindAt :=
  level_bumpKeyword_bind plain level_structTail

theorem level_anonymousEnum (plain : (kindAt 0).isBracket = false) : anonymousEnum.Level kindAt :=
  level_bumpKeyword_bind plain level_enumTail

theorem level_introducer (plain : (kindAt 0).isBracket = false) : introducer.Level kindAt := by
  refine level_look_bind (fun view same => ?_)
  split <;> exact plain

@[simp] theorem level_conditionalBranch : conditionalBranch.Level kindAt := by
  refine level_choice (fun view same found => ?_) (by simp)
  have opening : kindAt 0 = .lBrace := same ▸ eq_of_beq found
  refine level_between (opens_bump (by rw [opening]; rfl))
    (fun _ => level_upToSkipping rfl (fun _ => ?_)) (fun _ => closes_closeBrace)
  exact level_andThen level_expression (fun _ _ => level_onlyIf (fun _ _ _ => level_expect rfl))

theorem level_conditionalExpression (plain : (kindAt 0).isBracket = false) :
    conditionalExpression.Level kindAt := by
  refine level_andThen (level_introducer plain) (fun _ _ => ?_)
  simp [level_discard]

theorem level_compileTimeExpression {kind : NodeKind} (plain : (kindAt 0).isBracket = false) :
    (compileTimeExpression kind).Level kindAt := by
  refine level_bump_bind plain (level_andThen level_directiveOptions (fun _ _ => ?_))
  refine level_eat_bind rfl (fun taken _ => ?_)
  cases taken with
  | true => simp
  | false => simp

@[simp] theorem level_openOperand {body : Production Unit} (inner : body.Level kindAt) :
    (openOperand body).Level kindAt :=
  level_andThen inner (fun _ _ => level_pure _)

@[simp] theorem level_closedOperand {body : Production Unit} (inner : body.Level kindAt) :
    (closedOperand body).Level kindAt :=
  level_andThen inner (fun _ _ => level_pure _)

theorem level_codeExpression (plain : (kindAt 0).isBracket = false) : codeExpression.Level kindAt := by
  refine level_bump_bind plain (level_andThen level_directiveOptions (fun _ _ => ?_))
  exact level_look_bind (fun _ _ => by simp)

theorem level_plainDirective (plain : (kindAt 0).isBracket = false) : plainDirective.Level kindAt :=
  level_bump_bind plain (level_onlyIf (fun _ _ _ => level_callArguments))

theorem level_directiveExpressionNamed (name : String) (plain : (kindAt 0).isBracket = false) :
    (directiveExpressionNamed name).Level kindAt := by
  unfold directiveExpressionNamed
  split <;> simp [level_characterLiteral, level_heredoc, level_compileTimeExpression,
    level_conditionalExpression, level_codeExpression, level_plainDirective, typeLiteral,
    libraryDirective, appliedDirective, plain]

theorem level_directiveExpression (plain : (kindAt 0).isBracket = false) :
    directiveExpression.Level kindAt :=
  level_look_bind (fun _ _ => level_directiveExpressionNamed _ plain)

/-! ### Types -/

@[simp] theorem level_typeArgument : typeArgument.Level kindAt := by
  refine level_look_bind (fun view same => ?_)
  split <;> simp

/-- A member behind a dot. -/
theorem level_member {view : View} (found : (view.isAt .dot && view.kindAt 1 == .ident) = true) :
    (do
      bump
      bumpTagged .member).Level view.kindAt := by
  obtain ⟨dot, member⟩ := Bool.and_eq_true_iff.mp found
  refine level_bump_bind (plain_of_isAt dot rfl) (level_bumpTagged _ ?_)
  exact (congrArg TokenKind.isBracket (eq_of_beq member)).trans rfl

theorem level_qualifiedName (plain : (kindAt 0).isBracket = false) : qualifiedName.Level kindAt := by
  refine level_andThen (level_identifierNode plain) (fun _ _ => ?_)
  refine level_andThen (level_asLongAs (fun view found => ?_)) (fun _ _ => ?_)
  · exact level_tag_bind (level_member found)
  · refine level_onlyIf (fun _ _ _ => level_andThen (level_tag _) (fun _ _ => ?_))
    exact level_argumentList (fun _ => level_typeArgument)

theorem level_typeOf (plain : (kindAt 0).isBracket = false) : typeOf.Level kindAt := by
  refine level_bumpKeyword_bind plain (level_bracketed (opens_expect rfl) (.of_all (fun _ _ => ?_)))
  refine closes_behind (level_fresh _ |>.mpr level_expression) (.of_all (fun _ _ => ?_))
  exact closes_behind (level_tag _) (.of_all (fun _ _ => closes_expect rfl rfl))

theorem level_namedType (plain : (kindAt 0).isBracket = false) : namedType.Level kindAt := by
  simp [namedType, checkWord, level_anonymousStruct, level_anonymousEnum, level_typeOf, level_leafNode,
    level_qualifiedName, plain]

theorem level_arrayType (opening : kindAt 0 = .lBracket) : arrayType.Level kindAt := by
  refine level_bracketed (opens_bump (by rw [opening]; rfl)) (.of_all (fun _ later => ?_))
  have closing (ahead : Nat → TokenKind) : (do
      expect .rBracket
      onlyIf (·.canStartType) (typeAs .element) : Production Unit).Closes ahead :=
    closes_andThen (closes_expect rfl rfl)
      (.of_all (fun _ _ => level_onlyIf (fun _ _ _ => level_typeAs _)))
  refine closes_behind (level_look _) ((reaches_look _).mpr (fun view same => ?_))
  split
  · next found =>
      exact closes_behind (same ▸ plain_of_isAt found rfl) (.of_all (fun _ _ => closing _))
  · refine closes_behind (level_onlyIf (fun _ _ _ => ?_)) (.of_all (fun _ _ => closing _))
    exact level_andThen ((level_fresh _).mpr level_expression) (fun _ _ => level_tag _)

theorem level_polymorphicType (plain : (kindAt 0).isBracket = false) :
    polymorphicType.Level kindAt := by
  refine level_bump_bind plain (level_andThen (level_discard (level_eat rfl)) (fun _ _ => ?_))
  refine level_andThen (level_expectName _) (fun _ _ => level_eat_bind rfl (fun taken _ => ?_))
  cases taken <;> simp

theorem level_prefixedType {kind : NodeKind} (plain : (kindAt 0).isBracket = false) :
    (prefixedType kind).Level kindAt :=
  level_bump_bind plain level_type

theorem level_typeEntry : typeEntry.Level kindAt := by
  refine level_look_bind (fun view same => ?_)
  subst same
  split
  · next here => exact level_namedType (plain_of_kind here rfl)
  · next here => exact level_prefixedType (plain_of_kind here rfl)
  · next here => exact level_arrayType here
  · exact level_discard level_procedure
  · next here => exact level_polymorphicType (plain_of_kind here rfl)
  · next here => exact level_prefixedType (plain_of_kind here rfl)
  · next here => exact level_discard (level_directiveExpression (plain_of_kind here rfl))
  · trivial

/-! ### Quick procedures and other operands -/

def quickParameters : Production Unit :=
  amongArguments (upTo .rParen (do
    quickParameter
    tag .parameters
    commaBefore .rParen))

theorem level_quickParameter : quickParameter.Level kindAt :=
  level_choice (fun _ same found => same ▸ level_parameter found) (level_choice
    (fun _ same found => level_identifierNode (same ▸ plain_of_isAt found rfl)) trivial)

theorem level_quickParameters : quickParameters.Level kindAt :=
  level_upTo _ (fun _ => level_andThen level_quickParameter (fun _ _ => by simp))

theorem level_quickBody (arrow : kindAt 0 = .fatArrow) : quickBody.Level kindAt := by
  refine level_bump_bind (by rw [arrow]; rfl) (level_look_bind (fun _ _ => ?_))
  simp

/-- Where the look found an arrow, the parameters and the parenthesis behind them are passed just up to
an arrow. -/
theorem arrow_behind_parameters {inside closing rest : Nat → TokenKind} {listed closed : Unit}
    {kinds last : List TokenKind} (found : closesBeforeArrow kindAt 63 0 1 = true)
    (opened : kindAt = kindsBefore [.lParen] inside)
    (parameters : quickParameters.Passes listed inside kinds closing)
    (close : (expect .rParen).Passes closed closing last rest) : rest 0 = .fatArrow := by
  have same : kindAt = kindsBefore (.lParen :: kinds ++ [.rParen]) rest := by
    rw [opened, parameters.kindAt_eq, close.kindAt_eq, passes_expect close, ← kindsBefore_append,
      ← kindsBefore_append]
    rfl
  exact arrow_of_closesBeforeArrow found same (level_quickParameters.balances _ _ _ parameters)

/-- The arrow of a quick procedure is no bracket, since the look has found it. -/
theorem level_quickProcedure (opens : kindAt 0 = .lParen)
    (found : closesBeforeArrow kindAt 63 0 1 = true) : quickProcedure.Level kindAt := by
  refine Or.inr ?_
  rintro value kinds later ⟨_, inside, front, _, opening, ⟨listed, closing, inner, _, parameters,
    ⟨closed, rest, last, further, close, body, rfl⟩, rfl⟩, rfl⟩
  have opened : kindAt = kindsBefore [.lParen] inside := by
    have passes : bump.Passes _ kindAt front inside := opening
    have first := passes.kindAt_eq
    rwa [opening.1, opens] at first
  have arrow := arrow_behind_parameters found opened parameters close
  have listedBalanced := level_quickParameters.balances _ _ _ parameters
  have bodyBalanced := (level_quickBody arrow).balances _ _ _ body
  rw [passes_expect close, opening.1, opens, Balanced, List.singleton_append, openAfter_cons]
  change openAfter 1 (inner ++ _) = some 0
  rw [openAfter_append, listedBalanced.openAfter_eq]
  exact bodyBalanced

theorem level_singleQuickProcedure {view : View} (single : view.isNameBefore .fatArrow = true) :
    singleQuickProcedure.Level view.kindAt := by
  obtain ⟨name, arrow⟩ := Bool.and_eq_true_iff.mp single
  refine Or.inl ⟨level_identifierNode (plain_of_isAt name rfl), reaches_identifierNode.mpr ?_⟩
  exact level_tag_bind (level_quickBody (eq_of_beq arrow))

theorem level_parenthesized (opens : kindAt 0 = .lParen) : parenthesized.Level kindAt := by
  refine level_andThen ?_ (fun _ _ => level_onlyIf (fun view same found => ?_))
  · exact level_between (opens_bump (by rw [opens]; rfl))
      (fun _ => (level_fresh _).mpr level_expression) (fun _ => closes_expect rfl rfl)
  · have plain := plain_of_isAt found rfl
    rw [same] at plain
    exact Or.inl ⟨level_spliceParameters,
      reaches_spliceParameters.mpr (level_bump_bind plain level_results)⟩

theorem level_parenthesis (opens : kindAt 0 = .lParen) : parenthesis.Level kindAt := by
  refine level_choice (fun view same found => ?_) (level_choice (fun _ _ _ => level_procedure)
    (level_openOperand (level_parenthesized opens)))
  exact level_closedOperand (level_quickProcedure opens (same ▸ found))

theorem level_inlineCall (plain : (kindAt 0).isBracket = false)
    (name : (kindAt 1).isBracket = false) : inlineCall.Level kindAt := by
  refine level_bumpKeyword_bind plain (level_tag_bind (level_andThen (level_identifierNode name)
    (fun _ _ => level_look_bind (fun _ _ => ?_))))
  simp

theorem level_implicitOperand (dot : kindAt 0 = .dot) : implicitOperand.Level kindAt := by
  have plain : (kindAt 0).isBracket = false := by
    rw [dot]
    rfl
  refine level_look_bind (fun view same => ?_)
  subst same
  split
  · next opening => exact level_structEntries plain opening
  · next opening => exact level_arrayEntries plain opening
  · next name => exact level_bump_bind plain (level_bumpTagged _ (by rw [name]; rfl))
  · trivial

theorem level_word (plain : (kindAt 0).isBracket = false) : word.Level kindAt := by
  have call (view : View) (same : view.kindAt = kindAt)
      (found : (view.isWordIn ["inline", "no_inline"] && view.kindAt 1 == .ident) = true) :
      inlineCall.Level kindAt := by
    refine level_inlineCall plain ?_
    rw [← same, eq_of_beq (Bool.and_eq_true_iff.mp found).2]
    rfl
  have single (view : View) (same : view.kindAt = kindAt)
      (found : view.isNameBefore .fatArrow = true) : singleQuickProcedure.Level kindAt :=
    same ▸ level_singleQuickProcedure found
  refine level_choice (fun _ _ _ => level_openOperand (level_keywordNode plain)) ?_
  refine level_choice (fun _ _ _ => level_openOperand (level_keywordNode plain)) ?_
  refine level_choice (fun _ _ _ => level_closedOperand (level_anonymousStruct plain)) ?_
  refine level_choice (fun _ _ _ => level_closedOperand (level_anonymousEnum plain)) ?_
  refine level_choice (fun _ _ _ => level_closedOperand (level_conditionalExpression plain)) ?_
  refine level_choice (fun _ _ _ => level_openOperand (level_typeOf plain)) ?_
  refine level_choice (fun view same found => level_openOperand (call view same found)) ?_
  refine level_choice (fun _ _ _ => level_refuse _) ?_
  refine level_choice (fun _ _ _ => level_openOperand (level_leafNode plain)) ?_
  refine level_choice (fun view same found => level_closedOperand (single view same found)) ?_
  exact level_openOperand (level_identifierNode plain)

theorem level_primary : primary.Level kindAt := by
  refine level_look_bind (fun view same => ?_)
  subst same
  split
  · next here => exact level_word (plain_of_kind here rfl)
  · next here => exact level_openOperand (level_leafNode (plain_of_kind here rfl))
  · next here => exact level_openOperand (level_leafNode (plain_of_kind here rfl))
  · exact level_openOperand level_stringLiteral
  · next here => exact level_directiveExpression (plain_of_kind here rfl)
  · next here => exact level_parenthesis here
  · exact level_openOperand level_type
  · exact level_openOperand level_type
  · next here => exact level_openOperand (level_implicitOperand here)
  · next here => exact level_openOperand (level_leafNode (plain_of_kind here rfl))
  · next here => exact level_openOperand (level_leafNode (plain_of_kind here rfl))
  · trivial

/-! ### Operators -/

theorem level_andGoOn {body : Production Unit} (inner : body.Level kindAt) :
    (andGoOn body).Level kindAt :=
  level_andThen inner (fun _ _ => level_pure _)

theorem level_callOperator : callOperator.Level kindAt := by
  simp [callOperator, settle_call]

theorem level_indexOperator (opens : kindAt 0 = .lBracket) : indexOperator.Level kindAt := by
  refine level_tag_bind (level_between (opens_bump (by rw [opens]; rfl))
    (fun _ => (level_fresh _).mpr ?_) (fun _ => closes_expect rfl rfl))
  refine level_andThen (level_expressionAs _) (fun _ _ => level_eat_bind rfl (fun taken _ => ?_))
  cases taken <;> simp

theorem level_typedLiteral {kind : NodeKind} {entries : Production Unit}
    (inner : entries.Level kindAt) : (typedLiteral kind entries).Level kindAt :=
  Or.inl ⟨level_reinterpretLast, reaches_reinterpretLast.mpr (level_tag_bind inner)⟩

theorem level_dotOperator (dot : kindAt 0 = .dot) : dotOperator.Level kindAt := by
  have plain : (kindAt 0).isBracket = false := by
    rw [dot]
    rfl
  refine level_look_bind (fun view same => ?_)
  subst same
  split
  · next name =>
      refine level_andGoOn (level_tag_bind (level_bump_bind plain (level_bumpTagged _ ?_)))
      rw [name]
      rfl
  · next star =>
      refine level_andGoOn (level_tag_bind (level_bump_bind plain (level_bump_bind ?_ (level_pure ()))))
      rw [star]
      rfl
  · next opening => exact level_andGoOn (level_typedLiteral (level_structEntries plain opening))
  · next opening => exact level_andGoOn (level_typedLiteral (level_arrayEntries plain opening))
  · trivial

theorem level_postfixOperator : postfixOperator.Level kindAt := by
  refine level_look_bind (fun view same => ?_)
  subst same
  split
  · exact level_andGoOn level_callOperator
  · next here => exact level_andGoOn (level_indexOperator here)
  · next here => exact level_dotOperator here
  · next here =>
      refine level_choice (fun _ _ _ => level_pure _) (level_andGoOn (level_tag_bind ?_))
      exact level_bump_bind (plain_of_kind here rfl) (level_pure ())
  · trivial

@[simp] theorem level_postfixExpression : postfixExpression.Level kindAt := by
  refine level_andThen level_primary (fun kind _ => ?_)
  split
  · exact level_andThen (level_repeatedly (fun _ => level_postfixOperator)) (fun _ _ => level_pure _)
  · trivial

@[simp] theorem level_castModifiers : castModifiers.Level kindAt := by
  refine level_asLongAs (fun view found => ?_)
  obtain ⟨comma, name⟩ := Bool.and_eq_true_iff.mp found
  refine level_bump_bind (plain_of_isAt comma rfl) (level_bumpTagged _ ?_)
  rw [eq_of_beq name]
  rfl

@[simp] theorem level_castValue : castValue.Level kindAt :=
  level_andThen (level_operand _) (fun _ _ => level_tag _)

theorem level_cast (plain : (kindAt 0).isBracket = false) : cast.Level kindAt := by
  refine level_bumpKeyword_bind plain (level_andThen level_castModifiers (fun _ _ => ?_))
  refine level_bracketed (opens_expect rfl) (.of_all (fun _ _ => ?_))
  refine closes_behind ((level_fresh _).mpr level_type) (.of_all (fun _ _ => ?_))
  refine closes_behind (level_tag _) (.of_all (fun _ _ => ?_))
  exact closes_andThen (closes_expect rfl rfl) (.of_all (fun _ _ => level_castValue))

theorem level_automaticCast (plain : (kindAt 0).isBracket = false) : automaticCast.Level kindAt :=
  level_bumpKeyword_bind plain (level_andThen level_castModifiers (fun _ _ => level_castValue))

theorem level_unaryExpression : unaryExpression.Level kindAt := by
  have operator (view : View) {kind : TokenKind} (here : view.kind = kind)
      (plain : kind.isBracket = false) : (openOperand unaryOperator).Level view.kindAt :=
    level_openOperand (level_bumpTagged_bind (plain_of_kind here plain) (by simp))
  have word (view : View) (word : String) (found : view.isWordAt 0 word = true) :
      (view.kindAt 0).isBracket = false := plain_of_isAt (Bool.and_eq_true_iff.mp found).1 rfl
  refine level_look_bind (fun view same => ?_)
  subst same
  split
  · next here => exact operator view here rfl
  · next here => exact operator view here rfl
  · next here => exact operator view here rfl
  · next here => exact operator view here rfl
  · next here => exact operator view here rfl
  · next here => exact level_openOperand (level_bump_bind (plain_of_kind here rfl) (by simp))
  · next here => exact level_openOperand (level_bump_bind (plain_of_kind here rfl) (by simp))
  · refine level_choice (fun other same found => level_openOperand (level_cast ?_)) ?_
    · exact same ▸ word other _ (Bool.and_eq_true_iff.mp found).1
    refine level_choice (fun other same found => level_openOperand (level_automaticCast ?_)) ?_
    · exact same ▸ word other _ (Bool.and_eq_true_iff.mp found).1
    exact level_postfixExpression

/-- No bracket is a binary operator. -/
theorem plain_of_operatorAt {least prec : Prec} {view : View}
    (found : operatorAt? least view = some prec) : (view.kindAt 0).isBracket = false := by
  have operators (kind : TokenKind) (operator : BinaryOperator)
      (known : binaryOperator? kind = some operator) : kind.isBracket = false := by
    cases kind <;> first | rfl | cases known
  unfold operatorAt? at found
  split at found
  · cases found
  · next operator known => exact operators view.kind operator known

theorem level_binaryOperatorStep (least : Prec) : (binaryOperatorStep least).Level kindAt := by
  refine level_choice (fun view same found => ?_) (level_look_bind (fun view same => ?_))
  · subst same
    have range : rangeOperator.Level view.kindAt :=
      level_tag_bind (level_bump_bind (plain_of_isAt found rfl) (by simp))
    split
    · exact level_andThen range (fun _ _ => level_pure _)
    · trivial
  · subst same
    split
    · trivial
    · next prec found =>
        refine level_andGoOn (level_tag_bind (level_bumpTagged_bind (plain_of_operatorAt found) ?_))
        simp

theorem level_expressionEntry (least : Prec) : (expressionEntry least).Level kindAt := by
  refine level_andThen level_unaryExpression (fun kind _ => ?_)
  split
  · exact level_repeatedly (fun _ => level_binaryOperatorStep least)
  · trivial

/-! ### Declarations -/

theorem level_importTail (plain : (kindAt 0).isBracket = false) : importTail.Level kindAt := by
  refine level_bump_bind plain (level_andThen level_directiveOptions (fun _ _ => ?_))
  refine level_andThen level_stringLiteral (fun _ _ => level_andThen (level_tag _) (fun _ _ => ?_))
  exact level_onlyIf (fun _ _ _ => level_callArguments)

@[simp] theorem level_procedureModifier : procedureModifier.Level kindAt := by
  refine level_onlyIf (fun view same found => ?_)
  exact level_bumpKeyword_bind (same ▸ plain_of_isWordIn (Bool.and_eq_true_iff.mp found).1)
    (level_tag _)

@[simp] theorem level_valueDefinition : valueDefinition.Level kindAt := by
  refine level_andThen level_procedureModifier (fun _ _ =>
    level_andThen level_expression (fun _ _ => ?_))
  refine level_choice (fun _ _ _ => level_pure _) (level_andThen (level_tag _) (fun _ _ => ?_))
  refine level_andThen (level_asLongAs (fun view found => ?_)) (fun _ _ => level_pure _)
  exact level_bump_bind (plain_of_isAt found rfl) (level_expressionAs _)

@[simp] theorem level_definition : definition.Level kindAt := by
  refine level_choice (fun view same found => ?_) (level_choice (fun view same found => ?_)
    (level_choice (fun view same found => ?_) level_valueDefinition))
  · have plain := plain_of_isWordIn found
    simp [settle_struct, same ▸ plain]
  · have plain := plain_of_isWordIn found
    simp [settle_enum, same ▸ plain]
  · refine level_andThen (level_importTail ?_) (fun _ _ => level_pure _)
    exact same ▸ plain_of_isDirectiveIn found

@[simp] theorem level_typedDefinition : typedDefinition.Level kindAt := by
  refine level_andThen (level_onlyIf (fun _ _ _ => level_typeAs _)) (fun _ _ => ?_)
  refine level_eat_bind rfl (fun taken _ => ?_)
  cases taken with
  | true => simp
  | false =>
      refine level_eat_bind rfl (fun taken _ => ?_)
      cases taken <;> simp

@[simp] theorem level_declarationTail (isSingle : Bool) : (declarationTail isSingle).Level kindAt := by
  refine level_look_bind (fun view same => ?_)
  split
  · next colons found =>
      refine level_andThen (level_doubleColon (same ▸ found)) (fun _ _ => ?_)
      cases isSingle <;> simp
  · exact level_andThen (level_expect rfl) (fun _ _ => level_typedDefinition)

theorem level_declaration (plain : (kindAt 0).isBracket = false) : declaration.Level kindAt := by
  refine level_bumpTagged_bind plain (level_look_bind (fun _ _ => ?_))
  refine level_andThen (level_asLongAs (fun view found => ?_)) (fun _ _ => ?_)
  · exact level_bump_bind (plain_of_isAt found rfl) (level_expectName _)
  · exact level_andThen (level_declarationTail _) (fun _ _ => trivial)

/-- What is taken as the tokens of an operator are those that spell it. -/
theorem passes_spelled {spelling kinds : List TokenKind} {later : Nat → TokenKind} {value : Unit}
    (spelled : spelledAt kindAt 0 spelling = true)
    (passes : (times spelling.length (bumpTagged .operator)).Passes value kindAt kinds later) :
    kinds = spelling := by
  induction spelling generalizing kindAt kinds with
  | nil => exact passes.2.1
  | cons kind rest ih =>
      obtain ⟨here, further⟩ := Bool.and_eq_true_iff.mp spelled
      obtain ⟨_, _, _, back, ⟨_, _, _, _, ⟨rfl, rfl⟩, ⟨rfl, rfl⟩, rfl⟩, passes, rfl⟩ := passes
      rw [← spelledAt_succ] at further
      rw [ih further passes, eq_of_beq here]
      rfl

/-- The operators that can be overloaded have no open brackets. -/
theorem overloadable_balanced : ∀ spelling ∈ overloadableOperators, Balanced spelling := by
  decide

theorem level_spelled {spelling : List TokenKind} (spelled : spelledAt kindAt 0 spelling = true)
    (balanced : Balanced spelling) :
    (times spelling.length (bumpTagged .operator)).Level kindAt := by
  cases spelling with
  | nil => trivial
  | cons kind rest => exact Or.inr (fun _ _ _ passes => passes_spelled spelled passes ▸ balanced)

theorem level_operatorDeclaration (plain : (kindAt 0).isBracket = false)
    (overloads : (operatorLengthAt? kindAt 1).isSome = true) :
    operatorDeclaration.Level kindAt := by
  refine level_bumpKeyword_bind plain (level_look_bind (fun view same => ?_))
  obtain ⟨length, found⟩ := Option.isSome_iff_exists.mp overloads
  rw [← operatorLengthAt?_succ, ← same] at found
  obtain ⟨spelling, spells, rfl⟩ := Option.map_eq_some_iff.mp found
  have both := List.find?_some spells
  have spelled := (Bool.and_eq_true_iff.mp both).1
  rw [found, Option.getD_some, ← same]
  have balanced := overloadable_balanced spelling (List.mem_of_find?_eq_some spells)
  refine level_andThen (level_spelled spelled balanced)
    (fun _ _ => level_look_bind (fun view same => level_andThen ?_ (fun _ _ => by simp)))
  cases colons : doubleColonAt? view.kindAt 0 with
  | none => trivial
  | some count => exact same ▸ level_doubleColon colons

/-! ### Control flow -/

@[simp] theorem level_switchCase (plain : (kindAt 0).isBracket = false) : switchCase.Level kindAt := by
  refine level_bumpKeyword_bind plain (level_andThen (level_onlyIf (fun _ _ _ => level_expressionAs _))
    (fun _ _ => level_andThen (level_expect rfl) (fun _ _ => ?_)))
  exact level_asLongAs (fun _ _ => level_listedStatement)

@[simp] theorem level_switchCases : switchCases.Level kindAt :=
  level_upToSkipping rfl (fun _ =>
    level_choice (fun _ same found => level_switchCase (same ▸ plain_of_isWordIn found)) trivial)

theorem level_casesTail (plain : (kindAt 0).isBracket = false) (opens : kindAt 1 = .lBrace) :
    casesTail.Level kindAt :=
  level_bump_bind plain (level_between (opens_bump (by rw [opens]; rfl))
    (fun _ => (level_fresh _).mpr level_switchCases) (fun _ => closes_closeBrace))

@[simp] theorem level_branchTail : branchTail.Level kindAt := by
  simp [branchTail, level_discard]

theorem level_branch (plain : (kindAt 0).isBracket = false) : branch.Level kindAt := by
  refine level_andThen (level_introducer plain) (fun _ _ => ?_)
  refine level_andThen ((level_within _ _).mpr level_expression) (fun _ _ =>
    level_andThen (level_tag _) (fun _ _ => level_choice (fun view same found => ?_) level_branchTail))
  obtain ⟨comparison, opening⟩ := Bool.and_eq_true_iff.mp found
  subst same
  exact level_casesTail (plain_of_isAt comparison rfl) (eq_of_beq opening)

theorem level_conditionName {view : View} (found : view.isNameBefore .colon = true) :
    conditionName.Level view.kindAt := by
  obtain ⟨name, colon⟩ := plain_of_isNameBefore found rfl
  refine level_bumpTagged_bind name (level_bump_bind colon ?_)
  exact level_andThen (level_onlyIf (fun _ _ _ => level_typeAs _)) (fun _ _ => level_expect rfl)

theorem level_whileLoop (plain : (kindAt 0).isBracket = false) : whileLoop.Level kindAt := by
  refine level_bumpKeyword_bind plain (level_andThen (level_onlyIf (fun view same found => ?_))
    (fun _ _ => by simp))
  exact same ▸ level_conditionName found

@[simp] theorem level_loopModifiers : loopModifiers.Level kindAt := by
  refine level_andThen (level_onlyIf (fun view same found => ?_)) (fun _ _ => level_andThen
    (level_onlyIf (fun view same found => ?_)) (fun _ _ => level_onlyIf (fun view same found => ?_)))
  · exact level_bumpTagged _ (same ▸ plain_of_isDirectiveIn found)
  · exact level_bumpTagged _ (same ▸ plain_of_isAt found rfl)
  · exact level_bumpTagged _ (same ▸ plain_of_isAt found rfl)

theorem level_loopNames {view : View} (found : view.isAtLoopNames = true) :
    loopNames.Level view.kindAt := by
  let behindName (ahead : Nat → TokenKind) : Prop :=
    AfterLoopName ⟨ahead, fun _ => "", .eof, .none, none⟩
  have first : behindName (fun distance => view.kindAt (distance + 1)) :=
    afterLoopName found (fun _ => rfl)
  refine level_andThen (level_bumpTagged_bind (plain_of_kind (name_of_loopNames found) rfl)
    ⟨behindName, first, fun ahead kept => ?_⟩) (fun _ _ => level_expect rfl)
  -- Behind a comma there is another name.
  have another (comma : ahead 0 = .comma) :
      (ahead 1).isBracket = false ∧ behindName (fun distance => ahead (distance + 1 + 1)) := by
    obtain colon | ⟨-, budget, names⟩ := kept
    · cases comma.symm.trans colon
    · rw [← loopNamesAt_succ] at names
      let rest : View := ⟨fun distance => ahead (distance + 1), fun _ => "", .eof, .none, none⟩
      have spelled : loopNamesAt rest.kindAt budget 0 = true := names
      exact ⟨plain_of_kind (name_of_loopNames spelled) rfl, afterLoopName spelled (fun _ => rfl)⟩
  constructor
  · refine Or.inl ⟨level_eat rfl, (reaches_eat _).mpr ⟨fun comma => ?_, fun _ => trivial⟩⟩
    exact level_bumpTagged_bind (another comma).1 (level_pure _)
  · rw [reaches_bind, reaches_eat]
    exact ⟨fun comma => by simpa using (another comma).2, fun _ => by simpa using kept⟩

theorem level_forLoop (plain : (kindAt 0).isBracket = false) : forLoop.Level kindAt := by
  refine level_bumpKeyword_bind plain (level_andThen level_loopModifiers (fun _ _ => ?_))
  refine level_andThen (level_onlyIf (fun view same found => ?_)) (fun _ _ => by simp)
  exact same ▸ level_loopNames found

theorem level_returnJump (plain : (kindAt 0).isBracket = false) : returnJump.Level kindAt :=
  level_bumpKeyword_bind plain (level_onlyIf (fun _ _ _ => level_expressionsAs _))

theorem level_loopJump {kind : NodeKind} (plain : (kindAt 0).isBracket = false) :
    (loopJump kind).Level kindAt :=
  level_bumpKeyword_bind plain (level_onlyIf (fun _ same found => by
    rw [← same]
    exact level_bumpTagged _ (plain_of_isAt found rfl)))

theorem level_removal (plain : (kindAt 0).isBracket = false) : removal.Level kindAt :=
  level_bumpKeyword_bind plain (level_onlyIf (fun _ _ _ => level_expressionAs _))

/-! ### Assembly -/

theorem level_assemblyDeclaration {view : View} (found : view.isNameBefore .colon = true) :
    assemblyDeclaration.Level view.kindAt := by
  obtain ⟨name, colon⟩ := plain_of_isNameBefore found rfl
  refine level_bumpTagged_bind name (level_bump_bind colon (level_andThen (level_expectName _)
    (fun _ _ => level_eat_bind rfl (fun taken _ => ?_))))
  cases taken <;> simp

@[simp] theorem level_assemblyOperand : assemblyOperand.Level kindAt := by
  refine level_choice (fun view same found => ?_) (by simp)
  have opening : kindAt 0 = .lBracket := same ▸ eq_of_beq found
  exact level_andThen (level_between (opens_bump (by rw [opening]; rfl)) (fun _ => level_expression)
    (fun _ => closes_expect rfl rfl)) (fun _ _ => level_tag _)

theorem level_assemblyInstruction (plain : (kindAt 0).isBracket = false) :
    assemblyInstruction.Level kindAt := by
  refine level_bumpTagged_bind plain (level_andThen (level_onlyIf (fun view same found => ?_))
    (fun _ _ => level_onlyIf (fun _ _ _ => level_commaSeparated (fun _ => level_assemblyOperand))))
  obtain ⟨dot, size⟩ := Bool.and_eq_true_iff.mp found
  rw [← same]
  refine level_bump_bind (plain_of_isAt dot rfl) (level_bumpTagged _ ?_)
  exact (congrArg TokenKind.isBracket (eq_of_beq size)).trans rfl

@[simp] theorem level_assemblyLine : assemblyLine.Level kindAt := by
  refine level_look_bind (fun view same => ?_)
  subst same
  have ends (start : Nat → TokenKind) : (do
      unless ← eat .semicolon do
        onlyIf (fun view => !view.isAt .rBrace) (act (.report .missingAfterAssemblyLine)) :
      Production Unit).Level start :=
    level_eat_bind rfl (fun taken _ => by
      cases taken with
      | true => trivial
      | false => exact level_onlyIf (fun _ _ _ => level_report _))
  split
  · next found =>
      refine level_choice (fun other same named => ?_) ?_
      · rw [← same]
        exact level_andThen (level_assemblyDeclaration named) (fun _ _ => ends _)
      · exact level_andThen (level_assemblyInstruction (plain_of_isAt found rfl)) (fun _ _ => ends _)
  · exact level_andThen (level_refuse _) (fun _ _ => ends _)

@[simp] theorem level_instructionSets : instructionSets.Level kindAt := by
  refine level_repeatedly (fun _ => level_choice (fun _ same found => ?_) (level_pure _))
  exact level_bumpTagged_bind (same ▸ plain_of_isAt found rfl) (level_eat rfl)

theorem level_assembly (plain : (kindAt 0).isBracket = false) : assembly.Level kindAt :=
  level_bump_bind plain (level_andThen level_instructionSets (fun _ _ =>
    level_braces (fun _ => level_upToSkipping rfl (fun _ => level_assemblyLine))))

/-! ### Statements -/

@[simp] theorem level_furtherTargets : furtherTargets.Level kindAt := by
  refine level_repeatedly (fun _ => level_eat_bind rfl (fun taken _ => ?_))
  cases taken with
  | true => exact level_choice (fun _ _ _ => level_pure _) (level_andGoOn (level_expressionAs _))
  | false => trivial

theorem level_assignmentTail {kind : NodeKind} (plain : (kindAt 0).isBracket = false) :
    (assignmentTail kind).Level kindAt :=
  level_bumpTagged_bind plain (level_expressionsAs _)

theorem plain_of_isCompoundAssign {view : View} (found : view.kind.isCompoundAssign = true) :
    (view.kindAt 0).isBracket = false := by
  have assigns : ∀ kind : TokenKind, kind.isCompoundAssign = true → kind.isBracket = false := by
    intro kind compound
    cases kind <;> first | rfl | cases compound
  exact assigns view.kind found

@[simp] theorem level_expressionStatement : expressionStatement.Level kindAt := by
  refine level_andThen level_expression (fun _ _ => level_choice (fun _ _ _ => ?_) trivial)
  refine level_andThen (level_tag _) (fun _ _ => level_andThen level_furtherTargets (fun _ _ => ?_))
  refine level_choice (fun view same found => ?_) (level_choice (fun view same found => ?_) trivial)
  · exact level_assignmentTail (same ▸ plain_of_isAt found rfl)
  · exact level_assignmentTail (same ▸ plain_of_isCompoundAssign found)

theorem level_usingStatement (plain : (kindAt 0).isBracket = false) : usingStatement.Level kindAt := by
  refine level_bumpKeyword_bind plain (level_andThen (level_tag _) (fun _ _ => ?_))
  refine level_andThen (level_asLongAs (fun view found => ?_)) (fun _ _ => level_substatement _)
  refine level_bump_bind (plain_of_isAt found rfl) ?_
  exact level_andThen (level_discard level_postfixExpression) (fun _ _ => level_tag _)

theorem level_compileTimeStatement {kind : NodeKind} (plain : (kindAt 0).isBracket = false) :
    (compileTimeStatement kind).Level kindAt := by
  refine level_bump_bind plain (level_andThen level_directiveOptions (fun _ _ => ?_))
  refine level_eat_bind rfl (fun taken _ => ?_)
  cases taken <;> simp

theorem level_assertion (plain : (kindAt 0).isBracket = false) : assertion.Level kindAt := by
  refine level_bump_bind plain (level_andThen (level_expressionAs _) (fun _ _ => ?_))
  refine level_eat_bind rfl (fun taken _ => ?_)
  cases taken <;> simp

theorem level_moduleParameters (plain : (kindAt 0).isBracket = false) :
    moduleParameters.Level kindAt :=
  level_bump_bind plain (level_andThen level_parameterList (fun _ _ =>
    level_onlyIf (fun _ _ _ => level_parameterList)))

theorem level_otherDirective (plain : (kindAt 0).isBracket = false) : otherDirective.Level kindAt :=
  level_bump_bind plain (level_onlyIf (fun _ _ _ => level_callArguments))

theorem level_directiveStatementNamed (name : String) (plain : (kindAt 0).isBracket = false) :
    (directiveStatementNamed name).Level kindAt := by
  unfold directiveStatementNamed
  split <;> simp [level_importTail, loadDirective, level_compileTimeStatement, level_assertion,
    markedStatement, level_moduleParameters, level_leafNode, level_assembly, level_branch,
    level_otherDirective, plain]

theorem level_directiveStatement (plain : (kindAt 0).isBracket = false) :
    directiveStatement.Level kindAt :=
  level_look_bind (fun _ _ => level_directiveStatementNamed _ plain)

theorem level_wordStatement (word : String) (plain : (kindAt 0).isBracket = false) :
    (wordStatement word).Level kindAt := by
  have operators (view : View) (same : view.kindAt = kindAt)
      (found : view.isAtOperatorDeclaration = true) : operatorDeclaration.Level kindAt :=
    level_operatorDeclaration plain (same ▸ found)
  unfold wordStatement
  split
  case h_11 => exact level_choice operators level_expressionStatement
  all_goals simp [level_branch, level_whileLoop, level_forLoop, level_returnJump, level_loopJump,
    deferred, level_usingStatement, level_removal, pushedContext, plain]

theorem level_statementEntry : statementEntry.Level kindAt := by
  refine level_look_bind (fun view same => ?_)
  subst same
  split
  · exact level_block
  · next here => exact level_directiveStatement (plain_of_kind here rfl)
  · next here => exact level_bump_bind (plain_of_kind here rfl) (level_expectName _)
  · next here =>
      have plain := plain_of_kind here rfl
      exact level_choice (fun _ _ _ => level_declaration plain)
        (level_look_bind (fun _ _ => level_wordStatement _ plain))
  · exact level_expressionStatement

/-- What an entry stands for is level, whatever tokens are ahead. -/
theorem level_ofEntry (entry : Entry) : (ofEntry entry).Level kindAt := by
  cases entry with
  | expression least => exact level_expressionEntry least
  | type => exact level_typeEntry
  | statement => exact level_statementEntry

end JaiSyntax.Production

namespace JaiSyntax

/-- Where nothing is reported, entries pass balanced tokens. -/
theorem readEntry_balances (resync : Bool) (depth : Nat) :
    EntriesBalance (readEntry resync depth) := by
  induction depth with
  | zero => exact fun entry around segment proper => proper
  | succ depth ih =>
      intro entry around segment proper
      have passed : ((Production.ofEntry entry).read resync (readEntry resync depth) around
          segment).Satisfies _ _ := Production.read_passes ih (Production.ofEntry entry) around proper
      refine passed.weaken ?_ (fun _ => id)
      rintro value later ⟨laterProper, silently⟩
      refine ⟨laterProper, fun none => ?_⟩
      obtain ⟨before, kinds, passes⟩ := silently none
      exact ⟨before, kinds, (Production.level_ofEntry entry).balances _ _ _ passes, passes.kindAt_eq⟩

end JaiSyntax
