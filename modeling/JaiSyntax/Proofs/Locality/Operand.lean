import JaiSyntax.Proofs.Locality.Rules
import JaiSyntax.Production.Type
/-!
Operands are local: literals, arguments, directives, procedures and types stay before the semicolon of a
statement without brackets.
-/

set_option autoImplicit false

namespace JaiSyntax.Production

open Outlook

variable {horizon : Horizon} {setting : Setting} {least : Nat} {α β : Type}
  {outlook : Outlook horizon}

/-! ### Literals -/

theorem stays_stringBody (near : outlook.Near least) :
    stringBody.Stays setting least outlook := by
  refine stays_look_bind (near.shows_isAt .quote) ?_
  split
  · next quote =>
      refine stays_bind (stays_bump near (View.solid_of_isAt quote rfl)) (fun _ _ opened => ?_)
      refine stays_bind (stays_asLongAs opened ?_ ?_) (fun _ _ inner => stays_expect inner.near rfl)
      · intro round held
        exact shows_or (held.near.shows_isAt _) (fun _ => held.near.shows_isAt _)
      · intro round held part
        apply stays_bump held.again
        rcases Bool.or_eq_true_iff.mp part with content | escape
        · exact View.solid_of_isAt content rfl
        · exact View.solid_of_isAt escape rfl
  · exact stays_refuse_bind near _

theorem stays_characterLiteral (near : outlook.Near least)
    (solid : outlook.view.kind.isSolid = true) : characterLiteral.Stays setting least outlook :=
  stays_node near nofun (stays_bind (stays_bumpTagged near.inside solid _)
    (fun _ _ within => stays_stringBody within.near))

theorem stays_stringLiteral (near : outlook.Near least) :
    stringLiteral.Stays setting least outlook := by
  refine stays_look_bind (near.shows_isDirectiveIn _) ?_
  split
  · next directive =>
      exact stays_characterLiteral near
        (View.solid_of_kind (View.kind_of_isDirectiveIn directive) rfl)
  · exact stays_node near nofun (stays_stringBody near.inside)

theorem stays_heredoc (near : outlook.Near least) (solid : outlook.view.kind.isSolid = true) :
    heredoc.Stays setting least outlook := by
  refine stays_node near nofun
    (stays_bind (stays_bump near.inside solid) (fun _ _ directive => ?_))
  refine stays_eat_bind directive.near rfl (fun _ start => ?_) (stays_pure directive ())
  refine stays_bind (stays_discard (stays_eat start rfl)) (fun _ _ body => ?_)
  exact stays_eat_bind body.near rfl (fun _ ended => stays_pure ended ())
    (stays_discard (stays_eat body rfl))

/-! ### Arguments -/

theorem stays_argument {positional : Production Unit} (near : outlook.Near least)
    (inner : positional.Stays setting least outlook) :
    (argument positional).Stays setting least outlook := by
  refine stays_look_bind (near.shows_isNameBefore .eq) ?_
  split
  · next named =>
      simp only [View.isNameBefore, Bool.and_eq_true, beq_iff_eq] at named
      refine stays_node near (by decide) (stays_bumpTagged_bind near.inside
        (View.solid_of_isAt named.1 rfl) (fun _ name follows => ?_))
      refine stays_bind (stays_bump name.near (View.solid_of_kind ((follows 0).trans named.2) rfl))
        (fun _ _ within => stays_expressionAs _ within.near (Or.inl within.some))
  · refine stays_look_bind (near.shows_isAt .dotDot) ?_
    split
    · next spread =>
        exact stays_node near (by decide)
          (stays_bind (stays_bump near.inside (View.solid_of_isAt spread rfl))
            (fun _ _ within => stays_expressionAs _ within.near (Or.inl within.some)))
    · exact inner

theorem stays_argumentList {positional : Production Unit} (near : outlook.Near least)
    (inner : ∀ {least : Nat} {place : Outlook horizon}, place.Near least → 0 < place.taken →
      positional.Stays setting least place) :
    (argumentList positional).Stays setting least outlook := by
  refine stays_bind (stays_expect near rfl) (fun _ _ opened => ?_)
  refine stays_bind (stays_amongArguments (stays_upToSkipping (opened.withContext _) rfl ?_))
    (fun _ _ within => stays_expect within.near rfl)
  intro round held
  refine stays_bind (stays_argument held.again (inner held.again held.some)) (fun _ _ read => ?_)
  exact stays_tag_bind (stays_commaBefore _ read)

theorem stays_callArguments (near : outlook.Near least) :
    callArguments.Stays setting least outlook :=
  stays_argumentList near (fun near some => stays_expression near (Or.inl some))

theorem stays_literalEntry (near : outlook.Near least) (some : 0 < outlook.taken) :
    literalEntry.Stays setting least outlook := by
  refine stays_look_bind (near.shows_isNameBefore .eq) ?_
  split
  · next named =>
      simp only [View.isNameBefore, Bool.and_eq_true, beq_iff_eq] at named
      refine stays_node near (by decide) (stays_leafNode_bind near.inside (by decide)
        (View.solid_of_isAt named.1 rfl) (fun _ name follows => ?_))
      refine stays_tag_bind (stays_bind (stays_bumpTagged name.near
        (View.solid_of_kind ((follows 0).trans named.2) rfl) _) (fun _ _ within => ?_))
      exact stays_expressionAs _ within.near (Or.inl within.some)
  · exact stays_expression near (Or.inl some)

theorem stays_literalEntries (close : TokenKind) (within : outlook.Within least) :
    (literalEntries close).Stays setting least outlook := by
  refine stays_amongArguments (stays_repeatedly (within.withContext _) (fun round held => ?_))
  refine (local_look_bind _ _).mpr ⟨held.near.shows_endsAt close, ?_⟩
  split
  · exact held
  · refine Stays.round (stays_bind (stays_literalEntry held.again held.some) (fun _ _ read => ?_))
      held
    exact stays_tag_bind (stays_eat read rfl)

theorem stays_structEntries (near : outlook.Near least) (dot : outlook.view.kind = .dot)
    (brace : outlook.view.kindAt 1 = .lBrace) : structEntries.Stays setting least outlook := by
  refine stays_bump_bind near (View.solid_of_kind dot rfl) (fun later within follows => ?_)
  have opening : later.view.kind = .lBrace := (follows 0).trans brace
  have solid := View.solid_of_kind opening rfl
  have file := file_of_bracket within.near solid (by rw [opening]; rfl)
  refine stays_opened within.near (stays_bind (stays_bump within.near solid) (fun _ _ opened => ?_))
  exact stays_bind (stays_literalEntries _ opened) (fun _ _ read => stays_closeBrace file rfl read)

theorem stays_arrayEntries (near : outlook.Near least) (dot : outlook.view.kind = .dot)
    (bracket : outlook.view.kindAt 1 = .lBracket) : arrayEntries.Stays setting least outlook := by
  refine stays_bump_bind near (View.solid_of_kind dot rfl) (fun later within follows => ?_)
  have solid := View.solid_of_kind ((follows 0).trans bracket) rfl
  refine stays_bind (stays_bump within.near solid) (fun _ _ opened => ?_)
  exact stays_bind (stays_literalEntries _ opened) (fun _ _ read => stays_expect read.near rfl)

/-! ### Directives -/

theorem stays_directiveOptions (within : outlook.Within least) :
    directiveOptions.Stays setting least outlook := by
  apply stays_asLongAs within
  · intro round held
    apply held.near.shows_next (held.near.shows_isAt .comma)
    intro comma
    rw [View.kind_of_isAt comma]
    decide
  · intro round held option
    simp only [Bool.and_eq_true, beq_iff_eq] at option
    refine stays_bump_bind held.again (View.solid_of_isAt option.1 rfl) (fun _ comma follows => ?_)
    refine stays_bind (stays_bumpTagged comma.near
      (View.solid_of_kind ((follows 0).trans option.2) rfl) _) (fun _ _ name => ?_)
    exact stays_onlyIf name (name.near.shows_isAt _) (fun _ => stays_callArguments name.near)

theorem stays_modifierArguments (name : String) (within : outlook.Within least) :
    (modifierArguments name).Stays setting least outlook := by
  unfold modifierArguments
  split
  · refine stays_bind (stays_onlyIf within (within.near.shows_isAt _) (fun word => ?_))
      (fun _ _ library => ?_)
    · exact stays_bind (stays_identifierNode within.near (View.solid_of_isAt word rfl))
        (fun _ _ read => stays_tag read _)
    · exact stays_onlyIf library (library.near.shows_isAt _) (fun _ =>
        stays_bind (stays_stringLiteral library.near) (fun _ _ read => stays_tag read _))
  · split
    · exact stays_bind (stays_operand _ within.near (Or.inl within.some))
        (fun _ _ read => stays_tag read _)
    · exact stays_pure within ()

theorem stays_directiveModifier (near : outlook.Near least)
    (solid : outlook.view.kind.isSolid = true) : directiveModifier.Stays setting least outlook := by
  refine stays_look_bind near.shows_text ?_
  split
  · exact stays_node near nofun (stays_bind (stays_bump near.inside solid)
      (fun _ _ within => stays_bodyBlock within.near))
  · exact stays_node near nofun (stays_bind (stays_bump near.inside solid)
      (fun _ _ within => stays_modifierArguments _ within))

theorem stays_directiveModifiers {accepts : View → Bool} (within : outlook.Within least)
    (shows : ∀ {place : Outlook horizon}, place.Within least → place.Shows accepts)
    (directive : ∀ view, accepts view = true → view.kind = .directive) :
    (directiveModifiers accepts).Stays setting least outlook := by
  refine stays_look_bind (shows within) ?_
  refine stays_bind (stays_asLongAs within (fun _ held => shows held) (fun round held accepted => ?_))
    (fun _ _ read => stays_pure read _)
  exact stays_bind (stays_directiveModifier held.again
    (View.solid_of_kind (directive _ accepted) rfl)) (fun _ _ read => stays_tag read _)

/-! ### Procedures -/

theorem stays_defaultValue (within : outlook.Within least) :
    defaultValue.Stays setting least outlook :=
  stays_eat_bind within.near rfl
    (fun _ equals => stays_expressionAs _ equals.near (Or.inl equals.some)) (stays_pure within ())

/-- A local production that stays before the semicolon, whether it consumes a token or not. -/
def Keeps (setting : Setting) (least : Nat) (production : Production α)
    (outlook : Outlook horizon) : Prop :=
  production.Local horizon setting (fun _ later => later.Near least ∧ 0 < later.taken) outlook

theorem Stays.keeps {production : Production α} (stays : production.Stays setting least outlook) :
    production.Keeps setting least outlook :=
  stays.weaken (fun _ _ within => ⟨within.near, within.some⟩)

theorem keeps_onlyIf {condition : View → Bool} {body : Production Unit} (near : outlook.Near least)
    (some : 0 < outlook.taken) (shows : outlook.Shows condition)
    (inner : condition outlook.view = true → body.Stays setting least outlook) :
    (onlyIf condition body).Keeps setting least outlook := by
  refine (local_look_bind _ _).mpr ⟨shows, ?_⟩
  split
  · next holds => exact (inner holds).keeps
  · exact ⟨near, some⟩

theorem keeps_asLongAs {condition : View → Bool} {body : Production Unit}
    (near : outlook.Near least) (some : 0 < outlook.taken)
    (shows : ∀ round : Outlook horizon, round.Near least → round.Shows condition)
    (inner : ∀ round : Outlook horizon, round.Near round.taken → condition round.view = true →
      body.Stays setting round.taken round) :
    (asLongAs condition body).Keeps setting least outlook := by
  refine ⟨fun round => round.Near least ∧ 0 < round.taken, ⟨near, some⟩, ?_⟩
  rintro round ⟨held, before⟩
  refine ⟨held.notPast, (local_look_bind _ _).mpr ⟨shows round held, ?_⟩⟩
  split
  · next holds =>
      refine (inner round ⟨held.notPast, Nat.le_refl _⟩ holds).andThen (fun _ later within => ?_)
      have least := held.least
      have more := within.more
      exact ⟨more, ⟨within.notPast, by omega⟩, within.some⟩
  · exact ⟨held, before⟩

/-- Where all of the rest is shared, any token may be consumed. -/
theorem keeps_bump (file : horizon = .file) (near : outlook.Near least)
    (some : 0 < outlook.taken) : bump.Keeps setting least outlook := by
  refine ⟨near.notPast, fun later bumps => ?_⟩
  have moved : outlook.taken ≤ later.taken := by
    rw [bumps.taken]
    split <;> omega
  exact ⟨⟨notPast_of_file file later, Nat.le_trans near.least moved⟩,
    Nat.lt_of_lt_of_le some moved⟩

theorem keeps_bumpTagged (file : horizon = .file) (near : outlook.Near least)
    (some : 0 < outlook.taken) (field : Field) :
    (bumpTagged field).Keeps setting least outlook :=
  (keeps_bump file near some : bump.Keeps setting least outlook)

theorem shows_isAtParameter (file : horizon = .file) :
    outlook.Shows (fun view => view.isAtParameter) :=
  shows_of_file file (fun kindAt textAt => View.isAtParameter ⟨kindAt, textAt, .eof, .none, none⟩)

/-- In brackets the name of a parameter may be any token; a colon has to follow it. -/
theorem stays_parameter (file : horizon = .file) (near : outlook.Near least)
    (some : 0 < outlook.taken) : parameter.Stays setting least outlook := by
  refine stays_node near nofun ?_
  refine (local_bind _ _).mpr ((keeps_onlyIf near.inside some (near.inside.shows_isWordIn _)
    (fun word => ?_)).weaken ?_)
  · exact stays_bind (stays_bumpKeyword near.inside
      (View.solid_of_kind (View.kind_of_isWordIn word) rfl)) (fun _ _ read => stays_tag read _)
  rintro _ modified ⟨modifiedNear, modifiedSome⟩
  refine (local_bind _ _).mpr ((keeps_asLongAs modifiedNear modifiedSome
    (fun _ held => held.shows_isAt .dollar) (fun _ held dollar => ?_)).weaken ?_)
  · exact stays_bumpTagged held (View.solid_of_isAt dollar rfl) _
  rintro _ dollars ⟨dollarsNear, dollarsSome⟩
  refine (local_bind _ _).mpr ((keeps_bumpTagged file dollarsNear dollarsSome _).weaken ?_)
  rintro _ named ⟨namedNear, -⟩
  refine (stays_expect namedNear rfl).andThen (fun _ _ colon => ?_)
  refine stays_bind (stays_onlyIf colon (shows_not (colon.near.shows_isAt .eq)) (fun _ => ?_))
    (fun _ _ read => stays_defaultValue read)
  exact stays_typeAs _ colon.near (Or.inl colon.some)

theorem stays_parameterList (near : outlook.Near least) :
    parameterList.Stays setting least outlook := by
  refine stays_expect_bracket_bind near rfl rfl (fun file _ opened => ?_)
  refine stays_bind (stays_amongArguments (stays_upTo (opened.withContext _) ?_))
    (fun _ _ read => stays_expect read.near rfl)
  intro round held _
  refine stays_look_bind (shows_isAtParameter file) ?_
  split
  · exact stays_bind (stays_parameter file held.again held.some) (fun _ _ read =>
      stays_tag_bind (stays_commaBefore _ read))
  · exact stays_bind (stays_type held.again (Or.inl held.some)) (fun _ _ read =>
      stays_tag_bind (stays_commaBefore _ read))

theorem stays_result (near : outlook.Near least) (some : 0 < outlook.taken) :
    result.Stays setting least outlook := by
  refine stays_look_bind (near.shows_isNameBefore .colon) ?_
  split
  · next named =>
      simp only [View.isNameBefore, Bool.and_eq_true, beq_iff_eq] at named
      refine stays_bind (stays_node near (by decide) ?_) (fun _ _ read => stays_tag read _)
      refine stays_bumpTagged_bind near.inside (View.solid_of_isAt named.1 rfl)
        (fun _ name follows => ?_)
      refine stays_bind (stays_bump name.near (View.solid_of_kind ((follows 0).trans named.2) rfl))
        (fun _ _ colon => ?_)
      exact stays_bind (stays_typeAs _ colon.near (Or.inl colon.some))
        (fun _ _ read => stays_defaultValue read)
  · exact stays_bind (stays_type near (Or.inl some)) (fun _ _ read => stays_tag read _)

theorem stays_results (near : outlook.Near least) (some : 0 < outlook.taken) :
    results.Stays setting least outlook := by
  have paren (found : outlook.view.isAt .lParen = true) : horizon = .file := by
    have same := View.kind_of_isAt found
    exact file_of_bracket near (View.solid_of_kind same rfl) (by rw [same]; rfl)
  refine stays_look_bind ?_ ?_
  · refine shows_and (shows_and (near.shows_isAt .lParen) (fun found => ?_)) (fun found => ?_)
    · exact shows_of_file (paren found) (fun kindAt _ => kindAt 1 == .ident)
    · rw [Bool.and_eq_true] at found
      exact shows_of_file (paren found.1) (fun kindAt _ => kindAt 2 == .colon)
  · split
    · next named =>
        simp only [Bool.and_eq_true] at named
        refine stays_bind (stays_bump near (View.solid_of_isAt named.1.1 rfl)) (fun _ _ opened => ?_)
        refine stays_bind (stays_amongArguments (stays_upTo (opened.withContext _) ?_))
          (fun _ _ read => stays_expect read.near rfl)
        intro round held _
        exact stays_bind (stays_result held.again held.some)
          (fun _ _ read => stays_commaBefore _ read)
    · refine stays_bind (stays_result near some) (fun _ _ first => stays_asLongAs first ?_ ?_)
      · intro round held
        refine shows_and (shows_not ?_) (fun _ => held.near.shows_isAt .comma)
        exact fun _ agrees => congrArg Context.inArguments agrees.context
      · intro round held comma
        simp only [Bool.and_eq_true] at comma
        exact stays_bind (stays_bump held.again (View.solid_of_isAt comma.2 rfl))
          (fun _ _ within => stays_result within.near within.some)

theorem stays_procedure (near : outlook.Near least) : procedure.Stays setting least outlook := by
  refine stays_marked near (stays_look_bind (fun _ agrees => ?_) ?_)
  · exact congrArg Context.inType agrees.context
  generalize outlook.view.context.inType = inType
  have closing : ∀ (hasDirectives hasBody : Bool) (later : Outlook horizon), later.Within least →
      Stays { setting with marked := true } least (do
        wrap (if !inType && (hasBody || hasDirectives) then .procedure else .procedureType)
          (Pure.pure ())
        Pure.pure (if hasBody then Operand.closed else Operand.isOpen)) later := by
    intro hasDirectives hasBody later within
    refine stays_bind (stays_wrap rfl ?_ (fun _ => stays_pure (within.withLast _) ()))
      (fun _ _ wrapped => stays_pure wrapped _)
    split <;> exact nofun
  have tail : ∀ later : Outlook horizon, later.Within least →
      Stays { setting with marked := true } least (do
        let hasDirectives ← directiveModifiers (·.isDirectiveIn procedureDirectives)
        let hasBody ← look (fun view => !inType && view.isAt .lBrace)
        if hasBody then bodyBlock
        wrap (if !inType && (hasBody || hasDirectives) then .procedure else .procedureType)
          (Pure.pure ())
        Pure.pure (if hasBody then Operand.closed else Operand.isOpen)) later := by
    intro later within
    refine stays_bind (stays_directiveModifiers within
      (fun place => place.near.shows_isDirectiveIn _) (fun _ => View.kind_of_isDirectiveIn))
      (fun hasDirectives reached read => ?_)
    refine stays_look_bind ?_ ?_
    · exact shows_and (fun _ _ => rfl) (fun _ => read.near.shows_isAt .lBrace)
    · generalize (!inType && reached.view.isAt .lBrace) = hasBody
      cases hasBody with
      | true =>
          exact stays_bind (stays_bodyBlock read.near)
            (fun _ _ body => closing hasDirectives true _ body)
      | false => exact closing hasDirectives false _ read
  refine stays_bind (stays_parameterList near) (fun _ _ parameters => ?_)
  exact stays_eat_bind parameters.near rfl
    (fun _ arrow => stays_bind (stays_results arrow.near arrow.some) (fun _ _ read => tail _ read))
    (tail _ parameters)

/-! ### Directives in the place of an expression -/

theorem stays_introducer (near : outlook.Near least) (solid : outlook.view.kind.isSolid = true) :
    introducer.Stays setting least outlook := by
  refine stays_look_bind (near.shows_isAt .ident) ?_
  split
  · exact stays_bumpKeyword near solid
  · exact stays_bump near solid

theorem stays_expect_semicolon (file : horizon = .file) (near : outlook.Near least) :
    (expect .semicolon).Stays setting least outlook := by
  apply local_eat_semicolon_bind near
  · exact fun later behind => within_of_file file behind
  · exact fun _ => stays_refuse near _

theorem stays_conditionalBranch (near : outlook.Near least) (some : 0 < outlook.taken) :
    conditionalBranch.Stays setting least outlook := by
  refine stays_look_bind (near.shows_isAt .lBrace) ?_
  split
  · next brace =>
      have same := View.kind_of_isAt brace
      have solid := View.solid_of_kind same rfl
      have file := file_of_bracket near solid (by rw [same]; rfl)
      refine stays_node near nofun (stays_opened near.inside
        (stays_bind (stays_bump near.inside solid) (fun _ _ opened => ?_)))
      refine stays_bind (stays_fresh
        (stays_upToSkipping_semicolon file (opened.withContext _) (fun round held _ => ?_)))
        (fun _ _ read => stays_closeBrace file rfl read)
      refine stays_bind (stays_expression held.again (Or.inl held.some)) (fun _ _ read => ?_)
      exact stays_onlyIf read (shows_not (read.near.shows_isAt _))
        (fun _ => stays_expect_semicolon file read.near)
  · exact stays_expression near (Or.inl some)

theorem stays_conditionalExpression (near : outlook.Near least)
    (solid : outlook.view.kind.isSolid = true) :
    conditionalExpression.Stays setting least outlook := by
  refine stays_node near nofun
    (stays_bind (stays_introducer near.inside solid) (fun _ _ opened => ?_))
  refine stays_bind (stays_expressionAs _ opened.near (Or.inl opened.some)) (fun _ _ condition => ?_)
  refine stays_bind (stays_discard (stays_eatWord condition)) (fun _ _ before => ?_)
  refine stays_bind (stays_conditionalBranch before.near before.some) (fun _ _ first => ?_)
  refine stays_tag_bind (stays_eatWord_bind first (fun _ other => ?_) (stays_pure first ()))
  exact stays_bind (stays_conditionalBranch other.near other.some)
    (fun _ _ second => stays_tag second _)

theorem stays_compileTimeExpression {kind : NodeKind} (near : outlook.Near least)
    (ordinary : kind ≠ .deprecatedDirective) (solid : outlook.view.kind.isSolid = true) :
    (compileTimeExpression kind).Stays setting least outlook := by
  refine stays_node near ordinary (stays_bind (stays_bump near.inside solid) (fun _ _ name => ?_))
  refine stays_bind (stays_directiveOptions name) (fun _ _ options => ?_)
  refine stays_eat_bind options.near rfl (fun _ arrow => ?_) ?_
  · exact stays_bind (stays_results arrow.near arrow.some) (fun _ _ read =>
      stays_bind (stays_bodyBlock read.near) (fun _ _ body => stays_pure body _))
  · rw [if_neg Bool.false_ne_true]
    refine stays_look_bind (options.near.shows_isAt .lBrace) ?_
    split
    · exact stays_bind (stays_bodyBlock options.near) (fun _ _ body => stays_pure body _)
    · exact stays_bind (stays_operand _ options.near (Or.inl options.some)) (fun _ _ read =>
        stays_tag_bind (stays_pure read _))

theorem stays_codeExpression (near : outlook.Near least)
    (solid : outlook.view.kind.isSolid = true) : codeExpression.Stays setting least outlook := by
  refine stays_node near nofun (stays_bind (stays_bump near.inside solid) (fun _ _ name => ?_))
  refine stays_bind (stays_directiveOptions name) (fun _ _ options => ?_)
  refine stays_look_bind (options.near.shows_isAt .lBrace) ?_
  split
  · exact stays_bodyBlock options.near
  · exact stays_expressionAs _ options.near (Or.inl options.some)

theorem stays_typeLiteral (near : outlook.Near least)
    (solid : outlook.view.kind.isSolid = true) : typeLiteral.Stays setting least outlook := by
  refine stays_node near nofun (stays_bind (stays_bump near.inside solid) (fun _ _ name => ?_))
  exact stays_bind (stays_directiveOptions name)
    (fun _ _ options => stays_typeAs _ options.near (Or.inl options.some))

theorem stays_libraryDirective (near : outlook.Near least)
    (solid : outlook.view.kind.isSolid = true) : libraryDirective.Stays setting least outlook := by
  refine stays_node near nofun (stays_bind (stays_bump near.inside solid) (fun _ _ name => ?_))
  exact stays_bind (stays_directiveOptions name) (fun _ _ options =>
    stays_bind (stays_stringLiteral options.near) (fun _ _ path => stays_tag path _))

theorem stays_appliedDirective (near : outlook.Near least)
    (solid : outlook.view.kind.isSolid = true) : appliedDirective.Stays setting least outlook :=
  stays_node near nofun (stays_bind (stays_bump near.inside solid) (fun _ _ name =>
    stays_bind (stays_operand _ name.near (Or.inl name.some)) (fun _ _ read => stays_tag read _)))

theorem stays_plainDirective (near : outlook.Near least)
    (solid : outlook.view.kind.isSolid = true) : plainDirective.Stays setting least outlook :=
  stays_node near nofun (stays_bind (stays_bump near.inside solid) (fun _ _ name =>
    stays_onlyIf name (name.near.shows_isAt _) (fun _ => stays_callArguments name.near)))

theorem stays_openOperand {body : Production Unit} (inner : body.Stays setting least outlook) :
    (openOperand body).Stays setting least outlook :=
  stays_bind inner (fun _ _ read => stays_pure read _)

theorem stays_closedOperand {body : Production Unit} (inner : body.Stays setting least outlook) :
    (closedOperand body).Stays setting least outlook :=
  stays_bind inner (fun _ _ read => stays_pure read _)

theorem stays_directiveExpressionNamed (name : String) (near : outlook.Near least)
    (solid : outlook.view.kind.isSolid = true) :
    (directiveExpressionNamed name).Stays setting least outlook := by
  unfold directiveExpressionNamed
  split
  · exact stays_openOperand (stays_characterLiteral near solid)
  · exact stays_openOperand (stays_heredoc near solid)
  · exact stays_compileTimeExpression near nofun solid
  · exact stays_compileTimeExpression near nofun solid
  · exact stays_openOperand (stays_typeLiteral near solid)
  · exact stays_openOperand (stays_libraryDirective near solid)
  · exact stays_openOperand (stays_libraryDirective near solid)
  · exact stays_closedOperand (stays_conditionalExpression near solid)
  · exact stays_closedOperand (stays_codeExpression near solid)
  · exact stays_openOperand (stays_appliedDirective near solid)
  · exact stays_openOperand (stays_appliedDirective near solid)
  · exact stays_openOperand (stays_appliedDirective near solid)
  · split
    · exact stays_openOperand (stays_plainDirective near solid)
    · exact stays_refuse near _

theorem stays_directiveExpression (near : outlook.Near least)
    (solid : outlook.view.kind.isSolid = true) :
    directiveExpression.Stays setting least outlook :=
  stays_look_bind near.shows_text (stays_directiveExpressionNamed _ near solid)

/-! ### Structs and enums -/

/-- Whether a double colon follows is seen before the semicolon. -/
theorem shows_doubleColon (near : outlook.Near least) :
    outlook.Shows (fun view => doubleColonAt? view.kindAt 0) := by
  intro other agrees
  have here : other.kindAt 0 = outlook.view.kindAt 0 := near.kind agrees
  unfold doubleColonAt?
  simp only [here]
  split
  · rfl
  · next colon =>
      have more : outlook.view.kind ≠ .semicolon := by
        rw [show outlook.view.kind = .colon from colon]
        decide
      simp only [Nat.zero_add, (near.next agrees more).1]
  · rfl

/-- A double colon has one or two tokens. -/
theorem solid_of_doubleColon {kindAt : Nat → TokenKind} {distance colons : Nat}
    (found : doubleColonAt? kindAt distance = some colons) :
    ∃ further, colons = further + 1 ∧
      ∀ place, place ≤ further → (kindAt (distance + place)).isSolid = true := by
  unfold doubleColonAt? at found
  split at found
  · next fused =>
      cases found
      refine ⟨0, rfl, fun place before => ?_⟩
      obtain rfl : place = 0 := by omega
      rw [Nat.add_zero, fused]
      rfl
  · next colon =>
      split at found
      · next second =>
          cases found
          refine ⟨1, rfl, fun place before => ?_⟩
          rcases Nat.le_one_iff_eq_zero_or_eq_one.mp before with rfl | rfl
          · rw [Nat.add_zero, colon]
            rfl
          · rw [eq_of_beq second]
            rfl
      · cases found
  · cases found

theorem stays_doubleColon {colons : Nat} (near : outlook.Near least)
    (found : doubleColonAt? outlook.view.kindAt 0 = some colons) :
    (times colons bump).Stays setting least outlook := by
  obtain ⟨further, rfl, solid⟩ := solid_of_doubleColon found
  apply stays_times_succ further near
  intro distance before
  rw [← Nat.zero_add distance]
  exact solid distance before

theorem stays_afterDoubleColon {body : Production Unit} (within : outlook.Within least)
    (inner : ∀ later : Outlook horizon, later.Within least → body.Stays setting least later) :
    (afterDoubleColon body).Stays setting least outlook := by
  refine stays_look_bind (shows_doubleColon within.near) ?_
  split
  · next colons found =>
      exact stays_bind (stays_doubleColon within.near found) (fun _ _ read => inner _ read)
  · exact stays_pure within ()

theorem stays_structTail (within : outlook.Within least) :
    structTail.Stays setting least outlook := by
  refine stays_bind (stays_onlyIf within (within.near.shows_isAt _)
    (fun _ => stays_parameterList within.near)) (fun _ _ parameters => ?_)
  refine stays_bind (stays_discard (stays_directiveModifiers parameters
    (fun place => place.near.shows_isAt _) (fun _ => View.kind_of_isAt))) (fun _ _ modified => ?_)
  exact stays_opened modified.near (stays_braced rfl modified.near
    (fun file _ opened => stays_statementList file opened))

theorem stays_enumMember (file : horizon = .file) (near : outlook.Near least)
    (solid : outlook.view.kind.isSolid = true) :
    enumMember.Stays setting least outlook := by
  refine stays_bind (stays_node near nofun ?_) (fun _ _ member => ?_)
  · refine stays_bind (stays_bumpTagged near.inside solid _) (fun _ _ name => ?_)
    exact stays_afterDoubleColon name
      (fun _ colons => stays_expressionAs _ colons.near (Or.inl colons.some))
  · apply local_eat_semicolon_bind member.near
    · exact fun later behind => within_of_file file behind
    · exact fun _ => stays_onlyIf member (shows_not (member.near.shows_isAt _))
        (fun _ => ⟨member.notPast, nofun, member⟩)

theorem stays_enumMembers (file : horizon = .file) (within : outlook.Within least) :
    enumMembers.Stays setting least outlook := by
  refine stays_upToSkipping_semicolon file within (fun round held solid => ?_)
  refine stays_look_bind (held.near.shows_isAt .ident) ?_
  split
  · exact stays_guarded file held.again solid
      ((stays_enumMember file held.again solid).weaken (fun _ _ read => read.toBehind))
  · exact stays_guarded file held.again solid ⟨held.notPast, nofun⟩

theorem stays_enumDirective (near : outlook.Near least)
    (solid : outlook.view.kind.isSolid = true) : enumDirective.Stays setting least outlook := by
  refine stays_look_bind (near.shows_isDirectiveIn _) ?_
  split
  · exact stays_leafNode near nofun solid
  · exact stays_bind (stays_directiveModifier near solid) (fun _ _ read => stays_tag read _)

theorem stays_enumTail (within : outlook.Within least) : enumTail.Stays setting least outlook := by
  refine stays_bind (stays_onlyIf within ?_
    (fun _ => stays_typeAs _ within.near (Or.inl within.some))) (fun _ _ typed => ?_)
  · exact shows_and (shows_not (within.near.shows_isAt _))
      (fun _ => shows_not (within.near.shows_isAt _))
  refine stays_bind (stays_asLongAs typed (fun _ held => held.near.shows_isAt _)
    (fun _ held directive => stays_enumDirective held.again (View.solid_of_isAt directive rfl)))
    (fun _ _ modified => ?_)
  exact stays_opened modified.near (stays_braced rfl modified.near
    (fun file _ opened => stays_enumMembers file opened))

theorem stays_anonymousStruct (near : outlook.Near least)
    (solid : outlook.view.kind.isSolid = true) : anonymousStruct.Stays setting least outlook :=
  stays_node near nofun (stays_bind (stays_bumpKeyword near.inside solid)
    (fun _ _ keyword => stays_structTail keyword))

theorem stays_anonymousEnum (near : outlook.Near least)
    (solid : outlook.view.kind.isSolid = true) : anonymousEnum.Stays setting least outlook :=
  stays_node near nofun (stays_bind (stays_bumpKeyword near.inside solid)
    (fun _ _ keyword => stays_enumTail keyword))

/-! ### Types -/

theorem stays_typeArgument (near : outlook.Near least) (some : 0 < outlook.taken) :
    typeArgument.Stays setting least outlook := by
  refine stays_look_bind near.shows_kind ?_
  split
  all_goals first
    | exact stays_type near (Or.inl some)
    | exact stays_expression near (Or.inl some)

theorem stays_qualifiedName (near : outlook.Near least)
    (solid : outlook.view.kind.isSolid = true) : qualifiedName.Stays setting least outlook := by
  refine stays_marked near (stays_bind (stays_identifierNode near solid) (fun _ _ name => ?_))
  refine stays_bind (stays_asLongAs name ?_ ?_) (fun _ _ qualified => ?_)
  · intro round held
    apply held.near.shows_next (held.near.shows_isAt .dot)
    intro dot
    rw [View.kind_of_isAt dot]
    decide
  · intro round held member
    simp only [Bool.and_eq_true, beq_iff_eq] at member
    refine stays_tag_bind (stays_wrap rfl nofun (fun last => ?_))
    refine stays_bump_bind (held.again.withLast last true) (View.solid_of_isAt member.1 rfl)
      (fun _ dot follows => ?_)
    exact stays_bumpTagged dot.near (View.solid_of_kind ((follows 0).trans member.2) rfl) _
  · refine stays_onlyIf qualified (qualified.near.shows_isAt _) (fun _ => ?_)
    refine stays_tag_bind (stays_wrap rfl nofun (fun last => ?_))
    exact stays_argumentList (qualified.near.withLast last true)
      (fun near some => stays_typeArgument near some)

theorem stays_typeOf (near : outlook.Near least) (solid : outlook.view.kind.isSolid = true) :
    typeOf.Stays setting least outlook := by
  refine stays_node near nofun
    (stays_bind (stays_bumpKeyword near.inside solid) (fun _ _ keyword => ?_))
  refine stays_bind (stays_expect keyword.near rfl) (fun _ _ opened => ?_)
  refine stays_bind (stays_fresh (stays_expression (opened.near.withContext _)
    (Or.inl opened.some))) (fun _ _ read => ?_)
  exact stays_tag_bind (stays_expect read.near rfl)

/-- Whether a parenthesis follows a word is seen before the semicolon. -/
theorem shows_wordBefore (near : outlook.Near least) (word : String) (kind : TokenKind) :
    outlook.Shows (fun view => view.isWordAt 0 word && view.kindAt 1 == kind) := by
  apply near.shows_next (near.shows_isWordAt word)
  intro found
  rw [View.kind_of_isWordAt found]
  decide

theorem stays_namedType (near : outlook.Near least) (solid : outlook.view.kind.isSolid = true) :
    namedType.Stays setting least outlook := by
  refine stays_look_bind (near.shows_isWordIn _) ?_
  split
  · exact stays_anonymousStruct near solid
  refine stays_look_bind (near.shows_isWordIn _) ?_
  split
  · exact stays_anonymousEnum near solid
  refine stays_look_bind (shows_wordBefore near _ _) ?_
  split
  · exact stays_typeOf near solid
  refine stays_look_bind (near.shows_isWordIn _) ?_
  split
  · exact stays_leafNode near nofun solid
  · exact stays_qualifiedName near solid

theorem shows_canStartType (near : outlook.Near least) :
    outlook.Shows (fun view => view.canStartType) := by
  intro other agrees
  simp only [View.canStartType, near.kind agrees, near.text agrees]

theorem stays_arrayType (near : outlook.Near least) (solid : outlook.view.kind.isSolid = true) :
    arrayType.Stays setting least outlook := by
  refine stays_node near nofun (stays_bind (stays_bump near.inside solid) (fun _ _ opened => ?_))
  have tail : ∀ later : Outlook horizon, later.Within least → Stays setting.inside least (do
      expect .rBracket
      onlyIf (·.canStartType) (typeAs .element)) later := by
    intro later within
    refine stays_bind (stays_expect within.near rfl) (fun _ _ closed => ?_)
    exact stays_onlyIf closed (shows_canStartType closed.near)
      (fun _ => stays_typeAs _ closed.near (Or.inl closed.some))
  refine stays_look_bind (opened.near.shows_isAt .dotDot) ?_
  split
  · next dots =>
      exact stays_bind (stays_bump opened.near (View.solid_of_isAt dots rfl))
        (fun _ _ read => tail _ read)
  · refine stays_bind (stays_onlyIf opened (shows_not (opened.near.shows_isAt _)) (fun _ => ?_))
      (fun _ _ read => tail _ read)
    exact stays_bind (stays_fresh (stays_expression (opened.near.withContext _)
      (Or.inl opened.some))) (fun _ _ read => stays_tag read _)

theorem stays_polymorphicType (near : outlook.Near least)
    (solid : outlook.view.kind.isSolid = true) : polymorphicType.Stays setting least outlook := by
  refine stays_node near nofun (stays_bind (stays_bump near.inside solid) (fun _ _ dollar => ?_))
  refine stays_bind (stays_discard (stays_eat dollar rfl)) (fun _ _ dollars => ?_)
  refine stays_bind (stays_expectName dollars.near _) (fun _ _ name => ?_)
  exact stays_eat_bind name.near rfl
    (fun _ slash => stays_typeAs _ slash.near (Or.inl slash.some)) (stays_pure name ())

theorem stays_prefixedType {kind : NodeKind} (near : outlook.Near least)
    (ordinary : kind ≠ .deprecatedDirective) (solid : outlook.view.kind.isSolid = true) :
    (prefixedType kind).Stays setting least outlook :=
  stays_node near ordinary (stays_bind (stays_bump near.inside solid)
    (fun _ _ within => stays_type within.near (Or.inl within.some)))

theorem stays_typeEntry (near : outlook.Near least) : typeEntry.Stays setting least outlook := by
  refine stays_look_bind near.shows_kind ?_
  split
  · next word => exact stays_namedType near (View.solid_of_kind word rfl)
  · next star => exact stays_prefixedType near nofun (View.solid_of_kind star rfl)
  · next bracket => exact stays_arrayType near (View.solid_of_kind bracket rfl)
  · exact stays_discard (stays_procedure near)
  · next dollar => exact stays_polymorphicType near (View.solid_of_kind dollar rfl)
  · next dots => exact stays_prefixedType near nofun (View.solid_of_kind dots rfl)
  · next directive =>
      exact stays_discard (stays_directiveExpression near (View.solid_of_kind directive rfl))
  · exact stays_refuse near _

end JaiSyntax.Production
