import JaiSyntax.Proofs.Locality.Operand
import JaiSyntax.Production.Expression
/-!
Expressions are local. A primary expression looks further ahead only behind a parenthesis, and an
operator takes its operand from behind its own token.
-/

set_option autoImplicit false

namespace JaiSyntax.Production

open Outlook

variable {horizon : Horizon} {setting : Setting} {least : Nat} {α : Type}
  {outlook : Outlook horizon}

/-! ### Parentheses -/

theorem stays_quickBody (arrow : bump.Keeps setting least outlook) :
    quickBody.Stays setting least outlook := by
  refine (local_bind _ _).mpr (arrow.weaken ?_)
  rintro _ later ⟨near, some⟩
  refine stays_look_bind (near.shows_isAt .lBrace) ?_
  split
  · exact stays_bind (stays_block near) (fun _ _ read => stays_tag read _)
  · exact stays_bind (stays_expression near (Or.inl some)) (fun _ _ read => stays_tag read _)

theorem stays_quickParameter (file : horizon = .file) (near : outlook.Near least)
    (some : 0 < outlook.taken) : quickParameter.Stays setting least outlook := by
  refine stays_look_bind (shows_isAtParameter file) ?_
  split
  · exact stays_parameter file near some
  refine stays_look_bind (near.shows_isAt .ident) ?_
  split
  · next name => exact stays_identifierNode near (View.solid_of_isAt name rfl)
  · exact stays_refuse near _

/-- What stands behind the parameters is an arrow only if the look at them saw their end. -/
theorem stays_quickProcedure (file : horizon = .file) (near : outlook.Near least)
    (solid : outlook.view.kind.isSolid = true) : quickProcedure.Stays setting least outlook := by
  refine stays_node near nofun (stays_bind (stays_bump near.inside solid) (fun _ _ opened => ?_))
  refine stays_bind (stays_amongArguments (stays_upTo (opened.withContext _) ?_))
    (fun _ _ parameters => ?_)
  · intro round held _
    exact stays_bind (stays_quickParameter file held.again held.some)
      (fun _ _ read => stays_tag_bind (stays_commaBefore _ read))
  · exact stays_bind (stays_expect parameters.near rfl)
      (fun _ _ closed => stays_quickBody (keeps_bump file closed.near closed.some))

theorem stays_singleQuickProcedure (near : outlook.Near least)
    (name : outlook.view.isNameBefore .fatArrow = true) :
    singleQuickProcedure.Stays setting least outlook := by
  simp only [View.isNameBefore, Bool.and_eq_true, beq_iff_eq] at name
  refine stays_node near (by decide) (stays_leafNode_bind near.inside (by decide)
    (View.solid_of_isAt name.1 rfl) (fun _ within follows => ?_))
  have arrow := View.solid_of_kind ((follows 0).trans name.2) rfl
  exact stays_tag_bind (stays_quickBody (stays_bump within.near arrow).keeps)

theorem stays_parenthesized (near : outlook.Near least)
    (solid : outlook.view.kind.isSolid = true) : parenthesized.Stays setting least outlook := by
  refine stays_marked near (stays_bind (stays_node near nofun ?_) (fun _ _ read => ?_))
  · refine stays_bind (stays_bump near.inside solid) (fun _ _ opened => ?_)
    exact stays_bind (stays_fresh (stays_expression (opened.near.withContext _)
      (Or.inl opened.some))) (fun _ _ inner => stays_expect inner.near rfl)
  · refine stays_onlyIf read (read.near.shows_isAt _) (fun arrow splice => ?_)
    refine stays_wrap rfl nofun (fun last => ?_)
    have behind := (read.near.withLast splice false).withLast last true
    exact stays_bind (stays_bump behind (View.solid_of_isAt arrow rfl))
      (fun _ _ within => stays_results within.near within.some)

theorem stays_parenthesis (near : outlook.Near least) (paren : outlook.view.kind = .lParen) :
    parenthesis.Stays setting least outlook := by
  have solid := View.solid_of_kind paren rfl
  have file := file_of_bracket near solid (by rw [paren]; rfl)
  refine stays_look_bind
    (shows_of_file file (fun kindAt _ => closesBeforeArrow kindAt 63 0 1)) ?_
  split
  · exact stays_closedOperand (stays_quickProcedure file near solid)
  refine stays_look_bind (shows_of_file file (fun kindAt textAt =>
    View.isAtParameterList ⟨kindAt, textAt, .eof, .none, none⟩)) ?_
  split
  · exact stays_procedure near
  · exact stays_openOperand (stays_parenthesized near solid)

/-! ### Primary expressions -/

theorem stays_inlineCall (near : outlook.Near least) (solid : outlook.view.kind.isSolid = true)
    (name : outlook.view.kindAt 1 = .ident) : inlineCall.Stays setting least outlook := by
  refine stays_marked near (stays_bumpKeyword_bind near solid (fun _ within follows => ?_))
  refine stays_tag_bind (stays_bind (stays_identifierNode within.near
    (View.solid_of_kind ((follows 0).trans name) rfl)) (fun _ _ read => ?_))
  refine stays_look_bind (read.near.shows_isAt .lParen) ?_
  split
  · exact stays_tag_bind (stays_wrap rfl nofun
      (fun last => stays_callArguments (read.near.withLast last true)))
  · exact stays_refuse read.near _

theorem stays_implicitOperand (near : outlook.Near least) (dot : outlook.view.kind = .dot) :
    implicitOperand.Stays setting least outlook := by
  refine stays_look_bind (near.shows_kindAt_one (by rw [dot]; decide)) ?_
  split
  · next brace => exact stays_node near nofun (stays_structEntries near.inside dot brace)
  · next bracket => exact stays_node near nofun (stays_arrayEntries near.inside dot bracket)
  · next name =>
      refine stays_node near nofun (stays_bump_bind near.inside (View.solid_of_kind dot rfl)
        (fun _ within follows => ?_))
      exact stays_bumpTagged within.near (View.solid_of_kind ((follows 0).trans name) rfl) _
  · exact stays_refuse near _

theorem stays_word (near : outlook.Near least) (solid : outlook.view.kind.isSolid = true) :
    word.Stays setting least outlook := by
  refine stays_look_bind (near.shows_isWordIn _) ?_
  split
  · exact stays_openOperand (stays_keywordNode near nofun solid)
  refine stays_look_bind (near.shows_isWordIn _) ?_
  split
  · exact stays_openOperand (stays_keywordNode near nofun solid)
  refine stays_look_bind (near.shows_isWordIn _) ?_
  split
  · exact stays_closedOperand (stays_anonymousStruct near solid)
  refine stays_look_bind (near.shows_isWordIn _) ?_
  split
  · exact stays_closedOperand (stays_anonymousEnum near solid)
  refine stays_look_bind (near.shows_isWordIn _) ?_
  split
  · exact stays_closedOperand (stays_conditionalExpression near solid)
  refine stays_look_bind (shows_wordBefore near _ _) ?_
  split
  · exact stays_openOperand (stays_typeOf near solid)
  refine stays_look_bind (near.shows_next (near.shows_isWordIn _) (fun _ => ?_)) ?_
  · exact (TokenKind.isSolid_iff.mp solid).1
  split
  · next called =>
      simp only [Bool.and_eq_true, beq_iff_eq] at called
      exact stays_openOperand (stays_inlineCall near solid called.2)
  refine stays_look_bind (near.shows_isWordIn _) ?_
  split
  · exact stays_refuse near _
  refine stays_look_bind (near.shows_isWordIn _) ?_
  split
  · exact stays_openOperand (stays_leafNode near nofun solid)
  refine stays_look_bind (near.shows_isNameBefore _) ?_
  split
  · next name => exact stays_closedOperand (stays_singleQuickProcedure near name)
  · exact stays_openOperand (stays_identifierNode near solid)

theorem stays_primary (near : outlook.Near least)
    (ranked : 0 < outlook.taken ∨ 0 < setting.limit) : primary.Stays setting least outlook := by
  refine stays_look_bind near.shows_kind ?_
  split
  · next name => exact stays_word near (View.solid_of_kind name rfl)
  · next number =>
      exact stays_openOperand (stays_leafNode near nofun (View.solid_of_kind number rfl))
  · next number =>
      exact stays_openOperand (stays_leafNode near nofun (View.solid_of_kind number rfl))
  · exact stays_openOperand (stays_stringLiteral near)
  · next directive => exact stays_directiveExpression near (View.solid_of_kind directive rfl)
  · next paren => exact stays_parenthesis near paren
  · exact stays_openOperand (stays_type near ranked)
  · exact stays_openOperand (stays_type near ranked)
  · next dot => exact stays_openOperand (stays_implicitOperand near dot)
  · next dashes =>
      exact stays_openOperand (stays_leafNode near nofun (View.solid_of_kind dashes rfl))
  · next error =>
      exact stays_openOperand (stays_leafNode near nofun (View.solid_of_kind error rfl))
  · exact stays_refuse near _

/-! ### Postfix operators -/

/-- A round that consumes a token may be followed by another one. -/
theorem rounds_andGoOn {body : Production Unit}
    (inner : body.Stays setting outlook.taken outlook) :
    (andGoOn body).Rounds setting least outlook :=
  inner.andThen (fun _ _ later => later)

theorem stays_callOperator (marked : setting.marked = true) (near : outlook.Near least) :
    callOperator.Stays setting least outlook := by
  unfold callOperator
  rw [settle_call]
  exact stays_pure_bind (stays_tag_bind (stays_wrap marked nofun
    (fun last => stays_callArguments (near.withLast last true))))

theorem stays_indexOperator (marked : setting.marked = true) (near : outlook.Near least)
    (solid : outlook.view.kind.isSolid = true) : indexOperator.Stays setting least outlook := by
  refine stays_tag_bind (stays_wrap marked nofun (fun last => ?_))
  refine stays_bind (stays_bump (near.withLast last true) solid) (fun _ _ opened => ?_)
  refine stays_bind (stays_fresh ?_) (fun _ _ read => stays_expect read.near rfl)
  have inside := opened.withContext .none
  refine stays_bind (stays_expressionAs _ inside.near (Or.inl inside.some)) (fun _ _ first => ?_)
  exact stays_eat_bind first.near rfl
    (fun _ comma => stays_expressionAs _ comma.near (Or.inl comma.some)) (stays_pure first ())

theorem stays_memberOperator (marked : setting.marked = true) (near : outlook.Near least)
    (dot : outlook.view.kind = .dot) (name : outlook.view.kindAt 1 = .ident) :
    memberOperator.Stays setting least outlook := by
  refine stays_tag_bind (stays_wrap marked nofun (fun last => ?_))
  refine stays_bump_bind (near.withLast last true) (View.solid_of_kind dot rfl)
    (fun _ within follows => ?_)
  exact stays_bumpTagged within.near (View.solid_of_kind ((follows 0).trans name) rfl) _

theorem stays_dereferenceOperator (marked : setting.marked = true) (count : Nat)
    (near : outlook.Near least)
    (solid : ∀ distance, distance ≤ count → (outlook.view.kindAt distance).isSolid = true) :
    (dereferenceOperator (count + 1)).Stays setting least outlook :=
  stays_tag_bind (stays_wrap marked nofun
    (fun last => stays_times_succ count (near.withLast last true) solid))

/-- The operand turns into a type, which no later token depends on. -/
theorem stays_typedLiteral {kind : NodeKind} {entries : Production Unit}
    (marked : setting.marked = true) (ordinary : kind ≠ .deprecatedDirective)
    (inner : ∀ first second, entries.Stays setting.inside least
      ((outlook.withLast first false).withLast second true)) :
    (typedLiteral kind entries).Stays setting least outlook :=
  fun first => stays_tag_bind (stays_wrap marked ordinary (fun second => inner first second))

theorem rounds_dotOperator (marked : setting.marked = true) (within : outlook.Within least)
    (dot : outlook.view.kind = .dot) : dotOperator.Rounds setting least outlook := by
  have near := within.again
  refine (local_look_bind _ _).mpr ⟨near.shows_kindAt_one (by rw [dot]; decide), ?_⟩
  split
  · next name => exact rounds_andGoOn (stays_memberOperator marked near dot name)
  · next star =>
      apply rounds_andGoOn
      apply stays_dereferenceOperator marked 1 near
      intro distance before
      rcases Nat.le_one_iff_eq_zero_or_eq_one.mp before with rfl | rfl
      · exact View.solid_of_kind dot rfl
      · rw [star]
        rfl
  · next brace =>
      exact rounds_andGoOn (stays_typedLiteral marked nofun (fun first second =>
        stays_structEntries ((near.withLast first false).withLast second true) dot brace))
  · next bracket =>
      exact rounds_andGoOn (stays_typedLiteral marked nofun (fun first second =>
        stays_arrayEntries ((near.withLast first false).withLast second true) dot bracket))
  · exact within

theorem shows_canStartOperand (near : outlook.Near least)
    (more : outlook.view.kind ≠ .semicolon) :
    outlook.Shows (fun view => view.canStartOperandAt 1) := by
  intro other agrees
  obtain ⟨kind, text⟩ := near.next agrees more
  simp only [View.canStartOperandAt, kind, text]

theorem rounds_postfixOperator (marked : setting.marked = true) (within : outlook.Within least) :
    postfixOperator.Rounds setting least outlook := by
  have near := within.again
  refine (local_look_bind _ _).mpr ⟨near.shows_kind, ?_⟩
  split
  · exact rounds_andGoOn (stays_callOperator marked near)
  · next bracket =>
      exact rounds_andGoOn (stays_indexOperator marked near (View.solid_of_kind bracket rfl))
  · next dot => exact rounds_dotOperator marked within dot
  · next star =>
      refine (local_look_bind _ _).mpr
        ⟨shows_canStartOperand near (by rw [star]; decide), ?_⟩
      split
      · exact within
      · apply rounds_andGoOn
        apply stays_dereferenceOperator marked 0 near
        intro distance before
        obtain rfl : distance = 0 := Nat.le_zero.mp before
        exact View.solid_of_kind star rfl
  · exact within

theorem stays_postfixExpression (near : outlook.Near least)
    (ranked : 0 < outlook.taken ∨ 0 < setting.limit) :
    postfixExpression.Stays setting least outlook := by
  refine stays_marked near (stays_bind (stays_primary near ranked) (fun kind _ operand => ?_))
  cases kind with
  | isOpen =>
      exact stays_bind (stays_repeatedly operand (fun _ held => rounds_postfixOperator rfl held))
        (fun _ _ read => stays_pure read _)
  | closed => exact stays_pure operand _

/-! ### Unary operators -/

theorem stays_prefixedOperand {kind : NodeKind} (near : outlook.Near least)
    (ordinary : kind ≠ .deprecatedDirective) (solid : outlook.view.kind.isSolid = true) :
    (prefixedOperand kind).Stays setting least outlook :=
  stays_node near ordinary (stays_bind (stays_bump near.inside solid)
    (fun _ _ within => stays_operand _ within.near (Or.inl within.some)))

theorem stays_unaryOperator (near : outlook.Near least)
    (solid : outlook.view.kind.isSolid = true) : unaryOperator.Stays setting least outlook :=
  stays_node near nofun (stays_bind (stays_bumpTagged near.inside solid _) (fun _ _ within =>
    stays_bind (stays_operand _ within.near (Or.inl within.some))
      (fun _ _ read => stays_tag read _)))

theorem stays_pointerOperator (near : outlook.Near least)
    (solid : outlook.view.kind.isSolid = true) : pointerOperator.Stays setting least outlook :=
  stays_node near nofun (stays_bind (stays_bump near.inside solid) (fun _ _ within =>
    stays_bind (stays_operand _ within.near (Or.inl within.some))
      (fun _ _ read => stays_tag read _)))

theorem stays_castModifiers (within : outlook.Within least) :
    castModifiers.Stays setting least outlook := by
  apply stays_asLongAs within
  · intro round held
    apply held.near.shows_next (held.near.shows_isAt .comma)
    intro comma
    rw [View.kind_of_isAt comma]
    decide
  · intro round held modifier
    simp only [Bool.and_eq_true, beq_iff_eq] at modifier
    refine stays_bump_bind held.again (View.solid_of_isAt modifier.1 rfl)
      (fun _ comma follows => ?_)
    exact stays_bumpTagged comma.near
      (View.solid_of_kind ((follows 0).trans modifier.2) rfl) _

theorem stays_castValue (within : outlook.Within least) : castValue.Stays setting least outlook :=
  stays_bind (stays_operand _ within.near (Or.inl within.some)) (fun _ _ read => stays_tag read _)

theorem stays_cast (near : outlook.Near least) (solid : outlook.view.kind.isSolid = true) :
    cast.Stays setting least outlook := by
  refine stays_node near nofun
    (stays_bind (stays_bumpKeyword near.inside solid) (fun _ _ keyword => ?_))
  refine stays_bind (stays_castModifiers keyword) (fun _ _ modified => ?_)
  refine stays_bind (stays_expect modified.near rfl) (fun _ _ opened => ?_)
  refine stays_bind (stays_fresh (stays_type (opened.near.withContext _) (Or.inl opened.some)))
    (fun _ _ read => ?_)
  exact stays_tag_bind (stays_bind (stays_expect read.near rfl)
    (fun _ _ closed => stays_castValue closed))

theorem stays_automaticCast (near : outlook.Near least)
    (solid : outlook.view.kind.isSolid = true) : automaticCast.Stays setting least outlook :=
  stays_node near nofun (stays_bind (stays_bumpKeyword near.inside solid) (fun _ _ keyword =>
    stays_bind (stays_castModifiers keyword) (fun _ _ modified => stays_castValue modified)))

theorem shows_isAtCast (near : outlook.Near least) :
    outlook.Shows (fun view => view.isAtCast) := by
  refine shows_and (near.shows_isWordAt "cast") (fun word other agrees => ?_)
  have more : outlook.view.kind ≠ .semicolon := by
    rw [View.kind_of_isWordAt word]
    decide
  simp only [(near.next agrees more).1]

theorem shows_isAtAutomaticCast (near : outlook.Near least) :
    outlook.Shows (fun view => view.isAtAutomaticCast) := by
  refine shows_and (near.shows_isWordAt "xx") (fun word => shows_canStartOperand near ?_)
  rw [View.kind_of_isWordAt word]
  decide

theorem stays_unaryExpression (near : outlook.Near least)
    (ranked : 0 < outlook.taken ∨ 0 < setting.limit) :
    unaryExpression.Stays setting least outlook := by
  have unary {kind : TokenKind} (found : outlook.view.kind = kind) (solid : kind.isSolid = true) :
      (openOperand unaryOperator).Stays setting least outlook :=
    stays_openOperand (stays_unaryOperator near (View.solid_of_kind found solid))
  refine stays_look_bind near.shows_kind ?_
  split
  · next plus => exact unary plus rfl
  · next minus => exact unary minus rfl
  · next bang => exact unary bang rfl
  · next tilde => exact unary tilde rfl
  · next amp => exact unary amp rfl
  · next star =>
      exact stays_openOperand (stays_prefixedOperand near nofun (View.solid_of_kind star rfl))
  · next shl => exact stays_openOperand (stays_pointerOperator near (View.solid_of_kind shl rfl))
  · refine stays_look_bind (shows_isAtCast near) ?_
    split
    · next found =>
        have word := View.kind_of_isWordAt (Bool.and_eq_true_iff.mp found).1
        exact stays_openOperand (stays_cast near (View.solid_of_kind word rfl))
    refine stays_look_bind (shows_isAtAutomaticCast near) ?_
    split
    · next found =>
        have word := View.kind_of_isWordAt (Bool.and_eq_true_iff.mp found).1
        exact stays_openOperand (stays_automaticCast near (View.solid_of_kind word rfl))
    · exact stays_postfixExpression near ranked

/-! ### Binary operators -/

theorem stays_rangeOperator (marked : setting.marked = true) (near : outlook.Near least)
    (solid : outlook.view.kind.isSolid = true) : rangeOperator.Stays setting least outlook :=
  stays_tag_bind (stays_wrap marked nofun (fun last =>
    stays_bind (stays_bump (near.withLast last true) solid) (fun _ _ within =>
      stays_bind (stays_operand _ within.near (Or.inl within.some))
        (fun _ _ read => stays_tag read _))))

theorem stays_binaryOperatorOf (prec : Prec) (marked : setting.marked = true)
    (near : outlook.Near least) (solid : outlook.view.kind.isSolid = true) :
    (binaryOperatorOf prec).Stays setting least outlook :=
  stays_tag_bind (stays_wrap marked nofun (fun last =>
    stays_bind (stays_bumpTagged (near.withLast last true) solid _) (fun _ _ within =>
      stays_bind (stays_operand _ within.near (Or.inl within.some))
        (fun _ _ read => stays_tag read _))))

theorem shows_isAtCases (near : outlook.Near least) :
    outlook.Shows (fun view => view.isAtCases) := by
  apply near.shows_next (near.shows_isAt .eqEq)
  intro comparison
  rw [View.kind_of_isAt comparison]
  decide

theorem shows_operatorAt (near : outlook.Near least) (tightness : Prec) :
    outlook.Shows (operatorAt? tightness) := by
  intro other agrees
  simp only [operatorAt?, near.kind agrees, agrees.context, shows_isAtCases near other agrees]

theorem solid_of_operatorAt {view : View} {tightness prec : Prec}
    (found : operatorAt? tightness view = some prec) : view.kind.isSolid = true := by
  unfold operatorAt? at found
  cases kind : view.kind <;> first
    | rfl
    | (rw [kind] at found
       cases found)

theorem rounds_binaryOperatorStep (tightness : Prec) (marked : setting.marked = true)
    (within : outlook.Within least) :
    (binaryOperatorStep tightness).Rounds setting least outlook := by
  have near := within.again
  refine (local_look_bind _ _).mpr ⟨near.shows_isAt .dotDot, ?_⟩
  split
  · next dots =>
      split
      · have solid := View.solid_of_isAt dots rfl
        exact (stays_rangeOperator marked near solid).andThen
          (fun _ _ later => later.trans within)
      · exact within
  · refine (local_look_bind _ _).mpr ⟨shows_operatorAt near tightness, ?_⟩
    split
    · exact within
    · next prec found =>
        exact rounds_andGoOn (stays_binaryOperatorOf prec marked near (solid_of_operatorAt found))

theorem stays_expressionEntry (tightness : Prec) (near : outlook.Near least)
    (ranked : 0 < outlook.taken ∨ 0 < setting.limit) :
    (expressionEntry tightness).Stays setting least outlook := by
  refine stays_marked near (stays_bind (stays_unaryExpression near ranked) (fun kind _ operand => ?_))
  cases kind with
  | isOpen => exact stays_repeatedly operand (fun _ held => rounds_binaryOperatorStep _ rfl held)
  | closed => exact stays_pure operand _

end JaiSyntax.Production
