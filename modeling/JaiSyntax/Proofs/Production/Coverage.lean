import JaiSyntax.Proofs.Production.Orderly
import JaiSyntax.Production.Assembly
import JaiSyntax.Production.DirectiveExpression
/-!
Coverage of the small parts of the grammar. Each of them is orderly and reads something significant,
either from its first token on or because something was read before it, and no layout behind it.
-/

set_option autoImplicit false

namespace JaiSyntax

/-- The kinds of operators and conversions, whose operands are bounded by a precedence. -/
def NodeKind.isOperator : NodeKind → Bool
  | .unaryExpression | .binaryExpression | .address | .pointerExpression | .castExpression => true
  | _ => false

def NodeKind.isPlain (kind : NodeKind) : Bool :=
  !kind.isOperator && kind != .deprecatedDirective

namespace View

theorem kind_of_isAt {view : View} {kind : TokenKind} (at_kind : view.isAt kind = true) :
    view.kind = kind := by
  simpa [isAt] using at_kind

theorem kind_of_isWordIn {view : View} {words : List String} (word : view.isWordIn words = true) :
    view.kind = .ident := by
  simp only [isWordIn, Bool.and_eq_true] at word
  exact kind_of_isAt word.1

theorem kind_of_isWordAt {view : View} {word : String} (at_word : view.isWordAt 0 word = true) :
    view.kind = .ident := by
  simp only [isWordAt, Bool.and_eq_true, beq_iff_eq] at at_word
  exact at_word.1

theorem kind_of_isDirectiveIn {view : View} {names : List String}
    (directive : view.isDirectiveIn names = true) : view.kind = .directive := by
  simp only [isDirectiveIn, Bool.and_eq_true] at directive
  exact kind_of_isAt directive.1

theorem kind_of_isNameBefore {view : View} {kind : TokenKind}
    (name : view.isNameBefore kind = true) : view.kind = .ident := by
  simp only [isNameBefore, Bool.and_eq_true] at name
  exact kind_of_isAt name.1

theorem not_end_of_isAt {view : View} {kind : TokenKind} (at_kind : view.isAt kind = true)
    (token : kind ≠ .eof) : view.kind ≠ .eof := by
  rw [kind_of_isAt at_kind]
  exact token

theorem not_end_of_word {view : View} (word : view.kind = .ident) : view.kind ≠ .eof := by
  rw [word]
  decide

theorem name_of_comma {view : View} (more : (view.isAt .comma && view.kindAt 1 == .ident) = true) :
    view.kindAt 1 = .ident := by
  simp only [Bool.and_eq_true, beq_iff_eq] at more
  exact more.2

end View

namespace Production

variable {allowed : NodeKind → Prop} {marked : Bool} {α β : Type} {place : Place}

/-! ### Tokens -/

theorem covers_bumpTagged (notEnd : place.view.kind ≠ .eof) (field : Field) :
    (bumpTagged field).Covers allowed marked place :=
  covers_bind (covers_bump notEnd) (fun _ _ => covers_tag rfl field)

theorem orderly_bumpTagged {after : Unit → Place → Prop} {field : Field}
    (some : place.covered.isSome = true ∨ place.view.kind ≠ .eof)
    (further : ∀ previous last, after () ⟨place.view.next previous last, place.bumped⟩) :
    (bumpTagged field).Orderly allowed marked after place :=
  (orderly_bind _ _).mpr (fun previous last => ⟨Place.isSome_bumped some, further previous last⟩)

/-- What covers something wherever something was read may follow a name that may be missing. -/
theorem covers_bumpTagged_bind {field : Field} {next : Unit → Production α}
    (some : place.covered.isSome = true ∨ place.view.kind ≠ .eof)
    (further : ∀ reached : Place, reached.covered.isSome = true →
      (next ()).Covers allowed marked reached) :
    (bumpTagged field >>= next).Covers allowed marked place :=
  (orderly_bind _ _).mpr
    (orderly_bumpTagged some (fun _ _ => further _ (Place.isSome_bumped some)))

/-- A token and the name behind it. -/
theorem covers_bump_name (name : place.view.kindAt 1 = .ident) (field : Field) :
    (do
      bump
      bumpTagged field : Production Unit).Covers allowed marked place :=
  (orderly_bind _ _).mpr (fun _ _ => covers_bumpTagged (View.not_end_of_word (by exact name)) field)

theorem covers_bump_name_bind {field : Field} {next : Production α}
    (name : place.view.kindAt 1 = .ident)
    (further : ∀ view, next.Covers allowed marked ⟨view, .tight⟩) :
    (do
      bump
      bumpTagged field
      next).Covers allowed marked place :=
  (orderly_bind _ _).mpr (fun _ _ =>
    covers_bind (covers_bumpTagged (View.not_end_of_word (by exact name)) field)
      (fun _ view => further view))

theorem orderly_eat_bind {kind : TokenKind} {next : Bool → Production β}
    {after : β → Place → Prop} (token : kind ≠ .eof)
    (taken : ∀ view, (next true).Orderly allowed marked after ⟨view, .tight⟩)
    (other : place.view.isAt kind = false → (next false).Orderly allowed marked after place) :
    (eat kind >>= next).Orderly allowed marked after place := by
  unfold eat check
  simp only [orderly_bind, orderly_look]
  split
  · next at_kind =>
      have notEnd := View.not_end_of_isAt at_kind token
      simp only [orderly_bind]
      exact Covers.orderly (covers_bump notEnd) (fun _ view => taken view)
  · next absent => exact (orderly_pure false).mpr (other (Bool.eq_false_iff.mpr absent))

theorem covers_eat_bind {kind : TokenKind} {next : Bool → Production β} (token : kind ≠ .eof)
    (taken : ∀ view, (next true).Covers allowed marked ⟨view, .tight⟩)
    (other : (next false).Covers allowed marked place) :
    (eat kind >>= next).Covers allowed marked place :=
  orderly_eat_bind token taken (fun _ => other)

theorem covers_eat {kind : TokenKind} (token : kind ≠ .eof) (covered : place.covered = .tight) :
    (eat kind).Covers allowed marked place := by
  unfold eat check
  rw [covers_look_bind]
  split
  · next at_kind =>
      exact covers_bind (covers_bump (View.not_end_of_isAt at_kind token))
        (fun _ _ => covers_pure rfl true)
  · exact covers_pure covered false

theorem covers_discard {production : Production α}
    (covers : production.Covers allowed marked place) :
    (discard production).Covers allowed marked place :=
  covers_bind covers (fun _ _ => covers_pure rfl ())

theorem covers_eatWord_bind {word : String} {next : Bool → Production β}
    (taken : ∀ view, (next true).Covers allowed marked ⟨view, .tight⟩)
    (other : (next false).Covers allowed marked place) :
    (eatWord word >>= next).Covers allowed marked place := by
  unfold eatWord checkWord
  simp only [Covers, orderly_bind, orderly_look]
  split
  · next at_word =>
      simp only [orderly_bind]
      exact Covers.orderly (covers_bumpKeyword (View.kind_of_isWordIn at_word))
        (fun _ view => taken view)
  · exact (orderly_pure false).mpr other

theorem covers_eatWord (word : String) (covered : place.covered = .tight) :
    (eatWord word).Covers allowed marked place := by
  unfold eatWord checkWord
  rw [covers_look_bind]
  split
  · next at_word =>
      exact covers_bind (covers_bumpKeyword (View.kind_of_isWordIn at_word))
        (fun _ _ => covers_pure rfl true)
  · exact covers_pure covered false

theorem covers_expect {kind : TokenKind} (token : kind ≠ .eof) :
    (expect kind).Covers allowed marked place :=
  covers_eat_bind token (fun _ => covers_pure rfl ()) (covers_refuse _)

theorem covers_expectName (field : Field) : (expectName field).Covers allowed marked place := by
  unfold expectName check
  rw [covers_look_bind]
  split
  · next at_name =>
      exact covers_bumpTagged (View.not_end_of_isAt at_name (by decide)) field
  · exact covers_refuse _

theorem covers_closeBrace (covered : place.covered = .tight) :
    closeBrace.Covers allowed marked place :=
  covers_eat_bind (by decide) (fun _ => covers_pure rfl ()) (covers_report covered _)

/-! ### Control -/

theorem covers_onlyIf {condition : View → Bool} {body : Production Unit}
    (covered : place.covered = .tight)
    (inner : condition place.view = true → body.Covers allowed marked place) :
    (onlyIf condition body).Covers allowed marked place := by
  unfold onlyIf
  rw [covers_look_bind]
  split
  · next holds => exact inner holds
  · exact covers_pure covered _

theorem covers_onlyIf_bind {condition : View → Bool} {body : Production Unit}
    {next : Unit → Production α}
    (inner : condition place.view = true → body.Covers allowed marked place)
    (further : ∀ reached, (next ()).Covers allowed marked reached) :
    (onlyIf condition body >>= next).Covers allowed marked place := by
  refine (orderly_bind _ _).mpr ?_
  unfold onlyIf
  rw [orderly_bind, orderly_look]
  split
  · next holds => exact Covers.orderly (inner holds) (fun _ _ => further _)
  · exact (orderly_pure _).mpr (further _)

theorem covers_asLongAs {condition : View → Bool} {body : Production Unit}
    (covered : place.covered = .tight)
    (inner : ∀ view, condition view = true → body.Covers allowed marked ⟨view, .tight⟩) :
    (asLongAs condition body).Covers allowed marked place := by
  refine covers_repeatedly covered (fun view => ?_)
  rw [covers_look_bind]
  split
  · next holds => exact covers_bind (inner view holds) (fun _ _ => covers_pure rfl true)
  · exact covers_pure rfl false

theorem orderly_onlyIf {condition : View → Bool} {body : Production Unit}
    {after : Unit → Place → Prop}
    (inner : condition place.view = true → body.Orderly allowed marked after place)
    (skipped : condition place.view = false → after () place) :
    (onlyIf condition body).Orderly allowed marked after place := by
  unfold onlyIf
  rw [orderly_bind, orderly_look]
  split
  · next holds => exact inner holds
  · next fails => exact (orderly_pure _).mpr (skipped (Bool.eq_false_iff.mpr fails))

theorem orderly_asLongAs {condition : View → Bool} {body : Production Unit}
    {after : Unit → Place → Prop}
    (inner : ∀ view covered, condition view = true →
      body.Covers allowed marked ⟨view, covered⟩)
    (repeated : ∀ view, after () ⟨view, .tight⟩)
    (skipped : condition place.view = false → after () place) :
    (asLongAs condition body).Orderly allowed marked after place := by
  unfold asLongAs
  rw [orderly_repeatedly, orderly_bind, orderly_look]
  split
  · next holds =>
      refine Covers.orderly
        (covers_bind (inner place.view place.covered holds) (fun _ _ => covers_pure rfl true))
        (fun goesOn _ => ?_)
      cases goesOn with
      | false => exact repeated _
      | true =>
          refine ⟨.tight, Coverage.le_refl _, fun view => ?_, repeated⟩
          rw [orderly_bind, orderly_look]
          split
          · next again =>
              exact Covers.orderly
                (covers_bind (inner view .tight again) (fun _ _ => covers_pure rfl true))
                (fun _ _ => Coverage.le_refl _)
          · exact (orderly_pure false).mpr (Coverage.le_refl _)
  · next fails => exact (orderly_pure false).mpr (skipped (Bool.eq_false_iff.mpr fails))

theorem covers_upTo {close : TokenKind} {body : Production Unit} (covered : place.covered = .tight)
    (inner : ∀ view : View, view.kind ≠ .eof → body.Covers allowed marked ⟨view, .tight⟩) :
    (upTo close body).Covers allowed marked place :=
  covers_asLongAs covered (fun view more => inner view (by
    simp only [View.endsAt, View.isAtEnd, Bool.not_eq_true', Bool.or_eq_false_iff] at more
    exact beq_eq_false_iff_ne.mp more.2))

theorem covers_upToSkipping {close separator : TokenKind} {body : Production Unit}
    (token : separator ≠ .eof) (covered : place.covered = .tight)
    (inner : ∀ view : View, view.kind ≠ .eof → view.kind ≠ separator →
      body.Covers allowed marked ⟨view, .tight⟩) :
    (upToSkipping close separator body).Covers allowed marked place :=
  covers_upTo covered (fun view notEnd =>
    orderly_eat_bind token (fun _ => covers_pure rfl ())
      (fun other => inner view notEnd (beq_eq_false_iff_ne.mp other)))

theorem covers_commaSeparated {item : Production Unit}
    (first : item.Covers allowed marked place)
    (further : ∀ view, item.Covers allowed marked ⟨view, .tight⟩) :
    (commaSeparated item).Covers allowed marked place :=
  covers_bind first (fun _ _ =>
    covers_repeatedly rfl (fun _ =>
      covers_eat_bind (by decide)
        (fun view => covers_bind (further view) (fun _ _ => covers_pure rfl true))
        (covers_pure rfl false)))

theorem covers_commaBefore (close : TokenKind) (covered : place.covered = .tight) :
    (commaBefore close).Covers allowed marked place :=
  covers_onlyIf covered (fun _ => covers_expect (by decide))

theorem orderly_times {body : Production Unit} {kept : Place → Prop} (count : Nat)
    (start : kept place)
    (inner : ∀ reached, kept reached → body.Orderly allowed marked (fun _ => kept) reached) :
    (times count body).Orderly allowed marked (fun _ => kept) place := by
  induction count generalizing place with
  | zero => exact (orderly_pure ()).mpr start
  | succ count ih =>
      exact (orderly_bind _ _).mpr ((inner place start).weaken (fun _ _ held => ih held))

theorem orderly_bumps (count : Nat) :
    (times count bump).Orderly allowed marked (fun _ _ => True) place :=
  orderly_times count trivial (fun _ _ _ _ => trivial)

/-- What covers something wherever it stands may follow any number of tokens. -/
theorem covers_bumps_bind (count : Nat) {next : Unit → Production α}
    (further : ∀ reached, (next ()).Covers allowed marked reached) :
    (times count bump >>= next).Covers allowed marked place :=
  (orderly_bind _ _).mpr ((orderly_bumps count).weaken (fun _ reached _ => further reached))

theorem covers_times_bump (count : Nat) (covered : place.covered = .tight)
    (tokens : ∀ distance < count, place.view.kindAt distance ≠ .eof) :
    (times count bump).Covers allowed marked place := by
  induction count generalizing place with
  | zero => exact covers_pure covered ()
  | succ count ih =>
      refine (orderly_bind _ _).mpr (fun previous last => ih ?_ (fun distance less => ?_))
      · exact Place.bumped_of_token (tokens 0 (Nat.succ_pos count))
      · exact tokens (distance + 1) (Nat.succ_lt_succ less)

/-! ### Contexts and entries -/

theorem covers_fresh {body : Production α} (inner : ∀ view,
    view.kind = place.view.kind → body.Covers allowed marked ⟨view, place.covered⟩) :
    (fresh body).Covers allowed marked place :=
  covers_within (inner _ rfl)

theorem covers_amongArguments {body : Production α}
    (inner : ∀ view, body.Covers allowed marked ⟨view, place.covered⟩) :
    (amongArguments body).Covers allowed marked place :=
  covers_within (inner _)

theorem covers_operand (least : Prec) : (operand least).Covers allowed marked place :=
  covers_enter _

theorem covers_expression : expression.Covers allowed marked place :=
  covers_within (covers_enter _)

theorem covers_type : type.Covers allowed marked place :=
  covers_within (covers_enter _)

theorem covers_expressionAs (field : Field) : (expressionAs field).Covers allowed marked place :=
  covers_bind covers_expression (fun _ _ => covers_tag rfl field)

theorem covers_typeAs (field : Field) : (typeAs field).Covers allowed marked place :=
  covers_bind covers_type (fun _ _ => covers_tag rfl field)

theorem covers_expressionsAs (field : Field) : (expressionsAs field).Covers allowed marked place :=
  covers_commaSeparated (covers_expressionAs field) (fun _ => covers_expressionAs field)

/-! ### Small nodes -/

theorem covers_leafNode {kind : NodeKind} (permitted : allowed kind)
    (notEnd : place.view.kind ≠ .eof) : (leafNode kind).Covers allowed marked place :=
  covers_node permitted (covers_bump notEnd)

theorem covers_keywordNode {kind : NodeKind} (permitted : allowed kind)
    (word : place.view.kind = .ident) : (keywordNode kind).Covers allowed marked place :=
  covers_node permitted (covers_bumpKeyword word)

/-- A call is never in doubt. -/
theorem settle_call :
    settle .callExpression [.parameterizedStructType] = pure .callExpression := rfl

/-- A struct after its name is a declaration. -/
theorem settle_struct :
    settle .structDeclaration [.anonymousStructType] = pure .structDeclaration := rfl

/-- An enum after its name is a declaration. -/
theorem settle_enum :
    settle .constDeclaration [.enumDeclaration] = pure .enumDeclaration := rfl

/-! ### Literals and arguments -/

section Plain

variable (plain : ∀ kind : NodeKind, kind.isPlain = true → allowed kind)

include plain

theorem covers_identifierNode (notEnd : place.view.kind ≠ .eof) :
    identifierNode.Covers allowed marked place :=
  covers_leafNode (plain _ rfl) notEnd

omit plain in
theorem covers_stringBody : stringBody.Covers allowed marked place := by
  unfold stringBody check
  rw [covers_look_bind]
  split
  · next at_quote =>
      have notEnd := View.not_end_of_isAt at_quote (by decide)
      refine covers_bind (covers_bump notEnd) (fun _ _ => ?_)
      refine covers_bind (covers_asLongAs rfl (fun view piece => covers_bump ?_))
        (fun _ _ => covers_expect (by decide))
      rcases Bool.or_eq_true_iff.mp piece with content | escape
      · exact View.not_end_of_isAt content (by decide)
      · exact View.not_end_of_isAt escape (by decide)
  · exact covers_refuse_bind _ _

theorem covers_characterLiteral (notEnd : place.view.kind ≠ .eof) :
    characterLiteral.Covers allowed marked place :=
  covers_node (plain _ rfl)
    (covers_bind (covers_bumpTagged (by exact notEnd) _) (fun _ _ => covers_stringBody))

theorem covers_stringLiteral : stringLiteral.Covers allowed marked place := by
  unfold stringLiteral checkDirective
  rw [covers_look_bind]
  split
  · next directive =>
      apply covers_characterLiteral plain
      rw [View.kind_of_isDirectiveIn directive]
      decide
  · exact covers_node (plain _ rfl) covers_stringBody

theorem covers_heredoc (notEnd : place.view.kind ≠ .eof) :
    heredoc.Covers allowed marked place := by
  refine covers_node (plain _ rfl) (covers_bind (covers_bump notEnd) (fun _ _ => ?_))
  refine covers_eat_bind (by decide) (fun _ => ?_) (covers_pure rfl _)
  refine covers_bind (covers_discard (covers_eat (by decide) rfl)) (fun _ _ => ?_)
  exact covers_eat_bind (by decide) (fun _ => covers_pure rfl _)
    (covers_discard (covers_eat (by decide) rfl))

theorem covers_argument {positional : Production Unit}
    (inner : positional.Covers allowed marked place) :
    (argument positional).Covers allowed marked place := by
  unfold argument check
  rw [covers_look_bind]
  split
  · next named =>
      have notEnd := View.not_end_of_word (View.kind_of_isNameBefore named)
      exact covers_node (plain _ rfl)
        (covers_bind (covers_bumpTagged (by exact notEnd) _) (fun _ _ =>
          covers_bump_bind (fun _ => covers_expressionAs _)))
  · rw [covers_look_bind]
    split
    · next spread =>
        have notEnd := View.not_end_of_isAt spread (by decide)
        exact covers_node (plain _ rfl)
          (covers_bind (covers_bump notEnd) (fun _ _ => covers_expressionAs _))
    · exact inner

theorem covers_argumentList {positional : Production Unit}
    (inner : ∀ view, positional.Covers allowed marked ⟨view, .tight⟩) :
    (argumentList positional).Covers allowed marked place := by
  refine covers_bind (covers_expect (by decide)) (fun _ _ => ?_)
  refine covers_bind (covers_amongArguments (fun _ => ?_)) (fun _ _ => covers_expect (by decide))
  refine covers_upToSkipping (by decide) rfl (fun view _ _ => ?_)
  exact covers_bind (covers_argument plain (inner view)) (fun _ _ =>
    covers_bind (covers_tag rfl _) (fun _ _ => covers_commaBefore _ rfl))

theorem covers_callArguments : callArguments.Covers allowed marked place :=
  covers_argumentList plain (fun _ => covers_expression)

theorem covers_literalEntry : literalEntry.Covers allowed marked place := by
  unfold literalEntry
  rw [covers_look_bind]
  split
  · next named =>
      have notEnd := View.not_end_of_word (View.kind_of_isNameBefore named)
      refine covers_node (plain _ rfl)
        (covers_bind (covers_identifierNode plain notEnd) (fun _ _ => ?_))
      exact covers_bind (covers_tag rfl _) (fun _ _ =>
        covers_bumpTagged_bind (Or.inl rfl) (fun _ _ => covers_expressionAs _))
  · exact covers_expression

theorem covers_literalEntries (close : TokenKind) (covered : place.covered = .tight) :
    (literalEntries close).Covers allowed marked place := by
  refine covers_amongArguments (fun _ => covers_repeatedly covered (fun _ => ?_))
  rw [covers_look_bind]
  split
  · exact covers_pure rfl _
  · exact covers_bind (covers_literalEntry plain) (fun _ _ =>
      covers_bind (covers_tag rfl _) (fun _ _ => covers_eat (by decide) rfl))

theorem covers_structEntries (brace : place.view.kindAt 1 = .lBrace) :
    structEntries.Covers allowed marked place := by
  refine (orderly_bind _ _).mpr (fun previous last => covers_opened ?_)
  refine covers_bind (covers_bump ?_) (fun _ _ => ?_)
  · rw [View.kind_next, brace]
    decide
  · exact covers_bind (covers_literalEntries plain _ rfl) (fun _ _ => covers_closeBrace rfl)

theorem covers_arrayEntries (bracket : place.view.kindAt 1 = .lBracket) :
    arrayEntries.Covers allowed marked place := by
  refine (orderly_bind _ _).mpr (fun previous last => ?_)
  refine covers_bind (covers_bump ?_) (fun _ _ => ?_)
  · rw [View.kind_next, bracket]
    decide
  · exact covers_bind (covers_literalEntries plain _ rfl) (fun _ _ => covers_expect (by decide))

/-! ### Statements where they stand -/

omit plain in
theorem covers_terminator (kind : NodeKind) (covered : place.covered = .tight) :
    (terminator kind).Covers allowed marked place := by
  unfold terminator
  split
  · exact covers_pure covered _
  · exact covers_eat_bind (by decide) (fun _ => covers_pure rfl _)
      (covers_onlyIf covered (fun _ => covers_report covered _))

omit plain in
theorem covers_substatement (field : Option Field) :
    (substatement field).Covers allowed marked place := by
  refine covers_eat_bind (by decide) (fun _ => covers_pure rfl _) ?_
  refine covers_bind (covers_enter _) (fun _ view => ?_)
  rw [covers_look_bind]
  rcases view with ⟨kindAt, textAt, previous, context, lastNode⟩
  cases field with
  | none =>
      cases lastNode with
      | none => exact covers_pure rfl _
      | some found => exact covers_terminator found rfl
  | some role =>
      refine covers_bind (covers_tag rfl role) (fun _ _ => ?_)
      cases lastNode with
      | none => exact covers_pure rfl _
      | some found => exact covers_terminator found rfl

omit plain in
/-- A statement in a list covers something if there is a token. -/
theorem covers_listedStatement (notEnd : place.view.kind ≠ .eof) :
    listedStatement.Covers allowed marked place :=
  orderly_eat_bind (by decide) (fun _ => covers_pure rfl ()) (fun other =>
    covers_guarded notEnd (beq_eq_false_iff_ne.mp other) (covers_substatement none))

omit plain in
theorem covers_statementList (covered : place.covered = .tight) :
    statementList.Covers allowed marked place :=
  covers_upTo covered (fun _ notEnd => covers_listedStatement notEnd)

theorem covers_block : block.Covers allowed marked place := by
  refine covers_node (plain _ rfl) (covers_opened ?_)
  refine covers_bind (covers_expect (by decide)) (fun _ _ => ?_)
  exact covers_bind (covers_fresh (fun _ _ => covers_statementList rfl))
    (fun _ _ => covers_closeBrace rfl)

theorem covers_bodyBlock : bodyBlock.Covers allowed marked place :=
  covers_bind (covers_block plain) (fun _ _ => covers_tag rfl _)

end Plain

end Production

end JaiSyntax
