import JaiSyntax.Proofs.Expression.Term
/-!
Reading the words of operands. A name, a number or a parenthesis is told by its first words, and what
follows it decides how far the operators after it reach.
-/

set_option autoImplicit false

namespace JaiSyntax

/-! ### What follows -/

/-- Words without a double arrow that do not start with an arrow. -/
structure Quiet (words : List SourceWord) : Prop where
  noQuick : ∀ word ∈ words, word.kind ≠ .fatArrow
  noArrow : SourceWord.kindAt words 0 ≠ .arrow

namespace Quiet

variable {words rest : List SourceWord}

theorem append (front : Quiet words) (back : Quiet rest) : Quiet (words ++ rest) := by
  refine ⟨List.forall_mem_append.mpr ⟨front.noQuick, back.noQuick⟩, ?_⟩
  cases words with
  | nil => exact back.noArrow
  | cons word more => exact front.noArrow

theorem cons {word : SourceWord} (first : word.kind ≠ .arrow ∧ word.kind ≠ .fatArrow)
    (back : ∀ word ∈ rest, word.kind ≠ .fatArrow) : Quiet (word :: rest) :=
  ⟨List.forall_mem_cons.mpr ⟨first.2, back⟩, first.1⟩

theorem of_ofTerm (known : ∀ word ∈ words, word.OfTerm) : Quiet words := by
  have fixed : ∀ kind ∈ termKinds, kind ≠ .arrow ∧ kind ≠ .fatArrow := by
    decide
  have silent : ∀ word ∈ words, word.kind ≠ .arrow ∧ word.kind ≠ .fatArrow := by
    intro word member
    cases known word member with
    | name name => exact ⟨TokenKind.noConfusion, TokenKind.noConfusion⟩
    | numeral numeral => exact ⟨TokenKind.noConfusion, TokenKind.noConfusion⟩
    | fixed inKinds => exact fixed _ inKinds
  refine ⟨fun word member => (silent word member).2, ?_⟩
  cases words with
  | nil => exact TokenKind.noConfusion
  | cons word more => exact (silent word List.mem_cons_self).1

end Quiet

/-- A kind that is found nowhere in some words is found at no distance. -/
theorem SourceWord.kindAt_ne {words : List SourceWord} {kind : TokenKind} (notEnd : kind ≠ .eof)
    (absent : ∀ word ∈ words, word.kind ≠ kind) (distance : Nat) :
    SourceWord.kindAt words distance ≠ kind := by
  unfold SourceWord.kindAt
  cases found : words[distance]? with
  | none => exact notEnd.symm
  | some word => exact absent word (List.mem_of_getElem? found)

theorem Term.words_quiet (term : Term) : Quiet term.words := .of_ofTerm term.words_ofTerm

theorem Arguments.words_quiet (arguments : Arguments) :
    Quiet (arguments.separator ++ arguments.words) :=
  .of_ofTerm (List.forall_mem_append.mpr ⟨arguments.separator_ofTerm, arguments.words_ofTerm⟩)

/-- Words that end an operand whose operators bind at least as tight as `least`: neither a postfix
operator nor a range follows, and no such binary operator. A star is followed by an operand. -/
structure Follows (rest : List SourceWord) (least : Prec) : Prop where
  quiet : Quiet rest
  kind : SourceWord.kindAt rest 0 ∉ [TokenKind.lParen, .lBracket, .dot, .dotDot]
  star : SourceWord.kindAt rest 0 = .star →
    ∃ operator first more, rest = operator :: first :: more ∧ first.Starts
  looser : ∀ operator, binaryOperator? (SourceWord.kindAt rest 0) = some operator → operator.prec < least

def closerKinds : List TokenKind := [.rParen, .rBracket, .comma, .semicolon]

namespace Follows

variable {rest : List SourceWord} {least : Prec}

theorem of_closer (quiet : Quiet rest) (closer : SourceWord.kindAt rest 0 ∈ closerKinds) :
    Follows rest least := by
  have closers : ∀ kind ∈ closerKinds, kind ∉ [TokenKind.lParen, .lBracket, .dot, .dotDot] ∧
      kind ≠ .star ∧ binaryOperator? kind = none := by
    decide
  obtain ⟨kind, star, loose⟩ := closers _ closer
  refine ⟨quiet, kind, fun same => absurd same star, fun operator found => ?_⟩
  rw [loose] at found
  cases found

/-- The words after the left operand of a binary operator. -/
theorem of_operator (operator : KnownBinary) {first : SourceWord} {more : List SourceWord}
    (quiet : Quiet (first :: more)) (starts : first.Starts) (loose : operator.1.prec < least) :
    Follows (.fixed operator.1.token :: first :: more) least := by
  have operators : ∀ known ∈ binaryOperators,
      (known.token ≠ .arrow ∧ known.token ≠ .fatArrow) ∧
        known.token ∉ [TokenKind.lParen, .lBracket, .dot, .dotDot] ∧
          binaryOperator? known.token = some known := by
    decide
  obtain ⟨silent, kind, found⟩ := operators operator.1 operator.2
  refine ⟨.cons silent quiet.noQuick, kind, fun _ => ⟨_, first, more, rfl, starts⟩, fun other same => ?_⟩
  rw [SourceWord.kindAt_cons_zero] at same
  have equal : operator.1 = other := Option.some.inj (found.symm.trans same)
  rw [← equal]
  exact loose

theorem weaken {tighter : Prec} (follows : Follows rest least) (within : least ≤ tighter) :
    Follows rest tighter :=
  ⟨follows.quiet, follows.kind, follows.star,
    fun operator found => Int.lt_of_lt_of_le (follows.looser operator found) within⟩

end Follows

/-! ### Views of words -/

namespace View.Sees

variable {view : View} {context : Context} {stage : Stage} {word : SourceWord} {rest : List SourceWord} {built : List Skeleton}

theorem kind (sees : view.Sees context stage) : view.kind = SourceWord.kindAt stage.words 0 := sees.kinds 0

theorem text (sees : view.Sees context ⟨word :: rest, built⟩) : view.text = word.text :=
  sees.texts 0 word rfl

/-- No list of reserved words has a plain name. -/
theorem isWordIn_name {name : Name} (sees : view.Sees context ⟨name.word :: rest, built⟩)
    {words : List String} (reserved : ∀ text ∈ words, text ∈ reservedWords) :
    view.isWordIn words = false := by
  have absent : words.contains view.text = false := by
    rw [sees.text, List.contains_eq_mem, decide_eq_false_iff_not]
    exact fun member => name.free (reserved _ member)
  rw [View.isWordIn, absent, Bool.and_false]

/-- A word that is not an identifier is no word of the grammar. -/
theorem isWordAt_other {text : String} (sees : view.Sees context stage)
    (other : SourceWord.kindAt stage.words 0 ≠ .ident) : view.isWordAt 0 text = false := by
  rw [View.isWordAt, sees.kinds 0, beq_false_of_ne other, Bool.false_and]

theorem isWordAt_starts {text : String} (sees : view.Sees context ⟨word :: rest, built⟩)
    (starts : word.Starts) (reserved : text ∈ reservedWords) : view.isWordAt 0 text = false := by
  rcases starts with ⟨-, free⟩ | other
  · have different : word.text ≠ text := fun same => free (same ▸ reserved)
    rw [View.isWordAt, sees.texts 0 word rfl, beq_false_of_ne different, Bool.and_false]
  · apply sees.isWordAt_other
    have kinds : ∀ kind ∈ TokenKind.int :: .lParen :: unaryTokens, kind ≠ .ident := by
      decide
    exact kinds _ other

theorem canStartOperandAt_starts {first : SourceWord}
    (sees : view.Sees context ⟨word :: first :: rest, built⟩) (starts : first.Starts) :
    view.canStartOperandAt 1 = true := by
  unfold canStartOperandAt
  rw [sees.kinds 1, SourceWord.kindAt_cons_succ, SourceWord.kindAt_cons_zero]
  rcases starts with ⟨ident, free⟩ | other
  · rw [ident, sees.texts 1 first rfl]
    have absent : statementWords.contains first.text = false := by
      rw [List.contains_eq_mem, decide_eq_false_iff_not]
      have reserved : ∀ text ∈ statementWords, text ∈ reservedWords := by
        decide
      exact fun member => free (reserved _ member)
    simp only [absent, Bool.not_false]
  · have kinds : first.kind = .int ∨ first.kind = .lParen ∨ first.kind = .plus ∨
        first.kind = .minus ∨ first.kind = .bang ∨ first.kind = .tilde ∨ first.kind = .amp := by
      simpa [unaryTokens] using other
    rcases kinds with kind | kind | kind | kind | kind | kind | kind <;> rw [kind]

/-- Without a double arrow ahead no parenthesis holds the parameters of a quick procedure. -/
theorem isAtQuickParameters_quiet (sees : view.Sees context stage)
    (quiet : ∀ word ∈ stage.words, word.kind ≠ .fatArrow) :
    view.isAtQuickParameters = false := by
  have scan : ∀ budget depth distance,
      closesBeforeArrow view.kindAt budget depth distance = false := by
    intro budget depth distance
    fun_induction closesBeforeArrow view.kindAt budget depth distance with
    | case5 budget distance _ =>
        rw [sees.kinds]
        exact beq_false_of_ne (SourceWord.kindAt_ne TokenKind.noConfusion quiet _)
    | _ => first | assumption | rfl
  exact scan 63 0 1

/-- A parenthesis around a term starts no parameter list. -/
theorem isAtParameterList_term {term : Term} {opening : SourceWord}
    (sees : view.Sees context ⟨opening :: (term.words ++ rest), built⟩)
    (closes : SourceWord.kindAt rest 0 = .rParen) : view.isAtParameterList = false := by
  obtain ⟨first, more, words, starts, -⟩ := term.words_eq
  have kind : view.kindAt 1 = first.kind := by
    rw [sees.kinds, words]
    rfl
  unfold isAtParameterList
  rw [kind]
  rcases starts with ⟨ident, free⟩ | other
  · have second := term.second_kind rest (by rw [words]; exact ident)
    have continuing : ∀ kind ∈ continuationKinds, kind ≠ .colon ∧ kind ≠ .comma := by
      decide
    have plain : view.kindAt 2 ≠ .colon ∧ view.kindAt 2 ≠ .comma := by
      rw [sees.kinds, SourceWord.kindAt_cons_succ]
      rcases second with known | same
      · exact continuing _ known
      · rw [same, closes]
        exact ⟨TokenKind.noConfusion, TokenKind.noConfusion⟩
    have text : view.textAt 1 = first.text := sees.texts 1 first (by rw [words]; rfl)
    have different : first.text ≠ "using" := fun same => free (same ▸ by decide)
    rw [ident, text]
    simp only [beq_false_of_ne different, beq_false_of_ne plain.1, beq_false_of_ne plain.2,
      Bool.or_self]
  · have kinds : first.kind = .int ∨ first.kind = .lParen ∨ first.kind = .plus ∨
        first.kind = .minus ∨ first.kind = .bang ∨ first.kind = .tilde ∨ first.kind = .amp := by
      simpa [unaryTokens] using other
    rcases kinds with kind | kind | kind | kind | kind | kind | kind <;> rw [kind]

end View.Sees

namespace Production

variable {resync : Bool} {enter : Entry → Surroundings → Segment → Reading Unit} {context : Context}
  {first middle last : Stage} {rest : List SourceWord} {built : List Skeleton}

theorem takes_leafNode {kind : NodeKind} (significant : kind ≠ .deprecatedDirective)
    (word : SourceWord) :
    (leafNode kind).Takes resync enter context ⟨word :: rest, built⟩ ()
      ⟨rest, .branch none kind [word.leaf none] :: built⟩ :=
  takes_node significant (takes_bump word rest [])

theorem takes_openOperand {production : Production Unit}
    (taken : production.Takes resync enter context first () last) :
    (openOperand production).Takes resync enter context first .isOpen last :=
  takes_bind taken (takes_pure _ _)

/-! ### Operands of one word -/

theorem takes_word (name : Name) (quiet : Quiet rest) :
    word.Takes resync enter context ⟨name.word :: rest, built⟩ .isOpen
      ⟨rest, (Term.name name).skeleton :: built⟩ := by
  have plain (words : List String) (reserved : ∀ text ∈ words, text ∈ reservedWords)
      (view : View) (sees : view.Sees context ⟨name.word :: rest, built⟩) : view.isWordIn words = false :=
    sees.isWordIn_name reserved
  refine takes_else (plain _ (by decide)) ?_
  refine takes_else (plain _ (by decide)) ?_
  refine takes_else (plain _ (by decide)) ?_
  refine takes_else (plain _ (by decide)) ?_
  refine takes_else (plain _ (by decide)) ?_
  refine takes_else (fun view sees => ?_) ?_
  · rw [View.isAtTypeOf, sees.isWordAt_starts name.starts_word (by decide), Bool.false_and]
  refine takes_else (fun view sees => ?_) ?_
  · rw [plain ["inline", "no_inline"] (by decide) view sees, Bool.false_and]
  refine takes_else (plain _ (by decide)) ?_
  refine takes_else (plain _ (by decide)) ?_
  refine takes_else (fun view sees => ?_) ?_
  · have calm : view.kindAt 1 ≠ .fatArrow := by
      rw [sees.kinds]
      exact SourceWord.kindAt_ne TokenKind.noConfusion quiet.noQuick 0
    rw [View.isNameBefore, beq_false_of_ne calm, Bool.and_false]
  exact takes_openOperand (takes_leafNode (by decide) name.word)

theorem primary_takes_name (name : Name) (quiet : Quiet rest) :
    primary.Takes resync enter context ⟨name.word :: rest, built⟩ .isOpen
      ⟨rest, (Term.name name).skeleton :: built⟩ :=
  takes_bind (takes_look (fun _ sees => sees.kind)) (takes_word name quiet)

theorem primary_takes_numeral (numeral : Numeral) :
    primary.Takes resync enter context ⟨numeral.word :: rest, built⟩ .isOpen
      ⟨rest, (Term.numeral numeral).skeleton :: built⟩ :=
  takes_bind (takes_look (fun _ sees => sees.kind))
    (takes_openOperand (takes_leafNode (by decide) numeral.word))

/-! ### Operands with terms inside -/

/-- A production that reads just a term where `rest` follows. -/
def TakesTerm (resync : Bool) (enter : Entry → Surroundings → Segment → Reading Unit)
    (production : Production Unit) (term : Term) (rest : List SourceWord) : Prop :=
  ∀ context built, production.Takes resync enter context ⟨term.words ++ rest, built⟩ ()
    ⟨rest, term.skeleton :: built⟩

theorem TakesTerm.tagged {production : Production Unit} {term : Term} (field : Field)
    (taken : production.TakesTerm resync enter term rest) :
    (do production; tag field : Production Unit).Takes resync enter context ⟨term.words ++ rest, built⟩ ()
      ⟨rest, term.skeleton.withField (some field) :: built⟩ :=
  takes_bind (taken _ built) (takes_tag field rest term.skeleton built)

theorem takes_parenthesized {inner : Term} (quiet : Quiet rest)
    (taken : expression.TakesTerm resync enter inner (.fixed .rParen :: rest)) :
    parenthesized.Takes resync enter context
      ⟨.fixed .lParen :: (inner.words ++ .fixed .rParen :: rest), built⟩ ()
      ⟨rest, (Term.parenthesized inner).skeleton :: built⟩ := by
  have inside : (do bump; fresh expression; expect .rParen : Production Unit).Takes resync enter context
      ⟨.fixed .lParen :: (inner.words ++ .fixed .rParen :: rest), []⟩ ()
      ⟨rest, [(SourceWord.fixed .rParen).leaf none, inner.skeleton, (SourceWord.fixed .lParen).leaf none]⟩ :=
    takes_seq (takes_bump _ _ _) (takes_seq (takes_within _ (taken _ _)) (takes_expect rfl))
  have enclosed : (node .parenthesizedExpression
      (do bump; fresh expression; expect .rParen : Production Unit)).Takes resync enter context
      ⟨.fixed .lParen :: (inner.words ++ .fixed .rParen :: rest), []⟩ ()
      ⟨rest, [(Term.parenthesized inner).skeleton]⟩ :=
    takes_node (by decide) inside
  change parenthesized.Takes resync enter context _ () ⟨rest, [(Term.parenthesized inner).skeleton] ++ built⟩
  refine takes_marked (takes_seq enclosed ?_)
  refine skips_onlyIf (fun view sees => ?_)
  rw [View.isAt, sees.kind]
  exact beq_false_of_ne quiet.noArrow

theorem primary_takes_parenthesized {inner : Term} (quiet : Quiet rest)
    (taken : expression.TakesTerm resync enter inner (.fixed .rParen :: rest)) :
    primary.Takes resync enter context
      ⟨.fixed .lParen :: (inner.words ++ .fixed .rParen :: rest), built⟩ .isOpen
      ⟨rest, (Term.parenthesized inner).skeleton :: built⟩ := by
  have fixed {kind : TokenKind} (silent : kind ≠ .arrow ∧ kind ≠ .fatArrow) {words : List SourceWord}
      (back : Quiet words) : Quiet (.fixed kind :: words) := .cons silent back.noQuick
  have all : Quiet (.fixed .lParen :: (inner.words ++ .fixed .rParen :: rest)) :=
    fixed (by decide) (inner.words_quiet.append (fixed (by decide) quiet))
  refine takes_bind (takes_look (fun _ sees => sees.kind)) ?_
  refine takes_else (fun view sees => sees.isAtQuickParameters_quiet all.noQuick) ?_
  refine takes_else (fun view sees => sees.isAtParameterList_term rfl) ?_
  exact takes_openOperand (takes_parenthesized quiet taken)

/-! ### Postfix operators -/

theorem takes_member (object : Term) (member : Name) :
    postfixOperator.Takes resync enter context
      ⟨.fixed .dot :: member.word :: rest, [object.skeleton]⟩ true
      ⟨rest, [(Term.member object member).skeleton]⟩ := by
  have inside : (do bump; bumpTagged .member : Production Unit).Takes resync enter context
      ⟨.fixed .dot :: member.word :: rest, [object.skeleton.withField (some .object)]⟩ ()
      ⟨rest, [member.word.leaf (some .member), (SourceWord.fixed .dot).leaf none,
        object.skeleton.withField (some .object)]⟩ :=
    takes_seq (takes_bump _ _ _) (takes_bumpTagged .member)
  have operator : memberOperator.Takes resync enter context
      ⟨.fixed .dot :: member.word :: rest, [object.skeleton]⟩ ()
      ⟨rest, [(Term.member object member).skeleton]⟩ :=
    takes_seq (takes_tag .object _ _ _) (takes_wrap (by decide) inside)
  refine takes_bind (takes_look (fun _ sees => sees.kind)) ?_
  refine takes_bind (takes_look (fun _ sees => sees.kinds 1)) ?_
  exact takes_seq operator (takes_pure true _)

theorem takes_index {object position : Term}
    (taken : expression.TakesTerm resync enter position (.fixed .rBracket :: rest)) :
    postfixOperator.Takes resync enter context
      ⟨.fixed .lBracket :: (position.words ++ .fixed .rBracket :: rest), [object.skeleton]⟩ true
      ⟨rest, [(Term.index object position).skeleton]⟩ := by
  have positioned : (do
      expressionAs .index
      if ← eat .comma then expressionAs .index : Production Unit).Takes resync enter .none
      ⟨position.words ++ .fixed .rBracket :: rest, [(SourceWord.fixed .lBracket).leaf none,
        object.skeleton.withField (some .object)]⟩ ()
      ⟨.fixed .rBracket :: rest, [position.skeleton.withField (some .index),
        (SourceWord.fixed .lBracket).leaf none, object.skeleton.withField (some .object)]⟩ :=
    takes_seq (taken.tagged .index)
      (takes_bind (skips_eat TokenKind.noConfusion) (takes_pure () _))
  have inside : (do
      bump
      fresh (do
        expressionAs .index
        if ← eat .comma then expressionAs .index)
      expect .rBracket : Production Unit).Takes resync enter context
      ⟨.fixed .lBracket :: (position.words ++ .fixed .rBracket :: rest),
        [object.skeleton.withField (some .object)]⟩ ()
      ⟨rest, [(SourceWord.fixed .rBracket).leaf none, position.skeleton.withField (some .index),
        (SourceWord.fixed .lBracket).leaf none, object.skeleton.withField (some .object)]⟩ :=
    takes_seq (takes_bump _ _ _) (takes_seq (takes_within _ positioned) (takes_expect rfl))
  refine takes_bind (takes_look (fun _ sees => sees.kind)) ?_
  refine takes_seq (takes_seq (takes_tag .object _ _ _) ?_) (takes_pure true _)
  exact takes_wrap (by decide) inside

theorem takes_call {function : Skeleton} {words : List SourceWord} {skeletons : List Skeleton}
    (taken : callArguments.Takes resync enter context
      ⟨.fixed .lParen :: (words ++ .fixed .rParen :: rest),
        [function.withField (some .function)]⟩ ()
      ⟨rest, (SourceWord.fixed .rParen).leaf none :: (skeletons.reverse ++
        [(SourceWord.fixed .lParen).leaf none, function.withField (some .function)])⟩) :
    postfixOperator.Takes resync enter context
      ⟨.fixed .lParen :: (words ++ .fixed .rParen :: rest), [function]⟩ true
      ⟨rest, [.branch none .callExpression (function.withField (some .function) ::
        (SourceWord.fixed .lParen).leaf none ::
          (skeletons ++ [(SourceWord.fixed .rParen).leaf none]))]⟩ := by
  refine takes_bind (takes_look (fun _ sees => sees.kind)) ?_
  refine takes_seq ?_ (takes_pure true _)
  unfold callOperator
  rw [settle_call]
  refine takes_bind (takes_pure _ _) (takes_seq (takes_tag .function _ _ _) ?_)
  have wrapped : (wrap .callExpression callArguments).Takes resync enter context _ () _ :=
    takes_wrap (by decide) taken
  rw [List.reverse_cons, List.reverse_append, List.reverse_reverse] at wrapped
  exact wrapped

/-- No postfix operator stands where an operand ends. -/
theorem skips_postfixOperator {least : Prec} (follows : Follows rest least) :
    postfixOperator.Takes resync enter context ⟨rest, built⟩ false ⟨rest, built⟩ := by
  refine takes_bind (takes_look (fun _ sees => sees.kind)) ?_
  have kind := follows.kind
  split
  · next same => exact absurd (by rw [same]; decide) kind
  · next same => exact absurd (by rw [same]; decide) kind
  · next same => exact absurd (by rw [same]; decide) kind
  · next same =>
      obtain ⟨operator, first, more, rfl, starts⟩ := follows.star same
      exact takes_then (fun view sees => sees.canStartOperandAt_starts starts)
        (takes_pure false _)
  · exact takes_pure false _

end Production

end JaiSyntax
