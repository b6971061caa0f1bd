import JaiSyntax.Proofs.Expression.Operand
/-!
Terms are read back. The operators of a term are read along its left parts: an operand takes the
postfix operators after it, and then the binary ones, as long as they belong to the term.
-/

set_option autoImplicit false

namespace JaiSyntax

namespace Production

variable {resync : Bool} {enter : Entry → Surroundings → Segment → Reading Unit} {context : Context}
  {first middle last : Stage} {rest : List SourceWord} {built : List Skeleton}

/-! ### Unary operators -/

theorem takes_unaryOperator (operator : KnownUnary) {argument : Term}
    (taken : (operand Prec.unary).TakesTerm resync enter argument rest) :
    unaryOperator.Takes resync enter context ⟨.fixed operator.1 :: (argument.words ++ rest), built⟩ ()
      ⟨rest, (Term.unary operator argument).skeleton :: built⟩ := by
  have inside : (do bumpTagged .operator; operand Prec.unary; tag .argument : Production Unit).Takes
      resync enter context ⟨.fixed operator.1 :: (argument.words ++ rest), []⟩ ()
      ⟨rest, [argument.skeleton.withField (some .argument),
        (SourceWord.fixed operator.1).leaf (some .operator)]⟩ :=
    takes_seq (takes_bumpTagged .operator) (taken.tagged .argument)
  exact takes_node (by decide) inside

theorem unaryExpression_takes_unary (operator : KnownUnary) {argument : Term}
    (taken : (operand Prec.unary).TakesTerm resync enter argument rest) :
    unaryExpression.Takes resync enter context ⟨.fixed operator.1 :: (argument.words ++ rest), built⟩ .isOpen
      ⟨rest, (Term.unary operator argument).skeleton :: built⟩ := by
  have opened : (openOperand unaryOperator).Takes resync enter context
      ⟨.fixed operator.1 :: (argument.words ++ rest), built⟩ .isOpen
      ⟨rest, (Term.unary operator argument).skeleton :: built⟩ :=
    takes_openOperand (takes_unaryOperator operator taken)
  have kinds : operator.1 = .plus ∨ operator.1 = .minus ∨ operator.1 = .bang ∨
      operator.1 = .tilde ∨ operator.1 = .amp := by
    simpa [unaryTokens] using operator.2
  refine takes_bind (takes_look (fun _ sees => sees.kind)) ?_
  rw [SourceWord.kindAt_cons_zero, SourceWord.kind_fixed]
  rcases kinds with kind | kind | kind | kind | kind
  all_goals
    rw [kind] at opened ⊢
    exact opened

/-- An operand that starts with neither a unary operator nor a conversion. -/
theorem unaryExpression_takes_operand {word : SourceWord} {words : List SourceWord}
    (plain : word.kind ∉ TokenKind.star :: .shl :: unaryTokens)
    (unconverted : word.kind = .ident → word.text ≠ "cast" ∧ word.text ≠ "xx")
    (taken : postfixExpression.Takes resync enter context ⟨word :: words, built⟩ .isOpen last) :
    unaryExpression.Takes resync enter context ⟨word :: words, built⟩ .isOpen last := by
  have noWord {text : String} (other : word.kind = .ident → word.text ≠ text) (view : View)
      (sees : view.Sees context ⟨word :: words, built⟩) : view.isWordAt 0 text = false := by
    rw [View.isWordAt, sees.kinds 0, SourceWord.kindAt_cons_zero, sees.texts 0 word rfl]
    by_cases ident : word.kind = .ident
    · rw [beq_false_of_ne (other ident), Bool.and_false]
    · rw [beq_false_of_ne ident, Bool.false_and]
  have noCast (view : View) (sees : view.Sees context ⟨word :: words, built⟩) :
      view.isAtCast = false := by
    rw [View.isAtCast, noWord (fun ident => (unconverted ident).1) view sees, Bool.false_and]
  have noAutomatic (view : View) (sees : view.Sees context ⟨word :: words, built⟩) :
      view.isAtAutomaticCast = false := by
    rw [View.isAtAutomaticCast, noWord (fun ident => (unconverted ident).2) view sees,
      Bool.false_and]
  refine takes_bind (takes_look (fun _ sees => sees.kind)) ?_
  rw [SourceWord.kindAt_cons_zero]
  split
  all_goals first
    | exact takes_else noCast (takes_else noAutomatic taken)
    | next same => exact absurd (by rw [same]; decide) plain

/-- A term that takes postfix operators starts with no unary operator. -/
theorem unaryExpression_takes_chain {word : SourceWord} {words : List SourceWord}
    (starts : word.Starts) (plain : word.kind ∉ unaryTokens)
    (taken : postfixExpression.Takes resync enter context ⟨word :: words, built⟩ .isOpen last) :
    unaryExpression.Takes resync enter context ⟨word :: words, built⟩ .isOpen last := by
  have kinds : ∀ kind ∈ TokenKind.ident :: .int :: .lParen :: unaryTokens,
      kind ≠ .star ∧ kind ≠ .shl := by
    decide
  have noPointer := kinds _ starts.kind
  refine unaryExpression_takes_operand ?_ (fun ident => ?_) taken
  · simp only [List.mem_cons, not_or]
    exact ⟨noPointer.1, noPointer.2, by simpa [unaryTokens] using plain⟩
  · rcases starts with ⟨-, free⟩ | other
    · exact ⟨fun same => free (same ▸ by decide), fun same => free (same ▸ by decide)⟩
    · rw [ident] at other
      exact absurd other (by decide)

/-! ### Binary operators -/

theorem takes_binary (operator : KnownBinary) (left : Term) {right : Term} {least : Prec}
    (tight : least ≤ operator.1.prec)
    (taken : (operand (Prec.tighter operator.1.prec)).TakesTerm resync enter right rest) :
    (binaryOperatorStep least).Takes resync enter context
      ⟨.fixed operator.1.token :: (right.words ++ rest), [left.skeleton]⟩ true
      ⟨rest, [(Term.binary operator left right).skeleton]⟩ := by
  have operators : ∀ known ∈ binaryOperators,
      known.token ≠ .dotDot ∧ binaryOperator? known.token = some known := by
    decide
  obtain ⟨notRange, found⟩ := operators operator.1 operator.2
  have shown (view : View) (sees : view.Sees context
      ⟨.fixed operator.1.token :: (right.words ++ rest), [left.skeleton]⟩) :
      operatorAt? least view = some operator.1.prec := by
    obtain ⟨start, more, words, starts, -⟩ := right.words_eq
    have next : view.kindAt 1 = start.kind := by
      rw [sees.kinds, words]
      rfl
    have kinds : ∀ kind ∈ TokenKind.ident :: .int :: .lParen :: unaryTokens, kind ≠ .lBrace := by
      decide
    have noBrace : view.kindAt 1 ≠ .lBrace := next ▸ kinds _ starts.kind
    have kind : view.kind = operator.1.token := sees.kind
    rw [operatorAt?, kind, found]
    simp only [View.isAtCases, beq_false_of_ne noBrace, Bool.and_false, Bool.or_false,
      decide_eq_true_eq]
    exact if_neg (Int.not_lt.mpr tight)
  have inside : (do
      bumpTagged .operator
      operand (Prec.tighter operator.1.prec)
      tag .right : Production Unit).Takes resync enter context
      ⟨.fixed operator.1.token :: (right.words ++ rest),
        [left.skeleton.withField (some .left)]⟩ ()
      ⟨rest, [right.skeleton.withField (some .right),
        (SourceWord.fixed operator.1.token).leaf (some .operator),
        left.skeleton.withField (some .left)]⟩ :=
    takes_seq (takes_bumpTagged .operator) (taken.tagged .right)
  refine takes_bind (takes_check .dotDot) ?_
  rw [SourceWord.kindAt_cons_zero]
  change (if (operator.1.token == TokenKind.dotDot) = true then _ else _ : Production Bool).Takes
    resync enter context _ _ _
  rw [if_neg (by simpa using notRange)]
  refine takes_bind (takes_look shown) ?_
  exact takes_seq (takes_seq (takes_tag .left _ _ _) (takes_wrap (by decide) inside))
    (takes_pure true _)

/-- No binary operator stands where an operand ends. -/
theorem skips_binaryOperatorStep {least : Prec} (follows : Follows rest least) :
    (binaryOperatorStep least).Takes resync enter context ⟨rest, built⟩ false ⟨rest, built⟩ := by
  have notRange : SourceWord.kindAt rest 0 ≠ .dotDot := fun same =>
    absurd (by rw [same]; decide) follows.kind
  refine takes_bind (takes_check .dotDot) ?_
  rw [beq_false_of_ne notRange]
  have shown (view : View) (sees : view.Sees context ⟨rest, built⟩) : operatorAt? least view = none := by
    rw [operatorAt?, sees.kind]
    cases found : binaryOperator? (SourceWord.kindAt rest 0) with
    | none => rfl
    | some operator =>
        have loose := follows.looser operator found
        simp only [decide_eq_true loose, Bool.true_or, if_true]
  exact takes_bind (takes_look shown) (takes_pure false _)

/-! ### Arguments -/

def argumentStep (positional : Production Unit) : Production Bool := do
  if ← look (fun view => !view.endsAt .rParen) then
    (do unless ← eat .comma do
          argument positional
          tag .argument
          commaBefore .rParen)
    pure true
  else pure false

theorem argumentList_eq (positional : Production Unit) : argumentList positional = (do
    expect .lParen
    amongArguments (repeatedly (argumentStep positional))
    expect .rParen) := rfl

variable {words more separator : List SourceWord} {skeleton : Skeleton} {positional : Production Unit}

/-- An argument and the comma after it, if there is one. -/
theorem takes_argumentStep (separated : Separated separator more)
    (starts : SourceWord.kindAt words 0 ∉ [TokenKind.rParen, .eof, .comma])
    (taken : (argument positional).Takes resync enter context ⟨words, built⟩ ()
      ⟨separator ++ more, skeleton :: built⟩) :
    (argumentStep positional).Takes resync enter context ⟨words, built⟩ true
      ⟨more, (separator.map (SourceWord.leaf · none)).reverse ++
        skeleton.withField (some .argument) :: built⟩ := by
  have whole : (do argument positional; tag .argument; commaBefore .rParen : Production Unit).Takes
      resync enter context ⟨words, built⟩ () ⟨more,
        (separator.map (SourceWord.leaf · none)).reverse ++
          skeleton.withField (some .argument) :: built⟩ :=
    takes_seq taken (takes_seq (takes_tag .argument _ _ _) (takes_commaBefore separated))
  obtain ⟨noClose, noEnd, noComma⟩ : SourceWord.kindAt words 0 ≠ .rParen ∧
      SourceWord.kindAt words 0 ≠ .eof ∧ SourceWord.kindAt words 0 ≠ .comma := by
    simpa using starts
  refine takes_then (fun view sees => ?_)
    (takes_seq (takes_bind (skips_eat noComma) whole) (takes_pure true _))
  have kind : view.kind = SourceWord.kindAt words 0 := sees.kind
  rw [View.endsAt, View.isAtEnd, View.isAt, View.isAt, kind, beq_false_of_ne noClose,
    beq_false_of_ne noEnd]
  rfl

theorem argumentStep_stops :
    (argumentStep positional).Loops resync enter context ⟨.fixed .rParen :: rest, built⟩
      ⟨.fixed .rParen :: rest, built⟩ := by
  refine loops_stop (takes_else (fun view sees => ?_) (takes_pure false _))
  rw [View.endsAt, View.isAt, sees.kind]
  rfl

theorem takes_argumentList {skeletons earlier : List Skeleton}
    (loops : (argumentStep positional).Loops resync enter .arguments
      ⟨words ++ .fixed .rParen :: rest, (SourceWord.fixed .lParen).leaf none :: earlier⟩
      ⟨.fixed .rParen :: rest,
        skeletons.reverse ++ (SourceWord.fixed .lParen).leaf none :: earlier⟩) :
    (argumentList positional).Takes resync enter context
      ⟨.fixed .lParen :: (words ++ .fixed .rParen :: rest), earlier⟩ ()
      ⟨rest, (SourceWord.fixed .rParen).leaf none ::
        (skeletons.reverse ++ (SourceWord.fixed .lParen).leaf none :: earlier)⟩ := by
  rw [argumentList_eq]
  exact takes_seq (takes_expect rfl)
    (takes_seq (takes_within _ (takes_repeatedly loops)) (takes_expect rfl))

/-- An argument that is neither named nor spread. -/
theorem takes_argument
    (unnamed : SourceWord.kindAt words 0 = .ident → SourceWord.kindAt words 1 ≠ .eq)
    (noSpread : SourceWord.kindAt words 0 ≠ .dotDot)
    (taken : positional.Takes resync enter context ⟨words, built⟩ () last) :
    (argument positional).Takes resync enter context ⟨words, built⟩ () last := by
  refine takes_else (fun view sees => ?_) (takes_bind (takes_check .dotDot) ?_)
  · rw [View.isNameBefore, View.isAt, sees.kind, sees.kinds 1]
    by_cases named : SourceWord.kindAt words 0 = .ident
    · rw [beq_false_of_ne (unnamed named), Bool.and_false]
    · rw [beq_false_of_ne named, Bool.false_and]
  · rw [beq_false_of_ne noSpread]
    exact taken

theorem takes_positional {value : Term} (closes : SourceWord.kindAt rest 0 ∈ closerKinds)
    (taken : expression.TakesTerm resync enter value rest) :
    (argument expression).Takes resync enter context ⟨value.words ++ rest, built⟩ ()
      ⟨rest, value.skeleton :: built⟩ := by
  obtain ⟨start, following, words, starts, -⟩ := value.words_eq
  have continuing : ∀ kind ∈ continuationKinds, kind ≠ .eq := by
    decide
  have closing : ∀ kind ∈ closerKinds, kind ≠ .eq := by
    decide
  have starting : ∀ kind ∈ TokenKind.ident :: .int :: .lParen :: unaryTokens,
      kind ≠ .dotDot := by
    decide
  refine takes_argument (fun named => ?_) ?_ (taken _ built)
  · rcases value.second_kind rest named with known | same
    · exact continuing _ known
    · exact same ▸ closing _ closes
  · rw [words]
    exact starting _ starts.kind

theorem takes_named (name : Name) {value : Term}
    (taken : expression.TakesTerm resync enter value rest) :
    (argument expression).Takes resync enter context
      ⟨name.word :: .fixed .eq :: (value.words ++ rest), built⟩ ()
      ⟨rest, .branch none .namedArgument [name.word.leaf (some .name), (SourceWord.fixed .eq).leaf none,
        value.skeleton.withField (some .value)] :: built⟩ := by
  have inside : (do bumpTagged .name; bump; expressionAs .value : Production Unit).Takes resync enter context
      ⟨name.word :: .fixed .eq :: (value.words ++ rest), []⟩ ()
      ⟨rest, [value.skeleton.withField (some .value), (SourceWord.fixed .eq).leaf none,
        name.word.leaf (some .name)]⟩ :=
    takes_seq (takes_bumpTagged .name) (takes_seq (takes_bump _ _ _) (taken.tagged .value))
  refine takes_then (fun view sees => ?_) (takes_node (by decide) inside)
  rw [View.isNameBefore, View.isAt, sees.kind, sees.kinds 1]
  rfl

theorem takes_spread {value : Term} (taken : expression.TakesTerm resync enter value rest) :
    (argument expression).Takes resync enter context ⟨.fixed .dotDot :: (value.words ++ rest), built⟩ ()
      ⟨rest, .branch none .spreadArgument [(SourceWord.fixed .dotDot).leaf none,
        value.skeleton.withField (some .value)] :: built⟩ := by
  have inside : (do bump; expressionAs .value : Production Unit).Takes resync enter context
      ⟨.fixed .dotDot :: (value.words ++ rest), []⟩ ()
      ⟨rest, [value.skeleton.withField (some .value), (SourceWord.fixed .dotDot).leaf none]⟩ :=
    takes_seq (takes_bump _ _ _) (taken.tagged .value)
  refine takes_else (fun view sees => ?_) (takes_bind (takes_check .dotDot) ?_)
  · rw [View.isNameBefore, View.isAt, sees.kind]
    rfl
  · exact takes_node (by decide) inside

end Production

/-! ### Terms -/

namespace Production

variable {resync : Bool} {enter : Entry → Surroundings → Segment → Reading Unit} {context : Context}
  {first middle last : Stage}

/-- An operand and its postfix operators, after the mark before them. -/
def postfixChain : Production Operand := do
  let kind ← primary
  if kind == .isOpen then repeatedly postfixOperator
  pure kind

/-- An operand and its binary operators, after the mark before them. -/
def climb (least : Prec) : Production Unit := do
  if (← unaryExpression) == .isOpen then repeatedly (binaryOperatorStep least)

theorem takes_postfixChain (taken : primary.Takes resync enter context first .isOpen middle)
    (loops : postfixOperator.Loops resync enter context middle last) :
    postfixChain.Takes resync enter context first .isOpen last :=
  takes_bind taken (takes_seq (takes_repeatedly loops) (takes_pure _ last))

theorem takes_climb {least : Prec} (taken : unaryExpression.Takes resync enter context first .isOpen middle)
    (loops : (binaryOperatorStep least).Loops resync enter context middle last) :
    (climb least).Takes resync enter context first () last :=
  takes_bind taken (takes_repeatedly loops)

end Production

open Production

namespace Term

variable {resync : Bool} {depth : Nat} {term : Term} {rest : List SourceWord} {built : List Skeleton}

/-- The first operand of a term and the postfix operators of the term are read, and the loop goes on
after them. -/
def Chains (resync : Bool) (depth : Nat) (term : Term) : Prop :=
  ∀ context rest last, Quiet rest →
    postfixOperator.Loops resync (readEntry resync depth) context ⟨rest, [term.skeleton]⟩ last →
    postfixChain.Takes resync (readEntry resync depth) context ⟨term.words ++ rest, []⟩ .isOpen last

def Climbs (resync : Bool) (depth : Nat) (term : Term) : Prop :=
  ∀ context rest least last, Follows rest (Prec.tighter term.level) → least ≤ term.level →
    (binaryOperatorStep least).Loops resync (readEntry resync depth) context ⟨rest, [term.skeleton]⟩ last →
    (climb least).Takes resync (readEntry resync depth) context ⟨term.words ++ rest, []⟩ () last

theorem level_bounds (term : Term) : Prec.assignment ≤ term.level := by
  cases term with
  | binary operator left right => exact operator.prec_bounds.1
  | unary operator operand => exact (by decide : Prec.assignment ≤ Prec.unary)
  | _ => exact (by decide : Prec.assignment ≤ Prec.member)

theorem Climbs.operand {least : Prec} (climbs : term.Climbs resync depth)
    (follows : Follows rest least) (tight : least ≤ term.level) :
    (operand least).TakesTerm resync (readEntry resync (depth + 1)) term rest := by
  intro context built around segment same here
  have within : least ≤ Prec.tighter term.level :=
    Int.le_trans tight (Int.le_of_lt (Int.lt_succ term.level))
  have body : (climb least).Takes resync (readEntry resync depth) context ⟨term.words ++ rest, []⟩ ()
      ⟨rest, [term.skeleton]⟩ :=
    climbs context rest least _ (follows.weaken within) tight
      (loops_stop (skips_binaryOperatorStep follows))
  exact takes_marked body around segment same here

theorem Climbs.expression (climbs : term.Climbs resync depth) (quiet : Quiet rest)
    (closes : SourceWord.kindAt rest 0 ∈ closerKinds) :
    Production.expression.TakesTerm resync (readEntry resync (depth + 1)) term rest :=
  fun _ built =>
    takes_within _ (climbs.operand (.of_closer quiet closes) term.level_bounds _ built)

/-- A term that takes postfix operators starts with no unary operator, so its chain is all of it. -/
theorem Chains.climbs (chains : term.Chains resync depth) (grouped : term.Grouped)
    (tight : Prec.call ≤ term.level) : term.Climbs resync depth := by
  intro context rest least last follows _ loops
  have whole : postfixExpression.Takes resync (readEntry resync depth) context ⟨term.words ++ rest, []⟩
      .isOpen ⟨rest, [term.skeleton]⟩ :=
    takes_marked (chains context rest _ follows.quiet (loops_stop (skips_postfixOperator follows)))
  obtain ⟨first, more, words, starts, plain⟩ := term.words_eq
  rw [words] at whole ⊢
  exact takes_climb (unaryExpression_takes_chain starts (plain grouped tight) whole) loops

theorem Chains.both (chains : term.Chains resync depth) (grouped : term.Grouped)
    (tight : Prec.call ≤ term.level) :
    (Prec.call ≤ term.level → term.Chains resync depth) ∧ term.Climbs resync depth :=
  ⟨fun _ => chains, chains.climbs grouped tight⟩

theorem chains_name (name : Name) : (Term.name name).Chains resync depth :=
  fun _ _ _ quiet loops => takes_postfixChain (primary_takes_name name quiet) loops

theorem chains_numeral (numeral : Numeral) : (Term.numeral numeral).Chains resync depth :=
  fun _ _ _ _ loops => takes_postfixChain (primary_takes_numeral numeral) loops

theorem quiet_fixed {kind : TokenKind} (known : kind ∈ termKinds) {words : List SourceWord}
    (quiet : Quiet words) : Quiet (.fixed kind :: words) :=
  (Quiet.of_ofTerm (List.forall_mem_singleton.mpr (.fixed known))).append quiet

theorem chains_parenthesized {inner : Term} (climbs : inner.Climbs resync depth) :
    (Term.parenthesized inner).Chains resync (depth + 1) := by
  intro context rest last quiet loops
  have closing : Quiet (.fixed .rParen :: rest) := quiet_fixed (by decide) quiet
  have closer : TokenKind.rParen ∈ closerKinds := by decide
  have read := climbs.expression closing closer
  have taken := takes_postfixChain (primary_takes_parenthesized quiet read) loops
  simpa only [Term.words, List.cons_append, List.append_assoc, List.nil_append] using taken

theorem Chains.member {object : Term} (chains : object.Chains resync depth) (member : Name) :
    (Term.member object member).Chains resync depth := by
  intro context rest last quiet loops
  have silent : Quiet (.fixed .dot :: member.word :: rest) :=
    quiet_fixed (by decide) (.cons ⟨TokenKind.noConfusion, TokenKind.noConfusion⟩ quiet.noQuick)
  have shorter : rest.length < (SourceWord.fixed .dot :: member.word :: rest).length := by
    simp only [List.length_cons]
    omega
  have taken := chains _ _ last silent (loops_step (takes_member object member) shorter loops)
  simpa only [Term.words, List.cons_append, List.append_assoc, List.nil_append] using taken

theorem Chains.index {object position : Term} (chains : object.Chains resync (depth + 1))
    (climbs : position.Climbs resync depth) :
    (Term.index object position).Chains resync (depth + 1) := by
  intro context rest last quiet loops
  have closing : Quiet (.fixed .rBracket :: rest) := quiet_fixed (by decide) quiet
  have silent : Quiet (.fixed .lBracket :: (position.words ++ .fixed .rBracket :: rest)) :=
    quiet_fixed (by decide) (position.words_quiet.append closing)
  have shorter : rest.length <
      (SourceWord.fixed .lBracket :: (position.words ++ .fixed .rBracket :: rest)).length := by
    simp only [List.length_cons, List.length_append]
    omega
  have closer : TokenKind.rBracket ∈ closerKinds := by decide
  have read := climbs.expression closing closer
  have taken := chains _ _ last silent (loops_step (takes_index read) shorter loops)
  simpa only [Term.words, List.cons_append, List.append_assoc, List.nil_append] using taken

end Term

def Arguments.AreRead (resync : Bool) (depth : Nat) (arguments : Arguments) : Prop :=
  ∀ rest built, Quiet rest →
    (argumentStep expression).Loops resync (readEntry resync depth) .arguments
    ⟨arguments.words ++ .fixed .rParen :: rest, built⟩
    ⟨.fixed .rParen :: rest, arguments.skeletons.reverse ++ built⟩

namespace Term

variable {resync : Bool} {depth : Nat}

theorem Chains.call {function : Term} {arguments : Arguments}
    (chains : function.Chains resync depth) (areRead : arguments.AreRead resync depth) :
    (Term.call function arguments).Chains resync depth := by
  intro context rest last quiet loops
  have closing : Quiet (.fixed .rParen :: rest) := quiet_fixed (by decide) quiet
  have silent : Quiet (.fixed .lParen :: (arguments.words ++ .fixed .rParen :: rest)) :=
    quiet_fixed (by decide) ((Quiet.of_ofTerm arguments.words_ofTerm).append closing)
  have shorter : rest.length <
      (SourceWord.fixed .lParen :: (arguments.words ++ .fixed .rParen :: rest)).length := by
    simp only [List.length_cons, List.length_append]
    omega
  have read : callArguments.Takes resync (readEntry resync depth) context _ () _ :=
    takes_argumentList (areRead rest
    [(SourceWord.fixed .lParen).leaf none, function.skeleton.withField (some .function)] quiet)
  have taken := chains _ _ last silent (loops_step (takes_call read) shorter loops)
  simpa only [Term.words, List.cons_append, List.append_assoc, List.nil_append] using taken

theorem climbs_unary (operator : KnownUnary) {argument : Term}
    (climbs : argument.Climbs resync depth) (tight : Prec.unary ≤ argument.level) :
    (Term.unary operator argument).Climbs resync (depth + 1) := by
  intro context rest least last follows _ loops
  have loose : ∀ known, binaryOperator? (SourceWord.kindAt rest 0) = some known →
      known.prec < Prec.unary := by
    intro known found
    have member : known ∈ binaryOperators := List.mem_of_find?_eq_some found
    exact KnownBinary.prec_bounds ⟨known, member⟩ |>.2.1
  have inner : Follows rest Prec.unary := ⟨follows.quiet, follows.kind, follows.star, loose⟩
  exact takes_climb (unaryExpression_takes_unary operator (climbs.operand inner tight)) loops

theorem climbs_binary (operator : KnownBinary) {left right : Term}
    (leftClimbs : left.Climbs resync (depth + 1)) (rightClimbs : right.Climbs resync depth)
    (leftTight : operator.1.prec ≤ left.level)
    (rightTight : Prec.tighter operator.1.prec ≤ right.level) :
    (Term.binary operator left right).Climbs resync (depth + 1) := by
  intro context rest least last follows tight loops
  change least ≤ operator.1.prec at tight
  obtain ⟨first, more, words, starts, -⟩ := right.words_eq
  have quiet : Quiet (right.words ++ rest) := right.words_quiet.append follows.quiet
  have after : Follows (.fixed operator.1.token :: (right.words ++ rest))
      (Prec.tighter left.level) := by
    rw [words] at quiet ⊢
    exact .of_operator operator quiet starts (Int.lt_add_one_of_le leftTight)
  have read := rightClimbs.operand follows rightTight
  have shorter : rest.length <
      (SourceWord.fixed operator.1.token :: (right.words ++ rest)).length := by
    simp only [List.length_cons, List.length_append]
    omega
  have taken := leftClimbs _ _ least last after (Int.le_trans tight leftTight)
    (loops_step (takes_binary operator left tight read) shorter loops)
  simpa only [Term.words, List.cons_append, List.append_assoc, List.nil_append] using taken

end Term

namespace Arguments

variable {resync : Bool} {depth : Nat}

theorem areRead_none : Arguments.none.AreRead resync depth := by
  intro rest built _
  exact argumentStep_stops

/-- An argument is read with the comma after it, and then the loop goes on. -/
theorem areRead_cons {arguments later : Arguments} (front : List SourceWord) {skeleton : Skeleton}
    (words : arguments.words = front ++ (later.separator ++ later.words))
    (skeletons : arguments.skeletons = skeleton.withField (some .argument) ::
      (later.separator.map (fun word => word.leaf Option.none) ++ later.skeletons))
    (starts : ∀ rest, SourceWord.kindAt (front ++ rest) 0 ∉ [TokenKind.rParen, .eof, .comma])
    (some : front ≠ [])
    (taken : ∀ context rest built, Quiet rest → SourceWord.kindAt rest 0 ∈ closerKinds →
      (argument expression).Takes resync (readEntry resync depth) context ⟨front ++ rest, built⟩ ()
        ⟨rest, skeleton :: built⟩)
    (areRead : later.AreRead resync depth) : arguments.AreRead resync depth := by
  intro rest built quiet
  have closing : Quiet (.fixed .rParen :: rest) := Term.quiet_fixed (by decide) quiet
  have silent : Quiet (later.separator ++ (later.words ++ .fixed .rParen :: rest)) := by
    rw [← List.append_assoc]
    exact later.words_quiet.append closing
  have closes : SourceWord.kindAt (later.separator ++ (later.words ++ .fixed .rParen :: rest)) 0 ∈
      closerKinds := by
    cases later with
    | none => exact (by decide : TokenKind.rParen ∈ closerKinds)
    | _ => exact (by decide : TokenKind.comma ∈ closerKinds)
  have separated : Separated later.separator (later.words ++ .fixed .rParen :: rest) := by
    cases later with
    | none => exact Or.inr ⟨rfl, rfl⟩
    | _ => exact Or.inl rfl
  have step := takes_argumentStep separated (starts _) (taken .arguments _ built silent closes)
  have shorter : (later.words ++ SourceWord.fixed .rParen :: rest).length <
      (front ++ (later.separator ++ (later.words ++ SourceWord.fixed .rParen :: rest))).length := by
    have positive := List.length_pos_iff.mpr some
    simp only [List.length_append, List.length_cons]
    omega
  have read := loops_step step shorter (areRead rest _ quiet)
  rw [words, skeletons]
  simpa only [List.append_assoc, List.reverse_cons, List.reverse_append, List.cons_append,
    List.nil_append] using read

end Arguments

mutual

/-- Every term with the parentheses that it needs is read back, if entries nest deep enough. -/
theorem Term.climbs (resync : Bool) (term : Term) (grouped : term.Grouped) (depth : Nat)
    (deep : term.words.length ≤ depth) :
    (Prec.call ≤ term.level → term.Chains resync depth) ∧ term.Climbs resync depth := by
  have tight : Prec.call ≤ Prec.member := by decide
  cases term with
  | name name => exact (Term.chains_name name).both grouped tight
  | numeral numeral => exact (Term.chains_numeral numeral).both grouped tight
  | binary operator left right =>
      obtain ⟨⟨leftTight, leftGrouped⟩, rightTight, rightGrouped⟩ := grouped
      rw [Term.words, List.length_append, List.length_cons] at deep
      obtain ⟨shallower, rfl⟩ : ∃ shallower, depth = shallower + 1 := ⟨depth - 1, by omega⟩
      have leftClimbs := (left.climbs resync leftGrouped (shallower + 1) (by omega)).2
      have rightClimbs := (right.climbs resync rightGrouped shallower (by omega)).2
      refine ⟨fun high => ?_,
        Term.climbs_binary operator leftClimbs rightClimbs leftTight rightTight⟩
      have loose : operator.1.prec < Prec.call :=
        Int.lt_trans operator.prec_bounds.2.1 (by decide)
      exact absurd loose (Int.not_lt.mpr high)
  | unary operator argument =>
      obtain ⟨argumentTight, argumentGrouped⟩ := grouped
      rw [Term.words, List.length_cons] at deep
      obtain ⟨shallower, rfl⟩ : ∃ shallower, depth = shallower + 1 := ⟨depth - 1, by omega⟩
      have climbs := (argument.climbs resync argumentGrouped shallower (by omega)).2
      refine ⟨fun high => ?_, Term.climbs_unary operator climbs argumentTight⟩
      have loose : Prec.unary < Prec.call := by decide
      exact absurd loose (Int.not_lt.mpr high)
  | parenthesized inner =>
      rw [Term.words, List.length_cons] at deep
      obtain ⟨shallower, rfl⟩ : ∃ shallower, depth = shallower + 1 := ⟨depth - 1, by omega⟩
      have climbs := (inner.climbs resync grouped shallower (by grind)).2
      exact (Term.chains_parenthesized climbs).both grouped tight
  | member object member =>
      rw [Term.words, List.length_append] at deep
      have chains := (object.climbs resync grouped.2 depth (by omega)).1 grouped.1
      exact (chains.member member).both grouped tight
  | index object position =>
      rw [Term.words, List.length_append, List.length_cons, List.length_append] at deep
      obtain ⟨shallower, rfl⟩ : ∃ shallower, depth = shallower + 1 := ⟨depth - 1, by omega⟩
      have chains := (object.climbs resync grouped.1.2 (shallower + 1) (by omega)).1 grouped.1.1
      have climbs := (position.climbs resync grouped.2 shallower (by omega)).2
      exact (chains.index climbs).both grouped tight
  | call function arguments =>
      rw [Term.words, List.length_append, List.length_cons, List.length_append] at deep
      have chains := (function.climbs resync grouped.1.2 depth (by omega)).1 grouped.1.1
      have areRead := arguments.areRead resync grouped.2 depth (by omega)
      exact (chains.call areRead).both grouped tight

theorem Arguments.areRead (resync : Bool) (arguments : Arguments) (grouped : arguments.Grouped)
    (depth : Nat) (deep : arguments.words.length < depth) : arguments.AreRead resync depth := by
  have starting : ∀ kind ∈ TokenKind.ident :: .int :: .lParen :: unaryTokens,
      kind ∉ [TokenKind.rParen, .eof, .comma] := by
    decide
  obtain ⟨shallower, rfl⟩ : ∃ shallower, depth = shallower + 1 := ⟨depth - 1, by omega⟩
  cases arguments with
  | none => exact Arguments.areRead_none
  | positional value rest =>
      rw [Arguments.words, List.length_append, List.length_append] at deep
      have climbs := (value.climbs resync grouped.1 shallower (by omega)).2
      have later := rest.areRead resync grouped.2 (shallower + 1) (by omega)
      obtain ⟨first, more, words, starts, -⟩ := value.words_eq
      refine Arguments.areRead_cons value.words rfl rfl (fun rest => ?_) ?_
        (fun context rest built quiet closes => ?_) later
      · rw [words]
        exact starting _ starts.kind
      · rw [words]
        exact List.cons_ne_nil first more
      · exact takes_positional closes (climbs.expression quiet closes)
  | named name value rest =>
      rw [Arguments.words, List.length_cons, List.length_cons, List.length_append,
        List.length_append] at deep
      have climbs := (value.climbs resync grouped.1 shallower (by omega)).2
      have later := rest.areRead resync grouped.2 (shallower + 1) (by omega)
      have ident := starting .ident List.mem_cons_self
      exact Arguments.areRead_cons (name.word :: .fixed .eq :: value.words) rfl rfl
        (fun _ => ident) (List.cons_ne_nil _ _)
        (fun _ _ _ quiet closes => takes_named name (climbs.expression quiet closes)) later
  | spread value rest =>
      rw [Arguments.words, List.length_cons, List.length_append, List.length_append] at deep
      have climbs := (value.climbs resync grouped.1 shallower (by omega)).2
      have later := rest.areRead resync grouped.2 (shallower + 1) (by omega)
      have dots : TokenKind.dotDot ∉ [TokenKind.rParen, .eof, .comma] := by decide
      exact Arguments.areRead_cons (.fixed .dotDot :: value.words) rfl rfl (fun _ => dots)
        (List.cons_ne_nil _ _)
        (fun _ _ _ quiet closes => takes_spread (climbs.expression quiet closes)) later

end

end JaiSyntax
