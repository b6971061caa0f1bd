import JaiSyntax.Proofs.Reading.Stage
/-!
Reading declarations of a single name. A source that is written as one statement is parsed without an
error if its production takes all of its words.
-/

set_option autoImplicit false

namespace JaiSyntax

namespace Production

variable {resync : Bool} {enter : Entry → Surroundings → Segment → Reading Unit} {context : Context}
  {first : SourceWord} {words rest : List SourceWord} {built inner : List Skeleton} {kind : NodeKind}

/-! ### Statements -/

/-- A statement inside another construct, up to its terminator. -/
theorem takes_substatement (field : Option Field) (starts : SourceWord.kindAt words 0 ≠ .semicolon)
    {children : List Skeleton} {last : Stage}
    (entered : (Production.enter .statement).Takes resync enter context ⟨words, built⟩ ()
      ⟨rest, .branch none kind children :: inner⟩)
    (ended : (terminator kind).Takes resync enter context
      ⟨rest, .branch field kind children :: inner⟩ () last) :
    (substatement field).Takes resync enter context ⟨words, built⟩ () last := by
  refine takes_bind (skips_eat starts) (takes_seq entered ?_)
  refine takes_bind (takes_look (fun _ sees => sees.last _ _ rfl)) ?_
  cases field with
  | none => exact ended
  | some role => exact takes_seq (takes_tag role _ _ _) ended

/-- The semicolon behind a statement that needs one. -/
theorem takes_terminator (semicolon : terminatorOf kind = .semicolon) :
    (terminator kind).Takes resync enter context ⟨.fixed .semicolon :: rest, built⟩ ()
      ⟨rest, (SourceWord.fixed .semicolon).leaf none :: built⟩ := by
  unfold terminator
  rw [semicolon]
  exact takes_bind (takes_eat rfl) (takes_pure () _)

theorem skips_terminator (self : terminatorOf kind = .selfTerminated) {stage : Stage} :
    (terminator kind).Takes resync enter context stage () stage := by
  unfold terminator
  rw [self]
  exact takes_pure () stage

theorem takes_listedStatement (starts : SourceWord.kindAt words 0 ≠ .semicolon)
    (taken : (substatement none).Takes resync enter context ⟨words, []⟩ () ⟨rest, inner⟩) :
    listedStatement.Takes resync enter context ⟨words, built⟩ () ⟨rest, inner ++ built⟩ :=
  takes_bind (skips_eat starts) (takes_guarded taken)

/-- A source file of a single statement. -/
theorem takes_sourceFile (starts : SourceWord.kindAt words 0 ≠ .eof)
    (taken : listedStatement.Takes resync enter context ⟨words, []⟩ () ⟨[], inner⟩) :
    sourceFile.Takes resync enter context ⟨words, []⟩ () ⟨[], inner⟩ := by
  have ended (built : List Skeleton) (view : View) (sees : view.Sees context ⟨[], built⟩) :
      (!view.isAtEnd) = false := by
    rw [View.isAtEnd, View.isAt, View.kind, sees.kinds 0]
    rfl
  have more (view : View) (sees : view.Sees context ⟨words, []⟩) : (!view.isAtEnd) = true := by
    rw [View.isAtEnd, View.isAt, View.kind, sees.kinds 0, beq_false_of_ne starts]
    rfl
  have some : 0 < words.length := by
    cases words with
    | nil => exact absurd rfl starts
    | cons word rest => exact Nat.succ_pos _
  refine takes_repeatedly (loops_step (takes_then more (takes_seq taken (takes_pure true _))) some ?_)
  exact loops_stop (takes_else (ended inner) (takes_pure false _))

/-! ### Declarations -/

/-- A declaration of a single name. -/
theorem takes_declaration (single : SourceWord.kindAt words 0 ≠ .comma)
    (significant : kind ≠ .deprecatedDirective)
    (taken : (declarationTail true).Takes resync enter context
      ⟨words, [first.leaf (some .name)]⟩ kind ⟨rest, inner⟩) :
    declaration.Takes resync enter context ⟨first :: words, built⟩ ()
      ⟨rest, .branch none kind inner.reverse :: built⟩ := by
  have alone (view : View) (sees : view.Sees context ⟨words, [first.leaf (some .name)]⟩) :
      view.isAt .comma = false := by
    rw [View.isAt, View.kind, sees.kinds 0]
    exact beq_false_of_ne single
  have isSingle (view : View) (sees : view.Sees context ⟨words, [first.leaf (some .name)]⟩) :
      (!view.isAt .comma) = true := by
    rw [alone view sees]
    rfl
  change declaration.Takes resync enter context _ ()
    ⟨rest, [.branch none kind inner.reverse] ++ built⟩
  refine takes_marked (takes_seq (takes_bumpTagged .name) (takes_bind (takes_look isSingle) ?_))
  refine takes_seq (loops_asLongAs_stop alone) (takes_bind taken ?_)
  exact takes_wrap significant (takes_pure () _)

/-- The rest of a declaration after a single colon. -/
theorem takes_typedTail (single : SourceWord.kindAt words 0 ≠ .colon) {isSingle : Bool}
    (taken : typedDefinition.Takes resync enter context
      ⟨words, (SourceWord.fixed .colon).leaf none :: built⟩ kind ⟨rest, inner⟩) :
    (declarationTail isSingle).Takes resync enter context ⟨.fixed .colon :: words, built⟩ kind
      ⟨rest, inner⟩ := by
  have colons (view : View) (sees : view.Sees context ⟨.fixed .colon :: words, built⟩) :
      doubleColonAt? view.kindAt 0 = none := by
    have first : view.kindAt 0 = .colon := sees.kinds 0
    have second : view.kindAt 1 = SourceWord.kindAt words 0 := sees.kinds 1
    unfold doubleColonAt?
    rw [first, second, beq_false_of_ne single]
    rfl
  exact takes_bind (takes_look colons) (takes_seq (takes_expect rfl) taken)

/-- A variable with a value and without a type. -/
theorem typedDefinition_takes_value {last : Stage}
    (taken : (expressionsAs .value).Takes resync enter context
      ⟨words, (SourceWord.fixed .eq).leaf none :: built⟩ () last) :
    typedDefinition.Takes resync enter context ⟨.fixed .eq :: words, built⟩ .variableDeclaration
      last := by
  refine takes_seq (skips_onlyIf (fun view sees => ?_)) ?_
  · rw [View.isAt, View.kind, sees.kinds 0]
    rfl
  refine takes_bind (skips_eat TokenKind.noConfusion) (takes_bind (takes_eat rfl) ?_)
  exact takes_seq taken (takes_pure _ last)

/-- A variable with a type and without a value. -/
theorem typedDefinition_takes_type
    (starts : SourceWord.kindAt words 0 ≠ .eq ∧ SourceWord.kindAt words 0 ≠ .colon)
    (ends : SourceWord.kindAt rest 0 ≠ .eq ∧ SourceWord.kindAt rest 0 ≠ .colon)
    (taken : (typeAs .type).Takes resync enter context ⟨words, built⟩ () ⟨rest, inner⟩) :
    typedDefinition.Takes resync enter context ⟨words, built⟩ .variableDeclaration ⟨rest, inner⟩ := by
  refine takes_seq (takes_onlyIf (fun view sees => ?_) taken) ?_
  · rw [View.isAt, View.isAt, View.kind, sees.kinds 0, beq_false_of_ne starts.1,
      beq_false_of_ne starts.2]
    rfl
  exact takes_bind (skips_eat ends.2) (takes_bind (skips_eat ends.1) (takes_pure _ _))

/-- A constant with a type and a value. -/
theorem typedDefinition_takes_constant {more : List SourceWord} {last : Stage}
    (starts : SourceWord.kindAt words 0 ≠ .eq ∧ SourceWord.kindAt words 0 ≠ .colon)
    (typed : (typeAs .type).Takes resync enter context ⟨words, built⟩ () ⟨.fixed .colon :: more, inner⟩)
    (valued : (expressionsAs .value).Takes resync enter context
      ⟨more, (SourceWord.fixed .colon).leaf none :: inner⟩ () last) :
    typedDefinition.Takes resync enter context ⟨words, built⟩ .constDeclaration last := by
  refine takes_seq (takes_onlyIf (fun view sees => ?_) typed) ?_
  · rw [View.isAt, View.isAt, View.kind, sees.kinds 0, beq_false_of_ne starts.1,
      beq_false_of_ne starts.2]
    rfl
  exact takes_bind (takes_eat rfl) (takes_seq valued (takes_pure _ last))

/-- A variable with a type and a value. -/
theorem typedDefinition_takes_initialized {more : List SourceWord} {last : Stage}
    (starts : SourceWord.kindAt words 0 ≠ .eq ∧ SourceWord.kindAt words 0 ≠ .colon)
    (typed : (typeAs .type).Takes resync enter context ⟨words, built⟩ () ⟨.fixed .eq :: more, inner⟩)
    (valued : (expressionsAs .value).Takes resync enter context
      ⟨more, (SourceWord.fixed .eq).leaf none :: inner⟩ () last) :
    typedDefinition.Takes resync enter context ⟨words, built⟩ .variableDeclaration last := by
  refine takes_seq (takes_onlyIf (fun view sees => ?_) typed) ?_
  · rw [View.isAt, View.isAt, View.kind, sees.kinds 0, beq_false_of_ne starts.1,
      beq_false_of_ne starts.2]
    rfl
  apply takes_bind (skips_eat TokenKind.noConfusion)
  apply takes_bind (takes_eat rfl)
  exact takes_seq valued (takes_pure _ _)

/-- A single value after a double colon that starts with no word and no directive. -/
theorem takes_constantTail {skeleton : Skeleton}
    (starts : SourceWord.kindAt words 0 ∉ [TokenKind.ident, .directive])
    (ends : SourceWord.kindAt rest 0 ≠ .comma)
    (bodiless : skeleton.nodeKind? ≠ some .procedure)
    (taken : expression.Takes resync enter context
      ⟨words, (SourceWord.fixed .colonColon).leaf none :: built⟩ ()
      ⟨rest, skeleton :: (SourceWord.fixed .colonColon).leaf none :: built⟩) :
    (declarationTail true).Takes resync enter context ⟨.fixed .colonColon :: words, built⟩
      .constDeclaration ⟨rest, skeleton.withField (some .value) ::
        (SourceWord.fixed .colonColon).leaf none :: built⟩ := by
  obtain ⟨noIdent, noDirective⟩ : SourceWord.kindAt words 0 ≠ .ident ∧
      SourceWord.kindAt words 0 ≠ .directive := by
    simpa using starts
  have noWord (texts : List String) (view : View)
      (sees : view.Sees context ⟨words, (SourceWord.fixed .colonColon).leaf none :: built⟩) :
      view.isWordIn texts = false := by
    rw [View.isWordIn, View.isAt, View.kind, sees.kinds 0, beq_false_of_ne noIdent, Bool.false_and]
  have alone (view : View) (sees : view.Sees context ⟨rest,
      skeleton.withField (some .value) :: (SourceWord.fixed .colonColon).leaf none :: built⟩) :
      view.isAt .comma = false := by
    rw [View.isAt, View.kind, sees.kinds 0]
    exact beq_false_of_ne ends
  have colons (view : View) (sees : view.Sees context ⟨.fixed .colonColon :: words, built⟩) :
      doubleColonAt? view.kindAt 0 = some 1 := by
    have first : view.kindAt 0 = .colonColon := sees.kinds 0
    unfold doubleColonAt?
    rw [first]
  refine takes_bind (takes_look colons) (takes_seq (takes_seq (takes_bump _ _ _)
    (takes_pure () _)) ?_)
  refine takes_else (noWord _) (takes_else (noWord _) (takes_else (fun view sees => ?_) ?_))
  · rw [View.isDirectiveIn, View.isAt, View.kind, sees.kinds 0, beq_false_of_ne noDirective,
      Bool.false_and]
  refine takes_seq (skips_onlyIf (fun view sees => ?_)) (takes_seq taken ?_)
  · rw [noWord _ view sees, Bool.false_and]
  refine takes_else (fun view sees => ?_) (takes_seq (takes_tag .value _ _ _)
    (takes_seq (loops_asLongAs_stop alone) (takes_pure _ _)))
  rw [sees.last _ _ rfl, beq_false_of_ne bodiless, Bool.false_and]

/-- A name in front of a colon starts a declaration. -/
theorem statementEntry_takes_declaration (named : first.kind = .ident)
    (colon : SourceWord.kindAt words 0 ∈ [TokenKind.colon, .colonColon]) {last : Stage}
    (taken : declaration.Takes resync enter context ⟨first :: words, built⟩ () last) :
    statementEntry.Takes resync enter context ⟨first :: words, built⟩ () last := by
  refine takes_bind (takes_look (fun _ sees => sees.kinds 0)) ?_
  rw [SourceWord.kindAt_cons_zero, named]
  refine takes_then (fun view sees => ?_) taken
  have start : view.kindAt 0 = .ident := (sees.kinds 0).trans named
  have next : view.kindAt 1 = SourceWord.kindAt words 0 := sees.kinds 1
  have cases : SourceWord.kindAt words 0 = .colon ∨ SourceWord.kindAt words 0 = .colonColon := by
    simpa using colon
  unfold View.isAtDeclaration namesBeforeColon
  rcases cases with kind | kind
  all_goals
    rw [start, next, kind]
    rfl

end Production

open Production

/-- A source that is written as the declaration of a single name is parsed as just this. -/
theorem Spells.parse_declaration {source : List Char} {name : SourceWord} {words : List SourceWord}
    (spells : Spells source (name :: (words ++ [.fixed .semicolon]))) (named : name.kind = .ident)
    (colon : SourceWord.kindAt words 0 ∈ [TokenKind.colon, .colonColon]) {kind : NodeKind}
    (declares : kind = .variableDeclaration ∨ kind = .constDeclaration)
    {children : List Skeleton} (options : ParseOptions)
    (taken : ∀ depth, 3 * words.length ≤ depth →
      (declarationTail true).Takes options.resyncOnDeclaration
        (readEntry options.resyncOnDeclaration depth) .none
        ⟨words ++ [.fixed .semicolon], [name.leaf (some .name)]⟩ kind
        ⟨[.fixed .semicolon], children.reverse⟩) :
    (JaiSyntax.parse options source).errors = [] ∧
      (JaiSyntax.parse options source).tree.skeleton = .branch none .sourceFile
        [.branch none kind children, (SourceWord.fixed .semicolon).leaf none] := by
  have terminated : terminatorOf kind = .semicolon := by
    rcases declares with rfl | rfl <;> rfl
  have significant : kind ≠ .deprecatedDirective := by
    rcases declares with rfl | rfl <;> decide
  let depth := 3 * words.length + 8
  have size : 3 * ((name :: (words ++ [SourceWord.fixed .semicolon])).length + 1) = depth + 1 := by
    simp only [List.length_cons, List.length_append, List.length_nil, depth]
    omega
  have colons : SourceWord.kindAt (words ++ [.fixed .semicolon]) 0 ∈
      [TokenKind.colon, .colonColon] := by
    cases words with
    | nil => exact absurd colon (by decide)
    | cons first rest => exact colon
  have single : SourceWord.kindAt (words ++ [.fixed .semicolon]) 0 ≠ .comma := by
    intro comma
    rw [comma] at colons
    exact absurd colons (by decide)
  have declared : declaration.Takes options.resyncOnDeclaration _ .none
      ⟨name :: (words ++ [.fixed .semicolon]), []⟩ () _ :=
    takes_declaration single significant (taken depth (Nat.le_add_right _ 8))
  rw [List.reverse_reverse] at declared
  have entered := takes_entry .statement (statementEntry_takes_declaration named colons declared)
  have starts : SourceWord.kindAt (name :: (words ++ [.fixed .semicolon])) 0 = .ident := named
  have stated := takes_substatement none (starts ▸ TokenKind.noConfusion) entered
    (takes_terminator terminated)
  have listed : listedStatement.Takes options.resyncOnDeclaration _ .none
      ⟨name :: (words ++ [.fixed .semicolon]), []⟩ () _ :=
    takes_listedStatement (starts ▸ TokenKind.noConfusion) stated
  rw [← size] at listed
  exact spells.parse options (takes_sourceFile (starts ▸ TokenKind.noConfusion) listed)

end JaiSyntax
