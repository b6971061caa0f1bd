import JaiSyntax.Proofs.Expression.Reading
import JaiSyntax.Proofs.Type.Term
/-!
Reading the words of types. Each production of the grammar for types, and each one for values that can
turn out to be a type, is read wherever its parts are.
-/

set_option autoImplicit false

namespace JaiSyntax

/-- What can stand behind a type: nothing that could go on it, and a comma only among arguments. A colon
goes on no type, but it can be the mark that the word in front of it names a result. -/
structure TypeStops (context : Context) (rest : List SourceWord) : Prop where
  kind : SourceWord.kindAt rest 0 ∉ [TokenKind.lParen, .lBrace, .dot, .slash, .directive]
  noQuick : ∀ word ∈ rest, word.kind ≠ .fatArrow
  comma : SourceWord.kindAt rest 0 = .comma → context.inArguments = true

structure TypeEnds (context : Context) (rest : List SourceWord) : Prop where
  kind : SourceWord.kindAt rest 0 ∉ [TokenKind.lParen, .lBrace, .dot, .slash, .colon, .directive]
  noQuick : ∀ word ∈ rest, word.kind ≠ .fatArrow
  comma : SourceWord.kindAt rest 0 = .comma → context.inArguments = true

namespace Production

variable {resync : Bool} {enter : Entry → Surroundings → Segment → Reading Unit} {context : Context}
  {first middle last : Stage} {words rest : List SourceWord} {built : List Skeleton}
  {skeleton : Skeleton}

/-! ### Types behind a token -/

theorem takes_pointerType
    (taken : type.Takes resync enter context ⟨words, [(SourceWord.fixed .star).leaf none]⟩ ()
      ⟨rest, [skeleton, (SourceWord.fixed .star).leaf none]⟩) :
    typeEntry.Takes resync enter context ⟨.fixed .star :: words, built⟩ ()
      ⟨rest, .branch none .pointerType [(SourceWord.fixed .star).leaf none, skeleton] :: built⟩ := by
  have inside : (do bump; type : Production Unit).Takes resync enter context
      ⟨.fixed .star :: words, []⟩ () ⟨rest, [skeleton, (SourceWord.fixed .star).leaf none]⟩ :=
    takes_seq (takes_bump _ _ _) taken
  exact takes_bind (takes_look (fun _ sees => sees.kind)) (takes_node (by decide) inside)

theorem takes_polymorphicType (name : Name)
    (ends : SourceWord.kindAt rest 0 ≠ .slash) :
    typeEntry.Takes resync enter context ⟨.fixed .dollar :: name.word :: rest, built⟩ ()
      ⟨rest, (TypeTerm.polymorphic name).skeleton :: built⟩ := by
  have inside : (do
      bump
      discard (eat .dollar)
      expectName .name
      if ← eat .slash then typeAs .type : Production Unit).Takes resync enter context
      ⟨.fixed .dollar :: name.word :: rest, []⟩ ()
      ⟨rest, [name.word.leaf (some .name), (SourceWord.fixed .dollar).leaf none]⟩ := by
    refine takes_seq (takes_bump _ _ _) (takes_seq (takes_discard (skips_eat ?_)) ?_)
    · exact TokenKind.noConfusion
    · exact takes_seq (takes_expectName rfl .name)
        (takes_bind (skips_eat ends) (takes_pure () _))
  exact takes_bind (takes_look (fun _ sees => sees.kind)) (takes_node (by decide) inside)

/-- The words of a type that is not empty start a type. -/
theorem canStartType_of {view : View} {word : SourceWord}
    (sees : view.Sees context ⟨word :: rest, built⟩) (starts : word.StartsType) :
    view.canStartType = true := by
  unfold View.canStartType
  rw [sees.kind, sees.text, SourceWord.kindAt_cons_zero]
  rcases starts with ⟨ident, free⟩ | other
  · have other : word.text ∉ statementWords :=
      fun member => free (List.mem_cons_of_mem _ (List.mem_cons_of_mem _ member))
    rw [ident]
    simpa using other
  · have kinds : word.kind = .star ∨ word.kind = .lBracket ∨ word.kind = .lParen ∨
        word.kind = .dollar := by
      simpa using other
    rcases kinds with kind | kind | kind | kind <;> rw [kind]

theorem takes_arrayType (size : ArraySize) {word : SourceWord} (starts : word.StartsType)
    (sized : ∀ length, size = .fixed length →
      expression.TakesTerm resync enter (.numeral length) (.fixed .rBracket :: word :: words))
    (taken : ∀ built, type.Takes resync enter context ⟨word :: words, built⟩ ()
      ⟨rest, skeleton :: built⟩) :
    typeEntry.Takes resync enter context
      ⟨.fixed .lBracket :: (size.words ++ .fixed .rBracket :: word :: words), built⟩ ()
      ⟨rest, TypeTerm.arraySkeleton size skeleton :: built⟩ := by
  have element (earlier : List Skeleton) :
      (do expect .rBracket; onlyIf (·.canStartType) (typeAs .element) : Production Unit).Takes
        resync enter context ⟨.fixed .rBracket :: word :: words, earlier⟩ ()
        ⟨rest, skeleton.withField (some .element) ::
          (SourceWord.fixed .rBracket).leaf none :: earlier⟩ :=
    takes_seq (takes_expect rfl) (takes_onlyIf (fun _ sees => canStartType_of sees starts)
      (takes_seq (taken _) (takes_tag .element _ _ _)))
  have inside : (do
      bump
      if ← check .dotDot then bump
      else
        onlyIf (fun view => !view.isAt .rBracket) (do
          fresh expression
          tag .size)
      expect .rBracket
      onlyIf (·.canStartType) (typeAs .element) : Production Unit).Takes resync enter context
      ⟨.fixed .lBracket :: (size.words ++ .fixed .rBracket :: word :: words), []⟩ ()
      ⟨rest, skeleton.withField (some .element) :: (SourceWord.fixed .rBracket).leaf none ::
        (size.skeletons.reverse ++ [(SourceWord.fixed .lBracket).leaf none])⟩ := by
    refine takes_seq (takes_bump _ _ _) (takes_bind (takes_check .dotDot) ?_)
    cases size with
    | slice =>
        refine takes_seq (skips_onlyIf (fun view sees => ?_)) (element _)
        rw [View.isAt, sees.kind]
        rfl
    | resizable => exact takes_seq (takes_bump _ _ _) (element _)
    | fixed length =>
        have read := sized length rfl
        refine takes_seq (takes_onlyIf (fun view sees => ?_) (takes_seq
          (takes_within _ (read _ _)) (takes_tag .size _ _ _))) (element _)
        rw [View.isAt, sees.kind]
        rfl
  have same : TypeTerm.arraySkeleton size skeleton = .branch none .arrayType
      (skeleton.withField (some .element) :: (SourceWord.fixed .rBracket).leaf none ::
        (size.skeletons.reverse ++ [(SourceWord.fixed .lBracket).leaf none])).reverse := by
    simp [TypeTerm.arraySkeleton]
  rw [same]
  exact takes_bind (takes_look (fun _ sees => sees.kind)) (takes_node (by decide) inside)

/-! ### Named types -/

def qualificationStep : Production Bool := do
  if ← look (fun view => view.isAt .dot && view.kindAt 1 == .ident) then
    (do tag .object
        wrap .qualifiedType (do
          bump
          bumpTagged .member))
    pure true
  else pure false

theorem qualifiedName_eq : qualifiedName = marked (do
    identifierNode
    repeatedly qualificationStep
    onlyIf (·.isAt .lParen) (do
      tag .type
      wrap .parameterizedStructType (argumentList typeArgument))) := rfl

theorem takes_qualification (object : Path) (member : Name) :
    qualificationStep.Takes resync enter context
      ⟨.fixed .dot :: member.word :: rest, [object.skeleton]⟩ true
      ⟨rest, [(Path.member object member).skeleton]⟩ := by
  have inside : (do bump; bumpTagged .member : Production Unit).Takes resync enter context
      ⟨.fixed .dot :: member.word :: rest, [object.skeleton.withField (some .object)]⟩ ()
      ⟨rest, [member.word.leaf (some .member), (SourceWord.fixed .dot).leaf none,
        object.skeleton.withField (some .object)]⟩ :=
    takes_seq (takes_bump _ _ _) (takes_bumpTagged .member)
  refine takes_then (fun view sees => ?_) (takes_seq
    (takes_seq (takes_tag .object _ _ _) (takes_wrap (by decide) inside)) (takes_pure true _))
  rw [View.isAt, sees.kind, sees.kinds 1]
  rfl

/-- The loop reads the qualifications of a path and goes on after them. -/
theorem loops_path (path : Path) : ∃ (name : Name) (more : List SourceWord),
    path.words = name.word :: more ∧ ∀ rest last,
      qualificationStep.Loops resync enter context ⟨rest, [path.skeleton]⟩ last →
      qualificationStep.Loops resync enter context
        ⟨more ++ rest, [(Term.name name).skeleton]⟩ last := by
  induction path with
  | name name => exact ⟨name, [], rfl, fun _ _ loops => loops⟩
  | member object member ih =>
      obtain ⟨name, more, words, further⟩ := ih
      refine ⟨name, more ++ [.fixed .dot, member.word], ?_, fun rest last loops => ?_⟩
      · rw [Path.words] at words
        rw [Path.words, Path.term, Term.words, words, List.cons_append]
      · have shorter : rest.length < (SourceWord.fixed .dot :: member.word :: rest).length := by
          simp only [List.length_cons]
          omega
        rw [List.append_assoc]
        exact further _ last (loops_step (takes_qualification object member) shorter loops)

/-- A name that no word of the language takes for itself is read as a qualified one. -/
theorem typeEntry_takes_name (name : Name)
    (taken : qualifiedName.Takes resync enter context ⟨name.word :: words, built⟩ () last) :
    typeEntry.Takes resync enter context ⟨name.word :: words, built⟩ () last := by
  refine takes_bind (takes_look (fun _ sees => sees.kind)) ?_
  refine takes_else (fun _ sees => sees.isWordIn_name (by decide)) ?_
  refine takes_else (fun _ sees => sees.isWordIn_name (by decide)) ?_
  refine takes_else (fun view sees => ?_) ?_
  · rw [View.isAtTypeOf, sees.isWordAt_starts name.starts_word (by decide), Bool.false_and]
  exact takes_else (fun _ sees => sees.isWordIn_name (by decide)) taken

/-- An argument that can only be a type. -/
theorem typeArgument_takes_type
    (starts : SourceWord.kindAt words 0 ∈ [TokenKind.star, .lBracket, .dollar])
    (taken : type.Takes resync enter context ⟨words, built⟩ () last) :
    typeArgument.Takes resync enter context ⟨words, built⟩ () last := by
  have kinds : SourceWord.kindAt words 0 = .star ∨ SourceWord.kindAt words 0 = .lBracket ∨
      SourceWord.kindAt words 0 = .dollar := by
    simpa using starts
  refine takes_bind (takes_look (fun _ sees => sees.kind)) ?_
  rcases kinds with kind | kind | kind
  all_goals
    rw [kind]
    exact taken

theorem typeArgument_takes_expression
    (starts : SourceWord.kindAt words 0 ∈ [TokenKind.ident, .int, .lParen])
    (taken : expression.Takes resync enter context ⟨words, built⟩ () last) :
    typeArgument.Takes resync enter context ⟨words, built⟩ () last := by
  have kinds : SourceWord.kindAt words 0 = .ident ∨ SourceWord.kindAt words 0 = .int ∨
      SourceWord.kindAt words 0 = .lParen := by
    simpa using starts
  refine takes_bind (takes_look (fun _ sees => sees.kind)) ?_
  rcases kinds with kind | kind | kind
  all_goals
    rw [kind]
    exact taken

def typeArguments : Production Unit :=
  onlyIf (·.isAt .lParen) (do
    tag .type
    wrap .parameterizedStructType (argumentList typeArgument))

theorem takes_qualified (path : Path) {more : List SourceWord}
    (ends : SourceWord.kindAt rest 0 ≠ .dot)
    (taken : typeArguments.Takes resync enter context ⟨rest, [path.skeleton]⟩ ()
      ⟨more, [skeleton]⟩) :
    typeEntry.Takes resync enter context ⟨path.words ++ rest, built⟩ () ⟨more, skeleton :: built⟩ := by
  have stops : qualificationStep.Loops resync enter context ⟨rest, [path.skeleton]⟩
      ⟨rest, [path.skeleton]⟩ := by
    refine loops_stop (takes_else (fun view sees => ?_) (takes_pure false _))
    rw [View.isAt, sees.kind, beq_false_of_ne ends, Bool.false_and]
  obtain ⟨name, further, words, loops⟩ := loops_path path
  rw [words, List.cons_append]
  refine typeEntry_takes_name name ?_
  rw [qualifiedName_eq]
  change Takes resync enter context _ _ () ⟨more, [skeleton] ++ built⟩
  exact takes_marked (takes_seq (takes_leafNode (by decide) name.word)
    (takes_seq (takes_repeatedly (loops rest _ stops)) taken))

theorem takes_path (path : Path) (ends : SourceWord.kindAt rest 0 ∉ [TokenKind.lParen, .dot]) :
    typeEntry.Takes resync enter context ⟨path.words ++ rest, built⟩ ()
      ⟨rest, path.skeleton :: built⟩ := by
  obtain ⟨noParen, noDot⟩ : SourceWord.kindAt rest 0 ≠ .lParen ∧
      SourceWord.kindAt rest 0 ≠ .dot := by
    simpa using ends
  refine takes_qualified path noDot (skips_onlyIf (fun view sees => ?_))
  rw [View.isAt, sees.kind]
  exact beq_false_of_ne noParen

theorem takes_applied (path : Path) {skeletons : List Skeleton}
    (loops : (argumentStep typeArgument).Loops resync enter .arguments
      ⟨words ++ .fixed .rParen :: rest, [(SourceWord.fixed .lParen).leaf none,
        path.skeleton.withField (some .type)]⟩
      ⟨.fixed .rParen :: rest, skeletons.reverse ++ [(SourceWord.fixed .lParen).leaf none,
        path.skeleton.withField (some .type)]⟩) :
    typeEntry.Takes resync enter context
      ⟨path.words ++ .fixed .lParen :: (words ++ .fixed .rParen :: rest), built⟩ ()
      ⟨rest, .branch none .parameterizedStructType (path.skeleton.withField (some .type) ::
        (SourceWord.fixed .lParen).leaf none ::
          (skeletons ++ [(SourceWord.fixed .rParen).leaf none])) :: built⟩ := by
  have wrapped : (wrap .parameterizedStructType (argumentList typeArgument)).Takes resync enter
      context ⟨.fixed .lParen :: (words ++ .fixed .rParen :: rest),
        [path.skeleton.withField (some .type)]⟩ () _ :=
    takes_wrap (by decide) (takes_argumentList loops)
  rw [List.reverse_cons, List.reverse_append, List.reverse_reverse] at wrapped
  refine takes_qualified path TokenKind.noConfusion (takes_onlyIf (fun view sees => ?_) ?_)
  · rw [View.isAt, sees.kind]
    rfl
  · exact takes_seq (takes_tag .type _ _ _) wrapped

theorem takes_builtin (builtin : Builtin) :
    typeEntry.Takes resync enter context ⟨builtin.word :: rest, built⟩ ()
      ⟨rest, (TypeTerm.builtin builtin).skeleton :: built⟩ := by
  have texts : ∀ text ∈ builtinTypes, structWords.contains text = false ∧
      enumWords.contains text = false ∧ text ≠ "type_of" ∧ builtinTypes.contains text = true := by
    decide
  obtain ⟨noStruct, noEnum, noTypeOf, known⟩ := texts _ builtin.2
  have isIn (words : List String) (view : View)
      (sees : view.Sees context ⟨builtin.word :: rest, built⟩) :
      view.isWordIn words = words.contains builtin.1 := by
    rw [View.isWordIn, View.isAt, sees.kind, sees.text]
    rfl
  refine takes_bind (takes_look (fun _ sees => sees.kind)) ?_
  refine takes_else (fun view sees => (isIn _ view sees).trans noStruct) ?_
  refine takes_else (fun view sees => (isIn _ view sees).trans noEnum) ?_
  refine takes_else (fun view sees => ?_) ?_
  · have other : builtin.word.text ≠ "type_of" := noTypeOf
    rw [View.isAtTypeOf, View.isWordAt, sees.texts 0 _ rfl, beq_false_of_ne other, Bool.and_false,
      Bool.false_and]
  exact takes_then (fun view sees => (isIn _ view sees).trans known)
    (takes_leafNode (by decide) builtin.word)

/-! ### Procedure types -/

def parameterStep : Production Bool := do
  if ← look (fun view => !view.endsAt .rParen) then
    (do if ← look (·.isAtParameter) then parameter else type
        tag .parameters
        commaBefore .rParen)
    pure true
  else pure false

theorem parameterList_eq : parameterList = (do
    expect .lParen
    amongArguments (repeatedly parameterStep)
    expect .rParen) := rfl

theorem parameterStep_stops :
    parameterStep.Loops resync enter context ⟨.fixed .rParen :: rest, built⟩
      ⟨.fixed .rParen :: rest, built⟩ := by
  refine loops_stop (takes_else (fun view sees => ?_) (takes_pure false _))
  rw [View.endsAt, View.isAt, sees.kind]
  rfl

theorem takes_parameterStep {separator more : List SourceWord} (separated : Separated separator more)
    (starts : SourceWord.kindAt words 0 ∉ [TokenKind.rParen, .eof])
    (unnamed : ∀ view : View, view.Sees context ⟨words, built⟩ → view.isAtParameter = false)
    (taken : type.Takes resync enter context ⟨words, built⟩ () ⟨separator ++ more, skeleton :: built⟩) :
    parameterStep.Takes resync enter context ⟨words, built⟩ true
      ⟨more, (separator.map (SourceWord.leaf · none)).reverse ++
        skeleton.withField (some .parameters) :: built⟩ := by
  obtain ⟨noClose, noEnd⟩ : SourceWord.kindAt words 0 ≠ .rParen ∧
      SourceWord.kindAt words 0 ≠ .eof := by
    simpa using starts
  have whole : (do
      if ← look (·.isAtParameter) then parameter else type
      tag .parameters
      commaBefore .rParen : Production Unit).Takes resync enter context ⟨words, built⟩ ()
      ⟨more, (separator.map (SourceWord.leaf · none)).reverse ++
        skeleton.withField (some .parameters) :: built⟩ :=
    takes_else unnamed (takes_seq taken
      (takes_seq (takes_tag .parameters _ _ _) (takes_commaBefore separated)))
  refine takes_then (fun view sees => ?_) (takes_seq whole (takes_pure true _))
  have kind : view.kind = SourceWord.kindAt words 0 := sees.kind
  rw [View.endsAt, View.isAtEnd, View.isAt, View.isAt, kind, beq_false_of_ne noClose,
    beq_false_of_ne noEnd]
  rfl

theorem takes_parameterList {skeletons earlier : List Skeleton}
    (loops : parameterStep.Loops resync enter .arguments
      ⟨words ++ .fixed .rParen :: rest, (SourceWord.fixed .lParen).leaf none :: earlier⟩
      ⟨.fixed .rParen :: rest,
        skeletons.reverse ++ (SourceWord.fixed .lParen).leaf none :: earlier⟩) :
    parameterList.Takes resync enter context
      ⟨.fixed .lParen :: (words ++ .fixed .rParen :: rest), earlier⟩ ()
      ⟨rest, (SourceWord.fixed .rParen).leaf none ::
        (skeletons.reverse ++ (SourceWord.fixed .lParen).leaf none :: earlier)⟩ := by
  rw [parameterList_eq]
  exact takes_seq (takes_expect rfl)
    (takes_seq (takes_within _ (takes_repeatedly loops)) (takes_expect rfl))

/-- A single result without a name. -/
theorem takes_results
    (unnamed : SourceWord.kindAt words 0 = .ident → SourceWord.kindAt words 1 ≠ .colon)
    (unlisted : SourceWord.kindAt words 0 = .lParen → SourceWord.kindAt words 1 = .ident →
      SourceWord.kindAt words 2 ≠ .colon)
    (ends : SourceWord.kindAt rest 0 = .comma → context.inArguments = true)
    (taken : type.Takes resync enter context ⟨words, built⟩ () ⟨rest, skeleton :: built⟩) :
    results.Takes resync enter context ⟨words, built⟩ ()
      ⟨rest, skeleton.withField (some .result) :: built⟩ := by
  have single : result.Takes resync enter context ⟨words, built⟩ ()
      ⟨rest, skeleton.withField (some .result) :: built⟩ := by
    refine takes_else (fun view sees => ?_) (takes_seq taken (takes_tag .result _ _ _))
    rw [View.isNameBefore, View.isAt, sees.kind, sees.kinds 1]
    by_cases ident : SourceWord.kindAt words 0 = .ident
    · rw [beq_false_of_ne (unnamed ident), Bool.and_false]
    · rw [beq_false_of_ne ident, Bool.false_and]
  refine takes_else (fun view sees => ?_) (takes_seq single (loops_asLongAs_stop (fun view sees => ?_)))
  · rw [View.isAt, sees.kind, sees.kinds 1, sees.kinds 2]
    by_cases paren : SourceWord.kindAt words 0 = .lParen
    · by_cases ident : SourceWord.kindAt words 1 = .ident
      · rw [beq_false_of_ne (unlisted paren ident), Bool.and_false]
      · rw [beq_false_of_ne ident, Bool.and_false, Bool.false_and]
    · rw [beq_false_of_ne paren, Bool.false_and, Bool.false_and]
  · rw [View.isAt, sees.kind, sees.context]
    by_cases comma : SourceWord.kindAt rest 0 = .comma
    · rw [ends comma]
      rfl
    · rw [beq_false_of_ne comma, Bool.and_false]

/-- A procedure type by its parameter list. -/
theorem takes_procedure {skeletons : List Skeleton} {result : List SourceWord}
    (stops : SourceWord.kindAt rest 0 ∉ [TokenKind.lBrace, .directive])
    (listed : parameterList.Takes resync enter context
      ⟨.fixed .lParen :: (words ++ .fixed .rParen :: .fixed .arrow :: result), []⟩ ()
      ⟨.fixed .arrow :: result, (SourceWord.fixed .rParen).leaf none ::
        (skeletons.reverse ++ [(SourceWord.fixed .lParen).leaf none])⟩)
    (taken : results.Takes resync enter context ⟨result, (SourceWord.fixed .arrow).leaf none ::
        (SourceWord.fixed .rParen).leaf none ::
          (skeletons.reverse ++ [(SourceWord.fixed .lParen).leaf none])⟩ ()
      ⟨rest, skeleton :: (SourceWord.fixed .arrow).leaf none ::
        (SourceWord.fixed .rParen).leaf none ::
          (skeletons.reverse ++ [(SourceWord.fixed .lParen).leaf none])⟩) :
    procedure.Takes resync enter context
      ⟨.fixed .lParen :: (words ++ .fixed .rParen :: .fixed .arrow :: result), built⟩ .isOpen
      ⟨rest, .branch none .procedureType ((SourceWord.fixed .lParen).leaf none ::
        (skeletons ++ [(SourceWord.fixed .rParen).leaf none, (SourceWord.fixed .arrow).leaf none,
          skeleton])) :: built⟩ := by
  obtain ⟨noBrace, noDirective⟩ : SourceWord.kindAt rest 0 ≠ .lBrace ∧
      SourceWord.kindAt rest 0 ≠ .directive := by
    simpa using stops
  have noModifier (built : List Skeleton) (view : View) (sees : view.Sees context ⟨rest, built⟩) :
      view.isDirectiveIn procedureDirectives = false := by
    rw [View.isDirectiveIn, View.isAt, sees.kind, beq_false_of_ne noDirective, Bool.false_and]
  have unmodified (built : List Skeleton) :
      (directiveModifiers (·.isDirectiveIn procedureDirectives)).Takes resync enter context
        ⟨rest, built⟩ false ⟨rest, built⟩ :=
    takes_bind (takes_look (noModifier built))
      (takes_seq (loops_asLongAs_stop (noModifier built)) (takes_pure false _))
  have bodiless (built : List Skeleton) (view : View) (sees : view.Sees context ⟨rest, built⟩) :
      (!context.inType && view.isAt .lBrace) = false := by
    rw [View.isAt, sees.kind, beq_false_of_ne noBrace, Bool.and_false]
  have closed (built : List Skeleton) : (wrap .procedureType (Pure.pure ())).Takes resync enter
      context ⟨rest, built⟩ () ⟨rest, [.branch none .procedureType built.reverse]⟩ :=
    takes_wrap (by decide) (takes_pure () ⟨rest, built⟩)
  have same : (SourceWord.fixed .lParen).leaf none :: (skeletons ++
      [(SourceWord.fixed .rParen).leaf none, (SourceWord.fixed .arrow).leaf none, skeleton]) =
        (skeleton :: (SourceWord.fixed .arrow).leaf none :: (SourceWord.fixed .rParen).leaf none ::
          (skeletons.reverse ++ [(SourceWord.fixed .lParen).leaf none])).reverse := by
    simp
  rw [same]
  change procedure.Takes resync enter context _ _ ⟨rest, [_] ++ built⟩
  refine takes_marked (takes_bind (takes_look (fun _ sees => congrArg Context.inType sees.context)) ?_)
  refine takes_seq listed (takes_bind (takes_eat rfl) (takes_seq taken ?_))
  refine takes_bind (unmodified _) (takes_bind (takes_look (bodiless _)) ?_)
  simp only [Bool.false_eq_true, if_false, Bool.or_false, Bool.and_false]
  exact takes_seq (closed _) (takes_pure _ _)

/-! ### Types in the place of a value -/

theorem primary_takes_builtin (builtin : Builtin) :
    primary.Takes resync enter context ⟨builtin.word :: rest, built⟩ .isOpen
      ⟨rest, (TypeTerm.builtin builtin).skeleton :: built⟩ := by
  have texts : ∀ text ∈ builtinTypes,
      (∀ words ∈ [["true", "false"], ["null"], structWords, enumWords, ["ifx"],
        ["inline", "no_inline"], statementWords], words.contains text = false) ∧
        text ≠ "type_of" ∧ builtinTypes.contains text = true := by
    decide
  obtain ⟨others, noTypeOf, known⟩ := texts _ builtin.2
  have isIn (words : List String) (view : View)
      (sees : view.Sees context ⟨builtin.word :: rest, built⟩) :
      view.isWordIn words = words.contains builtin.1 := by
    rw [View.isWordIn, View.isAt, sees.kind, sees.text]
    rfl
  have noWord {words : List String} (listed : words ∈ [["true", "false"], ["null"], structWords,
      enumWords, ["ifx"], ["inline", "no_inline"], statementWords]) (view : View)
      (sees : view.Sees context ⟨builtin.word :: rest, built⟩) : view.isWordIn words = false :=
    (isIn words view sees).trans (others words listed)
  refine takes_bind (takes_look (fun _ sees => sees.kind)) ?_
  refine takes_else (noWord (by simp)) ?_
  refine takes_else (noWord (by simp)) ?_
  refine takes_else (noWord (by simp)) ?_
  refine takes_else (noWord (by simp)) ?_
  refine takes_else (noWord (by simp)) ?_
  refine takes_else (fun view sees => ?_) ?_
  · have other : builtin.word.text ≠ "type_of" := noTypeOf
    rw [View.isAtTypeOf, View.isWordAt, sees.texts 0 _ rfl, beq_false_of_ne other, Bool.and_false,
      Bool.false_and]
  refine takes_else (fun view sees => ?_) ?_
  · rw [noWord (by simp) view sees, Bool.false_and]
  refine takes_else (noWord (by simp)) ?_
  refine takes_then (fun view sees => (isIn _ view sees).trans known) ?_
  exact takes_openOperand (takes_leafNode (by decide) builtin.word)

theorem takes_address
    (taken : (operand Prec.unary).Takes resync enter context
      ⟨words, [(SourceWord.fixed .star).leaf none]⟩ ()
      ⟨rest, [skeleton, (SourceWord.fixed .star).leaf none]⟩) :
    unaryExpression.Takes resync enter context ⟨.fixed .star :: words, built⟩ .isOpen
      ⟨rest, .branch none .address [(SourceWord.fixed .star).leaf none, skeleton] :: built⟩ := by
  have inside : (do bump; operand Prec.unary : Production Unit).Takes resync enter context
      ⟨.fixed .star :: words, []⟩ () ⟨rest, [skeleton, (SourceWord.fixed .star).leaf none]⟩ :=
    takes_seq (takes_bump _ _ _) taken
  exact takes_bind (takes_look (fun _ sees => sees.kind))
    (takes_openOperand (takes_node (by decide) inside))

/-- What is in parentheses in front of an arrow is the parameter of a procedure type. -/
theorem takes_spliced {result : List SourceWord} {outcome : Skeleton}
    (taken : expression.Takes resync enter .none
      ⟨words ++ .fixed .rParen :: .fixed .arrow :: result, [(SourceWord.fixed .lParen).leaf none]⟩ ()
      ⟨.fixed .rParen :: .fixed .arrow :: result, [skeleton, (SourceWord.fixed .lParen).leaf none]⟩)
    (resulting : ∀ built, results.Takes resync enter context ⟨result, built⟩ () ⟨rest, outcome :: built⟩) :
    parenthesized.Takes resync enter context
      ⟨.fixed .lParen :: (words ++ .fixed .rParen :: .fixed .arrow :: result), built⟩ ()
      ⟨rest, .branch none .procedureType [(SourceWord.fixed .lParen).leaf none, skeleton.asParameter,
        (SourceWord.fixed .rParen).leaf none, (SourceWord.fixed .arrow).leaf none, outcome] ::
          built⟩ := by
  have inside : (do bump; fresh expression; expect .rParen : Production Unit).Takes resync enter
      context ⟨.fixed .lParen :: (words ++ .fixed .rParen :: .fixed .arrow :: result), []⟩ ()
      ⟨.fixed .arrow :: result, [(SourceWord.fixed .rParen).leaf none, skeleton,
        (SourceWord.fixed .lParen).leaf none]⟩ :=
    takes_seq (takes_bump _ _ _) (takes_seq (takes_within _ taken) (takes_expect rfl))
  have enclosed : (node .parenthesizedExpression
      (do bump; fresh expression; expect .rParen : Production Unit)).Takes resync enter context
      ⟨.fixed .lParen :: (words ++ .fixed .rParen :: .fixed .arrow :: result), []⟩ ()
      ⟨.fixed .arrow :: result, [.branch none .parenthesizedExpression
        [(SourceWord.fixed .lParen).leaf none, skeleton, (SourceWord.fixed .rParen).leaf none]]⟩ :=
    takes_node (by decide) inside
  have typed : (do bump; results : Production Unit).Takes resync enter context
      ⟨.fixed .arrow :: result, [(SourceWord.fixed .rParen).leaf none, skeleton.asParameter,
        (SourceWord.fixed .lParen).leaf none]⟩ ()
      ⟨rest, [outcome, (SourceWord.fixed .arrow).leaf none, (SourceWord.fixed .rParen).leaf none,
        skeleton.asParameter, (SourceWord.fixed .lParen).leaf none]⟩ :=
    takes_seq (takes_bump _ _ _) (resulting _)
  have wrapped : (wrap .procedureType (do bump; results)).Takes resync enter context _ () _ :=
    takes_wrap (by decide) typed
  change parenthesized.Takes resync enter context _ () ⟨rest, [_] ++ built⟩
  refine takes_marked (takes_seq enclosed (takes_onlyIf (fun view sees => ?_)
    (takes_seq (takes_spliceParameters _ _ _) wrapped)))
  rw [View.isAt, sees.kind]
  rfl

/-- The type in front of a literal is read as a type once the literal starts. -/
theorem takes_structLiteral :
    postfixOperator.Takes resync enter context
      ⟨.fixed .dot :: .fixed .lBrace :: .fixed .rBrace :: rest, [skeleton]⟩ true
      ⟨rest, [.branch none .structLiteral [skeleton.reinterpreted.withField (some .type),
        (SourceWord.fixed .dot).leaf none, (SourceWord.fixed .lBrace).leaf none,
          (SourceWord.fixed .rBrace).leaf none]]⟩ := by
  have entries : structEntries.Takes resync enter context
      ⟨.fixed .dot :: .fixed .lBrace :: .fixed .rBrace :: rest,
        [skeleton.reinterpreted.withField (some .type)]⟩ ()
      ⟨rest, [(SourceWord.fixed .rBrace).leaf none, (SourceWord.fixed .lBrace).leaf none,
        (SourceWord.fixed .dot).leaf none, skeleton.reinterpreted.withField (some .type)]⟩ := by
    refine takes_seq (takes_bump _ _ _) (takes_opened (takes_seq (takes_bump _ _ _) ?_))
    refine takes_seq (takes_within _ (takes_repeatedly (loops_stop (takes_then (fun view sees => ?_)
      (takes_pure false _))))) (takes_bind (takes_eat rfl) (takes_pure () _))
    rw [View.endsAt, View.isAt, sees.kind]
    rfl
  have wrapped : (wrap .structLiteral structEntries).Takes resync enter context _ () _ :=
    takes_wrap (by decide) entries
  refine takes_bind (takes_look (fun _ sees => sees.kind)) ?_
  refine takes_bind (takes_look (fun _ sees => sees.kinds 1)) ?_
  exact takes_seq (takes_seq (takes_reinterpretLast _ _ _) (takes_seq (takes_tag .type _ _ _) wrapped))
    (takes_pure true _)

end Production

end JaiSyntax
