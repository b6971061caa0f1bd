import JaiSyntax.Proofs.Type.Reading
/-!
Types in the place of a value. Each is an operand there, and all types are read in both places by one
induction over them.
-/

set_option autoImplicit false

namespace JaiSyntax

open Production

/-- No postfix operator goes on a type that ends where an expression does. -/
theorem TypeEnds.loops {resync : Bool} {enter : Entry → Surroundings → Segment → Reading Unit}
    {context : Context} {rest : List SourceWord} (ends : TypeEnds context rest)
    (closes : SourceWord.kindAt rest 0 ∈ closerKinds) (built : List Skeleton) :
    postfixOperator.Loops resync enter context ⟨rest, built⟩ ⟨rest, built⟩ := by
  have follows : Follows rest Prec.assignment := .of_closer (.of_closer ends.noQuick closes) closes
  exact loops_stop (skips_postfixOperator follows)

/-! ### Paths -/

theorem Path.chains (resync : Bool) (depth : Nat) (path : Path) : path.term.Chains resync depth := by
  induction path with
  | name name => exact Term.chains_name name
  | member object member ih => exact ih.member member

/-! ### Operands that are types -/

namespace TypeTerm

variable {resync : Bool} {depth : Nat} {term : TypeTerm}

/-- The words of a type are read as an operand with its postfix operators, and the loop goes on after
them. -/
def ChainsAsValue (resync : Bool) (depth : Nat) (term : TypeTerm) : Prop :=
  ∀ context rest last, Quiet rest →
    postfixOperator.Loops resync (readEntry resync depth) context ⟨rest, [term.asValue]⟩ last →
    postfixChain.Takes resync (readEntry resync depth) context ⟨term.words ++ rest, []⟩ .isOpen last

theorem chainsAsValue_path (path : Path) : (TypeTerm.path path).ChainsAsValue resync depth := by
  intro context rest last quiet loops
  exact path.chains resync depth context rest last quiet loops

theorem chainsAsValue_applied (path : Path) {arguments : TypeArguments}
    (areRead : arguments.AreReadBy resync depth Production.expression arguments.asValues) :
    (TypeTerm.applied path arguments).ChainsAsValue resync depth := by
  intro context rest last quiet loops
  have silent : Quiet (.fixed .lParen :: (arguments.words ++ .fixed .rParen :: rest)) :=
    .cons ⟨TokenKind.noConfusion, TokenKind.noConfusion⟩ (noQuick_append arguments.words_ofTypes
      (noQuick_close TokenKind.noConfusion quiet.noQuick))
  have shorter : rest.length <
      (SourceWord.fixed .lParen :: (arguments.words ++ .fixed .rParen :: rest)).length := by
    simp only [List.length_cons, List.length_append]
    omega
  have called : callArguments.Takes resync (readEntry resync depth) context _ () _ :=
    takes_argumentList (areRead rest
      [(SourceWord.fixed .lParen).leaf none, path.term.skeleton.withField (some .function)]
      quiet.noQuick)
  have taken := path.chains resync depth context _ last silent
    (loops_step (takes_call called) shorter loops)
  simpa only [TypeTerm.words, Path.words, List.append_assoc, List.cons_append, List.nil_append]
    using taken

/-- An operand that starts with the words of a type other than a pointer. -/
theorem unaryExpression_takes_type {context : Context} {rest : List SourceWord} {last : Stage}
    (plain : SourceWord.kindAt term.words 0 ≠ .star) {built : List Skeleton}
    (taken : postfixExpression.Takes resync (readEntry resync depth) context
      ⟨term.words ++ rest, built⟩ .isOpen last) :
    unaryExpression.Takes resync (readEntry resync depth) context ⟨term.words ++ rest, built⟩ .isOpen
      last := by
  obtain ⟨first, more, words, starts⟩ := term.words_eq
  rw [words] at plain taken ⊢
  refine unaryExpression_takes_operand ?_ (fun ident => ?_) taken
  · have apart : ∀ kind ∈ [TokenKind.ident, .star, .lBracket, .lParen, .dollar],
        kind ∉ TokenKind.shl :: unaryTokens := by
      decide
    exact List.not_mem_cons_of_ne_of_not_mem plain (starts.kind_ne apart)
  · rcases starts with ⟨-, free⟩ | other
    · exact ⟨List.ne_of_not_mem_cons free,
        List.ne_of_not_mem_cons (List.not_mem_of_not_mem_cons free)⟩
    · rw [ident] at other
      exact absurd other (by decide)

theorem ChainsAsValue.isReadAsValue (chains : term.ChainsAsValue resync depth)
    (plain : SourceWord.kindAt term.words 0 ≠ .star) : term.IsReadAsValue resync depth := by
  intro context rest built ends closes
  have read : postfixExpression.Takes resync (readEntry resync depth) context
      ⟨term.words ++ rest, built⟩ .isOpen ⟨rest, [term.asValue] ++ built⟩ :=
    takes_marked (chains context rest _ (.of_closer ends.noQuick closes) (ends.loops closes _))
  exact unaryExpression_takes_type plain read

theorem isReadAsValue_of_primary (plain : SourceWord.kindAt term.words 0 ≠ .star)
    (taken : ∀ context rest, TypeEnds context rest →
      primary.Takes resync (readEntry resync depth) context ⟨term.words ++ rest, []⟩ .isOpen
        ⟨rest, [term.asValue]⟩) :
    term.IsReadAsValue resync depth := by
  intro context rest built ends closes
  have read : postfixExpression.Takes resync (readEntry resync depth) context
      ⟨term.words ++ rest, built⟩ .isOpen ⟨rest, [term.asValue] ++ built⟩ :=
    takes_marked (takes_postfixChain (taken context rest ends) (ends.loops closes _))
  exact unaryExpression_takes_type plain read

theorem isReadAsValue_builtin (builtin : Builtin) :
    (TypeTerm.builtin builtin).IsReadAsValue resync depth :=
  isReadAsValue_of_primary TokenKind.noConfusion (fun _ _ _ => primary_takes_builtin builtin)

/-- A path starts with a name. -/
theorem kindAt_path (path : Path) (rest : List SourceWord) :
    SourceWord.kindAt (path.words ++ rest) 0 = .ident := by
  obtain ⟨name, more, words, -⟩ := path.words_eq
  rw [words]
  rfl

theorem isReadAsValue_path (path : Path) : (TypeTerm.path path).IsReadAsValue resync depth := by
  have start := kindAt_path path []
  rw [List.append_nil] at start
  exact (chainsAsValue_path path).isReadAsValue (start ▸ TokenKind.noConfusion)

theorem isReadAsValue_applied (path : Path) {arguments : TypeArguments}
    (areRead : arguments.AreReadBy resync depth Production.expression arguments.asValues) :
    (TypeTerm.applied path arguments).IsReadAsValue resync depth := by
  have start : SourceWord.kindAt (TypeTerm.applied path arguments).words 0 = .ident :=
    kindAt_path path _
  exact (chainsAsValue_applied path areRead).isReadAsValue (start ▸ TokenKind.noConfusion)

theorem IsReadAsValue.pointer {target : TypeTerm} (read : target.IsReadAsValue resync depth) :
    (TypeTerm.pointer target).IsReadAsValue resync (depth + 1) :=
  fun _ _ _ ends closes => takes_address (read.operand ends closes Prec.unary _)

/-- A bracket or a dollar sign starts a type in the place of a value too. -/
theorem IsRead.asOperand (read : term.IsRead resync depth) (same : term.asValue = term.skeleton)
    (starts : SourceWord.kindAt term.words 0 ∈ [TokenKind.lBracket, .dollar]) :
    term.IsReadAsValue resync (depth + 1) := by
  have kinds : SourceWord.kindAt term.words 0 = .lBracket ∨
      SourceWord.kindAt term.words 0 = .dollar := by
    simpa using starts
  have plain : ∀ kind ∈ [TokenKind.lBracket, .dollar], kind ≠ .star := by
    decide
  refine isReadAsValue_of_primary (plain _ starts) (fun context rest ends => ?_)
  have taken : (openOperand Production.type).Takes resync (readEntry resync (depth + 1)) context
      ⟨term.words ++ rest, []⟩ .isOpen ⟨rest, [term.skeleton]⟩ :=
    takes_openOperand (read.type ends [])
  rw [same]
  obtain ⟨first, more, words, -⟩ := term.words_eq
  rw [words] at kinds taken ⊢
  refine takes_bind (takes_look (fun _ sees => sees.kind)) ?_
  rw [List.cons_append, SourceWord.kindAt_cons_zero]
  rcases kinds with kind | kind
  all_goals
    change first.kind = _ at kind
    rw [kind]
    exact taken

/-! ### Procedure types in the place of a value -/

def listOrValue : Production Operand := do
  if ← look (·.isAtParameterList) then Production.procedure
  else openOperand parenthesized

/-- No procedure type is taken for a quick procedure. -/
theorem isReadAsValue_of_parenthesis {parameters : TypeTerms} {result : TypeTerm}
    (taken : ∀ context rest, TypeEnds context rest →
      listOrValue.Takes resync (readEntry resync depth) context
        ⟨(TypeTerm.procedure parameters result).words ++ rest, []⟩ .isOpen
        ⟨rest, [(TypeTerm.procedure parameters result).asValue]⟩) :
    (TypeTerm.procedure parameters result).IsReadAsValue resync depth := by
  refine isReadAsValue_of_primary TokenKind.noConfusion (fun context rest ends => ?_)
  have noQuick : ∀ word ∈ (TypeTerm.procedure parameters result).words ++ rest,
      word.kind ≠ .fatArrow :=
    noQuick_append (TypeTerm.words_ofTypes _) ends.noQuick
  refine takes_bind (takes_look (fun _ sees => sees.kind)) ?_
  exact takes_else (fun _ sees => sees.isAtQuickParameters_quiet noQuick) (taken context rest ends)

/-- A parameter list that is told by its first tokens. -/
theorem isReadAsValue_listed {parameters : TypeTerms} {result : TypeTerm}
    (same : parameters.asValues = parameters.skeletons)
    (listed : ∀ (view : View) context rest,
      view.Sees context ⟨.fixed .lParen :: (parameters.words ++ .fixed .rParen :: rest), []⟩ →
        view.isAtParameterList = true)
    (areRead : parameters.AreRead resync (depth + 1)) (read : result.IsRead resync depth) :
    (TypeTerm.procedure parameters result).IsReadAsValue resync (depth + 1) := by
  refine isReadAsValue_of_parenthesis (fun context rest ends => ?_)
  have signature := takes_signature areRead ends.stops.bodiless ends.noQuick (read.results ends) []
  have alike : (TypeTerm.procedure parameters result).asValue =
      (TypeTerm.procedure parameters result).skeleton := by
    rw [TypeTerm.asValue, TypeTerm.skeleton, same]
  rw [alike]
  refine takes_then (fun view sees => ?_) signature
  have opened : view.Sees context ⟨.fixed .lParen :: (parameters.words ++ .fixed .rParen ::
      (.fixed .arrow :: (result.words ++ rest))), []⟩ := by
    simpa only [TypeTerm.words, List.append_assoc, List.cons_append] using sees
  exact listed view context _ opened

/-- A single parameter is read as a value in parentheses, and as a type once the arrow is seen. -/
theorem IsReadAsValue.single {parameter result : TypeTerm}
    (plain : ∀ name, parameter ≠ .polymorphic name)
    (asValue : parameter.IsReadAsValue resync depth) (read : result.IsRead resync depth) :
    (TypeTerm.procedure (.cons parameter .none) result).IsReadAsValue resync (depth + 1) := by
  refine isReadAsValue_of_parenthesis (fun context rest ends => ?_)
  have noQuick : ∀ word ∈ SourceWord.fixed .rParen :: .fixed .arrow :: (result.words ++ rest),
      word.kind ≠ .fatArrow :=
    noQuick_close TokenKind.noConfusion (noQuick_close TokenKind.noConfusion
      (noQuick_append result.words_ofTypes ends.noQuick))
  have closer : TokenKind.rParen ∈ closerKinds := by decide
  have ending : TypeEnds .none (.fixed .rParen :: .fixed .arrow :: (result.words ++ rest)) :=
    .of_closer noQuick List.mem_cons_self
  have inside := asValue.expression ending closer [(SourceWord.fixed .lParen).leaf none]
  have spliced : parenthesized.Takes resync (readEntry resync (depth + 1)) context _ () ⟨rest, [_]⟩ :=
    takes_spliced inside (read.results ends)
  have taken : listOrValue.Takes resync (readEntry resync (depth + 1)) context _ .isOpen _ :=
    takes_else (fun _ sees => sees.isAtParameterList_single rfl plain) (takes_openOperand spliced)
  simpa only [TypeTerm.words, TypeTerms.words, TypeTerms.separator, TypeTerm.asValue,
    TypeTerms.asValues, List.append_assoc, List.cons_append, List.nil_append] using taken

/-! ### Arguments -/

theorem expression_takes_integer (value : Numeral) {context : Context} {rest : List SourceWord}
    (deep : 1 ≤ depth) (ends : TypeEnds context rest)
    (closes : SourceWord.kindAt rest 0 ∈ closerKinds) (built : List Skeleton) :
    Production.expression.Takes resync (readEntry resync (depth + 1)) context
      ⟨value.word :: rest, built⟩ () ⟨rest, (Term.numeral value).skeleton :: built⟩ :=
  (Term.climbs resync (.numeral value) trivial depth deep).2.expression
    (.of_closer ends.noQuick closes) closes context built

/-- An argument of a type is read as a type if it can only be one, and as a value otherwise. -/
theorem typeArgument_takes {argument : TypeTerm}
    (reads : if argument.IsPointer then argument.Reads else argument.ReadsAsValue)
    (typed : argument.Reads → argument.IsRead resync depth)
    (valued : argument.ReadsAsValue → argument.IsReadAsValue resync depth) {rest : List SourceWord}
    (ends : TypeEnds .arguments rest) (closes : SourceWord.kindAt rest 0 ∈ closerKinds)
    (built : List Skeleton) :
    typeArgument.Takes resync (readEntry resync (depth + 1)) .arguments
      ⟨argument.words ++ rest, built⟩ ()
      ⟨rest, (if argument.IsPointer then argument.skeleton else argument.asValue) :: built⟩ := by
  have ident : TokenKind.ident ∈ [TokenKind.ident, .int, .lParen] := by decide
  cases argument with
  | builtin builtin =>
      exact typeArgument_takes_expression ident ((valued reads).expression ends closes built)
  | path path =>
      have start : SourceWord.kindAt ((TypeTerm.path path).words ++ rest) 0 = .ident :=
        kindAt_path path rest
      exact typeArgument_takes_expression (start ▸ ident)
        ((valued reads).expression ends closes built)
  | applied path arguments =>
      have start : SourceWord.kindAt ((TypeTerm.applied path arguments).words ++ rest) 0 = .ident := by
        rw [TypeTerm.words, List.append_assoc]
        exact kindAt_path path _
      exact typeArgument_takes_expression (start ▸ ident)
        ((valued reads).expression ends closes built)
  | pointer target =>
      have star : TokenKind.star ∈ [TokenKind.star, .lBracket, .dollar] := by decide
      exact typeArgument_takes_type star ((typed reads).type ends built)
  | array size element =>
      have bracket : TokenKind.lBracket ∈ [TokenKind.star, .lBracket, .dollar] := by decide
      exact typeArgument_takes_type bracket ((typed reads).type ends built)
  | polymorphic name =>
      have dollar : TokenKind.dollar ∈ [TokenKind.star, .lBracket, .dollar] := by decide
      exact typeArgument_takes_type dollar ((typed trivial).type ends built)
  | procedure parameters result =>
      have paren : TokenKind.lParen ∈ [TokenKind.ident, .int, .lParen] := by decide
      exact typeArgument_takes_expression paren ((valued reads).expression ends closes built)

theorem IsName.reads (named : term.IsName) : term.Reads := by
  match term, named with
  | .builtin _, _ => trivial
  | .path (.name _), _ => trivial
  | .polymorphic _, _ => trivial

end TypeTerm

/-! ### All types -/

mutual

/-- Every type is read in both places, if entries nest deep enough. -/
theorem TypeTerm.isRead (resync : Bool) (term : TypeTerm) :
    (term.Reads → ∀ depth, 2 * term.words.length ≤ depth + 1 → term.IsRead resync depth) ∧
      (term.ReadsAsValue → ∀ depth, 2 * term.words.length ≤ depth →
        term.IsReadAsValue resync depth) := by
  cases term with
  | builtin builtin =>
      exact ⟨fun _ _ _ _ _ _ _ => takes_builtin builtin,
        fun _ _ _ => TypeTerm.isReadAsValue_builtin builtin⟩
  | path path =>
      exact ⟨fun _ _ _ => (TypeTerm.isReadAlone_path path).isRead, fun _ _ _ => TypeTerm.isReadAsValue_path path⟩
  | applied path arguments =>
      obtain ⟨typed, valued⟩ := arguments.areRead resync
      rw [TypeTerm.words, List.length_append, List.length_cons, List.length_append]
      exact ⟨fun reads depth deep =>
          (TypeTerm.isReadAlone_applied path (typed reads depth (by omega))).isRead,
        fun reads depth deep => TypeTerm.isReadAsValue_applied path (valued reads depth (by omega))⟩
  | pointer target =>
      obtain ⟨typed, valued⟩ := target.isRead resync
      rw [TypeTerm.words, List.length_cons]
      refine ⟨fun reads depth deep => ?_, fun reads depth deep => ?_⟩
      · obtain ⟨shallower, rfl⟩ : ∃ shallower, depth = shallower + 1 := ⟨depth - 1, by omega⟩
        exact (typed reads shallower (by omega)).pointer
      · obtain ⟨shallower, rfl⟩ : ∃ shallower, depth = shallower + 1 := ⟨depth - 1, by omega⟩
        exact (valued reads shallower (by omega)).pointer
  | array size element =>
      have inside := (element.isRead resync).1
      have typed : element.Reads → ∀ depth, 2 * (TypeTerm.array size element).words.length ≤
          depth + 1 → (TypeTerm.array size element).IsRead resync depth := by
        intro reads depth deep
        rw [TypeTerm.words, List.length_cons, List.length_append, List.length_cons] at deep
        obtain ⟨shallower, rfl⟩ : ∃ shallower, depth = shallower + 1 := ⟨depth - 1, by omega⟩
        exact (inside reads shallower (by omega)).array size (by omega)
      refine ⟨typed, fun reads depth deep => ?_⟩
      have some : 0 < (TypeTerm.array size element).words.length :=
        List.length_pos_iff.mpr (TypeTerm.words_ne_nil _)
      obtain ⟨shallower, rfl⟩ : ∃ shallower, depth = shallower + 1 := ⟨depth - 1, by omega⟩
      exact (typed reads shallower deep).asOperand rfl List.mem_cons_self
  | polymorphic name =>
      refine ⟨fun _ _ _ => (TypeTerm.isReadAlone_polymorphic name).isRead, fun _ depth deep => ?_⟩
      rw [TypeTerm.words, List.length_cons] at deep
      obtain ⟨shallower, rfl⟩ : ∃ shallower, depth = shallower + 1 := ⟨depth - 1, by omega⟩
      exact (TypeTerm.isReadAlone_polymorphic name).isRead.asOperand rfl (List.mem_cons_of_mem _ List.mem_cons_self)
  | procedure parameters result =>
      have listed := parameters.areRead resync
      have returned := (result.isRead resync).1
      rw [TypeTerm.words, List.length_cons, List.length_append, List.length_cons, List.length_cons]
      refine ⟨fun reads depth deep => ?_, fun reads depth deep => ?_⟩
      · obtain ⟨shallower, rfl⟩ : ∃ shallower, depth = shallower + 1 := ⟨depth - 1, by omega⟩
        exact TypeTerm.isRead_procedure (listed.1 reads.1 _ (by omega)) (returned reads.2 _ (by omega))
      · obtain ⟨shallower, rfl⟩ : ∃ shallower, depth = shallower + 1 := ⟨depth - 1, by omega⟩
        exact listed.2 reads.1 shallower (by omega) (returned reads.2 _ (by omega))

/-- The parameters of a procedure type are read as a list in either place. -/
theorem TypeTerms.areRead (resync : Bool) (terms : TypeTerms) :
    (terms.Reads → ∀ depth, 2 * terms.words.length < depth → terms.AreRead resync depth) ∧
      (terms.ReadAsValues → ∀ depth, 2 * terms.words.length ≤ depth → ∀ {result : TypeTerm},
        result.IsRead resync depth →
          (TypeTerm.procedure terms result).IsReadAsValue resync (depth + 1)) := by
  cases terms with
  | none =>
      refine ⟨fun _ _ _ => TypeTerms.areRead_none, fun _ depth _ result read => ?_⟩
      exact TypeTerm.isReadAsValue_listed rfl (fun view context rest sees => by
        unfold View.isAtParameterList
        rw [sees.kinds 1]
        rfl) TypeTerms.areRead_none read
  | cons first later =>
      obtain ⟨typed, valued⟩ := first.isRead resync
      have others := (later.areRead resync).1
      rw [TypeTerms.words, List.length_append, List.length_append]
      have listed : first.Reads ∧ later.Reads → ∀ depth, 2 * (first.words.length +
          (later.separator.length + later.words.length)) < depth →
          (TypeTerms.cons first later).AreRead resync depth := by
        intro reads depth deep
        obtain ⟨shallower, rfl⟩ : ∃ shallower, depth = shallower + 1 := ⟨depth - 1, by omega⟩
        exact TypeTerms.areRead_cons (typed reads.1 _ (by omega)) (others reads.2 _ (by omega))
      refine ⟨listed, fun reads depth deep result read => ?_⟩
      cases later with
      | none =>
          by_cases isVariable : ∃ name, first = .polymorphic name
          · obtain ⟨name, rfl⟩ := isVariable
            exact TypeTerm.isReadAsValue_listed rfl
              (fun _ _ _ sees => sees.isAtParameterList_polymorphic)
              (listed ⟨trivial, trivial⟩ _ (by omega)) read
          · exact (valued reads depth (by omega)).single (fun name same => isVariable ⟨name, same⟩) read
      | cons second rest =>
          refine TypeTerm.isReadAsValue_listed rfl (fun view context more sees => ?_)
            (listed ⟨reads.1.reads, reads.2⟩ _ (by omega)) read
          have several : view.Sees context ⟨.fixed .lParen :: (first.words ++ .fixed .comma ::
              ((TypeTerms.cons second rest).words ++ .fixed .rParen :: more)), []⟩ := by
            simpa only [TypeTerms.words, TypeTerms.separator, List.append_assoc, List.cons_append,
              List.nil_append] using sees
          exact several.isAtParameterList_several reads.1

theorem TypeArguments.areRead (resync : Bool) (arguments : TypeArguments) :
    (arguments.Reads → ∀ depth, 2 * arguments.words.length < depth →
      arguments.AreReadBy resync depth typeArgument arguments.skeletons) ∧
      (arguments.ReadAsValues → ∀ depth, 2 * arguments.words.length < depth →
        arguments.AreReadBy resync depth Production.expression arguments.asValues) := by
  cases arguments with
  | none => exact ⟨fun _ _ _ => TypeArguments.areReadBy_none, fun _ _ _ => TypeArguments.areReadBy_none⟩
  | integer value later =>
      obtain ⟨typed, valued⟩ := later.areRead resync
      rw [TypeArguments.words, List.length_cons, List.length_append]
      refine ⟨fun reads depth deep => ?_, fun reads depth deep => ?_⟩
      · obtain ⟨shallower, rfl⟩ : ∃ shallower, depth = shallower + 1 := ⟨depth - 1, by omega⟩
        have int : TokenKind.int ∈ [TokenKind.ident, .int, .lParen] := by decide
        exact TypeArguments.areReadBy_integer (fun rest built ends closes =>
          typeArgument_takes_expression int
            (TypeTerm.expression_takes_integer value (by omega) ends closes built))
          (typed reads _ (by omega))
      · obtain ⟨shallower, rfl⟩ : ∃ shallower, depth = shallower + 1 := ⟨depth - 1, by omega⟩
        exact TypeArguments.areReadBy_integer (fun rest built ends closes =>
          TypeTerm.expression_takes_integer value (by omega) ends closes built)
          (valued reads _ (by omega))
  | type argument later =>
      obtain ⟨itemTyped, itemValued⟩ := argument.isRead resync
      obtain ⟨typed, valued⟩ := later.areRead resync
      rw [TypeArguments.words, List.length_append, List.length_append]
      refine ⟨fun reads depth deep => ?_, fun reads depth deep => ?_⟩
      · obtain ⟨shallower, rfl⟩ : ∃ shallower, depth = shallower + 1 := ⟨depth - 1, by omega⟩
        exact TypeArguments.areReadBy_type (fun rest built ends closes =>
          TypeTerm.typeArgument_takes reads.1 (fun known => itemTyped known _ (by omega))
            (fun known => itemValued known _ (by omega)) ends closes built)
          (typed reads.2 _ (by omega))
      · obtain ⟨shallower, rfl⟩ : ∃ shallower, depth = shallower + 1 := ⟨depth - 1, by omega⟩
        exact TypeArguments.areReadBy_type (fun rest built ends closes =>
          (itemValued reads.1 _ (by omega)).expression ends closes built)
          (valued reads.2 _ (by omega))

end

end JaiSyntax
