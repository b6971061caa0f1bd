import JaiSyntax.Proofs.Statement.RoundTrip
import JaiSyntax.Proofs.Type.Declaration
/-!
Types are parsed back from what they are written as. Whatever stands between its words, a type behind a
colon is the type of the variable, with a value behind it or without one, and each part of it is the type
it was written as.
-/

set_option autoImplicit false

namespace JaiSyntax

open Production

/-! ### Trees of types -/

mutual

/-- The tree of a type whose every part is a type, the integers among its arguments apart. -/
def TypeTerm.tree : TypeTerm → Skeleton
  | .builtin builtin => .branch none .builtinType [builtin.word.leaf none]
  | .path path => path.skeleton
  | .applied path arguments =>
      .branch none .parameterizedStructType
        (path.skeleton.withField (some .type) :: (SourceWord.fixed .lParen).leaf none ::
          (arguments.trees ++ [(SourceWord.fixed .rParen).leaf none]))
  | .pointer target =>
      .branch none .pointerType [(SourceWord.fixed .star).leaf none, target.tree]
  | .array size element => TypeTerm.arraySkeleton size element.tree
  | .polymorphic name =>
      .branch none .polymorphicType
        [(SourceWord.fixed .dollar).leaf none, name.word.leaf (some .name)]
  | .procedure parameters result =>
      .branch none .procedureType ((SourceWord.fixed .lParen).leaf none ::
        (parameters.trees ++ [(SourceWord.fixed .rParen).leaf none,
          (SourceWord.fixed .arrow).leaf none, result.tree.withField (some .result)]))

def TypeTerms.trees : TypeTerms → List Skeleton
  | .none => []
  | .cons first rest =>
      first.tree.withField (some .parameters) ::
        (rest.separator.map (SourceWord.leaf · none) ++ rest.trees)

def TypeArguments.trees : TypeArguments → List Skeleton
  | .none => []
  | .integer value rest =>
      (Term.numeral value).skeleton.withField (some .argument) ::
        (rest.separator.map (SourceWord.leaf · none) ++ rest.trees)
  | .type argument rest =>
      argument.tree.withField (some .argument) ::
        (rest.separator.map (SourceWord.leaf · none) ++ rest.trees)

end

/-- Whether a type can be an argument of a type: a single name, a type variable, a pointer or an
array. -/
def TypeTerm.IsArgument : TypeTerm → Prop
  | .builtin _ => True
  | .path (.name _) => True
  | .pointer _ => True
  | .array _ _ => True
  | .polymorphic _ => True
  | _ => False

mutual

def TypeTerm.IsSimple : TypeTerm → Prop
  | .builtin _ => True
  | .path _ => True
  | .applied _ arguments => arguments.AreSimple
  | .pointer target => target.IsSimple
  | .array _ element => element.IsSimple
  | .polymorphic _ => True
  | .procedure parameters result => parameters.AreSimple ∧ result.IsSimple

def TypeTerms.AreSimple : TypeTerms → Prop
  | .none => True
  | .cons first rest => first.IsSimple ∧ rest.AreSimple

def TypeArguments.AreSimple : TypeArguments → Prop
  | .none => True
  | .integer _ rest => rest.AreSimple
  | .type argument rest => argument.IsArgument ∧ argument.IsSimple ∧ rest.AreSimple

end

theorem TypeTerm.IsArgument.asValue_eq {argument : TypeTerm} (known : argument.IsArgument)
    (other : ¬ argument.IsPointer) : argument.asValue = argument.skeleton := by
  cases argument with
  | builtin builtin => rfl
  | path path =>
      cases path with
      | name name => rfl
      | member object member => exact known.elim
  | applied path arguments => exact known.elim
  | pointer target => exact (other trivial).elim
  | array size element => rfl
  | polymorphic name => rfl
  | procedure parameters result => exact known.elim

/-- What is no pointer among the arguments of a type is read as a value where it is read as a type. -/
theorem TypeTerm.IsArgument.readsAsValue {argument : TypeTerm} (known : argument.IsArgument)
    (other : ¬ argument.IsPointer) (reads : argument.Reads) : argument.ReadsAsValue := by
  cases argument with
  | builtin builtin => trivial
  | path path => trivial
  | applied path arguments => exact known.elim
  | pointer target => exact (other trivial).elim
  | array size element => exact reads
  | polymorphic name => trivial
  | procedure parameters result => exact known.elim

mutual

theorem TypeTerm.IsSimple.reads {term : TypeTerm} (simple : term.IsSimple) : term.Reads := by
  cases term with
  | builtin builtin => trivial
  | path path => trivial
  | applied path arguments =>
      have inside : arguments.AreSimple := simple
      exact inside.read
  | pointer target =>
      have inside : target.IsSimple := simple
      exact inside.reads
  | array size element =>
      have inside : element.IsSimple := simple
      exact inside.reads
  | polymorphic name => trivial
  | procedure parameters result => exact ⟨simple.1.read, simple.2.reads⟩

theorem TypeTerms.AreSimple.read {terms : TypeTerms} (simple : terms.AreSimple) : terms.Reads := by
  cases terms with
  | none => trivial
  | cons first rest => exact ⟨simple.1.reads, simple.2.read⟩

theorem TypeArguments.AreSimple.read {arguments : TypeArguments} (simple : arguments.AreSimple) :
    arguments.Reads := by
  cases arguments with
  | none => trivial
  | integer value rest =>
      have later : rest.AreSimple := simple
      exact later.read
  | type argument rest =>
      obtain ⟨known, inside, later⟩ := simple
      -- Only a pointer is read as a type among arguments; anything else stands there as a value.
      have item : if argument.IsPointer then argument.Reads else argument.ReadsAsValue := by
        by_cases pointer : argument.IsPointer
        · rw [if_pos pointer]
          exact inside.reads
        · rw [if_neg pointer]
          exact known.readsAsValue pointer inside.reads
      exact ⟨item, later.read⟩

end

mutual

theorem TypeTerm.IsSimple.skeleton_eq {term : TypeTerm} (simple : term.IsSimple) :
    term.skeleton = term.tree := by
  cases term with
  | builtin builtin => rfl
  | path path => rfl
  | applied path arguments =>
      have inside : arguments.AreSimple := simple
      rw [TypeTerm.skeleton, TypeTerm.tree, inside.skeletons_eq]
  | pointer target =>
      have inside : target.IsSimple := simple
      rw [TypeTerm.skeleton, TypeTerm.tree, inside.skeleton_eq]
  | array size element =>
      have inside : element.IsSimple := simple
      rw [TypeTerm.skeleton, TypeTerm.tree, inside.skeleton_eq]
  | polymorphic name => rfl
  | procedure parameters result =>
      rw [TypeTerm.skeleton, TypeTerm.tree, simple.1.skeletons_eq, simple.2.skeleton_eq]

theorem TypeTerms.AreSimple.skeletons_eq {terms : TypeTerms} (simple : terms.AreSimple) :
    terms.skeletons = terms.trees := by
  cases terms with
  | none => rfl
  | cons first rest =>
      rw [TypeTerms.skeletons, TypeTerms.trees, simple.1.skeleton_eq, simple.2.skeletons_eq]

theorem TypeArguments.AreSimple.skeletons_eq {arguments : TypeArguments}
    (simple : arguments.AreSimple) : arguments.skeletons = arguments.trees := by
  cases arguments with
  | none => rfl
  | integer value rest =>
      have later : rest.AreSimple := simple
      rw [TypeArguments.skeletons, TypeArguments.trees, later.skeletons_eq]
  | type argument rest =>
      obtain ⟨known, inside, later⟩ := simple
      have item : (if argument.IsPointer then argument.skeleton else argument.asValue) =
          argument.tree := by
        by_cases pointer : argument.IsPointer
        · rw [if_pos pointer, inside.skeleton_eq]
        · rw [if_neg pointer, known.asValue_eq pointer, inside.skeleton_eq]
      rw [TypeArguments.skeletons, TypeArguments.trees, item, later.skeletons_eq]

end

/-! ### Variables with a type and a value -/

namespace TypeTerm

variable {term : TypeTerm} {name : SourceWord} {source : List Char}

def initializedWords (name : SourceWord) (term : TypeTerm) (value : Term) : List SourceWord :=
  name :: .fixed .colon :: (term.words ++ .fixed .eq :: (value.words ++ [.fixed .semicolon]))

def initializedTree (name : SourceWord) (type value : Skeleton) : Skeleton :=
  .branch none .sourceFile
    [.branch none .variableDeclaration
      [name.leaf (some .name), (SourceWord.fixed .colon).leaf none, type.withField (some .type),
        (SourceWord.fixed .eq).leaf none, value.withField (some .value)],
      (SourceWord.fixed .semicolon).leaf none]

theorem ends_equals (context : Context) {rest : List SourceWord} (quiet : Quiet rest) :
    TypeEnds context (.fixed .eq :: rest) := by
  constructor
  · change TokenKind.eq ∉ _
    decide
  · exact noQuick_close TokenKind.noConfusion quiet.noQuick
  · exact TokenKind.noConfusion

/-- A type is parsed back from its words between a colon and a value. -/
theorem parse_initialized {value : Term} (reads : term.Reads) (grouped : value.Grouped)
    (named : name.kind = .ident) (spells : Spells source (term.initializedWords name value))
    (options : ParseOptions) :
    (parse options source).errors = [] ∧
      (parse options source).tree.skeleton =
        initializedTree name term.skeleton value.skeleton := by
  have same : term.initializedWords name value = name ::
      ((.fixed .colon :: (term.words ++ .fixed .eq :: value.words)) ++ [.fixed .semicolon]) := by
    simp [initializedWords]
  rw [same] at spells
  apply spells.parse_declaration named List.mem_cons_self (Or.inl rfl) options
  intro depth deep
  rw [List.length_cons, List.length_append, List.length_cons] at deep
  obtain ⟨shallower, rfl⟩ : ∃ shallower, depth = shallower + 1 := ⟨depth - 1, by omega⟩
  have closing : Quiet [SourceWord.fixed .semicolon] :=
    Quiet.cons ⟨TokenKind.noConfusion, TokenKind.noConfusion⟩ (List.forall_mem_nil _)
  have semicolon : TokenKind.semicolon ∈ closerKinds := by decide
  have read := (term.isRead options.resyncOnDeclaration).1 reads shallower (by omega)
  have typed := read.type (ends_equals .none (value.words_quiet.append closing))
  have climbs := (value.climbs options.resyncOnDeclaration grouped shallower (by omega)).2
  have valued := climbs.expression closing semicolon
  obtain ⟨first, more, words, starts⟩ := term.words_eq
  have starting : SourceWord.kindAt (term.words ++ .fixed .eq :: (value.words ++
      [.fixed .semicolon])) 0 ∉ [TokenKind.eq, .colon] := by
    rw [words]
    exact starts.kind_ne (by decide)
  have noColon := List.not_mem_of_not_mem_cons starting
  have typedAs : (typeAs .type).Takes options.resyncOnDeclaration _ .none _ () _ :=
    takes_seq (typed [(SourceWord.fixed .colon).leaf none, name.leaf (some .name)])
      (takes_tag .type _ _ _)
  have valuedAs (built : List Skeleton) :
      (expressionsAs .value).Takes options.resyncOnDeclaration _ .none
        ⟨value.words ++ [.fixed .semicolon], built⟩ () _ :=
    takes_commaSeparated (valued.tagged .value) TokenKind.noConfusion
  rw [List.cons_append, List.append_assoc, List.cons_append]
  apply takes_typedTail (List.ne_of_not_mem_cons noColon)
  exact typedDefinition_takes_initialized
    ⟨List.ne_of_not_mem_cons starting, List.ne_of_not_mem_cons noColon⟩ typedAs (valuedAs _)

end TypeTerm

/-! ### Types in a source -/

namespace AllSeparable

variable {words rest : List SourceWord}

theorem numeral (numeral : Numeral) (back : AllSeparable rest) :
    AllSeparable (numeral.word :: rest) :=
  List.forall_mem_cons.mpr ⟨numeral.separable, back⟩

theorem builtin (builtin : Builtin) : AllSeparable [builtin.word] := by
  have spelled : ∀ text ∈ builtinTypes, ∃ first rest, text = String.ofList (first :: rest) ∧
      isWordStart first = true ∧ rest.all isWordPart = true := by
    simp only [builtinTypes, List.forall_mem_cons, List.not_mem_nil, false_implies, implies_true,
      and_true]
    and_intros
    all_goals exact ⟨_, _, rfl, by decide, by decide⟩
  rcases builtin with ⟨text, known⟩
  obtain ⟨first, rest, rfl, starts, goesOn⟩ := spelled text known
  exact List.forall_mem_singleton.mpr (ident_separable starts (List.all_eq_true.mp goesOn))

theorem path (path : Path) : AllSeparable path.words := path.term.words_separable

end AllSeparable

theorem ArraySize.words_separable (size : ArraySize) : AllSeparable size.words := by
  cases size with
  | slice => exact .nil
  | resizable => exact .fixed (by decide) .nil
  | fixed length => exact .numeral length .nil

theorem TypeTerms.separator_separable (terms : TypeTerms) : AllSeparable terms.separator := by
  cases terms with
  | none => exact .nil
  | cons first rest => exact .fixed (by decide) .nil

theorem TypeArguments.separator_separable (arguments : TypeArguments) :
    AllSeparable arguments.separator := by
  cases arguments with
  | none => exact .nil
  | integer value rest => exact .fixed (by decide) .nil
  | type argument rest => exact .fixed (by decide) .nil

mutual

theorem TypeTerm.words_separable (term : TypeTerm) : AllSeparable term.words := by
  cases term with
  | builtin builtin => exact .builtin builtin
  | path path => exact .path path
  | applied path arguments =>
      have closing : AllSeparable [.fixed .rParen] := .fixed (by decide) .nil
      have closed := arguments.words_separable.append closing
      exact (AllSeparable.path path).append (closed.fixed (by decide))
  | pointer target => exact target.words_separable.fixed (by decide)
  | array size element =>
      have closed : AllSeparable (.fixed .rBracket :: element.words) :=
        element.words_separable.fixed (by decide)
      exact (size.words_separable.append closed).fixed (by decide)
  | polymorphic name => exact (AllSeparable.nil.name name).fixed (by decide)
  | procedure parameters result =>
      have returned : AllSeparable (.fixed .arrow :: result.words) :=
        result.words_separable.fixed (by decide)
      have closed : AllSeparable (.fixed .rParen :: .fixed .arrow :: result.words) :=
        returned.fixed (by decide)
      exact (parameters.words_separable.append closed).fixed (by decide)

theorem TypeTerms.words_separable (terms : TypeTerms) : AllSeparable terms.words := by
  cases terms with
  | none => exact .nil
  | cons first rest =>
      exact first.words_separable.append (rest.separator_separable.append rest.words_separable)

theorem TypeArguments.words_separable (arguments : TypeArguments) : AllSeparable arguments.words := by
  cases arguments with
  | none => exact .nil
  | integer value rest =>
      exact (rest.separator_separable.append rest.words_separable).numeral value
  | type argument rest =>
      exact argument.words_separable.append (rest.separator_separable.append rest.words_separable)

end

namespace TypeTerm

def written (name : Name) (term : TypeTerm) : List Char := blanked (term.variableWords name.word)

def writtenInitialized (name : Name) (term : TypeTerm) (value : Numeral) : List Char :=
  blanked (term.initializedWords name.word (.numeral value))

theorem written_spells (name : Name) (term : TypeTerm) :
    Spells (term.written name) (term.variableWords name.word) := by
  have typed : AllSeparable (.fixed .colon :: (term.words ++ [.fixed .semicolon])) :=
    term.words_separable.semicolon.fixed (by decide)
  exact (LexedAs.blanked (typed.name name)).spells

theorem writtenInitialized_spells (name : Name) (term : TypeTerm) (value : Numeral) :
    Spells (term.writtenInitialized name value)
      (term.initializedWords name.word (.numeral value)) := by
  have valued : AllSeparable (.fixed .eq :: ((Term.numeral value).words ++ [.fixed .semicolon])) :=
    (AllSeparable.term (.numeral value)).semicolon.fixed (by decide)
  have typed : AllSeparable (.fixed .colon :: (term.words ++ .fixed .eq ::
      ((Term.numeral value).words ++ [.fixed .semicolon]))) :=
    (term.words_separable.append valued).fixed (by decide)
  exact (LexedAs.blanked (typed.name name)).spells

/-- A type is parsed back from its words behind a colon, alone and in front of an integer, whatever
stands between the words: it is the type of the variable, part by part, and the integer its value. -/
theorem parse_types_back (options : ParseOptions) (name : Name) {term : TypeTerm}
    (simple : term.IsSimple) (value : Numeral) :
    (Spells (term.written name) (term.variableWords name.word) ∧
      Spells (term.writtenInitialized name value)
        (term.initializedWords name.word (.numeral value))) ∧
      (∀ source, Spells source (term.variableWords name.word) →
        (parse options source).errors = [] ∧
          (parse options source).tree.skeleton = variableTree name.word term.tree) ∧
      ∀ source, Spells source (term.initializedWords name.word (.numeral value)) →
        (parse options source).errors = [] ∧
          (parse options source).tree.skeleton =
            initializedTree name.word term.tree (Term.numeral value).skeleton := by
  rw [← simple.skeleton_eq]
  refine ⟨⟨term.written_spells name, term.writtenInitialized_spells name value⟩, ?_, ?_⟩
  · intro source spells
    exact parse_variable simple.reads rfl spells options
  · intro source spells
    have grouped : (Term.numeral value).Grouped := trivial
    exact parse_initialized simple.reads grouped rfl spells options

/-- A type with arguments is the result of a procedure type. -/
theorem parse_types_back_nested : ∃ (name : Name) (value : Numeral) (term : TypeTerm),
    (parse {} "x : ($T, [3] *A.B) -> [..] C(D, 5, *[] int) = 1;".toList).errors = [] ∧
      (parse {} "x : ($T, [3] *A.B) -> [..] C(D, 5, *[] int) = 1;".toList).tree.skeleton =
        initializedTree name.word term.tree (Term.numeral value).skeleton := by
  have spells : Spells "x : ($T, [3] *A.B) -> [..] C(D, 5, *[] int) = 1;".toList
      [⟨.ident, "x"⟩, .fixed .colon, .fixed .lParen, .fixed .dollar, ⟨.ident, "T"⟩, .fixed .comma,
        .fixed .lBracket, ⟨.int, "3"⟩, .fixed .rBracket, .fixed .star, ⟨.ident, "A"⟩, .fixed .dot,
        ⟨.ident, "B"⟩, .fixed .rParen, .fixed .arrow, .fixed .lBracket, .fixed .dotDot,
        .fixed .rBracket, ⟨.ident, "C"⟩, .fixed .lParen, ⟨.ident, "D"⟩, .fixed .comma, ⟨.int, "5"⟩,
        .fixed .comma, .fixed .star, .fixed .lBracket, .fixed .rBracket, ⟨.ident, "int"⟩,
        .fixed .rParen, .fixed .eq, ⟨.int, "1"⟩, .fixed .semicolon] :=
    ⟨by decide +kernel, by decide +kernel⟩
  let named (first : Char) (starts : isWordStart first = true)
      (free : String.ofList [first] ∉ reservedWords) : Name :=
    ⟨first, [], starts, List.forall_mem_nil _, free⟩
  let plain (first : Char) (starts : isWordStart first = true)
      (free : String.ofList [first] ∉ reservedWords) : Path := .name (named first starts free)
  let digit (first : Char) (starts : first.isDigit = true)
      (whole : (numberExtent [first]).length = 1)
      (fits : ∃ value, numberLexeme (numberExtent [first]) [first] = ⟨.int, [first], value, none⟩) :
      Numeral := ⟨first, [], starts, whole, fits⟩
  let three := digit '3' (by decide) (by decide) ⟨_, rfl⟩
  let five := digit '5' (by decide) (by decide) ⟨_, rfl⟩
  let one := digit '1' (by decide) (by decide) ⟨_, rfl⟩
  let qualified : Path :=
    .member (plain 'A' (by decide) (by decide)) (named 'B' (by decide) (by decide))
  let integers : TypeTerm := .builtin ⟨"int", by decide⟩
  let arguments : TypeArguments := .type (.path (plain 'D' (by decide) (by decide)))
    (.integer five (.type (.pointer (.array .slice integers)) .none))
  let parameters : TypeTerms := .cons (.polymorphic (named 'T' (by decide) (by decide)))
    (.cons (.array (.fixed three) (.pointer (.path qualified))) .none)
  let term : TypeTerm := .procedure parameters
    (.array .resizable (.applied (plain 'C' (by decide) (by decide)) arguments))
  have simple : term.IsSimple :=
    ⟨⟨trivial, trivial, trivial⟩, trivial, trivial, trivial, trivial, trivial⟩
  exact ⟨named 'x' (by decide) (by decide), one, term,
    (parse_types_back {} _ simple one).2.2 _ spells⟩

end TypeTerm

end JaiSyntax
