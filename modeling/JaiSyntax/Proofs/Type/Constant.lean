import JaiSyntax.Proofs.Type.Declaration
/-!
Constants with a type and a value. The colon between the two is also the mark of a named result, so that
the type in front of it must not end with a procedure type whose result is a single word.
-/

set_option autoImplicit false

namespace JaiSyntax

open Production

/-- A colon in front of a value stops a type. -/
theorem TypeStops.of_colon (context : Context) {rest : List SourceWord}
    (noQuick : ∀ word ∈ rest, word.kind ≠ .fatArrow) :
    TypeStops context (.fixed .colon :: rest) := by
  constructor
  · change TokenKind.colon ∉ _
    decide
  · exact TypeTerm.noQuick_close TokenKind.noConfusion noQuick
  · exact TokenKind.noConfusion

namespace TypeTerm

variable {resync : Bool} {depth : Nat} {term : TypeTerm}

/-- Whether a type ends with a procedure type whose result is a single word. -/
def EndsWithWord : TypeTerm → Prop
  | pointer target => target.EndsWithWord
  | .array _ element => element.EndsWithWord
  | .procedure _ result => result.IsWord ∨ result.EndsWithWord
  | _ => False

/-! ### Types in front of a colon -/

theorem IsReadAlone.type (read : term.IsReadAlone resync depth) {context : Context}
    {rest : List SourceWord} (stops : TypeStops context rest) (built : List Skeleton) :
    Production.type.Takes resync (readEntry resync (depth + 1)) context
      ⟨term.words ++ rest, built⟩ () ⟨rest, term.skeleton :: built⟩ :=
  takes_within _ (takes_entry .type (read _ rest built stops.including))

theorem IsReadAlone.pointer {target : TypeTerm} (read : target.IsReadAlone resync depth) :
    (TypeTerm.pointer target).IsReadAlone resync (depth + 1) :=
  fun _ _ _ stops => takes_pointerType (read.type stops _)

theorem IsReadAlone.array (size : ArraySize) {element : TypeTerm}
    (read : element.IsReadAlone resync depth) (deep : 1 ≤ depth) :
    (TypeTerm.array size element).IsReadAlone resync (depth + 1) :=
  fun _ _ _ stops => takes_array size deep stops.noQuick (read.type stops) _

theorem IsReadAlone.procedure {parameters : TypeTerms} {result : TypeTerm}
    (areRead : parameters.AreRead resync (depth + 1)) (read : result.IsReadAlone resync depth)
    (several : ¬ result.IsWord) :
    (TypeTerm.procedure parameters result).IsReadAlone resync (depth + 1) := by
  intro context rest built stops
  have returned (earlier : List Skeleton) :=
    takes_results (fun isWord => absurd isWord several) stops.comma (read.type stops earlier)
  exact typeEntry_takes_procedure
    (takes_signature areRead stops.bodiless stops.noQuick returned built)

/-- Only the end of a type decides whether it is read in front of a colon: the parameters, the arguments
and the sizes in it have their own ends. -/
theorem isReadAlone (resync : Bool) (term : TypeTerm) (reads : term.Reads)
    (ends : ¬ term.EndsWithWord) (depth : Nat) (deep : 2 * term.words.length ≤ depth + 1) :
    term.IsReadAlone resync depth := by
  cases term with
  | builtin builtin => exact fun _ _ _ _ => takes_builtin builtin
  | path path => exact isReadAlone_path path
  | applied path arguments =>
      rw [words, List.length_append, List.length_cons, List.length_append] at deep
      exact isReadAlone_applied path ((arguments.areRead resync).1 reads depth (by omega))
  | pointer target =>
      rw [words, List.length_cons] at deep
      obtain ⟨shallower, rfl⟩ : ∃ shallower, depth = shallower + 1 := ⟨depth - 1, by omega⟩
      exact (target.isReadAlone resync reads ends shallower (by omega)).pointer
  | array size element =>
      rw [words, List.length_cons, List.length_append, List.length_cons] at deep
      obtain ⟨shallower, rfl⟩ : ∃ shallower, depth = shallower + 1 := ⟨depth - 1, by omega⟩
      exact (element.isReadAlone resync reads ends shallower (by omega)).array size (by omega)
  | polymorphic name => exact isReadAlone_polymorphic name
  | procedure parameters result =>
      rw [words, List.length_cons, List.length_append, List.length_cons, List.length_cons] at deep
      obtain ⟨shallower, rfl⟩ : ∃ shallower, depth = shallower + 1 := ⟨depth - 1, by omega⟩
      obtain ⟨several, further⟩ := not_or.mp ends
      have returned := result.isReadAlone resync reads.2 further shallower (by omega)
      exact returned.procedure ((parameters.areRead resync).1 reads.1 _ (by omega)) several

/-! ### Constants -/

def typedConstantWords (name : SourceWord) (term : TypeTerm) (value : Term) : List SourceWord :=
  name :: .fixed .colon :: (term.words ++ .fixed .colon :: (value.words ++ [.fixed .semicolon]))

def typedConstantTree (name : SourceWord) (type value : Skeleton) : Skeleton :=
  .branch none .sourceFile
    [.branch none .constDeclaration
      [name.leaf (some .name), (SourceWord.fixed .colon).leaf none, type.withField (some .type),
        (SourceWord.fixed .colon).leaf none, value.withField (some .value)],
      (SourceWord.fixed .semicolon).leaf none]

/-- A constant is parsed back from its type and its value. -/
theorem parse_typedConstant {value : Term} (reads : term.Reads) (ends : ¬ term.EndsWithWord)
    (grouped : value.Grouped) {name : SourceWord} (named : name.kind = .ident) {source : List Char}
    (spells : Spells source (term.typedConstantWords name value)) (options : ParseOptions) :
    (parse options source).errors = [] ∧
      (parse options source).tree.skeleton =
        typedConstantTree name term.skeleton value.skeleton := by
  have same : term.typedConstantWords name value = name ::
      ((.fixed .colon :: (term.words ++ .fixed .colon :: value.words)) ++ [.fixed .semicolon]) := by
    simp [typedConstantWords]
  rw [same] at spells
  refine spells.parse_declaration named List.mem_cons_self (Or.inr rfl) options
    (fun depth deep => ?_)
  rw [List.length_cons, List.length_append, List.length_cons] at deep
  obtain ⟨shallower, rfl⟩ : ∃ shallower, depth = shallower + 1 := ⟨depth - 1, by omega⟩
  have closing : Quiet [SourceWord.fixed .semicolon] :=
    Quiet.cons ⟨TokenKind.noConfusion, TokenKind.noConfusion⟩ (List.forall_mem_nil _)
  have silent : Quiet (value.words ++ [.fixed .semicolon]) := value.words_quiet.append closing
  have semicolon : TokenKind.semicolon ∈ closerKinds := by decide
  have typed := (term.isReadAlone options.resyncOnDeclaration reads ends shallower (by omega)).type
    (TypeStops.of_colon .none silent.noQuick)
  have climbs := (value.climbs options.resyncOnDeclaration grouped shallower (by omega)).2
  have valued := climbs.expression closing semicolon
  obtain ⟨first, more, words, starts⟩ := term.words_eq
  have starting : SourceWord.kindAt (term.words ++ .fixed .colon :: (value.words ++
      [.fixed .semicolon])) 0 ∉ [TokenKind.eq, .colon] := by
    rw [words]
    exact starts.kind_ne (by decide)
  have noColon := List.not_mem_of_not_mem_cons starting
  have typedAs : (typeAs .type).Takes options.resyncOnDeclaration _ .none _ () _ :=
    takes_seq (typed [(SourceWord.fixed .colon).leaf none, name.leaf (some .name)])
      (takes_tag .type _ _ _)
  have valuedAs (built : List Skeleton) :
      (expressionsAs .value).Takes options.resyncOnDeclaration _ .none
        ⟨value.words ++ [.fixed .semicolon], built⟩ () _ :=
    takes_commaSeparated (valued.tagged .value) TokenKind.noConfusion
  rw [List.cons_append, List.append_assoc, List.cons_append]
  exact takes_typedTail (List.ne_of_not_mem_cons noColon) (typedDefinition_takes_constant
    ⟨List.ne_of_not_mem_cons starting, List.ne_of_not_mem_cons noColon⟩ typedAs
      (valuedAs _))

/-- The type of a constant is the same tree as that of a variable, for a type that is read at all (each
one without arguments is) and does not end with the single word of a result. -/
theorem parse_constant_alike {value : Term} (reads : term.Reads) (ends : ¬ term.EndsWithWord)
    (grouped : value.Grouped) {constantName variableName : SourceWord}
    (constantNamed : constantName.kind = .ident) (variableNamed : variableName.kind = .ident)
    {constantSource variableSource : List Char}
    (constantSpells : Spells constantSource (term.typedConstantWords constantName value))
    (variableSpells : Spells variableSource (term.variableWords variableName))
    (options : ParseOptions) :
    ((parse options constantSource).errors = [] ∧ (parse options variableSource).errors = []) ∧
      (parse options constantSource).tree.skeleton =
        typedConstantTree constantName term.skeleton value.skeleton ∧
      (parse options variableSource).tree.skeleton = variableTree variableName term.skeleton := by
  obtain ⟨constantSilent, constant⟩ :=
    parse_typedConstant reads ends grouped constantNamed constantSpells options
  obtain ⟨variableSilent, plain⟩ := parse_variable reads variableNamed variableSpells options
  exact ⟨⟨constantSilent, variableSilent⟩, constant, plain⟩

/-- A pointer is the result of a procedure type in front of a value. -/
theorem parse_constant_alike_pointer :
    ((parse {} "x : [] () -> *A : 5;".toList).errors = [] ∧
      (parse {} "x : [] () -> *A;".toList).errors = []) ∧
      ∃ type value : Skeleton,
        (parse {} "x : [] () -> *A : 5;".toList).tree.skeleton =
          typedConstantTree ⟨.ident, "x"⟩ type value ∧
        (parse {} "x : [] () -> *A;".toList).tree.skeleton = variableTree ⟨.ident, "x"⟩ type := by
  have constantSpells : Spells "x : [] () -> *A : 5;".toList
      [⟨.ident, "x"⟩, .fixed .colon, .fixed .lBracket, .fixed .rBracket, .fixed .lParen,
        .fixed .rParen, .fixed .arrow, .fixed .star, ⟨.ident, "A"⟩, .fixed .colon, ⟨.int, "5"⟩,
        .fixed .semicolon] := ⟨by decide +kernel, by decide +kernel⟩
  have variableSpells : Spells "x : [] () -> *A;".toList
      [⟨.ident, "x"⟩, .fixed .colon, .fixed .lBracket, .fixed .rBracket, .fixed .lParen,
        .fixed .rParen, .fixed .arrow, .fixed .star, ⟨.ident, "A"⟩, .fixed .semicolon] :=
    ⟨by decide +kernel, by decide +kernel⟩
  let target : Name := ⟨'A', [], by decide, List.forall_mem_nil _, by decide⟩
  let value : Numeral := ⟨'5', [], by decide, by decide, ⟨_, rfl⟩⟩
  let term : TypeTerm := .array .slice (.procedure .none (.pointer (.path (.name target))))
  have reads : term.Reads := ⟨trivial, trivial⟩
  have ends : ¬ term.EndsWithWord := fun word => word.elim id id
  have grouped : (Term.numeral value).Grouped := trivial
  obtain ⟨silent, trees⟩ :=
    parse_constant_alike reads ends grouped rfl rfl constantSpells variableSpells {}
  exact ⟨silent, _, _, trees⟩

/-- A single word in front of the colon is taken for the name of a result, even if no result can have
this name. -/
theorem parse_constant_refuses_word :
    (parse {} "x : () -> int;".toList).errors.isEmpty = true ∧
      (parse {} "x : () -> int : 5;".toList).errors.isEmpty = false := by
  decide +kernel

end TypeTerm

end JaiSyntax
