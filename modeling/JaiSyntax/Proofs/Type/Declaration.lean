import JaiSyntax.Proofs.Reading.Declaration
import JaiSyntax.Proofs.Type.Reinterpretation
import JaiSyntax.Proofs.Type.Value
/-!
Declarations with types. A type is written behind a colon, behind a double colon as a value, or in front
of a literal; where the grammar reads it as a value first, it has to come out as the same type.
-/

set_option autoImplicit false

namespace JaiSyntax

open Production

namespace TypeTerm

variable {term : TypeTerm} {name : SourceWord} {source : List Char}

/-! ### Behind a colon -/

def variableWords (name : SourceWord) (term : TypeTerm) : List SourceWord :=
  name :: .fixed .colon :: (term.words ++ [.fixed .semicolon])

def variableTree (name : SourceWord) (type : Skeleton) : Skeleton :=
  .branch none .sourceFile
    [.branch none .variableDeclaration
      [name.leaf (some .name), (SourceWord.fixed .colon).leaf none, type.withField (some .type)],
      (SourceWord.fixed .semicolon).leaf none]

theorem ends_semicolon (context : Context) : TypeEnds context [.fixed .semicolon] :=
  .of_closer (List.forall_mem_singleton.mpr TokenKind.noConfusion) (by decide)

/-- A type is parsed back from its words behind a colon. -/
theorem parse_variable (reads : term.Reads) (named : name.kind = .ident)
    (spells : Spells source (term.variableWords name)) (options : ParseOptions) :
    (parse options source).errors = [] ∧
      (parse options source).tree.skeleton = variableTree name term.skeleton := by
  have whole : Spells source (name :: ((.fixed .colon :: term.words) ++ [.fixed .semicolon])) :=
    spells
  refine whole.parse_declaration named List.mem_cons_self (Or.inl rfl) options
    (fun depth deep => ?_)
  rw [List.length_cons] at deep
  obtain ⟨shallower, rfl⟩ : ∃ shallower, depth = shallower + 1 := ⟨depth - 1, by omega⟩
  have read := (term.isRead options.resyncOnDeclaration).1 reads shallower (by omega)
  obtain ⟨first, more, words, starts⟩ := term.words_eq
  have starting : SourceWord.kindAt (term.words ++ [.fixed .semicolon]) 0 ∉
      [TokenKind.eof, .eq, .colon] := by
    rw [words]
    exact starts.kind_ne (by decide)
  obtain ⟨-, noEquals, noColon⟩ : SourceWord.kindAt (term.words ++ [.fixed .semicolon]) 0 ≠ .eof ∧
      SourceWord.kindAt (term.words ++ [.fixed .semicolon]) 0 ≠ .eq ∧
      SourceWord.kindAt (term.words ++ [.fixed .semicolon]) 0 ≠ .colon := by
    simpa using starting
  refine takes_typedTail noColon (typedDefinition_takes_type ⟨noEquals, noColon⟩
    ⟨TokenKind.noConfusion, TokenKind.noConfusion⟩ ?_)
  exact takes_seq (read.type (ends_semicolon _) _) (takes_tag .type _ _ _)

/-! ### Behind a double colon -/

def constantWords (name : SourceWord) (term : TypeTerm) : List SourceWord :=
  name :: .fixed .colonColon :: (term.words ++ [.fixed .semicolon])

def constantTree (name : SourceWord) (value : Skeleton) : Skeleton :=
  .branch none .sourceFile
    [.branch none .constDeclaration
      [name.leaf (some .name), (SourceWord.fixed .colonColon).leaf none,
        value.withField (some .value)],
      (SourceWord.fixed .semicolon).leaf none]

/-- A procedure type is parsed as the value of a constant. -/
theorem parse_constant {parameters : TypeTerms} {result : TypeTerm}
    (reads : (TypeTerm.procedure parameters result).ReadsAsValue) (named : name.kind = .ident)
    (spells : Spells source ((TypeTerm.procedure parameters result).constantWords name))
    (options : ParseOptions) :
    (parse options source).errors = [] ∧
      (parse options source).tree.skeleton =
        constantTree name (TypeTerm.procedure parameters result).asValue := by
  have whole : Spells source (name :: ((.fixed .colonColon ::
      (TypeTerm.procedure parameters result).words) ++ [.fixed .semicolon])) := spells
  have colons : TokenKind.colonColon ∈ [TokenKind.colon, .colonColon] := by decide
  refine whole.parse_declaration named colons (Or.inr rfl) options (fun depth deep => ?_)
  rw [List.length_cons] at deep
  obtain ⟨shallower, rfl⟩ : ∃ shallower, depth = shallower + 1 := ⟨depth - 1, by omega⟩
  have read := ((TypeTerm.procedure parameters result).isRead options.resyncOnDeclaration).2 reads
    shallower (by omega)
  have paren : TokenKind.lParen ∉ [TokenKind.ident, .directive] := by decide
  have closer : TokenKind.semicolon ∈ closerKinds := by decide
  have different : NodeKind.procedureType ≠ .procedure := by decide
  exact takes_constantTail paren TokenKind.noConfusion (fun same => different (Option.some.inj same))
    (read.expression (ends_semicolon _) closer _)

/-! ### In front of a literal -/

def IsNamed : TypeTerm → Prop
  | .path _ => True
  | .applied _ _ => True
  | _ => False

theorem IsNamed.chains {resync : Bool} {depth : Nat} (named : term.IsNamed)
    (reads : term.ReadsAsValue) (deep : 2 * term.words.length ≤ depth) :
    SourceWord.kindAt term.words 0 ≠ .star ∧ term.ChainsAsValue resync depth := by
  match term, named with
  | .path plain, _ =>
      have start := kindAt_path plain []
      rw [List.append_nil] at start
      exact ⟨start ▸ TokenKind.noConfusion, chainsAsValue_path plain⟩
  | .applied function arguments, _ =>
      have start : SourceWord.kindAt (TypeTerm.applied function arguments).words 0 = .ident :=
        kindAt_path function _
      rw [TypeTerm.words, List.length_append, List.length_cons, List.length_append] at deep
      exact ⟨start ▸ TokenKind.noConfusion,
        chainsAsValue_applied function ((arguments.areRead resync).2 reads depth (by omega))⟩

def emptyLiteral (type : Skeleton) : Skeleton :=
  .branch none .structLiteral
    [type.withField (some .type), (SourceWord.fixed .dot).leaf none,
      (SourceWord.fixed .lBrace).leaf none, (SourceWord.fixed .rBrace).leaf none]

/-- The words of a named type and of an empty literal after it are read as a whole expression. -/
theorem IsNamed.takes_literal {resync : Bool} {depth : Nat} {context : Context}
    (isNamed : term.IsNamed) (reads : term.ReadsAsValue) (deep : 2 * term.words.length ≤ depth)
    (built : List Skeleton) :
    Production.expression.Takes resync (readEntry resync (depth + 1)) context
      ⟨term.words ++ [.fixed .dot, .fixed .lBrace, .fixed .rBrace, .fixed .semicolon], built⟩ ()
      ⟨[.fixed .semicolon], emptyLiteral term.asValue.reinterpreted :: built⟩ := by
  obtain ⟨plain, chains⟩ : SourceWord.kindAt term.words 0 ≠ .star ∧ term.ChainsAsValue resync depth :=
    isNamed.chains reads deep
  have quiet : Quiet [.fixed .dot, .fixed .lBrace, .fixed .rBrace, .fixed .semicolon] :=
    .cons ⟨TokenKind.noConfusion, TokenKind.noConfusion⟩ (by decide)
  have closing : Quiet [.fixed .semicolon] :=
    .cons ⟨TokenKind.noConfusion, TokenKind.noConfusion⟩ (List.forall_mem_nil _)
  have closer : TokenKind.semicolon ∈ closerKinds := by decide
  have follows : Follows [.fixed .semicolon] Prec.assignment := .of_closer closing closer
  have chained (inner : Context) : postfixChain.Takes resync (readEntry resync depth) inner _ .isOpen
      ⟨[.fixed .semicolon], [emptyLiteral term.asValue.reinterpreted]⟩ :=
    chains inner _ _ quiet (loops_step takes_structLiteral (by simp)
      (loops_stop (skips_postfixOperator follows)))
  have climbed (inner : Context) : (climb Prec.assignment).Takes resync (readEntry resync depth)
      inner _ () ⟨[.fixed .semicolon], [emptyLiteral term.asValue.reinterpreted]⟩ :=
    takes_climb (unaryExpression_takes_type plain (takes_marked (chained inner)))
      (loops_stop (skips_binaryOperatorStep follows))
  exact takes_within _ (takes_entry (.expression Prec.assignment) (takes_marked (climbed _)))

def literalWords (name : SourceWord) (term : TypeTerm) : List SourceWord :=
  name :: .fixed .colon :: .fixed .eq ::
    (term.words ++ [.fixed .dot, .fixed .lBrace, .fixed .rBrace, .fixed .semicolon])

def literalTree (name : SourceWord) (type : Skeleton) : Skeleton :=
  .branch none .sourceFile
    [.branch none .variableDeclaration
      [name.leaf (some .name), (SourceWord.fixed .colon).leaf none, (SourceWord.fixed .eq).leaf none,
        (emptyLiteral type).withField (some .value)],
      (SourceWord.fixed .semicolon).leaf none]

/-- The name in front of a literal is parsed as a value, and then read as a type. -/
theorem parse_literal (isNamed : term.IsNamed) (reads : term.ReadsAsValue)
    (named : name.kind = .ident) (spells : Spells source (term.literalWords name))
    (options : ParseOptions) :
    (parse options source).errors = [] ∧
      (parse options source).tree.skeleton = literalTree name term.asValue.reinterpreted := by
  have same : term.literalWords name = name :: ((.fixed .colon :: .fixed .eq ::
      (term.words ++ [.fixed .dot, .fixed .lBrace, .fixed .rBrace])) ++ [.fixed .semicolon]) := by
    simp [literalWords]
  rw [same] at spells
  refine spells.parse_declaration named List.mem_cons_self (Or.inl rfl) options
    (fun depth deep => ?_)
  rw [List.length_cons, List.length_cons, List.length_append] at deep
  obtain ⟨shallower, rfl⟩ : ∃ shallower, depth = shallower + 1 := ⟨depth - 1, by omega⟩
  have shallow : 2 * term.words.length ≤ shallower := by omega
  rw [List.cons_append, List.cons_append, List.append_assoc]
  exact takes_typedTail TokenKind.noConfusion (typedDefinition_takes_value
    (takes_commaSeparated (takes_seq (isNamed.takes_literal reads shallow _)
      (takes_tag .value _ _ _)) TokenKind.noConfusion))

/-! ### The same type in two places -/

/-- A procedure type that is read in the place of a value is the same tree there as behind a colon.
It is read there if it has no parameter, a single one that is read as a value, or several of which the
first is a single name. -/
theorem parse_procedure_alike {parameters : TypeTerms} {result : TypeTerm}
    (plain : (TypeTerm.procedure parameters result).IsPlain)
    (reads : (TypeTerm.procedure parameters result).ReadsAsValue) {valueName typeName : SourceWord}
    (valueNamed : valueName.kind = .ident) (typeNamed : typeName.kind = .ident)
    {valueSource typeSource : List Char}
    (valueSpells : Spells valueSource
      ((TypeTerm.procedure parameters result).constantWords valueName))
    (typeSpells : Spells typeSource
      ((TypeTerm.procedure parameters result).variableWords typeName)) (options : ParseOptions) :
    ((parse options valueSource).errors = [] ∧ (parse options typeSource).errors = []) ∧
      (parse options valueSource).tree.skeleton =
        constantTree valueName (TypeTerm.procedure parameters result).skeleton ∧
      (parse options typeSource).tree.skeleton =
        variableTree typeName (TypeTerm.procedure parameters result).skeleton := by
  obtain ⟨valueSilent, valued⟩ := parse_constant reads valueNamed valueSpells options
  obtain ⟨typeSilent, typed⟩ := parse_variable plain.reads typeNamed typeSpells options
  have alike : (TypeTerm.procedure parameters result).asValue =
      (TypeTerm.procedure parameters result).skeleton := by
    rw [TypeTerm.asValue, TypeTerm.skeleton, parameters.asValues_iff.mpr plain.1.alike]
  exact ⟨⟨valueSilent, typeSilent⟩, alike ▸ valued, typed⟩

/-- A single parameter that is a pointer is the address of a value at first. -/
theorem parse_pointer_parameter_alike :
    ((parse {} "F :: (*A) -> B;".toList).errors = [] ∧
      (parse {} "x : (*A) -> B;".toList).errors = []) ∧
      ∃ type : Skeleton,
        (parse {} "F :: (*A) -> B;".toList).tree.skeleton = constantTree ⟨.ident, "F"⟩ type ∧
        (parse {} "x : (*A) -> B;".toList).tree.skeleton = variableTree ⟨.ident, "x"⟩ type := by
  have valueSpells : Spells "F :: (*A) -> B;".toList
      [⟨.ident, "F"⟩, .fixed .colonColon, .fixed .lParen, .fixed .star, ⟨.ident, "A"⟩, .fixed .rParen,
        .fixed .arrow, ⟨.ident, "B"⟩, .fixed .semicolon] := ⟨by decide +kernel, by decide +kernel⟩
  have typeSpells : Spells "x : (*A) -> B;".toList
      [⟨.ident, "x"⟩, .fixed .colon, .fixed .lParen, .fixed .star, ⟨.ident, "A"⟩, .fixed .rParen,
        .fixed .arrow, ⟨.ident, "B"⟩, .fixed .semicolon] := ⟨by decide +kernel, by decide +kernel⟩
  let parameter : Name := ⟨'A', [], by decide, List.forall_mem_nil _, by decide⟩
  let result : Name := ⟨'B', [], by decide, List.forall_mem_nil _, by decide⟩
  have plain : (TypeTerm.procedure (.cons (.pointer (.path (.name parameter))) .none)
      (.path (.name result))).IsPlain := ⟨⟨trivial, trivial⟩, trivial⟩
  obtain ⟨silent, trees⟩ :=
    parse_procedure_alike plain ⟨trivial, trivial⟩ rfl rfl valueSpells typeSpells {}
  exact ⟨silent, _, trees⟩

/-- In the place of a value no list of parameters may start with a pointer. -/
theorem parse_refuses_pointer_first :
    (parse {} "x : (*A, B) -> C;".toList).errors.isEmpty = true ∧
      (parse {} "F :: (*A, B) -> C;".toList).errors.isEmpty = false := by
  decide +kernel

/-! ### Literals of a type -/

theorem literalTree_inj {first second : Skeleton} :
    literalTree name first = literalTree name second ↔
      first.withField (some .type) = second.withField (some .type) := by
  simp [literalTree, emptyLiteral, Skeleton.withField]

theorem variableTree_inj {first second : Skeleton} :
    variableTree name first = variableTree name second ↔
      first.withField (some .type) = second.withField (some .type) := by
  simp [variableTree]

/-- The two trees of a type are those of one tree just if the type reads alike. -/
theorem trees_alike_iff {other : SourceWord} :
    (∃ type : Skeleton,
      literalTree name term.asValue.reinterpreted = literalTree name type ∧
      variableTree other term.skeleton = variableTree other type) ↔ term.ReadsAlike := by
  have alike := term.reinterpretAs_iff (some .type)
  have literal : term.asValue.reinterpreted.withField (some .type) =
      term.asValue.reinterpretAs (some .type) := by
    rw [term.asValue_isNode.reinterpreted, Skeleton.withField_reinterpretAs]
  simp only [literalTree_inj, variableTree_inj, literal, ← alike]
  constructor
  · rintro ⟨type, first, second⟩
    exact first.trans second.symm
  · intro same
    exact ⟨term.skeleton, same, rfl⟩

/-- A named type without procedure types is the same tree in front of a literal as behind a colon just
if there is no pointer among its arguments; both are read without an error in any case. -/
theorem parse_literal_alike_iff (isNamed : term.IsNamed) (data : term.IsData)
    {literalName typeName : SourceWord} (literalNamed : literalName.kind = .ident)
    (typeNamed : typeName.kind = .ident) {literalSource typeSource : List Char}
    (literalSpells : Spells literalSource (term.literalWords literalName))
    (typeSpells : Spells typeSource (term.variableWords typeName)) (options : ParseOptions) :
    ((parse options literalSource).errors = [] ∧ (parse options typeSource).errors = []) ∧
      ((∃ type : Skeleton,
        (parse options literalSource).tree.skeleton = literalTree literalName type ∧
        (parse options typeSource).tree.skeleton = variableTree typeName type) ↔
          term.ReadsAlike) := by
  obtain ⟨typed, valued⟩ := data.reads
  obtain ⟨literalSilent, literal⟩ := parse_literal isNamed valued literalNamed literalSpells options
  obtain ⟨typeSilent, variableRead⟩ := parse_variable typed typeNamed typeSpells options
  refine ⟨⟨literalSilent, typeSilent⟩, ?_⟩
  rw [literal, variableRead]
  exact trees_alike_iff

/-- An array among the arguments of a type is an array in both places. -/
theorem parse_array_argument_alike :
    ((parse {} "v := A.B([]C).{};".toList).errors = [] ∧
      (parse {} "v : A.B([]C);".toList).errors = []) ∧
      ∃ type : Skeleton,
        (parse {} "v := A.B([]C).{};".toList).tree.skeleton = literalTree ⟨.ident, "v"⟩ type ∧
        (parse {} "v : A.B([]C);".toList).tree.skeleton = variableTree ⟨.ident, "v"⟩ type := by
  have literalSpells : Spells "v := A.B([]C).{};".toList
      [⟨.ident, "v"⟩, .fixed .colon, .fixed .eq, ⟨.ident, "A"⟩, .fixed .dot, ⟨.ident, "B"⟩,
        .fixed .lParen, .fixed .lBracket, .fixed .rBracket, ⟨.ident, "C"⟩, .fixed .rParen,
        .fixed .dot, .fixed .lBrace, .fixed .rBrace, .fixed .semicolon] :=
    ⟨by decide +kernel, by decide +kernel⟩
  have typeSpells : Spells "v : A.B([]C);".toList
      [⟨.ident, "v"⟩, .fixed .colon, ⟨.ident, "A"⟩, .fixed .dot, ⟨.ident, "B"⟩, .fixed .lParen,
        .fixed .lBracket, .fixed .rBracket, ⟨.ident, "C"⟩, .fixed .rParen, .fixed .semicolon] :=
    ⟨by decide +kernel, by decide +kernel⟩
  let object : Name := ⟨'A', [], by decide, List.forall_mem_nil _, by decide⟩
  let member : Name := ⟨'B', [], by decide, List.forall_mem_nil _, by decide⟩
  let element : Name := ⟨'C', [], by decide, List.forall_mem_nil _, by decide⟩
  let term : TypeTerm := .applied (.member (.name object) member)
    (.type (.array .slice (.path (.name element))) .none)
  have named : term.IsNamed := trivial
  have data : term.IsData := ⟨trivial, trivial⟩
  obtain ⟨silent, trees⟩ := parse_literal_alike_iff named data rfl rfl literalSpells typeSpells {}
  exact ⟨silent, trees.mpr (fun pointer => pointer.elim id id)⟩

/-- A pointer among the arguments of a type stays an address in front of a literal. -/
theorem parse_literal_keeps_address :
    ((parse {} "v := A(*B).{};".toList).errors = [] ∧
      (parse {} "v : A(*B);".toList).errors = []) ∧
      ¬ ∃ type : Skeleton,
        (parse {} "v := A(*B).{};".toList).tree.skeleton = literalTree ⟨.ident, "v"⟩ type ∧
        (parse {} "v : A(*B);".toList).tree.skeleton = variableTree ⟨.ident, "v"⟩ type := by
  have literalSpells : Spells "v := A(*B).{};".toList
      [⟨.ident, "v"⟩, .fixed .colon, .fixed .eq, ⟨.ident, "A"⟩, .fixed .lParen, .fixed .star,
        ⟨.ident, "B"⟩, .fixed .rParen, .fixed .dot, .fixed .lBrace, .fixed .rBrace,
        .fixed .semicolon] := ⟨by decide +kernel, by decide +kernel⟩
  have typeSpells : Spells "v : A(*B);".toList
      [⟨.ident, "v"⟩, .fixed .colon, ⟨.ident, "A"⟩, .fixed .lParen, .fixed .star, ⟨.ident, "B"⟩,
        .fixed .rParen, .fixed .semicolon] := ⟨by decide +kernel, by decide +kernel⟩
  let name : Name := ⟨'A', [], by decide, List.forall_mem_nil _, by decide⟩
  let target : Name := ⟨'B', [], by decide, List.forall_mem_nil _, by decide⟩
  let term : TypeTerm := .applied (.name name) (.type (.pointer (.path (.name target))) .none)
  have named : term.IsNamed := trivial
  have data : term.IsData := ⟨trivial, trivial⟩
  obtain ⟨literalSilent, literal⟩ := parse_literal named data.reads.2 rfl literalSpells {}
  obtain ⟨typeSilent, typed⟩ := parse_variable data.reads.1 rfl typeSpells {}
  have pointer : ¬ term.ReadsAlike := not_not_intro (Or.inl trivial)
  rw [literal, typed]
  exact ⟨⟨literalSilent, typeSilent⟩, fun alike => pointer (trees_alike_iff.mp alike)⟩

end TypeTerm

end JaiSyntax
