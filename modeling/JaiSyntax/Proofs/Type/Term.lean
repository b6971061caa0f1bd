import JaiSyntax.Proofs.Expression.Term
/-!
Types as they are before they are written. In the place of a type the words of one stand for a tree of
types; in the place of a value the same words are read as an expression first, and a parameter list or a
literal after them turns that into types again.
-/

set_option autoImplicit false

namespace JaiSyntax

abbrev Builtin := { text : String // text ∈ builtinTypes }

def Builtin.word (builtin : Builtin) : SourceWord := ⟨.ident, builtin.1⟩

inductive Path where
  | name (name : Name)
  | member (object : Path) (member : Name)

def Path.term : Path → Term
  | .name plain => .name plain
  | .member object last => .member object.term last

def Path.words (path : Path) : List SourceWord := path.term.words

def Path.skeleton : Path → Skeleton
  | .name plain => (Term.name plain).skeleton
  | .member object last =>
      .branch none .qualifiedType
        [object.skeleton.withField (some .object), (SourceWord.fixed .dot).leaf none,
          last.word.leaf (some .member)]

inductive ArraySize where
  | slice
  | resizable
  | fixed (length : Numeral)

namespace ArraySize

def words : ArraySize → List SourceWord
  | .slice => []
  | .resizable => [.fixed .dotDot]
  | .fixed length => [length.word]

def skeletons : ArraySize → List Skeleton
  | .slice => []
  | .resizable => [(SourceWord.fixed .dotDot).leaf none]
  | .fixed length => [(Term.numeral length).skeleton.withField (some .size)]

end ArraySize

mutual

inductive TypeTerm where
  | builtin (builtin : Builtin)
  | path (path : Path)
  | applied (path : Path) (arguments : TypeArguments)
  | pointer (target : TypeTerm)
  | array (size : ArraySize) (element : TypeTerm)
  | polymorphic (name : Name)
  | procedure (parameters : TypeTerms) (result : TypeTerm)

inductive TypeTerms where
  | none
  | cons (first : TypeTerm) (rest : TypeTerms)

inductive TypeArguments where
  | none
  | integer (value : Numeral) (rest : TypeArguments)
  | type (argument : TypeTerm) (rest : TypeArguments)

end

def TypeTerms.separator : TypeTerms → List SourceWord
  | .none => []
  | _ => [.fixed .comma]

def TypeArguments.separator : TypeArguments → List SourceWord
  | .none => []
  | _ => [.fixed .comma]

mutual

def TypeTerm.words : TypeTerm → List SourceWord
  | .builtin builtin => [builtin.word]
  | .path path => path.words
  | .applied path arguments =>
      path.words ++ .fixed .lParen :: (arguments.words ++ [.fixed .rParen])
  | .pointer target => .fixed .star :: target.words
  | .array size element =>
      .fixed .lBracket :: (size.words ++ .fixed .rBracket :: element.words)
  | .polymorphic name => [.fixed .dollar, name.word]
  | .procedure parameters result =>
      .fixed .lParen :: (parameters.words ++ .fixed .rParen :: .fixed .arrow :: result.words)

def TypeTerms.words : TypeTerms → List SourceWord
  | .none => []
  | .cons first rest => first.words ++ (rest.separator ++ rest.words)

def TypeArguments.words : TypeArguments → List SourceWord
  | .none => []
  | .integer value rest => value.word :: (rest.separator ++ rest.words)
  | .type argument rest => argument.words ++ (rest.separator ++ rest.words)

end

namespace TypeTerm

def IsPointer : TypeTerm → Prop
  | .pointer _ => True
  | _ => False

instance : DecidablePred IsPointer := fun type => by
  cases type <;> unfold IsPointer <;> infer_instance

/-- Whether a type is a single name, or a type variable. -/
def IsName : TypeTerm → Prop
  | .builtin _ => True
  | .path (.name _) => True
  | .polymorphic _ => True
  | _ => False

def IsWord : TypeTerm → Prop
  | .builtin _ => True
  | .path (.name _) => True
  | _ => False

def arraySkeleton (size : ArraySize) (element : Skeleton) : Skeleton :=
  .branch none .arrayType ((SourceWord.fixed .lBracket).leaf none ::
    (size.skeletons ++ [(SourceWord.fixed .rBracket).leaf none, element.withField (some .element)]))

end TypeTerm

mutual

def TypeTerm.skeleton : TypeTerm → Skeleton
  | .builtin builtin => .branch none .builtinType [builtin.word.leaf none]
  | .path path => path.skeleton
  | .applied path arguments =>
      .branch none .parameterizedStructType
        (path.skeleton.withField (some .type) :: (SourceWord.fixed .lParen).leaf none ::
          (arguments.skeletons ++ [(SourceWord.fixed .rParen).leaf none]))
  | .pointer target =>
      .branch none .pointerType [(SourceWord.fixed .star).leaf none, target.skeleton]
  | .array size element => TypeTerm.arraySkeleton size element.skeleton
  | .polymorphic name =>
      .branch none .polymorphicType
        [(SourceWord.fixed .dollar).leaf none, name.word.leaf (some .name)]
  | .procedure parameters result =>
      .branch none .procedureType ((SourceWord.fixed .lParen).leaf none ::
        (parameters.skeletons ++ [(SourceWord.fixed .rParen).leaf none,
          (SourceWord.fixed .arrow).leaf none, result.skeleton.withField (some .result)]))

/-- The tree of a type in the place of a value. -/
def TypeTerm.asValue : TypeTerm → Skeleton
  | .builtin builtin => .branch none .builtinType [builtin.word.leaf none]
  | .path path => path.term.skeleton
  | .applied path arguments =>
      .branch none .callExpression
        (path.term.skeleton.withField (some .function) :: (SourceWord.fixed .lParen).leaf none ::
          (arguments.asValues ++ [(SourceWord.fixed .rParen).leaf none]))
  | .pointer target =>
      .branch none .address [(SourceWord.fixed .star).leaf none, target.asValue]
  | .array size element => TypeTerm.arraySkeleton size element.skeleton
  | .polymorphic name =>
      .branch none .polymorphicType
        [(SourceWord.fixed .dollar).leaf none, name.word.leaf (some .name)]
  | .procedure parameters result =>
      .branch none .procedureType ((SourceWord.fixed .lParen).leaf none ::
        (parameters.asValues ++ [(SourceWord.fixed .rParen).leaf none,
          (SourceWord.fixed .arrow).leaf none, result.skeleton.withField (some .result)]))

def TypeTerms.skeletons : TypeTerms → List Skeleton
  | .none => []
  | .cons first rest =>
      first.skeleton.withField (some .parameters) ::
        (rest.separator.map (SourceWord.leaf · none) ++ rest.skeletons)

/-- A single parameter is read as a value in parentheses. -/
def TypeTerms.asValues : TypeTerms → List Skeleton
  | .none => []
  | .cons first .none => [first.asValue.asParameter]
  | .cons first rest =>
      first.skeleton.withField (some .parameters) ::
        (rest.separator.map (SourceWord.leaf · none) ++ rest.skeletons)

/-- An argument is read as a type only where it starts as no value does. -/
def TypeArguments.skeletons : TypeArguments → List Skeleton
  | .none => []
  | .integer value rest =>
      (Term.numeral value).skeleton.withField (some .argument) ::
        (rest.separator.map (SourceWord.leaf · none) ++ rest.skeletons)
  | .type argument rest =>
      (if argument.IsPointer then argument.skeleton else argument.asValue).withField
          (some .argument) ::
        (rest.separator.map (SourceWord.leaf · none) ++ rest.skeletons)

def TypeArguments.asValues : TypeArguments → List Skeleton
  | .none => []
  | .integer value rest =>
      (Term.numeral value).skeleton.withField (some .argument) ::
        (rest.separator.map (SourceWord.leaf · none) ++ rest.asValues)
  | .type argument rest =>
      argument.asValue.withField (some .argument) ::
        (rest.separator.map (SourceWord.leaf · none) ++ rest.asValues)

end

/-! ### Types that are read without an error -/

mutual

/-- Whether a type is read in the place of a type. What is read as a value inside it must be readable
as one. -/
def TypeTerm.Reads : TypeTerm → Prop
  | .builtin _ => True
  | .path _ => True
  | .applied _ arguments => arguments.Reads
  | .pointer target => target.Reads
  | .array _ element => element.Reads
  | .polymorphic _ => True
  | .procedure parameters result => parameters.Reads ∧ result.Reads

/-- Whether a type is read in the place of a value. Several parameters are told from a value in
parentheses by the first of them, if it is a single name. -/
def TypeTerm.ReadsAsValue : TypeTerm → Prop
  | .builtin _ => True
  | .path _ => True
  | .applied _ arguments => arguments.ReadAsValues
  | .pointer target => target.ReadsAsValue
  | .array _ element => element.Reads
  | .polymorphic _ => True
  | .procedure parameters result => parameters.ReadAsValues ∧ result.Reads

def TypeTerms.Reads : TypeTerms → Prop
  | .none => True
  | .cons first rest => first.Reads ∧ rest.Reads

def TypeTerms.ReadAsValues : TypeTerms → Prop
  | .none => True
  | .cons first .none => first.ReadsAsValue
  | .cons first rest => first.IsName ∧ rest.Reads

def TypeArguments.Reads : TypeArguments → Prop
  | .none => True
  | .integer _ rest => rest.Reads
  | .type argument rest =>
      (if argument.IsPointer then argument.Reads else argument.ReadsAsValue) ∧ rest.Reads

def TypeArguments.ReadAsValues : TypeArguments → Prop
  | .none => True
  | .integer _ rest => rest.ReadAsValues
  | .type argument rest => argument.ReadsAsValue ∧ rest.ReadAsValues

end

/-! ### Words -/

def typeKinds : List TokenKind :=
  [.ident, .int, .lParen, .rParen, .lBracket, .rBracket, .star, .dollar, .dot, .dotDot, .comma,
   .arrow]

theorem typeKinds_words : TokenKind.ident ∈ typeKinds ∧ TokenKind.int ∈ typeKinds := by
  decide

def OfTypes (words : List SourceWord) : Prop := ∀ word ∈ words, word.kind ∈ typeKinds

namespace OfTypes

variable {word : SourceWord} {words rest : List SourceWord}

theorem nil : OfTypes [] := List.forall_mem_nil _

theorem cons (first : word.kind ∈ typeKinds) (back : OfTypes rest) : OfTypes (word :: rest) :=
  List.forall_mem_cons.mpr ⟨first, back⟩

theorem append (front : OfTypes words) (back : OfTypes rest) : OfTypes (words ++ rest) :=
  List.forall_mem_append.mpr ⟨front, back⟩

theorem kindAt (known : OfTypes words) {distance : Nat} (within : distance < words.length) :
    SourceWord.kindAt (words ++ rest) distance ∈ typeKinds := by
  unfold SourceWord.kindAt
  rw [List.getElem?_append_left within, List.getElem?_eq_getElem within]
  exact known _ (List.getElem_mem within)

/-- No double arrow is in the words of types. -/
theorem noQuick (known : OfTypes words) : ∀ word ∈ words, word.kind ≠ .fatArrow := by
  have kinds : ∀ kind ∈ typeKinds, kind ≠ .fatArrow := by
    decide
  exact fun word member => kinds _ (known word member)

end OfTypes

def SourceWord.StartsType (word : SourceWord) : Prop :=
  (word.kind = .ident ∧ word.text ∉ "cast" :: "xx" :: statementWords) ∨
    word.kind ∈ [TokenKind.star, .lBracket, .lParen, .dollar]

/-- The kinds of the first words of types. -/
theorem SourceWord.StartsType.kind {word : SourceWord} (starts : word.StartsType) :
    word.kind ∈ [TokenKind.ident, .star, .lBracket, .lParen, .dollar] := by
  rcases starts with ⟨ident, -⟩ | other
  · rw [ident]
    exact List.mem_cons_self
  · exact List.mem_cons_of_mem _ other

theorem SourceWord.StartsType.kind_ne {word : SourceWord} (starts : word.StartsType)
    {kinds : List TokenKind}
    (apart : ∀ kind ∈ [TokenKind.ident, .star, .lBracket, .lParen, .dollar], kind ∉ kinds) :
    word.kind ∉ kinds :=
  apart _ starts.kind

theorem Name.startsType (name : Name) : name.word.StartsType := by
  have reserved : ∀ text ∈ "cast" :: "xx" :: statementWords, text ∈ reservedWords := by
    decide
  exact Or.inl ⟨rfl, fun member => name.free (reserved _ member)⟩

theorem Builtin.startsType (builtin : Builtin) : builtin.word.StartsType := by
  have plain : ∀ text ∈ builtinTypes, text ∉ "cast" :: "xx" :: statementWords := by
    decide
  exact Or.inl ⟨rfl, plain _ builtin.2⟩

/-- A path is a name, and a dot with what comes after it. -/
theorem Path.words_eq (path : Path) : ∃ (name : Name) (more : List SourceWord),
    path.words = name.word :: more ∧ OfTypes more ∧
      (more = [] ∨ ∃ tail, more = .fixed .dot :: tail) := by
  induction path with
  | name name => exact ⟨name, [], rfl, .nil, Or.inl rfl⟩
  | member object member ih =>
      obtain ⟨name, more, words, known, start⟩ := ih
      refine ⟨name, more ++ [.fixed .dot, member.word], ?_,
        known.append (.cons (by decide) (.cons typeKinds_words.1 .nil)), Or.inr ?_⟩
      · rw [Path.words] at words
        rw [Path.words, Path.term, Term.words, words, List.cons_append]
      · rcases start with rfl | ⟨tail, rfl⟩
        · exact ⟨_, rfl⟩
        · exact ⟨_, rfl⟩

theorem ArraySize.words_ofTypes (size : ArraySize) : OfTypes size.words := by
  cases size with
  | slice => exact .nil
  | resizable => exact .cons (by decide) .nil
  | fixed length => exact .cons typeKinds_words.2 .nil

/-- The first word of a type starts it. -/
theorem TypeTerm.words_eq (type : TypeTerm) : ∃ first more,
    type.words = first :: more ∧ first.StartsType := by
  have fixed {kind : TokenKind} (known : kind ∈ [TokenKind.star, .lBracket, .lParen, .dollar]) :
      (SourceWord.fixed kind).StartsType := Or.inr known
  cases type with
  | builtin builtin => exact ⟨_, [], rfl, builtin.startsType⟩
  | path path =>
      obtain ⟨name, more, words, -, -⟩ := path.words_eq
      exact ⟨_, more, words, name.startsType⟩
  | applied path arguments =>
      obtain ⟨name, more, words, -, -⟩ := path.words_eq
      exact ⟨_, _, by rw [TypeTerm.words, words, List.cons_append], name.startsType⟩
  | pointer target => exact ⟨_, _, rfl, fixed (by decide)⟩
  | array size element => exact ⟨_, _, rfl, fixed (by decide)⟩
  | polymorphic name => exact ⟨_, _, rfl, fixed (by decide)⟩
  | procedure parameters result => exact ⟨_, _, rfl, fixed (by decide)⟩

theorem TypeTerm.words_ne_nil (type : TypeTerm) : type.words ≠ [] := by
  obtain ⟨first, more, words, -⟩ := type.words_eq
  exact words ▸ List.cons_ne_nil first more

/-- Just a type variable starts with a dollar sign. -/
theorem TypeTerm.polymorphic_of {type : TypeTerm}
    (dollar : SourceWord.kindAt type.words 0 = .dollar) : ∃ name, type = .polymorphic name := by
  have ofPath (path : Path) (rest : List SourceWord)
      (dollar : SourceWord.kindAt (path.words ++ rest) 0 = .dollar) : False := by
    obtain ⟨name, more, words, -, -⟩ := path.words_eq
    rw [words] at dollar
    cases dollar
  cases type with
  | path path => exact (ofPath path [] (by rwa [List.append_nil])).elim
  | applied path arguments => exact (ofPath path _ dollar).elim
  | polymorphic name => exact ⟨name, rfl⟩
  | _ => cases dollar

/-- After a name at the start of a type, the type goes on unless it is just this word. -/
theorem TypeTerm.second_kind (type : TypeTerm) (rest : List SourceWord)
    (named : SourceWord.kindAt type.words 0 = .ident) :
    SourceWord.kindAt (type.words ++ rest) 1 ∈ [TokenKind.dot, .lParen] ∨
      type.IsWord ∧ SourceWord.kindAt (type.words ++ rest) 1 = SourceWord.kindAt rest 0 := by
  have ofPath (path : Path) (rest : List SourceWord) :
      SourceWord.kindAt (path.words ++ rest) 1 = .dot ∨
        (TypeTerm.path path).IsWord ∧
          SourceWord.kindAt (path.words ++ rest) 1 = SourceWord.kindAt rest 0 := by
    cases path with
    | name name => exact Or.inr ⟨trivial, rfl⟩
    | member object member =>
        obtain ⟨name, more, words, -, start⟩ := object.words_eq
        rw [Path.words] at words
        rw [Path.words, Path.term, Term.words, words]
        rcases start with rfl | ⟨tail, rfl⟩
        · exact Or.inl rfl
        · exact Or.inl rfl
  cases type with
  | builtin builtin => exact Or.inr ⟨trivial, rfl⟩
  | path path =>
      rcases ofPath path rest with dot | same
      · exact Or.inl (dot ▸ List.mem_cons_self)
      · exact Or.inr same
  | applied path arguments =>
      rw [TypeTerm.words, List.append_assoc]
      refine Or.inl ?_
      rcases ofPath path _ with dot | ⟨-, same⟩
      · exact dot ▸ List.mem_cons_self
      · rw [same]
        exact List.mem_cons_of_mem _ List.mem_cons_self
  | pointer target => cases named
  | array size element => cases named
  | polymorphic name => cases named
  | procedure parameters result => cases named

theorem TypeTerms.separator_ofTypes (types : TypeTerms) : OfTypes types.separator := by
  cases types with
  | none => exact .nil
  | cons first rest => exact .cons (by decide) .nil

theorem TypeArguments.separator_ofTypes (arguments : TypeArguments) :
    OfTypes arguments.separator := by
  cases arguments with
  | none => exact .nil
  | _ => exact .cons (by decide) .nil

mutual

theorem TypeTerm.words_ofTypes (type : TypeTerm) : OfTypes type.words := by
  have ofPath (path : Path) : OfTypes path.words := by
    obtain ⟨name, more, words, known, -⟩ := path.words_eq
    exact words ▸ .cons typeKinds_words.1 known
  cases type with
  | builtin builtin => exact .cons typeKinds_words.1 .nil
  | path path => exact ofPath path
  | applied path arguments =>
      exact (ofPath path).append (.cons (by decide)
        (arguments.words_ofTypes.append (.cons (by decide) .nil)))
  | pointer target => exact .cons (by decide) target.words_ofTypes
  | array size element =>
      exact .cons (by decide)
        (size.words_ofTypes.append (.cons (by decide) element.words_ofTypes))
  | polymorphic name => exact .cons (by decide) (.cons typeKinds_words.1 .nil)
  | procedure parameters result =>
      exact .cons (by decide) (parameters.words_ofTypes.append
        (.cons (by decide) (.cons (by decide) result.words_ofTypes)))

theorem TypeTerms.words_ofTypes (types : TypeTerms) : OfTypes types.words := by
  cases types with
  | none => exact .nil
  | cons first rest =>
      exact first.words_ofTypes.append (rest.separator_ofTypes.append rest.words_ofTypes)

theorem TypeArguments.words_ofTypes (arguments : TypeArguments) : OfTypes arguments.words := by
  cases arguments with
  | none => exact .nil
  | integer value rest =>
      exact .cons typeKinds_words.2 (rest.separator_ofTypes.append rest.words_ofTypes)
  | type argument rest =>
      exact argument.words_ofTypes.append (rest.separator_ofTypes.append rest.words_ofTypes)

end

/-- Just a procedure type starts with a parenthesis, and its words go on after it. -/
theorem TypeTerm.long_of_paren (type : TypeTerm)
    (paren : SourceWord.kindAt type.words 0 = .lParen) : 2 < type.words.length := by
  have ofPath (path : Path) (rest : List SourceWord)
      (paren : SourceWord.kindAt (path.words ++ rest) 0 = .lParen) : False := by
    obtain ⟨name, more, words, -, -⟩ := path.words_eq
    rw [words] at paren
    cases paren
  cases type with
  | path path => exact (ofPath path [] (by rwa [List.append_nil])).elim
  | applied path arguments => exact (ofPath path _ paren).elim
  | procedure parameters result =>
      simp only [TypeTerm.words, List.length_cons, List.length_append]
      omega
  | _ => cases paren

end JaiSyntax
