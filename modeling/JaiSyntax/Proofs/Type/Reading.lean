import JaiSyntax.Proofs.Type.Production
/-!
Types are read back, in the place of a type and in the place of a value. The two readings contain each
other: an array is read as a type wherever it stands, and most arguments of a type as values.
-/

set_option autoImplicit false

namespace JaiSyntax

open Production

/-! ### Views of types -/

namespace View.Sees

variable {view : View} {context : Context} {type : TypeTerm} {word opening : SourceWord}
  {rest words : List SourceWord} {built : List Skeleton}

theorem isNotUsing (sees : view.Sees context ⟨word :: rest, built⟩) (starts : word.StartsType) :
    view.isWordAt 0 "using" = false := by
  rw [View.isWordAt, sees.kinds 0, sees.texts 0 word rfl]
  rcases starts with ⟨-, free⟩ | other
  · have different : word.text ≠ "using" := fun same => free (same ▸ by decide)
    rw [beq_false_of_ne different, Bool.and_false]
  · have noIdent : word.kind ≠ .ident := by
      intro ident
      rw [ident] at other
      exact absurd other (by decide)
    rw [SourceWord.kindAt_cons_zero, beq_false_of_ne noIdent, Bool.false_and]

/-- A type is no parameter with a name. -/
theorem isAtParameter_type (sees : view.Sees context ⟨type.words ++ rest, built⟩)
    (ends : SourceWord.kindAt rest 0 ≠ .colon) : view.isAtParameter = false := by
  obtain ⟨first, more, words, starts⟩ := type.words_eq
  have kinds (distance : Nat) :
      view.kindAt distance = SourceWord.kindAt (type.words ++ rest) distance := sees.kinds distance
  have noUsing : view.isWordAt 0 "using" = false := by
    rw [words, List.cons_append] at sees
    exact sees.isNotUsing starts
  have start : view.kindAt 0 = first.kind := by
    rw [kinds, words]
    rfl
  simp only [View.isAtParameter, noUsing, Bool.false_eq_true, if_false, Nat.zero_add]
  -- Only a type variable starts with dollar signs.
  by_cases dollar : first.kind = .dollar
  · obtain ⟨name, rfl⟩ := TypeTerm.polymorphic_of (by rw [words]; exact dollar)
    have one : view.dollarsFrom 0 = 1 := by
      change ([0, 1, 2].takeWhile (fun place => view.kindAt place == .dollar)).length = 1
      simp only [kinds]
      rfl
    have second : view.kindAt 2 = SourceWord.kindAt rest 0 := kinds 2
    rw [one, second, beq_false_of_ne ends, Bool.and_false]
  · have none : view.dollarsFrom 0 = 0 := by
      change ([0, 1, 2].takeWhile (fun place => view.kindAt place == .dollar)).length = 0
      rw [List.takeWhile_cons, start, beq_false_of_ne dollar]
      rfl
    rw [none, start]
    by_cases ident : first.kind = .ident
    · have second := type.second_kind rest (by rw [words]; exact ident)
      have continuing : ∀ kind ∈ [TokenKind.dot, .lParen], kind ≠ .colon := by
        decide
      have noColon : view.kindAt 1 ≠ .colon := by
        rw [kinds]
        rcases second with known | ⟨-, same⟩
        · exact continuing _ known
        · exact same ▸ ends
      rw [beq_false_of_ne noColon, Bool.and_false]
    · rw [beq_false_of_ne ident, Bool.false_and]

/-- A parenthesis around a type that is no type variable starts no parameter list. -/
theorem isAtParameterList_single (sees : view.Sees context ⟨opening :: (type.words ++ rest), built⟩)
    (closes : SourceWord.kindAt rest 0 = .rParen) (plain : ∀ name, type ≠ .polymorphic name) :
    view.isAtParameterList = false := by
  obtain ⟨first, more, words, starts⟩ := type.words_eq
  have kind : view.kindAt 1 = first.kind := by
    rw [sees.kinds, words]
    rfl
  unfold isAtParameterList
  rw [kind]
  rcases starts with ⟨ident, free⟩ | other
  · have second := type.second_kind rest (by rw [words]; exact ident)
    have continuing : ∀ kind ∈ [TokenKind.dot, .lParen], kind ≠ .colon ∧ kind ≠ .comma := by
      decide
    have single : view.kindAt 2 ≠ .colon ∧ view.kindAt 2 ≠ .comma := by
      rw [sees.kinds, SourceWord.kindAt_cons_succ]
      rcases second with known | ⟨-, same⟩
      · exact continuing _ known
      · rw [same, closes]
        exact ⟨TokenKind.noConfusion, TokenKind.noConfusion⟩
    have text : view.textAt 1 = first.text := sees.texts 1 first (by rw [words]; rfl)
    have different : first.text ≠ "using" := fun same => free (same ▸ by decide)
    rw [ident, text]
    simp only [beq_false_of_ne different, beq_false_of_ne single.1, beq_false_of_ne single.2,
      Bool.or_self]
  · have noDollar : first.kind ≠ .dollar := by
      intro dollar
      obtain ⟨name, same⟩ := TypeTerm.polymorphic_of (by rw [words]; exact dollar)
      exact plain name same
    have kinds : first.kind = .star ∨ first.kind = .lBracket ∨ first.kind = .lParen := by
      simpa [noDollar] using other
    rcases kinds with kind | kind | kind <;> rw [kind]

theorem isAtParameterList_polymorphic {name : Name}
    (sees : view.Sees context ⟨opening :: (TypeTerm.words (.polymorphic name) ++ rest), built⟩) :
    view.isAtParameterList = true := by
  unfold isAtParameterList
  rw [sees.kinds 1]
  rfl

/-- A single name in front of a comma starts a parameter list. -/
theorem isAtParameterList_several
    (sees : view.Sees context ⟨opening :: (type.words ++ .fixed .comma :: rest), built⟩)
    (named : type.IsName) : view.isAtParameterList = true := by
  have kinds (distance : Nat) : view.kindAt (distance + 1) =
      SourceWord.kindAt (type.words ++ .fixed .comma :: rest) distance := sees.kinds (distance + 1)
  have comma (word : SourceWord) (single : type.words = [word]) (ident : word.kind = .ident) :
      view.isAtParameterList = true := by
    have first : view.kindAt 1 = .ident := by
      rw [kinds, single]
      exact ident
    have second : view.kindAt 2 = .comma := by
      rw [kinds, single]
      rfl
    unfold isAtParameterList
    rw [first, second]
    simp
  match type, named with
  | .builtin builtin, _ => exact comma _ rfl rfl
  | .path (.name name), _ => exact comma _ rfl rfl
  | .polymorphic name, _ => exact sees.isAtParameterList_polymorphic

end View.Sees

/-! ### Ends of types -/

namespace TypeStops

variable {context other : Context} {rest : List SourceWord}

theorem including (stops : TypeStops context rest) : TypeStops (context.including .type) rest :=
  ⟨stops.kind, stops.noQuick, fun comma => (Bool.or_false _).trans (stops.comma comma)⟩

theorem bodiless (stops : TypeStops context rest) :
    SourceWord.kindAt rest 0 ∉ [TokenKind.lBrace, .directive] := by
  have kinds : ∀ kind ∈ [TokenKind.lBrace, .directive],
      kind ∈ [TokenKind.lParen, .lBrace, .dot, .slash, .directive] := by
    decide
  exact fun member => stops.kind (kinds _ member)

end TypeStops

namespace TypeEnds

variable {context other : Context} {rest more separator : List SourceWord}

theorem weaken (ends : TypeEnds context rest) (same : other.inArguments = context.inArguments) :
    TypeEnds other rest :=
  ⟨ends.kind, ends.noQuick, fun comma => same.trans (ends.comma comma)⟩

theorem including (ends : TypeEnds context rest) : TypeEnds (context.including .type) rest :=
  ends.weaken (Bool.or_false _)

theorem excluding (ends : TypeEnds context rest) : TypeEnds (context.excluding .type) rest :=
  ends.weaken (Bool.and_true _)

theorem noColon (ends : TypeEnds context rest) : SourceWord.kindAt rest 0 ≠ .colon := by
  intro same
  exact absurd (by rw [same]; decide) ends.kind

theorem stops (ends : TypeEnds context rest) : TypeStops context rest := by
  have kinds : ∀ kind ∈ [TokenKind.lParen, .lBrace, .dot, .slash, .directive],
      kind ∈ [TokenKind.lParen, .lBrace, .dot, .slash, .colon, .directive] := by
    decide
  exact ⟨fun member => ends.kind (kinds _ member), ends.noQuick, ends.comma⟩

/-- What closes a list or a statement ends a type. -/
theorem of_closer (noQuick : ∀ word ∈ rest, word.kind ≠ .fatArrow)
    (closes : SourceWord.kindAt rest 0 ∈ [TokenKind.rParen, .rBracket, .semicolon]) :
    TypeEnds context rest := by
  have closers : ∀ kind ∈ [TokenKind.rParen, .rBracket, .semicolon],
      kind ∉ [TokenKind.lParen, .lBrace, .dot, .slash, .colon, .directive] ∧ kind ≠ .comma := by
    decide
  obtain ⟨kind, noComma⟩ := closers _ closes
  exact ⟨kind, noQuick, fun comma => absurd comma noComma⟩

/-- What stands behind an item of a list in parentheses ends a type in it. -/
theorem of_separated (separated : Separated separator more)
    (noQuick : ∀ word ∈ more, word.kind ≠ .fatArrow) :
    TypeEnds .arguments (separator ++ more) ∧
      SourceWord.kindAt (separator ++ more) 0 ∈ closerKinds := by
  rcases separated with rfl | ⟨rfl, closes⟩
  · have kinds : TokenKind.comma ∉ [TokenKind.lParen, .lBrace, .dot, .slash, .colon, .directive] ∧
        TokenKind.comma ∈ closerKinds := by
      decide
    exact ⟨⟨kinds.1, List.forall_mem_cons.mpr ⟨TokenKind.noConfusion, noQuick⟩, fun _ => rfl⟩,
      kinds.2⟩
  · rw [List.nil_append, closes]
    exact ⟨.of_closer noQuick (closes ▸ List.mem_cons_self), by decide⟩

end TypeEnds

theorem Quiet.of_closer {rest : List SourceWord} (noQuick : ∀ word ∈ rest, word.kind ≠ .fatArrow)
    (closes : SourceWord.kindAt rest 0 ∈ closerKinds) : Quiet rest := by
  have closers : ∀ kind ∈ closerKinds, kind ≠ .arrow := by
    decide
  exact ⟨noQuick, closers _ closes⟩

/-! ### Readings -/

namespace TypeTerm

variable {resync : Bool} {depth : Nat} {context : Context} {term : TypeTerm}
  {rest : List SourceWord}

def IsRead (resync : Bool) (depth : Nat) (term : TypeTerm) : Prop :=
  ∀ context rest built, TypeEnds context rest →
    typeEntry.Takes resync (readEntry resync depth) context ⟨term.words ++ rest, built⟩ ()
      ⟨rest, term.skeleton :: built⟩

/-- A type is read in the place of a type even if a colon stands behind it. -/
def IsReadAlone (resync : Bool) (depth : Nat) (term : TypeTerm) : Prop :=
  ∀ context rest built, TypeStops context rest →
    typeEntry.Takes resync (readEntry resync depth) context ⟨term.words ++ rest, built⟩ ()
      ⟨rest, term.skeleton :: built⟩

theorem IsReadAlone.isRead (read : term.IsReadAlone resync depth) : term.IsRead resync depth :=
  fun context rest built ends => read context rest built ends.stops

def IsReadAsValue (resync : Bool) (depth : Nat) (term : TypeTerm) : Prop :=
  ∀ context rest built, TypeEnds context rest → SourceWord.kindAt rest 0 ∈ closerKinds →
    unaryExpression.Takes resync (readEntry resync depth) context ⟨term.words ++ rest, built⟩ .isOpen
      ⟨rest, term.asValue :: built⟩

theorem IsRead.type (read : term.IsRead resync depth) (ends : TypeEnds context rest)
    (built : List Skeleton) :
    Production.type.Takes resync (readEntry resync (depth + 1)) context
      ⟨term.words ++ rest, built⟩ () ⟨rest, term.skeleton :: built⟩ :=
  takes_within _ (takes_entry .type (read _ rest built ends.including))

/-- A type is read as a single result, unless it is a word in front of a colon. -/
theorem takes_results (unnamed : term.IsWord → SourceWord.kindAt rest 0 ≠ .colon)
    (comma : SourceWord.kindAt rest 0 = .comma → context.inArguments = true)
    {enter : Entry → Surroundings → Segment → Reading Unit} {built : List Skeleton}
    (taken : Production.type.Takes resync enter context ⟨term.words ++ rest, built⟩ ()
      ⟨rest, term.skeleton :: built⟩) :
    Production.results.Takes resync enter context ⟨term.words ++ rest, built⟩ ()
      ⟨rest, term.skeleton.withField (some .result) :: built⟩ := by
  obtain ⟨first, more, words, starts⟩ := term.words_eq
  have front (kind : TokenKind) (same : SourceWord.kindAt (term.words ++ rest) 0 = kind) :
      SourceWord.kindAt term.words 0 = kind := by
    rw [words] at same ⊢
    exact same
  refine Production.takes_results (fun ident => ?_) (fun paren _ => ?_) comma taken
  · have continuing : ∀ kind ∈ [TokenKind.dot, .lParen], kind ≠ .colon := by
      decide
    rcases term.second_kind rest (front _ ident) with known | ⟨isWord, same⟩
    · exact continuing _ known
    · exact same ▸ unnamed isWord
  · have long := term.long_of_paren (front _ paren)
    have known : SourceWord.kindAt (term.words ++ rest) 2 ∈ typeKinds :=
      term.words_ofTypes.kindAt long
    have kinds : ∀ kind ∈ typeKinds, kind ≠ .colon := by
      decide
    exact kinds _ known

theorem IsRead.results (read : term.IsRead resync depth) (ends : TypeEnds context rest)
    (built : List Skeleton) :
    Production.results.Takes resync (readEntry resync (depth + 1)) context
      ⟨term.words ++ rest, built⟩ () ⟨rest, term.skeleton.withField (some .result) :: built⟩ :=
  takes_results (fun _ => ends.noColon) ends.comma (read.type ends built)

theorem IsReadAsValue.operand (read : term.IsReadAsValue resync depth) (ends : TypeEnds context rest)
    (closes : SourceWord.kindAt rest 0 ∈ closerKinds) (least : Prec) (built : List Skeleton) :
    (Production.operand least).Takes resync (readEntry resync (depth + 1)) context
      ⟨term.words ++ rest, built⟩ () ⟨rest, term.asValue :: built⟩ := by
  have follows : Follows rest least := .of_closer (.of_closer ends.noQuick closes) closes
  have climbed : (climb least).Takes resync (readEntry resync depth) context
      ⟨term.words ++ rest, []⟩ () ⟨rest, [term.asValue]⟩ :=
    takes_climb (read context rest [] ends closes) (loops_stop (skips_binaryOperatorStep follows))
  exact takes_entry (.expression least) (takes_marked climbed)

theorem IsReadAsValue.expression (read : term.IsReadAsValue resync depth)
    (ends : TypeEnds context rest) (closes : SourceWord.kindAt rest 0 ∈ closerKinds)
    (built : List Skeleton) :
    Production.expression.Takes resync (readEntry resync (depth + 1)) context
      ⟨term.words ++ rest, built⟩ () ⟨rest, term.asValue :: built⟩ :=
  takes_within _ (read.operand ends.excluding closes Prec.assignment built)

end TypeTerm

def TypeTerms.AreRead (resync : Bool) (depth : Nat) (terms : TypeTerms) : Prop :=
  ∀ rest built, (∀ word ∈ rest, word.kind ≠ .fatArrow) →
    parameterStep.Loops resync (readEntry resync depth) .arguments
      ⟨terms.words ++ .fixed .rParen :: rest, built⟩
      ⟨.fixed .rParen :: rest, terms.skeletons.reverse ++ built⟩

/-- The arguments of a type are read up to the closing parenthesis, each by `positional`. -/
def TypeArguments.AreReadBy (resync : Bool) (depth : Nat) (positional : Production Unit)
    (arguments : TypeArguments) (skeletons : List Skeleton) : Prop :=
  ∀ rest built, (∀ word ∈ rest, word.kind ≠ .fatArrow) →
    (argumentStep positional).Loops resync (readEntry resync depth) .arguments
      ⟨arguments.words ++ .fixed .rParen :: rest, built⟩
      ⟨.fixed .rParen :: rest, skeletons.reverse ++ built⟩

namespace TypeTerm

variable {resync : Bool} {depth : Nat}

theorem noQuick_append {words rest : List SourceWord} (known : OfTypes words)
    (noQuick : ∀ word ∈ rest, word.kind ≠ .fatArrow) :
    ∀ word ∈ words ++ rest, word.kind ≠ .fatArrow :=
  List.forall_mem_append.mpr ⟨known.noQuick, noQuick⟩

theorem noQuick_close {kind : TokenKind} (other : kind ≠ .fatArrow) {rest : List SourceWord}
    (noQuick : ∀ word ∈ rest, word.kind ≠ .fatArrow) :
    ∀ word ∈ SourceWord.fixed kind :: rest, word.kind ≠ .fatArrow :=
  List.forall_mem_cons.mpr ⟨other, noQuick⟩

/-! ### In the place of a type -/

theorem isReadAlone_path (path : Path) : (TypeTerm.path path).IsReadAlone resync depth := by
  intro context rest built stops
  refine takes_path path (fun same => ?_)
  have kinds : ∀ kind ∈ [TokenKind.lParen, .dot],
      kind ∈ [TokenKind.lParen, .lBrace, .dot, .slash, .directive] := by
    decide
  exact stops.kind (kinds _ same)

theorem isReadAlone_polymorphic (name : Name) :
    (TypeTerm.polymorphic name).IsReadAlone resync depth := by
  intro context rest built stops
  have noSlash : SourceWord.kindAt rest 0 ≠ .slash := fun same =>
    absurd (by rw [same]; decide) stops.kind
  exact takes_polymorphicType name noSlash

theorem isReadAlone_applied (path : Path) {arguments : TypeArguments}
    (areRead : arguments.AreReadBy resync depth typeArgument arguments.skeletons) :
    (TypeTerm.applied path arguments).IsReadAlone resync depth := by
  intro context rest built stops
  have read : typeEntry.Takes resync (readEntry resync depth) context _ ()
      ⟨rest, (TypeTerm.applied path arguments).skeleton :: built⟩ :=
    takes_applied path (areRead rest _ stops.noQuick)
  simpa only [TypeTerm.words, List.append_assoc, List.cons_append, List.nil_append] using read

theorem IsRead.pointer {target : TypeTerm} (read : target.IsRead resync depth) :
    (TypeTerm.pointer target).IsRead resync (depth + 1) :=
  fun _ _ _ ends => takes_pointerType (read.type ends _)

theorem takes_array (size : ArraySize) {element : TypeTerm} (deep : 1 ≤ depth) {context : Context}
    {rest : List SourceWord} (noQuick : ∀ word ∈ rest, word.kind ≠ .fatArrow)
    (taken : ∀ built, Production.type.Takes resync (readEntry resync (depth + 1)) context
      ⟨element.words ++ rest, built⟩ () ⟨rest, element.skeleton :: built⟩) (built : List Skeleton) :
    typeEntry.Takes resync (readEntry resync (depth + 1)) context
      ⟨(TypeTerm.array size element).words ++ rest, built⟩ ()
      ⟨rest, (TypeTerm.array size element).skeleton :: built⟩ := by
  obtain ⟨first, more, words, starts⟩ := element.words_eq
  have silent := noQuick_append element.words_ofTypes noQuick
  have sized (length : Numeral) : expression.TakesTerm resync (readEntry resync (depth + 1))
      (.numeral length) (.fixed .rBracket :: (element.words ++ rest)) := by
    have climbs := (Term.climbs resync (.numeral length) trivial depth deep).2
    have closer : TokenKind.rBracket ∈ closerKinds := by decide
    exact climbs.expression (.of_closer (noQuick_close TokenKind.noConfusion silent) closer) closer
  rw [words, List.cons_append] at sized taken
  have whole : typeEntry.Takes resync (readEntry resync (depth + 1)) context _ ()
      ⟨rest, (TypeTerm.array size element).skeleton :: built⟩ :=
    takes_arrayType size starts (fun length _ => sized length) taken
  simpa only [TypeTerm.words, words, List.append_assoc, List.cons_append] using whole

theorem IsRead.array (size : ArraySize) {element : TypeTerm} (read : element.IsRead resync depth)
    (deep : 1 ≤ depth) : (TypeTerm.array size element).IsRead resync (depth + 1) :=
  fun _ _ _ ends => takes_array size deep ends.noQuick (read.type ends) _

/-- The parameter list and the result of a procedure type, wherever it stands. -/
theorem takes_signature {parameters : TypeTerms} {result : TypeTerm} {context : Context}
    (areRead : parameters.AreRead resync (depth + 1)) {rest : List SourceWord}
    (stops : SourceWord.kindAt rest 0 ∉ [TokenKind.lBrace, .directive])
    (noQuick : ∀ word ∈ rest, word.kind ≠ .fatArrow)
    (returned : ∀ built, Production.results.Takes resync (readEntry resync (depth + 1)) context
      ⟨result.words ++ rest, built⟩ () ⟨rest, result.skeleton.withField (some .result) :: built⟩)
    (built : List Skeleton) :
    Production.procedure.Takes resync (readEntry resync (depth + 1)) context
      ⟨(TypeTerm.procedure parameters result).words ++ rest, built⟩ .isOpen
      ⟨rest, (TypeTerm.procedure parameters result).skeleton :: built⟩ := by
  have silent : ∀ word ∈ SourceWord.fixed .arrow :: (result.words ++ rest),
      word.kind ≠ .fatArrow :=
    noQuick_close TokenKind.noConfusion (noQuick_append result.words_ofTypes noQuick)
  have taken : Production.procedure.Takes resync (readEntry resync (depth + 1)) context _ .isOpen
      ⟨rest, (TypeTerm.procedure parameters result).skeleton :: built⟩ :=
    takes_procedure stops (takes_parameterList (areRead _ _ silent)) (returned _)
  simpa only [TypeTerm.words, List.append_assoc, List.cons_append] using taken

/-- A procedure type in the place of a type. -/
theorem typeEntry_takes_procedure {parameters : TypeTerms} {result : TypeTerm} {context : Context}
    {rest : List SourceWord} {built : List Skeleton}
    {enter : Entry → Surroundings → Segment → Reading Unit} {last : Stage}
    (taken : Production.procedure.Takes resync enter context
      ⟨(TypeTerm.procedure parameters result).words ++ rest, built⟩ .isOpen last) :
    typeEntry.Takes resync enter context
      ⟨(TypeTerm.procedure parameters result).words ++ rest, built⟩ () last :=
  takes_bind (takes_look (fun _ sees => sees.kind)) (takes_discard taken)

theorem isRead_procedure {parameters : TypeTerms} {result : TypeTerm}
    (areRead : parameters.AreRead resync (depth + 1)) (read : result.IsRead resync depth) :
    (TypeTerm.procedure parameters result).IsRead resync (depth + 1) := by
  intro context rest built ends
  exact typeEntry_takes_procedure
    (takes_signature areRead ends.stops.bodiless ends.noQuick (read.results ends) built)

end TypeTerm

/-! ### Lists of types -/

namespace TypeTerms

variable {resync : Bool} {depth : Nat}

theorem areRead_none : TypeTerms.none.AreRead resync depth :=
  fun _ _ _ => parameterStep_stops

theorem areRead_cons {first : TypeTerm} {later : TypeTerms} (read : first.IsRead resync depth)
    (areRead : later.AreRead resync (depth + 1)) :
    (TypeTerms.cons first later).AreRead resync (depth + 1) := by
  intro rest built noQuick
  have separated : Separated later.separator (later.words ++ .fixed .rParen :: rest) := by
    cases later with
    | none => exact Or.inr ⟨rfl, rfl⟩
    | cons _ _ => exact Or.inl rfl
  have ends := (TypeEnds.of_separated separated (TypeTerm.noQuick_append later.words_ofTypes
    (TypeTerm.noQuick_close TokenKind.noConfusion noQuick))).1
  obtain ⟨word, more, words, starts⟩ := first.words_eq
  have starting : SourceWord.kindAt (first.words ++ (later.separator ++ (later.words ++
      .fixed .rParen :: rest))) 0 ∉ [TokenKind.rParen, .eof] := by
    rw [words]
    exact starts.kind_ne (by decide)
  have step := takes_parameterStep separated starting
    (fun _ sees => sees.isAtParameter_type ends.noColon) (read.type ends built)
  have shorter : (later.words ++ SourceWord.fixed .rParen :: rest).length <
      (first.words ++ (later.separator ++ (later.words ++ SourceWord.fixed .rParen :: rest))).length := by
    rw [words]
    simp only [List.length_append, List.length_cons]
    omega
  have loops := loops_step step shorter (areRead rest _ noQuick)
  simpa only [TypeTerms.words, TypeTerms.skeletons, List.append_assoc, List.reverse_cons,
    List.reverse_append, List.cons_append, List.nil_append] using loops

end TypeTerms

namespace TypeArguments

variable {resync : Bool} {depth : Nat} {positional : Production Unit}

theorem areReadBy_none : TypeArguments.none.AreReadBy resync depth positional [] :=
  fun _ _ _ => argumentStep_stops

/-- An argument is read with the comma after it, and then the loop goes on. -/
theorem areReadBy_cons {arguments later : TypeArguments} {front : List SourceWord}
    {skeleton : Skeleton} {skeletons : List Skeleton}
    (words : arguments.words = front ++ (later.separator ++ later.words))
    (starts : ∀ rest, SourceWord.kindAt (front ++ rest) 0 ∈
      [TokenKind.ident, .int, .star, .lBracket, .lParen, .dollar])
    (nonempty : front ≠ [])
    (unnamed : ∀ rest, SourceWord.kindAt rest 0 ∈ closerKinds →
      SourceWord.kindAt (front ++ rest) 0 = .ident → SourceWord.kindAt (front ++ rest) 1 ≠ .eq)
    (taken : ∀ rest built, TypeEnds .arguments rest → SourceWord.kindAt rest 0 ∈ closerKinds →
      positional.Takes resync (readEntry resync depth) .arguments ⟨front ++ rest, built⟩ ()
        ⟨rest, skeleton :: built⟩)
    (areRead : later.AreReadBy resync depth positional skeletons) :
    arguments.AreReadBy resync depth positional (skeleton.withField (some .argument) ::
      (later.separator.map (SourceWord.leaf · Option.none) ++ skeletons)) := by
  intro rest built noQuick
  have separated : Separated later.separator (later.words ++ .fixed .rParen :: rest) := by
    cases later with
    | none => exact Or.inr ⟨rfl, rfl⟩
    | _ => exact Or.inl rfl
  obtain ⟨ends, closes⟩ := TypeEnds.of_separated separated (TypeTerm.noQuick_append
    later.words_ofTypes (TypeTerm.noQuick_close TokenKind.noConfusion noQuick))
  have apart : ∀ kind ∈ [TokenKind.ident, .int, .star, .lBracket, .lParen, .dollar],
      kind ∉ [TokenKind.rParen, .eof, .comma] ∧ kind ≠ .dotDot := by
    decide
  have starting := apart _ (starts (later.separator ++ (later.words ++ .fixed .rParen :: rest)))
  have read := takes_argument (unnamed _ closes) starting.2 (taken _ built ends closes)
  have shorter : (later.words ++ SourceWord.fixed .rParen :: rest).length <
      (front ++ (later.separator ++ (later.words ++ SourceWord.fixed .rParen :: rest))).length := by
    have positive := List.length_pos_iff.mpr nonempty
    simp only [List.length_append, List.length_cons]
    omega
  have loops := loops_step (takes_argumentStep separated starting.1 read) shorter
    (areRead rest _ noQuick)
  rw [words]
  simpa only [List.append_assoc, List.reverse_cons, List.reverse_append, List.cons_append,
    List.nil_append] using loops

/-- An integer among the arguments of a type. -/
theorem areReadBy_integer {value : Numeral} {later : TypeArguments} {skeletons : List Skeleton}
    (taken : ∀ rest built, TypeEnds .arguments rest → SourceWord.kindAt rest 0 ∈ closerKinds →
      positional.Takes resync (readEntry resync depth) .arguments ⟨value.word :: rest, built⟩ ()
        ⟨rest, (Term.numeral value).skeleton :: built⟩)
    (areRead : later.AreReadBy resync depth positional skeletons) :
    (TypeArguments.integer value later).AreReadBy resync depth positional
      ((Term.numeral value).skeleton.withField (some .argument) ::
        (later.separator.map (SourceWord.leaf · Option.none) ++ skeletons)) := by
  have int : TokenKind.int ∈ [TokenKind.ident, .int, .star, .lBracket, .lParen, .dollar] := by
    decide
  have words : (TypeArguments.integer value later).words =
      [value.word] ++ (later.separator ++ later.words) := by
    rw [TypeArguments.words]
    rfl
  exact areReadBy_cons words (fun _ => int) (List.cons_ne_nil _ _)
    (fun _ _ ident => TokenKind.noConfusion ident) taken areRead

/-- A type among the arguments of a type. -/
theorem areReadBy_type {argument : TypeTerm} {later : TypeArguments} {skeleton : Skeleton}
    {skeletons : List Skeleton}
    (taken : ∀ rest built, TypeEnds .arguments rest → SourceWord.kindAt rest 0 ∈ closerKinds →
      positional.Takes resync (readEntry resync depth) .arguments ⟨argument.words ++ rest, built⟩ ()
        ⟨rest, skeleton :: built⟩)
    (areRead : later.AreReadBy resync depth positional skeletons) :
    (TypeArguments.type argument later).AreReadBy resync depth positional
      (skeleton.withField (some .argument) ::
        (later.separator.map (SourceWord.leaf · Option.none) ++ skeletons)) := by
  obtain ⟨first, more, words, starts⟩ := argument.words_eq
  have kinds : ∀ kind ∈ [TokenKind.ident, .star, .lBracket, .lParen, .dollar],
      kind ∈ [TokenKind.ident, .int, .star, .lBracket, .lParen, .dollar] := by
    decide
  have continuing : ∀ kind ∈ [TokenKind.dot, .lParen], kind ≠ .eq := by
    decide
  have closing : ∀ kind ∈ closerKinds, kind ≠ .eq := by
    decide
  have unfolded : (TypeArguments.type argument later).words =
      argument.words ++ (later.separator ++ later.words) := by
    rw [TypeArguments.words]
  refine areReadBy_cons unfolded (fun rest => ?_) argument.words_ne_nil (fun rest closes ident => ?_)
    taken areRead
  · rw [words]
    exact kinds _ starts.kind
  · have named : SourceWord.kindAt argument.words 0 = .ident := by
      rw [words] at ident ⊢
      exact ident
    rcases argument.second_kind rest named with known | ⟨-, same⟩
    · exact continuing _ known
    · exact same ▸ closing _ closes

end TypeArguments

end JaiSyntax
