import JaiSyntax.Proofs.Reading.Stage
/-!
Terms: expressions of names, integer literals, operators, parentheses, members, indexes and calls, as
they are before they are written. A term is written as a list of words, which is unambiguous where it
has parentheses around every operand that binds too loosely for its place.
-/

set_option autoImplicit false

namespace JaiSyntax

/-- The words that are not plain names where an operand stands. -/
def reservedWords : List String :=
  ["true", "false", "null", "ifx", "type_of", "inline", "no_inline", "cast", "xx"]
    ++ structWords ++ enumWords ++ statementWords ++ builtinTypes

structure Name where
  first : Char
  rest : List Char
  starts : isWordStart first = true
  goesOn : ∀ character ∈ rest, isWordPart character = true
  free : String.ofList (first :: rest) ∉ reservedWords

/-- An integer literal in any base that fits 64 bits. -/
structure Numeral where
  first : Char
  rest : List Char
  starts : first.isDigit = true
  whole : (numberExtent (first :: rest)).length = (first :: rest).length
  fits : ∃ value, numberLexeme (numberExtent (first :: rest)) (first :: rest) =
    ⟨.int, first :: rest, value, none⟩

def Name.word (name : Name) : SourceWord := ⟨.ident, String.ofList (name.first :: name.rest)⟩

def Numeral.word (numeral : Numeral) : SourceWord :=
  ⟨.int, String.ofList (numeral.first :: numeral.rest)⟩

def unaryTokens : List TokenKind := [.plus, .minus, .bang, .tilde, .amp]

abbrev KnownBinary := { operator : BinaryOperator // operator ∈ binaryOperators }

abbrev KnownUnary := { token : TokenKind // token ∈ unaryTokens }

mutual

inductive Term where
  | name (name : Name)
  | numeral (numeral : Numeral)
  | binary (operator : KnownBinary) (left right : Term)
  | unary (operator : KnownUnary) (operand : Term)
  | parenthesized (inner : Term)
  | member (object : Term) (member : Name)
  | index (object position : Term)
  | call (function : Term) (arguments : Arguments)

/-- The arguments of a call, each one positional, named or spread. -/
inductive Arguments where
  | none
  | positional (value : Term) (rest : Arguments)
  | named (name : Name) (value : Term) (rest : Arguments)
  | spread (value : Term) (rest : Arguments)

end

def Arguments.separator : Arguments → List SourceWord
  | .none => []
  | _ => [.fixed .comma]

mutual

/-- The words of a term, with just the parentheses it has. -/
def Term.words : Term → List SourceWord
  | .name name => [name.word]
  | .numeral numeral => [numeral.word]
  | .binary operator left right => left.words ++ .fixed operator.1.token :: right.words
  | .unary operator operand => .fixed operator.1 :: operand.words
  | .parenthesized inner => .fixed .lParen :: (inner.words ++ [.fixed .rParen])
  | .member object member => object.words ++ [.fixed .dot, member.word]
  | .index object position =>
      object.words ++ .fixed .lBracket :: (position.words ++ [.fixed .rBracket])
  | .call function arguments =>
      function.words ++ .fixed .lParen :: (arguments.words ++ [.fixed .rParen])

def Arguments.words : Arguments → List SourceWord
  | .none => []
  | .positional value rest => value.words ++ (rest.separator ++ rest.words)
  | .named name value rest =>
      name.word :: .fixed .eq :: (value.words ++ (rest.separator ++ rest.words))
  | .spread value rest => .fixed .dotDot :: (value.words ++ (rest.separator ++ rest.words))

end

mutual

def Term.skeleton : Term → Skeleton
  | .name name => .branch none .identifier [name.word.leaf none]
  | .numeral numeral => .branch none .integer [numeral.word.leaf none]
  | .binary operator left right =>
      .branch none .binaryExpression
        [left.skeleton.withField (some .left),
          (SourceWord.fixed operator.1.token).leaf (some .operator),
          right.skeleton.withField (some .right)]
  | .unary operator operand =>
      .branch none .unaryExpression
        [(SourceWord.fixed operator.1).leaf (some .operator),
          operand.skeleton.withField (some .argument)]
  | .parenthesized inner =>
      .branch none .parenthesizedExpression
        [(SourceWord.fixed .lParen).leaf none, inner.skeleton, (SourceWord.fixed .rParen).leaf none]
  | .member object member =>
      .branch none .memberExpression
        [object.skeleton.withField (some .object), (SourceWord.fixed .dot).leaf none,
          member.word.leaf (some .member)]
  | .index object position =>
      .branch none .indexExpression
        [object.skeleton.withField (some .object), (SourceWord.fixed .lBracket).leaf none,
          position.skeleton.withField (some .index), (SourceWord.fixed .rBracket).leaf none]
  | .call function arguments =>
      .branch none .callExpression
        (function.skeleton.withField (some .function) :: (SourceWord.fixed .lParen).leaf none ::
          (arguments.skeletons ++ [(SourceWord.fixed .rParen).leaf none]))

def Arguments.skeletons : Arguments → List Skeleton
  | .none => []
  | .positional value rest =>
      value.skeleton.withField (some .argument) ::
        (rest.separator.map (SourceWord.leaf · none) ++ rest.skeletons)
  | .named name value rest =>
      .branch (some .argument) .namedArgument
        [name.word.leaf (some .name), (SourceWord.fixed .eq).leaf none,
          value.skeleton.withField (some .value)] ::
        (rest.separator.map (SourceWord.leaf · none) ++ rest.skeletons)
  | .spread value rest =>
      .branch (some .argument) .spreadArgument
        [(SourceWord.fixed .dotDot).leaf none, value.skeleton.withField (some .value)] ::
        (rest.separator.map (SourceWord.leaf · none) ++ rest.skeletons)

end

/-! ### Parentheses -/

namespace Term

/-- How tight a term binds: by its operator, or as tight as can be. -/
def level : Term → Prec
  | .binary operator _ _ => operator.1.prec
  | .unary _ _ => Prec.unary
  | _ => Prec.member

/-- A term in parentheses, unless it binds at least as tight as `least`. -/
def atLeast (least : Prec) (term : Term) : Term :=
  if term.level < least then .parenthesized term else term

end Term

mutual

/-- The term with parentheses around the operands that bind too loosely. Operators of one level group
to the left, and only what binds tighter than a unary operator takes a member, an index or a call. -/
def Term.grouped : Term → Term
  | .name name => .name name
  | .numeral numeral => .numeral numeral
  | .binary operator left right =>
      .binary operator (left.grouped.atLeast operator.1.prec)
        (right.grouped.atLeast (Prec.tighter operator.1.prec))
  | .unary operator operand => .unary operator (operand.grouped.atLeast Prec.unary)
  | .parenthesized inner => .parenthesized inner.grouped
  | .member object member => .member (object.grouped.atLeast Prec.call) member
  | .index object position => .index (object.grouped.atLeast Prec.call) position.grouped
  | .call function arguments =>
      .call (function.grouped.atLeast Prec.call) arguments.grouped

def Arguments.grouped : Arguments → Arguments
  | .none => .none
  | .positional value rest => .positional value.grouped rest.grouped
  | .named name value rest => .named name value.grouped rest.grouped
  | .spread value rest => .spread value.grouped rest.grouped

end

mutual

/-- Whether no operand of a term binds too loosely for its place. -/
def Term.Grouped : Term → Prop
  | .name _ => True
  | .numeral _ => True
  | .binary operator left right =>
      (operator.1.prec ≤ left.level ∧ left.Grouped) ∧
        (Prec.tighter operator.1.prec ≤ right.level ∧ right.Grouped)
  | .unary _ operand => Prec.unary ≤ operand.level ∧ operand.Grouped
  | .parenthesized inner => inner.Grouped
  | .member object _ => Prec.call ≤ object.level ∧ object.Grouped
  | .index object position => (Prec.call ≤ object.level ∧ object.Grouped) ∧ position.Grouped
  | .call function arguments =>
      (Prec.call ≤ function.level ∧ function.Grouped) ∧ arguments.Grouped

def Arguments.Grouped : Arguments → Prop
  | .none => True
  | .positional value rest => value.Grouped ∧ rest.Grouped
  | .named _ value rest => value.Grouped ∧ rest.Grouped
  | .spread value rest => value.Grouped ∧ rest.Grouped

end

mutual

def Term.bare : Term → Term
  | .name name => .name name
  | .numeral numeral => .numeral numeral
  | .binary operator left right => .binary operator left.bare right.bare
  | .unary operator operand => .unary operator operand.bare
  | .parenthesized inner => inner.bare
  | .member object member => .member object.bare member
  | .index object position => .index object.bare position.bare
  | .call function arguments => .call function.bare arguments.bare

def Arguments.bare : Arguments → Arguments
  | .none => .none
  | .positional value rest => .positional value.bare rest.bare
  | .named name value rest => .named name value.bare rest.bare
  | .spread value rest => .spread value.bare rest.bare

end

namespace Term

theorem grouped_atLeast {term : Term} (least : Prec) (weak : least ≤ Prec.member)
    (grouped : term.Grouped) :
    least ≤ (term.atLeast least).level ∧ (term.atLeast least).Grouped := by
  unfold atLeast
  split
  · exact ⟨weak, grouped⟩
  · next tight => exact ⟨Int.not_lt.mp tight, grouped⟩

theorem atLeast_eq {term : Term} {least : Prec} (tight : least ≤ term.level) :
    term.atLeast least = term :=
  if_neg (Int.not_lt.mpr tight)

theorem bare_atLeast (least : Prec) (term : Term) : (term.atLeast least).bare = term.bare := by
  unfold atLeast
  split
  · rw [bare]
  · rfl

end Term

/-- A binary operator binds looser than a unary one, and tighter than an assignment. -/
theorem KnownBinary.prec_bounds (operator : KnownBinary) :
    Prec.assignment ≤ operator.1.prec ∧ operator.1.prec < Prec.unary ∧
      Prec.tighter operator.1.prec ≤ Prec.member := by
  have all : ∀ known ∈ binaryOperators, Prec.assignment ≤ known.prec ∧
      known.prec < Prec.unary ∧ Prec.tighter known.prec ≤ Prec.member := by
    decide
  exact all operator.1 operator.2

mutual

/-- The parentheses that are put around operands are all that are needed. -/
theorem Term.grouped_grouped (term : Term) : term.grouped.Grouped := by
  cases term with
  | name name => trivial
  | numeral numeral => trivial
  | binary operator left right =>
      have bounds := operator.prec_bounds
      have weak : operator.1.prec ≤ Prec.member :=
        Int.le_trans (Int.le_of_lt bounds.2.1) (by decide)
      exact ⟨Term.grouped_atLeast _ weak left.grouped_grouped,
        Term.grouped_atLeast _ bounds.2.2 right.grouped_grouped⟩
  | unary operator operand => exact Term.grouped_atLeast _ (by decide) operand.grouped_grouped
  | parenthesized inner => exact inner.grouped_grouped
  | member object member => exact Term.grouped_atLeast _ (by decide) object.grouped_grouped
  | index object position =>
      exact ⟨Term.grouped_atLeast _ (by decide) object.grouped_grouped, position.grouped_grouped⟩
  | call function arguments =>
      exact ⟨Term.grouped_atLeast _ (by decide) function.grouped_grouped, arguments.grouped_grouped⟩

theorem Arguments.grouped_grouped (arguments : Arguments) : arguments.grouped.Grouped := by
  cases arguments with
  | none => trivial
  | positional value rest => exact ⟨value.grouped_grouped, rest.grouped_grouped⟩
  | named name value rest => exact ⟨value.grouped_grouped, rest.grouped_grouped⟩
  | spread value rest => exact ⟨value.grouped_grouped, rest.grouped_grouped⟩

end

mutual

/-- No parentheses are put where none are needed. -/
theorem Term.grouped_eq (term : Term) (grouped : term.Grouped) : term.grouped = term := by
  cases term with
  | name name => rfl
  | numeral numeral => rfl
  | binary operator left right =>
      obtain ⟨⟨leftTight, leftGrouped⟩, rightTight, rightGrouped⟩ := grouped
      rw [Term.grouped, left.grouped_eq leftGrouped, right.grouped_eq rightGrouped,
        Term.atLeast_eq leftTight, Term.atLeast_eq rightTight]
  | unary operator operand =>
      rw [Term.grouped, operand.grouped_eq grouped.2, Term.atLeast_eq grouped.1]
  | parenthesized inner => rw [Term.grouped, inner.grouped_eq grouped]
  | member object member => rw [Term.grouped, object.grouped_eq grouped.2, Term.atLeast_eq grouped.1]
  | index object position =>
      rw [Term.grouped, object.grouped_eq grouped.1.2, position.grouped_eq grouped.2,
        Term.atLeast_eq grouped.1.1]
  | call function arguments =>
      rw [Term.grouped, function.grouped_eq grouped.1.2, arguments.grouped_eq grouped.2,
        Term.atLeast_eq grouped.1.1]

theorem Arguments.grouped_eq (arguments : Arguments) (grouped : arguments.Grouped) :
    arguments.grouped = arguments := by
  cases arguments with
  | none => rfl
  | positional value rest =>
      rw [Arguments.grouped, value.grouped_eq grouped.1, rest.grouped_eq grouped.2]
  | named name value rest =>
      rw [Arguments.grouped, value.grouped_eq grouped.1, rest.grouped_eq grouped.2]
  | spread value rest =>
      rw [Arguments.grouped, value.grouped_eq grouped.1, rest.grouped_eq grouped.2]

end

mutual

/-- Nothing but parentheses is put into a term. -/
theorem Term.bare_grouped (term : Term) : term.grouped.bare = term.bare := by
  cases term with
  | name name => rfl
  | numeral numeral => rfl
  | binary operator left right =>
      simp only [Term.grouped, Term.bare, Term.bare_atLeast, left.bare_grouped, right.bare_grouped]
  | unary operator operand =>
      simp only [Term.grouped, Term.bare, Term.bare_atLeast, operand.bare_grouped]
  | parenthesized inner => simp only [Term.grouped, Term.bare, inner.bare_grouped]
  | member object member =>
      simp only [Term.grouped, Term.bare, Term.bare_atLeast, object.bare_grouped]
  | index object position =>
      simp only [Term.grouped, Term.bare, Term.bare_atLeast, object.bare_grouped,
        position.bare_grouped]
  | call function arguments =>
      simp only [Term.grouped, Term.bare, Term.bare_atLeast, function.bare_grouped,
        arguments.bare_grouped]

theorem Arguments.bare_grouped (arguments : Arguments) :
    arguments.grouped.bare = arguments.bare := by
  cases arguments with
  | none => rfl
  | positional value rest =>
      simp only [Arguments.grouped, Arguments.bare, value.bare_grouped, rest.bare_grouped]
  | named name value rest =>
      simp only [Arguments.grouped, Arguments.bare, value.bare_grouped, rest.bare_grouped]
  | spread value rest =>
      simp only [Arguments.grouped, Arguments.bare, value.bare_grouped, rest.bare_grouped]

end

/-! ### Words -/

def SourceWord.Starts (word : SourceWord) : Prop :=
  (word.kind = .ident ∧ word.text ∉ reservedWords) ∨
    word.kind ∈ TokenKind.int :: .lParen :: unaryTokens

theorem SourceWord.Starts.kind {word : SourceWord} (starts : word.Starts) :
    word.kind ∈ TokenKind.ident :: .int :: .lParen :: unaryTokens := by
  rcases starts with ⟨ident, -⟩ | other
  · rw [ident]
    exact List.mem_cons_self
  · exact List.mem_cons_of_mem _ other

theorem Name.starts_word (name : Name) : name.word.Starts := Or.inl ⟨rfl, name.free⟩

/-- The kinds of the words that can go on a term that starts with a name. -/
def continuationKinds : List TokenKind :=
  .dot :: .lBracket :: .lParen :: binaryOperators.map BinaryOperator.token

theorem KnownBinary.token_continues (operator : KnownBinary) :
    operator.1.token ∈ continuationKinds := by
  have all : ∀ known ∈ binaryOperators, known.token ∈ continuationKinds := by
    decide
  exact all operator.1 operator.2

namespace Term

/-- The first word of a term starts an operand, and it is a unary operator only where a unary operator
stands. -/
theorem words_eq (term : Term) : ∃ first more, term.words = first :: more ∧ first.Starts ∧
    (term.Grouped → Prec.call ≤ term.level → first.kind ∉ unaryTokens) := by
  have ident : TokenKind.ident ∉ unaryTokens := by decide
  have int : TokenKind.int ∉ unaryTokens := by decide
  -- A term after another part starts as that does.
  have extended (front : Term) (back : List SourceWord)
      (known : ∃ first more, front.words = first :: more ∧ first.Starts ∧
        (front.Grouped → Prec.call ≤ front.level → first.kind ∉ unaryTokens)) :
      ∃ first more, front.words ++ back = first :: more ∧ first.Starts ∧
        (Prec.call ≤ front.level ∧ front.Grouped → first.kind ∉ unaryTokens) := by
    obtain ⟨first, more, words, starts, plain⟩ := known
    exact ⟨first, more ++ back, by rw [words, List.cons_append], starts,
      fun inside => plain inside.2 inside.1⟩
  cases term with
  | name name => exact ⟨_, [], rfl, name.starts_word, fun _ _ => ident⟩
  | numeral numeral => exact ⟨_, [], rfl, Or.inr (by simp [Numeral.word]), fun _ _ => int⟩
  | binary operator left right =>
      obtain ⟨first, more, words, starts, -⟩ := extended left _ left.words_eq
      refine ⟨first, more, words, starts, fun _ tight => ?_⟩
      exact absurd (Int.lt_of_lt_of_le operator.prec_bounds.2.1 (by decide)) (Int.not_lt.mpr tight)
  | unary operator operand =>
      refine ⟨_, _, rfl, Or.inr (List.mem_cons_of_mem _ (List.mem_cons_of_mem _ operator.2)), ?_⟩
      have loose : ¬Prec.call ≤ Prec.unary := by decide
      exact fun _ tight => absurd tight loose
  | parenthesized inner => exact ⟨_, _, rfl, Or.inr (by simp [SourceWord.fixed]), fun _ _ => by decide⟩
  | member object member =>
      obtain ⟨first, more, words, starts, plain⟩ := extended object _ object.words_eq
      exact ⟨first, more, words, starts, fun grouped _ => plain grouped⟩
  | index object position =>
      obtain ⟨first, more, words, starts, plain⟩ := extended object _ object.words_eq
      exact ⟨first, more, words, starts, fun grouped _ => plain grouped.1⟩
  | call function arguments =>
      obtain ⟨first, more, words, starts, plain⟩ := extended function _ function.words_eq
      exact ⟨first, more, words, starts, fun grouped _ => plain grouped.1⟩

/-- After a name at the start of a term, the term goes on or ends. -/
theorem second_kind (term : Term) (rest : List SourceWord) (named : SourceWord.kindAt (term.words ++ rest) 0 = .ident) :
    SourceWord.kindAt (term.words ++ rest) 1 ∈ continuationKinds ∨
      SourceWord.kindAt (term.words ++ rest) 1 = SourceWord.kindAt rest 0 := by
  -- The words after a left part continue it.
  have continued (left : Term) (word : SourceWord) (more : List SourceWord)
      (continues : word.kind ∈ continuationKinds)
      (known : SourceWord.kindAt (left.words ++ word :: more) 1 ∈ continuationKinds ∨
        SourceWord.kindAt (left.words ++ word :: more) 1 = SourceWord.kindAt (word :: more) 0) :
      SourceWord.kindAt (left.words ++ word :: more) 1 ∈ continuationKinds := by
    rcases known with known | same
    · exact known
    · rw [same]
      exact continues
  cases term with
  | name name => exact Or.inr rfl
  | numeral numeral => cases named
  | binary operator left right =>
      simp only [Term.words, List.append_assoc, List.cons_append] at named ⊢
      exact Or.inl (continued left _ _ operator.token_continues (left.second_kind _ named))
  | unary operator operand =>
      have known : TokenKind.ident ∈ unaryTokens := (named : operator.1 = .ident) ▸ operator.2
      exact absurd known (by decide)
  | parenthesized inner => cases named
  | member object member =>
      simp only [Term.words, List.append_assoc, List.cons_append] at named ⊢
      exact Or.inl (continued object _ _ (by decide) (object.second_kind _ named))
  | index object position =>
      simp only [Term.words, List.append_assoc, List.cons_append] at named ⊢
      exact Or.inl (continued object _ _ (by decide) (object.second_kind _ named))
  | call function arguments =>
      simp only [Term.words, List.append_assoc, List.cons_append] at named ⊢
      exact Or.inl (continued function _ _ (by decide) (function.second_kind _ named))

end Term

def termKinds : List TokenKind :=
  [.lParen, .rParen, .dot, .lBracket, .rBracket, .comma, .eq, .dotDot] ++ unaryTokens
    ++ binaryOperators.map BinaryOperator.token

inductive SourceWord.OfTerm : SourceWord → Prop where
  | name (name : Name) : OfTerm name.word
  | numeral (numeral : Numeral) : OfTerm numeral.word
  | fixed {kind : TokenKind} (known : kind ∈ termKinds) : OfTerm (.fixed kind)

theorem KnownBinary.token_known (operator : KnownBinary) : operator.1.token ∈ termKinds :=
  List.mem_append_right _ (List.mem_map_of_mem operator.2)

theorem KnownUnary.token_known (operator : KnownUnary) : operator.1 ∈ termKinds :=
  List.mem_append_left _ (List.mem_append_right _ operator.2)

theorem Arguments.separator_ofTerm (arguments : Arguments) :
    ∀ word ∈ arguments.separator, word.OfTerm := by
  cases arguments with
  | none => exact fun _ member => (List.not_mem_nil member).elim
  | _ =>
      intro word member
      rw [List.mem_singleton.mp member]
      exact .fixed (by decide)

mutual

theorem Term.words_ofTerm (term : Term) : ∀ word ∈ term.words, word.OfTerm := by
  have bracket {kind : TokenKind} (known : kind ∈ termKinds) {words : List SourceWord}
      (inner : ∀ word ∈ words, word.OfTerm) : ∀ word ∈ SourceWord.fixed kind :: words, word.OfTerm :=
    List.forall_mem_cons.mpr ⟨.fixed known, inner⟩
  have joined {front back : List SourceWord} (first : ∀ word ∈ front, word.OfTerm)
      (second : ∀ word ∈ back, word.OfTerm) : ∀ word ∈ front ++ back, word.OfTerm :=
    List.forall_mem_append.mpr ⟨first, second⟩
  have closing (kind : TokenKind) (known : kind ∈ termKinds) :
      ∀ word ∈ [SourceWord.fixed kind], word.OfTerm :=
    bracket known (fun _ member => (List.not_mem_nil member).elim)
  cases term with
  | name name => exact List.forall_mem_singleton.mpr (.name name)
  | numeral numeral => exact List.forall_mem_singleton.mpr (.numeral numeral)
  | binary operator left right =>
      exact joined left.words_ofTerm (bracket operator.token_known right.words_ofTerm)
  | unary operator operand => exact bracket operator.token_known operand.words_ofTerm
  | parenthesized inner =>
      exact bracket (by decide) (joined inner.words_ofTerm (closing .rParen (by decide)))
  | member object member =>
      exact joined object.words_ofTerm
        (bracket (by decide) (List.forall_mem_singleton.mpr (.name member)))
  | index object position =>
      exact joined object.words_ofTerm
        (bracket (by decide) (joined position.words_ofTerm (closing .rBracket (by decide))))
  | call function arguments =>
      exact joined function.words_ofTerm
        (bracket (by decide) (joined arguments.words_ofTerm (closing .rParen (by decide))))

theorem Arguments.words_ofTerm (arguments : Arguments) :
    ∀ word ∈ arguments.words, word.OfTerm := by
  have valued (value : Term) (rest : Arguments) (first : ∀ word ∈ value.words, word.OfTerm)
      (later : ∀ word ∈ rest.words, word.OfTerm) :
      ∀ word ∈ value.words ++ (rest.separator ++ rest.words), word.OfTerm :=
    List.forall_mem_append.mpr
      ⟨first, List.forall_mem_append.mpr ⟨rest.separator_ofTerm, later⟩⟩
  cases arguments with
  | none => exact fun _ member => (List.not_mem_nil member).elim
  | positional value rest => exact valued value rest value.words_ofTerm rest.words_ofTerm
  | named name value rest =>
      exact List.forall_mem_cons.mpr ⟨.name name, List.forall_mem_cons.mpr
        ⟨.fixed (by decide), valued value rest value.words_ofTerm rest.words_ofTerm⟩⟩
  | spread value rest =>
      exact List.forall_mem_cons.mpr
        ⟨.fixed (by decide), valued value rest value.words_ofTerm rest.words_ofTerm⟩

end

end JaiSyntax
