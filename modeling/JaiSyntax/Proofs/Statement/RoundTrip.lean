import JaiSyntax.Proofs.Expression.Spelling
import JaiSyntax.Proofs.Statement.Reading
/-!
Statements are parsed back from what they are written as. A list of statements is the whole of its source,
with each `else` at the branch it was written for.
-/

set_option autoImplicit false

namespace JaiSyntax

open Production

/-! ### Words in a source -/

def blanked (words : List SourceWord) : List Char :=
  words.flatMap (fun word => word.text.toList ++ [' '])

theorem blanked_cons (word : SourceWord) (rest : List SourceWord) :
    blanked (word :: rest) = word.text.toList ++ ' ' :: blanked rest := by
  simp [blanked]

theorem LexedAs.blanked {words : List SourceWord} (separable : ∀ word ∈ words, word.Separable) :
    LexedAs (blanked words) words := by
  induction words with
  | nil => exact .nil
  | cons word rest ih =>
      obtain ⟨first, later⟩ := List.forall_mem_cons.mp separable
      rw [blanked_cons]
      apply LexedAs.word first List.mem_cons_self
      cases rest with
      | nil =>
          have blank : frontLexemes ' ' [] = [.plain .whitespace [' ']] := rfl
          exact .skip (lexemes_front blank rfl) ⟨by decide, by decide, rfl⟩ rfl .nil
      | cons next more =>
          obtain ⟨character, after, value, spelling, solid, -⟩ := later next List.mem_cons_self
          have front : JaiSyntax.blanked (next :: more) =
              character :: (after ++ ' ' :: JaiSyntax.blanked more) := by
            rw [blanked_cons, spelling, List.cons_append]
          exact (ih later).space front solid

def statementKeywords : List String :=
  ["return", "break", "continue", "defer", "while", "if", "then", "else"]

theorem keyword_separable {text : String} (known : text ∈ statementKeywords) :
    (SourceWord.keyword text).Separable := by
  have spelled : ∀ text ∈ statementKeywords, ∃ first rest, text = String.ofList (first :: rest) ∧
      isWordStart first = true ∧ rest.all isWordPart = true := by
    simp only [statementKeywords, List.forall_mem_cons, List.not_mem_nil, false_implies,
      implies_true, and_true]
    and_intros
    all_goals exact ⟨_, _, rfl, by decide, by decide⟩
  obtain ⟨first, rest, rfl, starts, goesOn⟩ := spelled text known
  exact ident_separable starts (List.all_eq_true.mp goesOn)

/-- Words that are lexemes of their own in front of their ends. -/
def AllSeparable (words : List SourceWord) : Prop := ∀ word ∈ words, word.Separable

namespace AllSeparable

variable {words rest : List SourceWord}

theorem nil : AllSeparable [] := List.forall_mem_nil _

theorem append (front : AllSeparable words) (back : AllSeparable rest) :
    AllSeparable (words ++ rest) :=
  List.forall_mem_append.mpr ⟨front, back⟩

theorem name (name : Name) (back : AllSeparable rest) : AllSeparable (name.word :: rest) :=
  List.forall_mem_cons.mpr ⟨name.separable, back⟩

theorem keyword {text : String} (known : text ∈ statementKeywords) (back : AllSeparable rest) :
    AllSeparable (.keyword text :: rest) :=
  List.forall_mem_cons.mpr ⟨keyword_separable known, back⟩

theorem fixed {kind : TokenKind} (known : kind ∈ spelledKinds) (back : AllSeparable rest) :
    AllSeparable (.fixed kind :: rest) :=
  List.forall_mem_cons.mpr ⟨fixed_separable known, back⟩

theorem term (term : Term) : AllSeparable term.words := term.words_separable

theorem semicolon (front : AllSeparable words) : AllSeparable (words ++ [.fixed .semicolon]) :=
  front.append (nil.fixed (by decide))

theorem braces (inside : AllSeparable words) :
    AllSeparable (.fixed .lBrace :: (words ++ [.fixed .rBrace])) :=
  (inside.append (nil.fixed (by decide))).fixed (by decide)

end AllSeparable

mutual

theorem Statement.words_separable (statement : Statement) : AllSeparable statement.words := by
  cases statement with
  | expression value => exact (AllSeparable.term value.1).semicolon
  | assignment target value => exact ((AllSeparable.term value.1).semicolon.fixed (by decide)).name target
  | declaration name value =>
      have assigned : AllSeparable (.fixed .eq :: (value.1.words ++ [.fixed .semicolon])) :=
        (AllSeparable.term value.1).semicolon.fixed (by decide)
      exact (assigned.fixed (by decide)).name name
  | returned value =>
      have valued : AllSeparable (valueWords value ++ [.fixed .semicolon]) := by
        cases value with
        | none => exact AllSeparable.nil.semicolon
        | some value => exact (AllSeparable.term value.1).semicolon
      exact valued.keyword (by decide)
  | jump jump label =>
      have known : jump.text ∈ statementKeywords := by
        cases jump <;> decide
      have labelled : AllSeparable (labelWords label ++ [.fixed .semicolon]) := by
        cases label with
        | none => exact AllSeparable.nil.semicolon
        | some label => exact AllSeparable.nil.semicolon.name label
      exact labelled.keyword known
  | deferred body => exact body.words_separable.keyword (by decide)
  | block statements => exact statements.words_separable.braces
  | loop condition body =>
      exact ((AllSeparable.term condition.1).append body.words_separable.braces).keyword (by decide)
  | branch condition consequence =>
      exact ((AllSeparable.term condition.1).append
        (consequence.words_separable.keyword (by decide))).keyword (by decide)
  | choice condition consequence alternative =>
      have otherwise : AllSeparable (.keyword "else" :: alternative.words) :=
        alternative.words_separable.keyword (by decide)
      have alternatives := consequence.words_separable.append otherwise
      exact ((AllSeparable.term condition.1).append
        (alternatives.keyword (by decide))).keyword (by decide)

theorem Statements.words_separable (statements : Statements) : AllSeparable statements.words := by
  cases statements with
  | none => exact .nil
  | cons first later => exact first.words_separable.append later.words_separable

end

/-! ### Sources of statements -/

def Statements.written (statements : Statements) : List Char := blanked statements.words

theorem Statements.written_spells (statements : Statements) : Spells statements.written statements.words :=
  (LexedAs.blanked statements.words_separable).spells

theorem Statements.sourceFile_takes {statements : Statements} {resync : Bool} {depth : Nat}
    (areRead : statements.AreRead resync depth) :
    sourceFile.Takes resync (readEntry resync depth) .none ⟨statements.words, []⟩ ()
      ⟨[], statements.skeletons.reverse⟩ := by
  have ended (view : View) (sees : view.Sees .none ⟨[], statements.skeletons.reverse ++ []⟩) :
      (!view.isAtEnd) = false := by
    rw [View.isAtEnd, View.isAt, sees.kind]
    rfl
  have goesOn (view : View) (other : view.kind ∉ [TokenKind.rBrace, .eof]) :
      (!view.isAtEnd) = true := by
    have more : view.kind ≠ .eof := List.ne_of_not_mem_cons (List.not_mem_of_not_mem_cons other)
    rw [View.isAtEnd, View.isAt, beq_false_of_ne more]
    rfl
  have loops := areRead _ [] [] _ goesOn .nil .nil (loops_listed_stop ended)
  rw [List.append_nil, List.append_nil] at loops
  exact takes_repeatedly loops

/-- Statements are parsed back from their words, whatever stands between these, if no `else` is written
behind a statement that would take it from its branch. -/
theorem parse_nearest_else (options : ParseOptions) {statements : Statements}
    (nearest : statements.Nearest) :
    Spells statements.written statements.words ∧
      ∀ source, Spells source statements.words →
        (parse options source).errors = [] ∧
          (parse options source).tree.skeleton = .branch none .sourceFile statements.skeletons := by
  refine ⟨statements.written_spells, fun source spells => ?_⟩
  have areRead := statements.areRead options.resyncOnDeclaration nearest
    (3 * (statements.words.length + 1)) (by omega)
  have parsed := spells.parse options (Statements.sourceFile_takes areRead)
  rwa [List.reverse_reverse] at parsed

/-- An `else` belongs to the inner one of two branches. -/
theorem parse_nearest_else_inner : ∃ outer inner consequence alternative,
    (parse {} "if a then if b then c; else d;".toList).errors = [] ∧
      (parse {} "if a then if b then c; else d;".toList).tree.skeleton = .branch none .sourceFile
        (Statements.cons (.branch outer (.choice inner consequence alternative)) .none).skeletons := by
  have spells : Spells "if a then if b then c; else d;".toList
      [.keyword "if", ⟨.ident, "a"⟩, .keyword "then", .keyword "if", ⟨.ident, "b"⟩, .keyword "then",
        ⟨.ident, "c"⟩, .fixed .semicolon, .keyword "else", ⟨.ident, "d"⟩, .fixed .semicolon] :=
    ⟨by decide +kernel, by decide +kernel⟩
  let named (first : Char) (starts : isWordStart first = true)
      (free : String.ofList [first] ∉ reservedWords) : Expression :=
    ⟨.name ⟨first, [], starts, List.forall_mem_nil _, free⟩, trivial⟩
  let outer := named 'a' (by decide) (by decide)
  let inner := named 'b' (by decide) (by decide)
  let consequence := Statement.expression (named 'c' (by decide) (by decide))
  let alternative := Statement.expression (named 'd' (by decide) (by decide))
  have nearest : (Statements.cons (.branch outer (.choice inner consequence alternative))
      .none).Nearest := ⟨⟨id, trivial, trivial⟩, trivial⟩
  exact ⟨outer, inner, consequence, alternative, (parse_nearest_else {} nearest).2 _ spells⟩

end JaiSyntax
