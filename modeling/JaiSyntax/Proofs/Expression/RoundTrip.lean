import JaiSyntax.Proofs.Expression.Reading
import JaiSyntax.Proofs.Expression.Spelling
import JaiSyntax.Proofs.Reading.Declaration
/-!
Terms are parsed back from what they are written as. With parentheses around just the operands that need
them, and with whatever layout between its words, a term is the value of the variable that is declared
with it.
-/

set_option autoImplicit false

namespace JaiSyntax

open Production

namespace Term

theorem words_ne_nil (term : Term) : term.words ≠ [] := by
  obtain ⟨first, more, words, -⟩ := term.words_eq
  exact words ▸ List.cons_ne_nil first more

def declaration (name : SourceWord) (term : Term) : List SourceWord :=
  name :: .fixed .colon :: .fixed .eq :: (term.words ++ [.fixed .semicolon])

def declared (name : SourceWord) (term : Term) : Skeleton :=
  .branch none .sourceFile
    [.branch none .variableDeclaration
      [name.leaf (some .name), (SourceWord.fixed .colon).leaf none, (SourceWord.fixed .eq).leaf none,
        term.skeleton.withField (some .value)],
      (SourceWord.fixed .semicolon).leaf none]

/-- A term that needs no further parentheses is parsed back from its words. -/
theorem parse_declaration {term : Term} (grouped : term.Grouped) {name : SourceWord}
    (named : name.kind = .ident) {source : List Char} (spells : Spells source (term.declaration name))
    (options : ParseOptions) :
    (parse options source).errors = [] ∧ (parse options source).tree.skeleton = term.declared name := by
  have closing : Quiet [SourceWord.fixed .semicolon] :=
    Quiet.cons ⟨TokenKind.noConfusion, TokenKind.noConfusion⟩ (List.forall_mem_nil _)
  have colon : TokenKind.colon ∈ [TokenKind.colon, .colonColon] := List.mem_cons_self
  have semicolon : TokenKind.semicolon ∈ closerKinds := by decide
  have whole : Spells source
      (name :: ((.fixed .colon :: .fixed .eq :: term.words) ++ [.fixed .semicolon])) := spells
  refine whole.parse_declaration named colon (Or.inl rfl) options (fun depth deep => ?_)
  rw [List.length_cons, List.length_cons] at deep
  obtain ⟨shallower, rfl⟩ : ∃ shallower, depth = shallower + 1 := ⟨depth - 1, by omega⟩
  have climbs := (term.climbs options.resyncOnDeclaration grouped shallower (by omega)).2
  have read := climbs.expression closing semicolon
  refine takes_typedTail TokenKind.noConfusion (typedDefinition_takes_value ?_)
  exact takes_commaSeparated (read.tagged .value) TokenKind.noConfusion

def written (term : Term) : List Char :=
  "x := ".toList ++ spaced term.grouped.words ++ [';']

theorem written_spells (term : Term) :
    Spells term.written (term.grouped.declaration ⟨.ident, "x"⟩) := by
  have separable := term.grouped.words_separable
  have value := LexedAs.spaced term.grouped.words_ne_nil separable
  obtain ⟨character, more, whole, solid⟩ :=
    spaced_solid term.grouped.words_ne_nil separable [';']
  have equals : frontLexemes '=' (' ' :: (spaced term.grouped.words ++ [';'])) =
      [.plain .eq ['=']] := rfl
  have colon : frontLexemes ':' ('=' :: ' ' :: (spaced term.grouped.words ++ [';'])) =
      [.plain .colon [':']] := rfl
  have name : frontLexemes 'x' (' ' :: ':' :: '=' :: ' ' :: (spaced term.grouped.words ++ [';'])) =
      [.plain .ident ['x']] := rfl
  have assigned := LexedAs.cons (lexemes_front equals rfl) ⟨by decide, by decide, rfl⟩ rfl
    (value.space whole solid)
  have typed := LexedAs.cons (lexemes_front colon rfl) ⟨by decide, by decide, rfl⟩ rfl assigned
  have named := LexedAs.cons (lexemes_front name rfl) ⟨by decide, by decide, rfl⟩ rfl
    (typed.space rfl ⟨by decide, by decide⟩)
  exact named.spells

/-- A variable that is declared by a term has this term as its value. The parentheses in it are those
that the levels of its operators ask for, and no others. -/
theorem parse_written (options : ParseOptions) (term : Term) :
    ((parse options term.written).errors = [] ∧
      (parse options term.written).tree.skeleton = term.grouped.declared ⟨.ident, "x"⟩) ∧
      term.grouped.bare = term.bare ∧ (term.Grouped → term.grouped = term) :=
  ⟨parse_declaration term.grouped_grouped rfl term.written_spells options, term.bare_grouped,
    term.grouped_eq⟩

end Term

end JaiSyntax
