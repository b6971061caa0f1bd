import JaiSyntax.Proofs.Lexer.Rounds
import JaiSyntax.Proofs.Lexer.Words
import Mathlib.Data.List.Basic
/-!
Delimiters and operators. Each has a single spelling, and where one is read no longer spelling of the whole
table stands at its place, those that open comments and strings included. Where the longest one belongs to a
delimiter or an operator, that is read.
-/

set_option autoImplicit false

namespace JaiSyntax

/-! ### Spellings -/

/-- The kinds of delimiters and operators, which stand together in the order of the kinds. -/
def symbolKinds : List TokenKind :=
  TokenKind.all.filter (fun kind =>
    decide (TokenKind.lParen.index ≤ kind.index) && decide (kind.index ≤ TokenKind.andAndEq.index))

def TokenKind.spelling (kind : TokenKind) : List Char := kind.description.toList

/-- Every fixed spelling: those of delimiters and operators, the number sign, and what opens a comment or a
string. -/
def symbolSpellings : List (List Char) :=
  symbolKinds.map TokenKind.spelling ++ [TokenKind.hash.spelling, ['/', '/'], ['/', '*'], ['"']]

/-- The table that the lexer goes through has every spelling but that of the number sign. -/
theorem fixedSpellings_perm : fixedSpellings.Perm
    (symbolKinds.map (fun kind => (kind.spelling, .token kind)) ++
      [(['/', '/'], .lineComment), (['/', '*'], .blockComment), (['"'], .string)]) := by
  decide +kernel

theorem fixedSpellings_nodup : (fixedSpellings.map Prod.fst).Nodup := by
  decide +kernel

theorem fixedSpellings_known : ∀ entry ∈ fixedSpellings, entry.1 ∈ symbolSpellings := by
  decide +kernel

theorem fixedSpellings_descending :
    fixedSpellings.Pairwise (fun earlier later => later.1.length ≤ earlier.1.length) := by
  decide +kernel

theorem mem_symbolSpellings {spelling : List Char} (known : spelling ∈ symbolSpellings) :
    spelling = ['#'] ∨ ∃ starts, (spelling, starts) ∈ fixedSpellings := by
  simp only [symbolSpellings, List.mem_append, List.mem_map, List.mem_cons, List.not_mem_nil,
    or_false] at known
  rcases known with ⟨kind, listed, rfl⟩ | rfl | rfl | rfl | rfl
  · refine Or.inr ⟨.token kind, fixedSpellings_perm.mem_iff.mpr (List.mem_append_left _ ?_)⟩
    exact List.mem_map.mpr ⟨kind, listed, rfl⟩
  · exact Or.inl (by decide)
  · exact Or.inr ⟨.lineComment, by decide⟩
  · exact Or.inr ⟨.blockComment, by decide⟩
  · exact Or.inr ⟨.string, by decide⟩

/-- A spelling that stands for a token is that of its kind. -/
theorem fixedSpellings_token {spelling : List Char} {kind : TokenKind}
    (known : (spelling, .token kind) ∈ fixedSpellings) : kind ∈ symbolKinds ∧ spelling = kind.spelling := by
  rcases List.mem_append.mp (fixedSpellings_perm.mem_iff.mp known) with symbol | other
  · obtain ⟨found, listed, same⟩ := List.mem_map.mp symbol
    cases same
    exact ⟨listed, rfl⟩
  · simp at other

section Longest

variable {α : Type} {holds : α → Bool} {items : List α} {found : α}

/-- Where what comes later is no longer, the first that holds is among the longest. -/
theorem find?_longest {length : α → Nat}
    (descending : items.Pairwise (fun earlier later => length later ≤ length earlier))
    (first : items.find? holds = some found) :
    ∀ item ∈ items, holds item = true → length item ≤ length found := by
  obtain ⟨-, before, after, rfl, none⟩ := List.find?_eq_some_iff_append.mp first
  intro item member satisfied
  rcases List.mem_append.mp member with early | here
  · have unsatisfied := none item early
    rw [satisfied] at unsatisfied
    cases unsatisfied
  · have ordered := (List.pairwise_append.mp descending).2.1
    rcases List.mem_cons.mp here with rfl | late
    · exact Nat.le_refl _
    · exact (List.pairwise_cons.mp ordered).1 item late

end Longest

/-- The spelling that is found at the front of a text is the longest of the table there. -/
theorem fixedSpelling?_longest {text spelling : List Char} {starts : FixedSpelling}
    (found : fixedSpelling? text = some (spelling, starts)) :
    ∀ entry ∈ fixedSpellings, entry.1 <+: text → entry.1.length ≤ spelling.length := by
  intro entry known front
  exact find?_longest fixedSpellings_descending found entry known (List.isPrefixOf_iff_prefix.mpr front)

/-- A spelling at the front of a text that is as long as any other one there. -/
structure SpellsLongest (kind : TokenKind) (text : List Char) : Prop where
  front : kind.spelling <+: text
  longest : ∀ spelling ∈ symbolSpellings, spelling <+: text → spelling.length ≤ kind.spelling.length

section Symbols

variable {kind : TokenKind} {character : Char} {rest : List Char} {piece : Lexeme}

theorem spellsLongest_of_found {spelling : List Char} (other : character ≠ '#')
    (found : fixedSpelling? (character :: rest) = some (spelling, .token kind)) :
    spelling = kind.spelling ∧ SpellsLongest kind (character :: rest) := by
  obtain ⟨listed, front⟩ := fixedSpelling_prefix found
  obtain ⟨-, rfl⟩ := fixedSpellings_token listed
  refine ⟨rfl, front, fun spelling known starts => ?_⟩
  rcases mem_symbolSpellings known with rfl | ⟨meaning, listed⟩
  · exact absurd (List.cons_prefix_cons.mp starts).1.symm other
  · exact fixedSpelling?_longest found _ listed starts

/-- The number sign starts no longer spelling. -/
theorem spellsLongest_hash (rest : List Char) : SpellsLongest .hash ('#' :: rest) := by
  have alone : ∀ spelling ∈ symbolSpellings, spelling.head? = some '#' → spelling.length ≤ 1 := by
    decide +kernel
  refine ⟨⟨rest, rfl⟩, fun spelling known starts => ?_⟩
  cases spelling with
  | nil => exact Nat.zero_le _
  | cons first spelling =>
      obtain ⟨rfl, -⟩ := List.cons_prefix_cons.mp starts
      exact alone _ known rfl

theorem symbolKinds_apart :
    ∀ kind ∈ .hash :: symbolKinds, kind ∉ looseKinds ∧ kind ∉ joinedKinds ∧
      kind ∉ [.int, .float, .eof] := by
  decide +kernel

/-- A delimiter, an operator or a number sign that is read is the longest spelling at its place. -/
theorem frontLexemes_symbol (read : frontLexemes character rest = [piece])
    (symbol : piece.kind ∈ .hash :: symbolKinds) :
    piece.text = piece.kind.spelling ∧ SpellsLongest piece.kind (character :: rest) := by
  obtain ⟨fixed, alone, noNumber⟩ := symbolKinds_apart _ symbol
  have reads := frontLexemes_reads character rest
  rw [read] at reads
  cases reads with
  | number digit =>
      rcases numberLexeme_kind (numberExtent (character :: rest)) _ with kind | kind
      · exact absurd (kind ▸ List.mem_cons_self) noNumber
      · exact absurd (kind ▸ List.mem_cons_of_mem _ List.mem_cons_self) noNumber
  | sign same =>
      subst same
      exact ⟨by decide, spellsLongest_hash rest⟩
  | symbol other found => exact spellsLongest_of_found other found
  | loose known => exact absurd known fixed
  | joined known => exact absurd (known piece (List.mem_singleton_self piece)) alone

/-- Where a delimiter or an operator is the longest spelling, it is found. -/
theorem fixedSpelling?_of_longest {text : List Char} (symbol : kind ∈ symbolKinds)
    (spells : SpellsLongest kind text) :
    fixedSpelling? text = some (kind.spelling, .token kind) := by
  have listed : (kind.spelling, FixedSpelling.token kind) ∈ fixedSpellings :=
    fixedSpellings_perm.mem_iff.mpr
      (List.mem_append_left _ (List.mem_map.mpr ⟨kind, symbol, rfl⟩))
  cases found : fixedSpelling? text with
  | none =>
      have absent := List.find?_eq_none.mp found _ listed
      exact absurd (List.isPrefixOf_iff_prefix.mpr spells.front) absent
  | some entry =>
      obtain ⟨known, front⟩ := fixedSpelling_prefix found
      have least := fixedSpelling?_longest found _ listed spells.front
      have most := spells.longest _ (fixedSpellings_known _ known) front
      have same : entry.1 = kind.spelling :=
        (List.prefix_of_prefix_length_le front spells.front most).eq_of_length (le_antisymm most least)
      exact congrArg some (List.inj_on_of_nodup_map fixedSpellings_nodup known listed same)

/-- The characters that delimiters and operators start with start nothing else. -/
theorem symbolKinds_first : ∀ kind ∈ symbolKinds, ∃ first rest, kind.spelling = first :: rest ∧
    IsSolid first ∧ isWordStart first = false ∧ first.isDigit = false ∧ first ≠ '#' ∧ first ≠ '@' := by
  have all : ∀ kind ∈ symbolKinds, kind.spelling ≠ [] ∧
      (isWhiteSpace (kind.spelling.headD ' ') = false ∧ kind.spelling.headD ' ' ≠ '\\') ∧
        isWordStart (kind.spelling.headD ' ') = false ∧ (kind.spelling.headD ' ').isDigit = false ∧
        kind.spelling.headD ' ' ≠ '#' ∧ kind.spelling.headD ' ' ≠ '@' := by
    decide +kernel
  intro kind symbol
  obtain ⟨some, starts⟩ := all kind symbol
  obtain ⟨first, rest, same⟩ := List.exists_cons_of_ne_nil some
  rw [same] at starts
  exact ⟨first, rest, same, starts⟩

/-- Where a delimiter or an operator is the longest spelling, it is read. -/
theorem frontLexemes_of_longest (symbol : kind ∈ symbolKinds)
    (spells : SpellsLongest kind (character :: rest)) :
    frontLexemes character rest = [.plain kind kind.spelling] := by
  obtain ⟨first, behind, spelling, solid, noWord, noDigit, noSign, noNote⟩ :=
    symbolKinds_first kind symbol
  have front := spells.front
  rw [spelling] at front
  obtain ⟨rfl, -⟩ := List.cons_prefix_cons.mp front
  have word : wordLength (first :: rest) = 0 := by
    simp [wordLength, noWord]
  have found := fixedSpelling?_of_longest symbol spells
  simp only [frontLexemes, whiteSpaceLength_none rest solid, word, noDigit,
    beq_eq_false_iff_ne.mpr noSign, beq_eq_false_iff_ne.mpr noNote, fixedLexemes, found]
  rfl

end Symbols

/-! ### The tokens of a source -/

/-- A delimiter, an operator or a number sign among the tokens of a source is the spelling of its kind, and
no longer one stands at its place. Wherever the lexer comes to a place at which a delimiter or an operator is
the longest spelling, that is the next token. -/
theorem lex_spells_longest (source : List Char) :
    (∀ token ∈ (lex source).tokens, token.kind ∈ .hash :: symbolKinds →
      token.text = token.kind.description ∧
        ∃ before text, source = before ++ text ∧ token.span.start = utf8Length before ∧
          SpellsLongest token.kind text) ∧
      ∀ count, ∀ kind ∈ symbolKinds, SpellsLongest kind (LexState.after source count).rest →
        (LexState.after source (count + 1)).tokens = (LexState.after source count).tokens ++
          [⟨kind, ⟨(LexState.after source count).offset,
            (LexState.after source count).offset + utf8Length kind.spelling⟩, .none,
            kind.description⟩] := by
  constructor
  · intro token member symbol
    obtain ⟨-, alone, other⟩ := symbolKinds_apart _ symbol
    have more : token.kind ≠ .eof := by
      intro ends
      rw [ends] at other
      exact other (by decide)
    obtain ⟨before, character, rest, piece, whole, read, rfl, -⟩ := lex_alone member alone more
    obtain ⟨text, spells⟩ := frontLexemes_symbol read symbol
    refine ⟨?_, before, character :: rest, whole, rfl, spells⟩
    exact (congrArg String.ofList text).trans String.ofList_toList
  · intro count kind symbol spells
    cases ahead : (LexState.after source count).rest with
    | nil =>
        rw [ahead] at spells
        obtain ⟨first, rest, same, -⟩ := symbolKinds_first kind symbol
        rw [List.prefix_nil.mp spells.front] at same
        cases same
    | cons character rest =>
        rw [ahead] at spells
        rw [LexState.after_succ, LexState.step_emit ahead, frontLexemes_of_longest symbol spells]
        simp only [LexState.emit, tokensFrom, Lexeme.plain, TokenKind.spelling, String.ofList_toList]

/-- A rotation with an assignment next to a comment, and a point after two points. -/
theorem lex_spells_longest_rotation :
    ∃ before text, "x<<<=/**/...".toList = before ++ text ∧ utf8Length before = 1 ∧
      SpellsLongest .rotLEq text ∧
      (LexState.after "x<<<=/**/...".toList 4).tokens =
        (LexState.after "x<<<=/**/...".toList 3).tokens ++ [⟨.dotDot, ⟨9, 11⟩, .none, ".."⟩] := by
  have member : (⟨.rotLEq, ⟨1, 5⟩, .none, "<<<="⟩ : Token) ∈ (lex "x<<<=/**/...".toList).tokens := by
    decide +kernel
  obtain ⟨-, before, text, whole, start, spells⟩ :=
    (lex_spells_longest _).1 _ member (by decide +kernel)
  have points : SpellsLongest .dotDot (LexState.after "x<<<=/**/...".toList 3).rest := by
    refine ⟨by decide +kernel, by decide +kernel⟩
  have next := (lex_spells_longest _).2 3 _ (by decide +kernel) points
  exact ⟨before, text, whole, start.symm, spells, next⟩

end JaiSyntax
