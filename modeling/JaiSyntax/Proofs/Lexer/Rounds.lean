import JaiSyntax.Proofs.Lexer.Driver
import JaiSyntax.Proofs.Lexer.Groups
/-!
The tokens that the lexer reads one at a time. Only strings and heredocs give several lexemes at once, so a
token of a kind that occurs in neither is all that is read at its place, and the errors that start there are
its own.
-/

set_option autoImplicit false

namespace JaiSyntax

/-! ### Kinds in strings and heredocs -/

/-- The kinds of tokens that can be read together with others. -/
def joinedKinds : List TokenKind :=
  [.quote, .stringContent, .escapeSequence, .directive, .whitespace, .heredocStart, .heredocBody,
   .heredocEnd, .error]

section Joined

variable {kind : TokenKind} {piece : Lexeme} {pieces : List Lexeme}

theorem joined_single (known : piece.kind ∈ joinedKinds) :
    ∀ other ∈ [piece], other.kind ∈ joinedKinds := List.forall_mem_singleton.mpr known

theorem joined_unlessEmpty (known : kind ∈ joinedKinds) (text : List Char) :
    ∀ piece ∈ unlessEmpty kind text, piece.kind ∈ joinedKinds := by
  unfold unlessEmpty
  split
  · exact List.forall_mem_nil _
  · exact joined_single known

theorem stringLexemes_joined (text : List Char) :
    ∀ piece ∈ stringLexemes text, piece.kind ∈ joinedKinds := by
  have quote : TokenKind.quote ∈ joinedKinds := by decide
  unfold stringLexemes
  split
  · next pieces closes =>
      obtain ⟨body, closing, rfl, string⟩ := stringLexemesFrom_closes _ _ pieces closes
      have inside : ∀ piece ∈ body, piece.kind ∈ joinedKinds := by
        intro piece member
        rcases string.kinds piece member with kind | kind
        · rw [kind]
          decide
        · rw [kind]
          decide
      have last : closing.kind ∈ joinedKinds := string.closes ▸ quote
      exact List.forall_mem_cons.mpr
        ⟨quote, List.forall_mem_append.mpr ⟨inside, joined_single last⟩⟩
  · have invalid : TokenKind.error ∈ joinedKinds := by decide
    exact joined_single invalid

theorem heredocLexemes_joined (length : Nat) (text : List Char) :
    ∀ piece ∈ heredocLexemes length text, piece.kind ∈ joinedKinds := by
  have directive : TokenKind.directive ∈ joinedKinds := by decide
  have start : TokenKind.heredocStart ∈ joinedKinds := by decide
  have blank : TokenKind.whitespace ∈ joinedKinds := by decide
  rcases heredocLexemes_cases length text with
    bare | ⟨blanks, delimiter, body, closing, closed⟩ | ⟨blanks, delimiter, body, opened, -⟩
  · rw [bare]
    exact joined_single directive
  · have inside : TokenKind.heredocBody ∈ joinedKinds := by decide
    have last : TokenKind.heredocEnd ∈ joinedKinds := by decide
    rw [closed]
    exact List.forall_mem_append.mpr ⟨List.forall_mem_append.mpr
      ⟨List.forall_mem_cons.mpr ⟨directive, joined_unlessEmpty blank blanks⟩,
        List.forall_mem_cons.mpr ⟨start, joined_unlessEmpty inside body⟩⟩,
      joined_single last⟩
  · have inside : TokenKind.error ∈ joinedKinds := by decide
    rw [opened]
    exact List.forall_mem_append.mpr
      ⟨List.forall_mem_cons.mpr ⟨directive, joined_unlessEmpty blank blanks⟩,
        List.forall_mem_cons.mpr ⟨start, joined_unlessEmpty inside body⟩⟩

end Joined

/-! ### What is read at once -/

def looseKinds : List TokenKind :=
  [.whitespace, .ident, .directive, .note, .lineComment, .blockComment]

/-- What is read at a place: a number, a number sign, a delimiter or an operator, a word or layout, or
lexemes that are read together. -/
inductive ReadsFront (character : Char) (rest : List Char) : List Lexeme → Prop where
  | number (digit : character.isDigit = true) :
      ReadsFront character rest [numberLexeme (numberExtent (character :: rest))
        ((character :: rest).take (numberExtent (character :: rest)).length)]
  | sign (same : character = '#') : ReadsFront character rest [.plain .hash ['#']]
  | symbol {spelling : List Char} {kind : TokenKind} (other : character ≠ '#')
      (found : fixedSpelling? (character :: rest) = some (spelling, .token kind)) :
      ReadsFront character rest [.plain kind spelling]
  | loose {piece : Lexeme} (known : piece.kind ∈ looseKinds) : ReadsFront character rest [piece]
  | joined {pieces : List Lexeme} (known : ∀ piece ∈ pieces, piece.kind ∈ joinedKinds) :
      ReadsFront character rest pieces

section Front

variable {character : Char} {rest : List Char}

theorem ReadsFront.plain {kind : TokenKind} (known : kind ∈ looseKinds) (text : List Char) :
    ReadsFront character rest [.plain kind text] := .loose known

theorem ReadsFront.invalid (text : List Char) (fault : LexFault) :
    ReadsFront character rest [.faulty .error text .none fault] := by
  have known : TokenKind.error ∈ joinedKinds := by decide
  exact .joined (joined_single known)

theorem fixedLexemes_reads (other : character ≠ '#') :
    ReadsFront character rest (fixedLexemes character (character :: rest)) := by
  unfold fixedLexemes
  split
  · next spelling kind found => exact .symbol other found
  · exact .plain (by decide) _
  · unfold blockCommentLexeme
    split
    · exact .plain (by decide) _
    · exact .invalid _ _
  · exact .joined (stringLexemes_joined _)
  · exact .invalid _ _

theorem directiveLexemes_reads : ReadsFront '#' rest (directiveLexemes ('#' :: rest)) := by
  unfold directiveLexemes
  simp only
  split
  · next bare =>
      rw [beq_iff_eq.mp bare]
      exact .sign rfl
  split
  · exact .joined (heredocLexemes_joined _ _)
  · exact .plain (by decide) _

theorem frontLexemes_reads (character : Char) (rest : List Char) :
    ReadsFront character rest (frontLexemes character rest) := by
  unfold frontLexemes
  simp only
  split
  · exact .plain (by decide) _
  split
  · exact .plain (by decide) _
  split
  · next digit => exact .number digit
  split
  · next sign =>
      obtain rfl := beq_iff_eq.mp sign
      exact directiveLexemes_reads
  next other =>
  split
  · exact .plain (by decide) _
  · exact fixedLexemes_reads (fun same => other (beq_iff_eq.mpr same))

theorem frontLexemes_joined (character : Char) (rest : List Char) :
    (∃ piece, frontLexemes character rest = [piece]) ∨
      ∀ piece ∈ frontLexemes character rest, piece.kind ∈ joinedKinds := by
  have reads := frontLexemes_reads character rest
  generalize frontLexemes character rest = front at reads ⊢
  cases reads with
  | number digit => exact Or.inl ⟨_, rfl⟩
  | sign same => exact Or.inl ⟨_, rfl⟩
  | symbol other found => exact Or.inl ⟨_, rfl⟩
  | loose known => exact Or.inl ⟨_, rfl⟩
  | joined known => exact Or.inr known

end Front

/-! ### Lexemes read alone -/

/-- A lexeme of another kind is what is read at the place where the lexemes from it on start. -/
theorem lexemes_alone {source : List Char} {front back : List Lexeme} {piece : Lexeme}
    (same : lexemes source = front ++ piece :: back) (alone : piece.kind ∉ joinedKinds) :
    ∃ character rest, joinLexemes (piece :: back) = character :: rest ∧
      frontLexemes character rest = [piece] := by
  induction length : source.length using Nat.strongRecOn generalizing source front with
  | ind size ih =>
      cases source with
      | nil => exact absurd same (by simp [lexemes, lexemesFrom])
      | cons character rest =>
          obtain ⟨⟨tail, covers⟩, -⟩ := (frontLexemes_cut character rest).1
          have some := List.length_pos_iff.mpr (frontLexemes_cut character rest).2
          have parted := lexemes_front rfl covers.symm
          have shorter : tail.length < size := by
            have lengths := congrArg List.length covers
            rw [List.length_append, length] at lengths
            omega
          rw [parted] at same
          rcases List.append_eq_append_iff.mp same with ⟨later, rfl, inside⟩ | ⟨later, first, inside⟩
          · exact ih tail.length shorter inside rfl
          · cases later with
            | nil =>
                have whole : lexemes tail = [] ++ piece :: back := inside.symm
                exact ih tail.length shorter whole rfl
            | cons other later =>
                obtain ⟨rfl, rfl⟩ := List.cons.inj inside
                have member : piece ∈ frontLexemes character rest := by simp [first]
                rcases frontLexemes_joined character rest with ⟨single, only⟩ | joined
                · -- The front is the lexeme alone, so the lexemes before it are none.
                  rw [only] at first
                  obtain ⟨rfl, none⟩ : front = [] ∧ [single] = piece :: later := by
                    cases front with
                    | nil => exact ⟨rfl, first⟩
                    | cons other front => simp at first
                  obtain ⟨rfl, rfl⟩ := List.cons.inj none
                  refine ⟨character, rest, ?_, only⟩
                  rw [← joinLexemes_lexemes (character :: rest), parted, only]
                  rfl
                · exact absurd (joined piece member) alone

/-! ### Tokens read alone -/

def lexErrorsAt (source : List Char) (offset : Nat) : List LexError :=
  (lex source).errors.filter (fun error => error.span.start == offset)

def Lexeme.token (piece : Lexeme) (offset : Nat) : Token :=
  ⟨piece.kind, ⟨offset, offset + utf8Length piece.text⟩, piece.value, String.ofList piece.text⟩

theorem tokensFrom_split {offset : Nat} {pieces : List Lexeme} {token : Token}
    (member : token ∈ tokensFrom offset pieces) :
    ∃ front piece back, pieces = front ++ piece :: back ∧
      token = piece.token (offset + utf8Length (joinLexemes front)) := by
  induction pieces generalizing offset with
  | nil => cases member
  | cons first pieces ih =>
      rcases List.mem_cons.mp member with rfl | later
      · exact ⟨[], first, pieces, rfl, rfl⟩
      · obtain ⟨front, piece, back, rfl, same⟩ := ih later
        have joined : joinLexemes (first :: front) = first.text ++ joinLexemes front := List.flatMap_cons
        refine ⟨first :: front, piece, back, rfl, ?_⟩
        rw [joined, utf8Length_append, ← Nat.add_assoc]
        exact same

/-- The errors that start where a lexeme does are its own. -/
theorem lexErrorsAt_lexeme {source : List Char} {front back : List Lexeme} {piece : Lexeme}
    (same : lexemes source = front ++ piece :: back) :
    lexErrorsAt source (utf8Length (joinLexemes front)) =
      lexErrorsFrom (utf8Length (joinLexemes front)) [piece] := by
  have filled := lexemes_nonempty source
  rw [same] at filled
  obtain ⟨before, rest⟩ := List.forall_mem_append.mp filled
  obtain ⟨here, behind⟩ := List.forall_mem_cons.mp rest
  have earlier := lexErrorsFrom_start 0 before
  have later := (lexErrorsFrom_ordered
    (utf8Length (joinLexemes front) + utf8Length piece.text) back behind).1
  have positive := utf8Length_pos here
  have joined : joinLexemes [piece] = piece.text := List.flatMap_singleton _ _
  have errors : (lex source).errors = lexErrorsFrom 0 front ++
      (lexErrorsFrom (utf8Length (joinLexemes front)) [piece] ++
        lexErrorsFrom (utf8Length (joinLexemes front) + utf8Length piece.text) back) := by
    change lexErrorsFrom 0 (lexemes source) = _
    rw [same, List.append_cons, lexErrorsFrom_append, lexErrorsFrom_append, joinLexemes_append,
      utf8Length_append, joined, Nat.zero_add, Nat.zero_add, List.append_assoc]
  have own : ∀ error ∈ lexErrorsFrom (utf8Length (joinLexemes front)) [piece],
      (error.span.start == utf8Length (joinLexemes front)) = true := by
    rw [lexErrorsFrom]
    cases piece.problem with
    | none => exact List.forall_mem_nil _
    | some problem => exact List.forall_mem_singleton.mpr (beq_self_eq_true _)
  rw [lexErrorsAt, errors, List.filter_append, List.filter_append, List.filter_eq_self.mpr own,
    List.filter_eq_nil_iff.mpr, List.filter_eq_nil_iff.mpr, List.nil_append, List.append_nil]
  · intro error member same
    have := later error member
    have := beq_iff_eq.mp same
    omega
  · intro error member same
    have := earlier error member
    have := beq_iff_eq.mp same
    omega

/-- A token that no string or heredoc contains is read alone at its place, and the errors that start there
are its own. -/
theorem lex_alone {source : List Char} {token : Token} (member : token ∈ (lex source).tokens)
    (alone : token.kind ∉ joinedKinds) (more : token.kind ≠ .eof) :
    ∃ before character rest piece, source = before ++ character :: rest ∧
      frontLexemes character rest = [piece] ∧ token = piece.token (utf8Length before) ∧
      lexErrorsAt source token.span.start = lexErrorsFrom (utf8Length before) [piece] := by
  have content : token ∈ tokensFrom 0 (lexemes source) := by
    rcases List.mem_append.mp member with content | last
    · exact content
    · rw [List.mem_singleton.mp last] at more
      exact absurd rfl more
  obtain ⟨front, piece, back, same, rfl⟩ := tokensFrom_split content
  rw [Nat.zero_add]
  obtain ⟨character, rest, ahead, read⟩ := lexemes_alone same alone
  refine ⟨joinLexemes front, character, rest, piece, ?_, read, rfl, lexErrorsAt_lexeme same⟩
  rw [← ahead, ← joinLexemes_append, ← same, joinLexemes_lexemes]

end JaiSyntax
