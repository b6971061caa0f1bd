import JaiSyntax.Proofs.Heredoc.Closing
import JaiSyntax.Proofs.Locality.Tokens
import JaiSyntax.Proofs.Reading.Stage
/-!
Heredocs read back. A body between its framing lines, none of which closes it, is lexed to the tokens of the
heredoc, and its text comes out of them as it was written, whatever stands in it.
-/

set_option autoImplicit false

namespace JaiSyntax

open SourceUnit

/-! ### Lines of a body -/

section Lines

variable {stop : Char} {text more line indent delimiter body rest : List Char}

theorem feed_notMem_line (member : line ∈ body.splitOn '\n') : '\n' ∉ line := by
  induction body generalizing line with
  | nil =>
      cases List.mem_singleton.mp member
      exact List.not_mem_nil
  | cons character body ih =>
      rw [List.splitOn_cons_eq_if_modifyHead] at member
      split at member
      · rcases List.mem_cons.mp member with rfl | later
        · exact List.not_mem_nil
        · exact ih later
      · next other =>
          obtain ⟨first, lines, same⟩ := List.exists_cons_of_ne_nil (List.splitOn_ne_nil '\n' body)
          rw [same, List.modifyHead_cons] at member
          rcases List.mem_cons.mp member with rfl | later
          · have apart : '\n' ∉ first := ih (same ▸ List.mem_cons_self)
            have differs : '\n' ≠ character := by
              rintro rfl
              exact other (beq_self_eq_true _)
            exact fun found => (List.mem_cons.mp found).elim differs apart
          · exact ih (same ▸ List.mem_cons_of_mem _ later)

theorem flatMap_splitOn (body : List Char) :
    (body.splitOn '\n').flatMap (fun line => '\n' :: line) = '\n' :: body := by
  induction body with
  | nil => rfl
  | cons character body ih =>
      rw [List.splitOn_cons_eq_if_modifyHead]
      split
      · next feed =>
          rw [List.flatMap_cons, ih, eq_of_beq feed]
          rfl
      · obtain ⟨first, lines, same⟩ := List.exists_cons_of_ne_nil (List.splitOn_ne_nil '\n' body)
        rw [same, List.flatMap_cons, List.cons_append] at ih
        rw [same, List.modifyHead_cons, List.flatMap_cons, List.cons_append, List.cons_append,
          (List.cons.inj ih).2]

/-- What closes a heredoc on a line stands before the line feed that ends the line. -/
theorem IsClosingLine.of_append (closes : IsClosingLine delimiter indent (line ++ stop :: more))
    (absent : stop ∉ indent ++ delimiter) : IsClosingLine delimiter indent line := by
  obtain ⟨blank, spelled, ended⟩ := closes
  have prefixed := List.isPrefixOf_iff_prefix.mpr spelled
  rw [isPrefixOf_append absent] at prefixed
  have inside := List.isPrefixOf_iff_prefix.mp prefixed
  refine ⟨blank, inside, fun unit member => ended unit ?_⟩
  rw [List.drop_append_of_le_length inside.length_le]
  exact List.mem_head?_append_of_mem_head? member

/-- A line of the body of a heredoc: it goes up to a line feed and does not close the heredoc. -/
structure IsBodyLine (delimiter line : List Char) : Prop where
  feedless : '\n' ∉ line
  continues : ∀ indent, ¬ IsClosingLine delimiter indent line

theorem heredocBodyFrom_feedless (feedless : '\n' ∉ line) (covered : Nat) (text : List Char) :
    heredocBodyFrom delimiter covered (line ++ text) =
      heredocBodyFrom delimiter (covered + line.length) text := by
  induction line generalizing covered with
  | nil => rfl
  | cons character line ih =>
      obtain ⟨differs, later⟩ := not_or.mp (fun found => feedless (List.mem_cons.mpr found))
      have other : is '\n' character = false := by
        exact Bool.eq_false_iff.mpr (fun feed => differs ((is_iff _ _).mp feed).symm)
      rw [List.cons_append, heredocBodyFrom, other, if_neg Bool.false_ne_true, ih later]
      congr 1
      rw [List.length_cons]
      omega

theorem heredocBodyFrom_lines {lines : List (List Char)} (feedless : '\n' ∉ delimiter)
    (inside : ∀ line ∈ lines, IsBodyLine delimiter line) (covered : Nat) (more : List Char) :
    heredocBodyFrom delimiter covered (lines.flatMap (fun line => '\n' :: line) ++ '\n' :: more) =
      heredocBodyFrom delimiter (covered + (lines.flatMap (fun line => '\n' :: line)).length)
        ('\n' :: more) := by
  induction lines generalizing covered with
  | nil => rfl
  | cons line lines ih =>
      obtain ⟨own, later⟩ := List.forall_mem_cons.mp inside
      -- Behind the line there is a line feed again, of another line or of the closing one.
      obtain ⟨after, behind⟩ : ∃ after,
          lines.flatMap (fun line => '\n' :: line) ++ '\n' :: more = '\n' :: after := by
        cases lines <;> exact ⟨_, rfl⟩
      have passed : closingIndent? delimiter (line ++ '\n' :: after) = none := by
        cases found : closingIndent? delimiter (line ++ '\n' :: after) with
        | none => rfl
        | some blanks =>
            obtain ⟨closes, -⟩ := isClosingLine_of_closingIndent found
            refine absurd (closes.of_append ?_) (own.continues _)
            intro found
            rcases List.mem_append.mp found with blank | letter
            · exact absurd (closes.blank _ blank) (by decide)
            · exact feedless letter
      rw [List.flatMap_cons, List.append_assoc, List.cons_append, heredocBodyFrom, if_pos (by decide),
        behind, passed]
      change heredocBodyFrom delimiter (covered + 1) (line ++ '\n' :: after) = _
      rw [heredocBodyFrom_feedless own.feedless, ← behind, ih later]
      congr 1
      rw [List.length_append, List.length_cons]
      omega

/-- The text of a heredoc is what stands between the line feed of its opening line and the line feed and
the blanks before its closing delimiter. -/
theorem heredocText_framed (noReturn : body.getLast? ≠ some '\r')
    (blank : ∀ unit ∈ indent, isBlank unit = true) :
    heredocText ('\n' :: body ++ '\n' :: indent) = body := by
  have blanks : ∀ unit ∈ indent.reverse, (unit == ' ' || unit == '\t') = true := by
    intro unit member
    have holds := blank unit (List.mem_reverse.mp member)
    simpa [isBlank, is_iff] using holds
  have lines : (('\n' :: body ++ '\n' :: indent).dropWhile (fun character => character != '\n')).drop 1 =
      body ++ '\n' :: indent := rfl
  have backwards : (body ++ '\n' :: indent).reverse.dropWhile
      (fun character => character == ' ' || character == '\t') = '\n' :: body.reverse := by
    rw [List.reverse_append, List.reverse_cons, List.append_assoc, List.dropWhile_append_of_pos blanks]
    rfl
  have kept : (body.reverse.head? == some '\r') = false := by
    rw [List.head?_reverse]
    simpa using noReturn
  unfold heredocText
  simp only [lines, backwards, List.head?_cons, beq_self_eq_true, if_true, List.drop_succ_cons,
    List.drop_zero, kept, Bool.false_eq_true, if_false, List.reverse_reverse]

end Lines

/-! ### Heredocs -/

/-- What the parts of a heredoc have to be, and what may follow it, for the heredoc to be read back. -/
structure HeredocFits (delimiter body indent rest : List Char) : Prop where
  named : delimiter ≠ []
  solid : ∀ unit ∈ delimiter, isSpace unit = false
  noReturn : body.getLast? ≠ some '\r'
  continues : ∀ line ∈ body.splitOn '\n', ∀ blanks, ¬ IsClosingLine delimiter blanks line
  blank : ∀ unit ∈ indent, isBlank unit = true
  apart : ∀ unit ∈ rest.head?, continuesWord unit = false

def heredocSpelling (delimiter body indent : List Char) : List Char :=
  heredocDirective ++ ' ' :: delimiter ++ '\n' :: body ++ '\n' :: indent ++ delimiter

def heredocPieces (delimiter body indent : List Char) : List Lexeme :=
  [.plain .directive heredocDirective, .plain .whitespace [' '], .plain .heredocStart delimiter,
    .plain .heredocBody ('\n' :: body ++ '\n' :: indent), .plain .heredocEnd delimiter]

section Heredocs

variable {delimiter body indent rest : List Char}

theorem joinLexemes_heredocPieces (delimiter body indent : List Char) :
    joinLexemes (heredocPieces delimiter body indent) = heredocSpelling delimiter body indent := by
  simp [joinLexemes, heredocPieces, heredocSpelling, Lexeme.plain]

theorem frontLexemes_heredoc (more : List Char) :
    frontLexemes '#' (['s', 't', 'r', 'i', 'n', 'g'] ++ ' ' :: more) =
      heredocLexemes heredocDirective.length (heredocDirective ++ ' ' :: more) := by
  have word : wordLength (['s', 't', 'r', 'i', 'n', 'g'] ++ ' ' :: more) = 6 := by
    rw [wordLength_append (separates List.mem_cons_self)]
    decide
  have directive : frontLexemes '#' (['s', 't', 'r', 'i', 'n', 'g'] ++ ' ' :: more) =
      directiveLexemes ('#' :: (['s', 't', 'r', 'i', 'n', 'g'] ++ ' ' :: more)) := rfl
  rw [directive, directiveLexemes, List.drop_succ_cons, List.drop_zero, word]
  rfl

namespace HeredocFits

theorem isBodyLine (fits : HeredocFits delimiter body indent rest) :
    ∀ line ∈ body.splitOn '\n', IsBodyLine delimiter line :=
  fun line member => ⟨feed_notMem_line member, fits.continues line member⟩

theorem feed_notMem (fits : HeredocFits delimiter body indent rest) : '\n' ∉ delimiter :=
  fun found => absurd (fits.solid _ found) (by decide)

theorem head_solid (fits : HeredocFits delimiter body indent rest) :
    ∀ unit ∈ delimiter.head?, isBlank unit = false := by
  intro unit member
  have solid := fits.solid unit (List.mem_of_head? member)
  simp only [isSpace, Bool.or_eq_false_iff] at solid
  exact solid.1.1.1

theorem closes (fits : HeredocFits delimiter body indent rest) :
    closingIndent? delimiter (indent ++ (delimiter ++ rest)) = some indent.length := by
  have line : IsClosingLine delimiter indent (indent ++ (delimiter ++ rest)) := by
    rw [← List.append_assoc]
    refine ⟨fits.blank, List.prefix_append _ _, ?_⟩
    rw [List.drop_left]
    exact fits.apart
  exact line.closingIndent_eq_some fits.named fits.head_solid

theorem heredocBody_eq (fits : HeredocFits delimiter body indent rest) :
    heredocBody delimiter ('\n' :: body ++ '\n' :: indent ++ (delimiter ++ rest)) =
      (true, ('\n' :: body ++ '\n' :: indent).length) := by
  have parted : '\n' :: body ++ '\n' :: indent ++ (delimiter ++ rest) =
      '\n' :: body ++ '\n' :: (indent ++ (delimiter ++ rest)) := List.append_assoc _ _ _
  rw [heredocBody, parted, ← flatMap_splitOn,
    heredocBodyFrom_lines fits.feed_notMem fits.isBodyLine, heredocBodyFrom, if_pos (by decide),
    fits.closes]
  simp only [Prod.mk.injEq, true_and, List.length_append, List.length_cons]
  omega

theorem heredocDelimiter_eq (fits : HeredocFits delimiter body indent rest) (more : List Char) :
    heredocDelimiter (' ' :: (delimiter ++ '\n' :: more)) = (1, delimiter.length) := by
  have blanks : runLength isBlank ([' '] ++ (delimiter ++ '\n' :: more)) = 1 := by
    refine runLength_front (List.forall_mem_singleton.mpr rfl) ?_
    rw [List.head?_append_of_ne_nil _ fits.named]
    exact fits.head_solid
  have word : runLength (fun unit => !isSpace unit) (delimiter ++ '\n' :: more) = delimiter.length := by
    refine runLength_front (fun unit member => ?_) (by rintro unit ⟨⟩; rfl)
    rw [fits.solid unit member]
    rfl
  rw [heredocDelimiter]
  simp only [List.singleton_append] at blanks
  rw [blanks]
  exact congrArg (Prod.mk 1) word

theorem heredocLexemes_eq (fits : HeredocFits delimiter body indent rest) :
    heredocLexemes heredocDirective.length (heredocDirective ++
        ' ' :: (delimiter ++ ('\n' :: body ++ '\n' :: indent ++ (delimiter ++ rest)))) =
      heredocPieces delimiter body indent := by
  have found : heredocDelimiter
      (' ' :: (delimiter ++ ('\n' :: body ++ '\n' :: indent ++ (delimiter ++ rest)))) =
        (1, delimiter.length) := fits.heredocDelimiter_eq _
  have some : (delimiter.length == 0) = false := by
    simpa using fits.named
  unfold heredocLexemes
  simp only [List.drop_left, List.take_left, found, some, Bool.false_eq_true, if_false,
    List.drop_succ_cons, List.drop_zero, fits.heredocBody_eq, if_true]
  rfl

theorem lexemes_eq (fits : HeredocFits delimiter body indent rest) :
    lexemes (heredocSpelling delimiter body indent ++ rest) =
      heredocPieces delimiter body indent ++ lexemes rest := by
  have whole : heredocSpelling delimiter body indent ++ rest = '#' :: (['s', 't', 'r', 'i', 'n', 'g'] ++
      ' ' :: (delimiter ++ ('\n' :: body ++ '\n' :: indent ++ (delimiter ++ rest)))) := by
    simp [heredocSpelling, heredocDirective]
  rw [whole]
  refine lexemes_front ?_ ?_
  · rw [frontLexemes_heredoc, fits.heredocLexemes_eq]
  · rw [joinLexemes_heredocPieces, ← whole]

end HeredocFits

/-- A heredoc whose body has no line that closes it is read back, whatever else stands in the body: its
tokens come before those of the rest, it has no error of its own, and its text is the body. -/
theorem lex_heredoc (fits : HeredocFits delimiter body indent rest) :
    ∃ directive blank opening inside closing : Token,
      (lex (heredocSpelling delimiter body indent ++ rest)).tokens =
          [directive, blank, opening, inside, closing] ++ (lex rest).tokens.map
            (Token.shift (utf8Length (heredocSpelling delimiter body indent))) ∧
        [directive, blank, opening, inside, closing].map Token.word =
          [⟨.directive, "#string"⟩, ⟨.whitespace, " "⟩, ⟨.heredocStart, String.ofList delimiter⟩,
            ⟨.heredocBody, String.ofList ('\n' :: body ++ '\n' :: indent)⟩,
            ⟨.heredocEnd, String.ofList delimiter⟩] ∧
        (lex (heredocSpelling delimiter body indent ++ rest)).errors =
          (lex rest).errors.map
            (LexError.shift (utf8Length (heredocSpelling delimiter body indent))) ∧
        heredocText (inside.span.text (heredocSpelling delimiter body indent ++ rest)) = body := by
  obtain ⟨tokens, errors⟩ := lex_of_lexemes fits.lexemes_eq
  rw [joinLexemes_heredocPieces] at tokens errors
  refine ⟨_, _, _, _, _, tokens, rfl, errors, ?_⟩
  have whole : heredocSpelling delimiter body indent ++ rest = (heredocDirective ++ ' ' :: delimiter) ++
      (('\n' :: body ++ '\n' :: indent) ++ (delimiter ++ rest)) := by
    simp [heredocSpelling]
  have place : 0 + utf8Length heredocDirective + utf8Length [' '] + utf8Length delimiter =
      utf8Length (heredocDirective ++ ' ' :: delimiter) := by
    rw [utf8Length_append, Nat.zero_add, Nat.add_assoc, ← utf8Length_append]
    rfl
  simp only [Lexeme.plain]
  rw [place, whole, span_text, heredocText_framed fits.noReturn fits.blank]

/-- Longer words and a delimiter behind other text do not end a body. -/
theorem lex_heredoc_near_misses :
    HeredocFits "END".toList " ENDING\n\tEND_\n\n/* \"END".toList "\t ".toList ";".toList ∧
      ∃ inside ∈ (lex "#string END\n ENDING\n\tEND_\n\n/* \"END\n\t END;".toList).tokens,
        inside.kind = .heredocBody ∧
          heredocText
              (inside.span.text "#string END\n ENDING\n\tEND_\n\n/* \"END\n\t END;".toList) =
            " ENDING\n\tEND_\n\n/* \"END".toList := by
  have fits : HeredocFits "END".toList " ENDING\n\tEND_\n\n/* \"END".toList "\t ".toList
      ";".toList := by
    have solid : ∀ unit ∈ "END".toList, isSpace unit = false := by simp [isSpace, isBlank, is, code]
    have head : ∀ unit ∈ "END".toList.head?, isBlank unit = false := by simp [isBlank, is, code]
    refine ⟨by decide, solid, by decide, ?_, by simp [isBlank, is, code], ?_⟩
    · intro line member blanks closes
      have found := closes.closingIndent_eq_some (by decide) head
      have none : ∀ line ∈ " ENDING\n\tEND_\n\n/* \"END".toList.splitOn '\n',
          closingIndent? "END".toList line = none := by decide +kernel
      rw [none line member] at found
      cases found
    · rintro unit ⟨⟩
      rfl
  obtain ⟨_, _, _, inside, _, tokens, words, -, text⟩ := lex_heredoc fits
  refine ⟨fits, inside, ?_, ?_, text⟩
  · exact tokens ▸ List.mem_append_left _ (by simp)
  · simp only [List.map_cons, List.cons.injEq] at words
    exact congrArg SourceWord.kind words.2.2.2.1

end Heredocs

end JaiSyntax
