import JaiSyntax.Proofs.Errors.Balance
import JaiSyntax.Proofs.Errors.Order
import JaiSyntax.Proofs.Locality.Rounds
import JaiSyntax.Proofs.Locality.Tokens
/-!
The locality of statements. A statement without brackets, however malformed, cannot disturb anything
after its semicolon: a source after it has the tree and the errors that it has alone, moved behind it.
-/

set_option autoImplicit false

namespace JaiSyntax

def brackets : List TokenKind := [.lParen, .rParen, .lBracket, .rBracket, .lBrace, .rBrace]

/-- A source without brackets whose only semicolon is its last token. -/
structure IsBareStatement (source : List Char) : Prop where
  bare : ∀ token ∈ (lex source).tokens, token.kind ∉ brackets
  ended : ∃ (front : List Token) (semicolon : Token),
    (lex source).tokens = front ++ [semicolon, .endOfFile (utf8Length source)] ∧
      semicolon.kind = .semicolon ∧ ∀ token ∈ front, token.kind ≠ .semicolon

theorem isFlat_of_bare {kind : TokenKind} (noBracket : kind ∉ brackets) (other : kind ≠ .semicolon)
    (more : kind ≠ .eof) : kind.isFlat = true := by
  have known : kind ∉ brackets → kind ≠ .semicolon → kind ≠ .eof → kind.isFlat = true := by
    cases kind <;> decide
  exact known noBracket other more

namespace IsBareStatement

variable {source more : List Char}

/-- The tokens of a bare statement before its semicolon. -/
theorem tokens (statement : IsBareStatement source) : ∃ (front : List Token) (semicolon : Token),
    contentTokens source = front ++ [semicolon] ∧ semicolon.kind = .semicolon ∧
      semicolon.span.start < utf8Length source ∧ semicolon.span.stop = utf8Length source ∧
      ∀ token ∈ front, token.kind.isFlat = true ∧ token.span.start < utf8Length source ∧
        token.span.stop < utf8Length source := by
  obtain ⟨front, semicolon, same, kind, others⟩ := statement.ended
  have content : contentTokens source = front ++ [semicolon] := by
    rw [contentTokens, same]
    simp
  have tiles := tokensFrom_tiles source [] (lexemes source) (lexemes_nonempty source)
    (joinLexemes_lexemes source).symm
  rw [utf8Length_nil, ← contentTokens_eq, content] at tiles
  obtain ⟨-, start, stop, within⟩ := tiles.around_last
  refine ⟨front, semicolon, content, kind, start, stop, fun token member => ⟨?_, within token member⟩⟩
  have notEnd := contentTokens_kinds source token (content ▸ List.mem_append_left _ member)
  exact isFlat_of_bare (statement.bare token (same ▸ List.mem_append_left _ member))
    (others token member) notEnd

end IsBareStatement

/-- The place of a source at the front of a longer one, which does not go on with `else`. -/
def Embedding.front (source more : List Char)
    (noElse : (ParserState.initial (utf8Length more) (lex more).tokens).current.isWord "else" =
      false) : Embedding :=
  { offset := 0
    steps := 0
    earlier := []
    gap := (partTokens (lex more).tokens (lex more).tokens).1.map (Extra.shift (utf8Length source))
    tail := (partTokens (lex more).tokens (lex more).tokens).2.map (Stop.shift (utf8Length source))
    bound := utf8Length source
    noElse := by
      intro stop member
      rw [List.head?_map] at member
      obtain ⟨first, starts, rfl⟩ := Option.map_eq_some_iff.mp member
      have current : (ParserState.initial (utf8Length more) (lex more).tokens).current =
          first.token := by
        change TokenCursor.peek _ 0 = _
        rw [TokenCursor.peek_eq, ← List.head?_eq_getElem?]
        exact congrArg (fun stop? : Option Stop => (stop?.map Stop.token).getD _) starts
      rw [current] at noElse
      exact noElse }

/-- Before its first token a bare statement stands at the front of a longer source. -/
theorem IsBareStatement.joined {source more : List Char} (statement : IsBareStatement source)
    (noElse : (ParserState.initial (utf8Length more) (lex more).tokens).current.isWord "else" =
      false) :
    (Segment.initial (utf8Length source) (lex source).tokens).Joined
      (.front source more noElse) .statement false []
      (Segment.initial (utf8Length (source ++ more)) (lex (source ++ more)).tokens) := by
  obtain ⟨front, semicolon, content, kind, start, stop, within⟩ := statement.tokens
  have notEnd : ∀ token ∈ front, token.kind ≠ .eof := by
    intro token member
    exact contentTokens_kinds source token (content ▸ List.mem_append_left _ member)
  have tokens : (lex source).tokens = front ++ semicolon :: [.endOfFile (utf8Length source)] := by
    rw [lex_tokens, content, List.append_assoc]
    rfl
  have alone := partTokens_append kind (lex source).tokens front
    [.endOfFile (utf8Length source)] notEnd (tokens ▸ Nat.le_refl _)
  have together := (lex_append content (kind ▸ rfl) more).1
  rw [content, List.append_assoc, List.singleton_append] at together
  have longer := partTokens_append kind (lex (source ++ more)).tokens front
    ((lex more).tokens.map (Token.shift (utf8Length source))) notEnd (together ▸ Nat.le_refl _)
  rw [← tokens] at alone
  rw [← together, partTokens_shift] at longer
  have leftCursor : (Segment.initial (utf8Length source) (lex source).tokens).cursor =
      ⟨(partTokens front front).1, (partTokens front front).2 ++ [⟨semicolon, []⟩], 0,
        .endOfFile 0, .endOfFile (utf8Length source)⟩ := by
    change TokenCursor.ofTokens _ _ = _
    rw [TokenCursor.ofTokens, alone]
    rfl
  have rightCursor : (Segment.initial (utf8Length (source ++ more))
      (lex (source ++ more)).tokens).cursor =
      ⟨(partTokens front front).1, (partTokens front front).2 ++
        ⟨semicolon, (Embedding.front source more noElse).gap⟩ ::
          (Embedding.front source more noElse).tail, 0,
        .endOfFile 0, .endOfFile (utf8Length (source ++ more))⟩ := by
    change TokenCursor.ofTokens _ _ = _
    rw [TokenCursor.ofTokens, longer]
    rfl
  have extras (extras : List Extra) : extras = extras.map (Extra.shift 0) :=
    (List.map_id'' Extra.shift_zero extras).symm
  have stops (stops : List Stop) : stops = stops.map (Stop.shift 0) :=
    (List.map_id'' Stop.shift_zero stops).symm
  have nonempty := partTokens_nonempty front front
  constructor
  · exact {
      cursor := by
        change TokenCursor.Embedded _ _ _ (Segment.initial _ _).cursor (Segment.initial _ _).cursor
        rw [leftCursor, rightCursor]
        refine ⟨extras _, (partTokens front front).2, semicolon, rfl, ?_, ?_, kind, start, stop⟩
        · exact congrArg (· ++ _) (stops _)
        · exact fun stop member => within stop.token (nonempty.2 stop member).1
      position := rfl
      previous := fun absurd => (Nat.lt_irrefl 0 absurd).elim
      stop := rfl
      latest := rfl
      reported := rfl
      leftProper := TokenCursor.ofTokens_proper _ _
      rightProper := TokenCursor.ofTokens_proper _ _
      gap := (partTokens_nonempty _ _).1
      gaps := fun stop member => ((partTokens_nonempty _ _).2 stop member).2
      bounded := fun _ => List.forall_mem_nil _
      near := fun _ _ => by
        change 0 < utf8Length source
        omega
      last := fun _ absurd => (Bool.false_ne_true absurd).elim }
  · rfl

def Embedding.behind (offset : Nat) (segment : Segment) : Embedding :=
  { offset := offset
    steps := segment.cursor.position
    earlier := segment.reported
    gap := []
    tail := []
    bound := 0
    noElse := nofun }

/-- A source from its first token on, and what is left of a longer source that ends with it. -/
theorem Segment.joined_behind {more : List Char} {offset : Nat} {segment : Segment}
    (gap : segment.cursor.gap =
      (partTokens (lex more).tokens (lex more).tokens).1.map (Extra.shift offset))
    (ahead : segment.cursor.ahead =
      (partTokens (lex more).tokens (lex more).tokens).2.map (Stop.shift offset))
    (endOfFile : segment.cursor.endOfFile = (Token.endOfFile (utf8Length more)).shift offset)
    (stop : segment.cursor.previous.span.stop = offset) (proper : segment.cursor.Proper) :
    (Segment.initial (utf8Length more) (lex more).tokens).Joined (.behind offset segment) .file
      false segment.latest segment where
  embedded :=
    { cursor := ⟨gap, ahead, endOfFile⟩
      position := (Nat.zero_add _).symm
      previous := fun absurd => (Nat.lt_irrefl 0 absurd).elim
      stop := stop.trans (Nat.zero_add _).symm
      latest := rfl
      reported := rfl
      leftProper := TokenCursor.ofTokens_proper _ _
      rightProper := proper
      gap := (partTokens_nonempty _ _).1
      gaps := fun stop member => ((partTokens_nonempty _ _).2 stop member).2
      bounded := nofun
      near := nofun
      last := nofun }
  latest := rfl

/-- What is read of a source is what its statements read. -/
theorem ReadsStatements.readSource {resync : Bool} {source : List Char} {last : Segment}
    (reads : ReadsStatements resync (nestingOf source) .outermost
      (.initial (utf8Length source) (lex source).tokens) last) :
    readSource resync source = last.flush := by
  unfold JaiSyntax.readSource sourceReading
  rw [reads.sourceFile]

namespace IsBareStatement

variable {source more : List Char}

/-- A bare statement is read up to its semicolon, whatever source goes on behind it. What is left there
is the other source, with as much nesting as it has alone. -/
theorem reads_front (statement : IsBareStatement source)
    (noElse : (ParserState.initial (utf8Length more) (lex more).tokens).current.isWord "else" =
      false) (resync : Bool) :
    ∃ middle : Segment,
      (∀ final, ReadsStatements resync (nestingOf (source ++ more)) .outermost middle final →
        readSource resync (source ++ more) = final.flush) ∧
      (Segment.initial (utf8Length more) (lex more).tokens).Joined
        (.behind (utf8Length source) middle) .file false (readSource resync source).latest middle ∧
      middle.reported = (readSource resync source).reported ∧
      (∀ error ∈ (readSource resync source).reported, error.span.start < utf8Length source) ∧
      nestingOf more ≤ nestingOf (source ++ more) := by
  have start := statement.joined noElse
  have context : Surroundings.outermost.context = Surroundings.outermost.context := rfl
  have shorter : (Segment.initial (utf8Length source) (lex source).tokens).cursor.ahead.length ≤
      (Segment.initial (utf8Length (source ++ more))
        (lex (source ++ more)).tokens).cursor.ahead.length := start.embedded.cursor.length_le
  have deeper : nestingOf source ≤ nestingOf (source ++ more) :=
    Nat.mul_le_mul_left 3 (Nat.succ_le_succ shorter)
  obtain ⟨last, middle, past, reads, readsOn, joined, ended, continues⟩ :=
    start.statements resync context (Nat.le_refl (nestingOf source)) deeper
  have none := joined.embedded.leftProper.isAtEnd_iff.mp ended
  -- The semicolon was consumed, since nothing is left in front of it.
  obtain rfl : past = true := by
    cases past with
    | true => rfl
    | false =>
        obtain ⟨-, run, semicolon, filled, -⟩ := joined.embedded.cursor
        rw [none] at filled
        exact (List.append_ne_nil_of_right_ne_nil run (List.cons_ne_nil _ []) filled.symm).elim
  obtain ⟨leftGap, -, gap, ahead⟩ := joined.embedded.cursor
  have flushed : last.flush = last := by
    have empty : last.cursor.gap = [] := leftGap
    rcases last with ⟨⟨lastGap, _, _, _, _⟩, _, _⟩
    cases empty
    rfl
  have latest : middle.latest = last.latest := by
    rw [joined.latest, List.append_nil]
    exact Child.map_shift_zero last.latest
  have reported : middle.reported = last.reported := by
    have same := joined.embedded.reported
    rw [show (Embedding.front source more noElse).earlier = [] from rfl, List.append_nil] at same
    exact same.trans (List.map_id'' SyntaxError.shift_zero _)
  have stop : middle.cursor.previous.span.stop = utf8Length source :=
    joined.embedded.stop.trans (joined.embedded.last rfl rfl)
  have endOfFile : middle.cursor.endOfFile =
      (Token.endOfFile (utf8Length more)).shift (utf8Length source) := by
    rw [continues.endOfFile]
    change Token.endOfFile (utf8Length (source ++ more)) = _
    rw [utf8Length_append, Nat.add_comm]
    rfl
  have behind : (Segment.initial (utf8Length more) (lex more).tokens).Joined
      (.behind (utf8Length source) middle) .file false middle.latest middle :=
    Segment.joined_behind gap ahead endOfFile stop joined.embedded.rightProper
  have remaining : (Segment.initial (utf8Length more) (lex more).tokens).cursor.ahead.length ≤
      (Segment.initial (utf8Length (source ++ more))
        (lex (source ++ more)).tokens).cursor.ahead.length :=
    behind.embedded.cursor.length_le.trans continues.suffix.length_le
  rw [reads.readSource, flushed]
  exact ⟨middle, fun final further => (readsOn final further).readSource, latest ▸ behind, reported,
    joined.embedded.bounded rfl, Nat.mul_le_mul_left 3 (Nat.succ_le_succ remaining)⟩

/-- What is read of a bare statement and a source after it is what is read of the statement, and then
what is read of the source, moved behind it. -/
theorem readSource_append (statement : IsBareStatement source)
    (noElse : (ParserState.initial (utf8Length more) (lex more).tokens).current.isWord "else" =
      false) (resync : Bool) :
    (readSource resync (source ++ more)).latest =
        (readSource resync more).latest.map (Child.shift (utf8Length source)) ++
          (readSource resync source).latest ∧
      (readSource resync (source ++ more)).reported =
        (readSource resync more).reported.map (SyntaxError.shift (utf8Length source)) ++
          (readSource resync source).reported ∧
      ∀ error ∈ (readSource resync source).reported, error.span.start < utf8Length source := by
  obtain ⟨middle, goesOn, behind, reported, near, deeper⟩ :=
    statement.reads_front noElse resync
  have context : Surroundings.outermost.context = Surroundings.outermost.context := rfl
  obtain ⟨rest, final, past, reads, readsOn, joined, ended, -⟩ :=
    behind.statements resync context (Nat.le_refl (nestingOf more)) deeper
  cases past with
  | true => exact joined.embedded.cursor.elim
  | false =>
      have finished : final.cursor.isAtEnd = true := joined.embedded.cursor.isAtEnd.trans ended
      have whole := goesOn final (readsOn final (.ended finished))
      have flushed := joined.embedded.flush
      rw [whole, reads.readSource]
      refine ⟨?_, ?_, near⟩
      · have split (segment : Segment) :
            segment.flush.latest = segment.emptied.flush.latest ++ segment.latest := by
          simp [Segment.flush, Segment.emptied]
        have added : final.emptied.flush.latest =
            rest.emptied.flush.latest.map (Child.shift (utf8Length source)) := flushed.latest
        have read : final.latest =
            rest.latest.map (Child.shift (utf8Length source)) ++
              (readSource resync source).latest := joined.latest
        rw [split final, split rest, added, read, List.map_append, List.append_assoc]
      · rw [← reported]
        exact flushed.reported

end IsBareStatement

/-- A statement without brackets cannot disturb what comes after its semicolon, however malformed it
is: a source that does not start with `else` has the same nodes and the same errors behind it. -/
theorem parse_append {source more : List Char} (statement : IsBareStatement source)
    (noElse : (ParserState.initial (utf8Length more) (lex more).tokens).current.isWord "else" =
      false) (resync : Bool) :
    (parse ⟨none, resync⟩ (source ++ more)).tree.children =
        (parse ⟨none, resync⟩ source).tree.children ++
          (parse ⟨none, resync⟩ more).tree.children.map (Child.shift (utf8Length source)) ∧
      (parse ⟨none, resync⟩ (source ++ more)).errors =
        (parse ⟨none, resync⟩ source).errors ++
          (parse ⟨none, resync⟩ more).errors.map (SyntaxError.shift (utf8Length source)) := by
  obtain ⟨latest, reported, near⟩ := statement.readSource_append noElse resync
  obtain ⟨front, semicolon, content, kind, -⟩ := statement.tokens
  constructor
  · rw [parse_tree, parse_tree, parse_tree]
    change (readSource resync (source ++ more)).latest.reverse = _
    rw [latest, List.reverse_append, ← List.map_reverse]
    rfl
  · rw [parse_errors, parse_errors, parse_errors]
    change sortErrors (lex (source ++ more)).errors
      (readSource resync (source ++ more)).reported = _
    rw [reported, (lex_append content (kind ▸ rfl) more).2]
    exact sortErrors_append (lex_errors_start source) near _ _

/-- A declaration without its value leaves the one after it alone. -/
theorem parse_append_of_malformed :
    (parse ⟨none, true⟩ "x := ;".toList).errors.length = 1 ∧
      (parse ⟨none, true⟩ "x := ; y := 1;".toList).tree.children =
        (parse ⟨none, true⟩ "x := ;".toList).tree.children ++
          (parse ⟨none, true⟩ " y := 1;".toList).tree.children.map (Child.shift 6) ∧
      (parse ⟨none, true⟩ "x := ; y := 1;".toList).errors =
        (parse ⟨none, true⟩ "x := ;".toList).errors ++
          (parse ⟨none, true⟩ " y := 1;".toList).errors.map (SyntaxError.shift 6) := by
  have statement : IsBareStatement "x := ;".toList :=
    { bare := by decide +kernel
      ended := ⟨(lex "x := ;".toList).tokens.dropLast.dropLast, ⟨.semicolon, ⟨5, 6⟩, .none, ";"⟩,
        by decide +kernel, rfl, by decide +kernel⟩ }
  have noElse : (ParserState.initial (utf8Length " y := 1;".toList)
      (lex " y := 1;".toList).tokens).current.isWord "else" = false := by decide +kernel
  exact ⟨by decide +kernel, parse_append statement noElse true⟩

end JaiSyntax
