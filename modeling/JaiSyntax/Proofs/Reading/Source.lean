import JaiSyntax.Proofs.Reading.Run
/-!
Reading a whole source. The tree of a source is what its statements read, and they read all of it.
-/

set_option autoImplicit false

namespace JaiSyntax

def readEntry (resync : Bool) : Nat → Entry → Surroundings → Segment → Reading Unit
  | 0, entry, around, segment =>
      .failed (segment.errorOf around (.expected entry.expectation)) segment
  | depth + 1, entry, around, segment =>
      (Production.ofEntry entry).read resync (readEntry resync depth) around segment

theorem readEntry_covers (resync : Bool) (depth : Nat) : EntriesCover (readEntry resync depth) := by
  induction depth with
  | zero => exact fun entry around segment proper => .refl segment
  | succ depth ih =>
      intro entry around segment proper
      have covers : (Production.ofEntry entry).Covers (· ≠ .deprecatedDirective) false
          (Place.mk (segment.view around) .nothing) := Production.covers_ofEntry entry
      refine (covers.sound (fun _ => id) ih resync (Production.describes_start segment around)
        proper).weaken ?_ (fun _ => id)
      rintro value later ⟨continues, reached, described, covered⟩
      exact ⟨continues, covered ▸ described.covered⟩

theorem runEntry_is (resync : Bool) (depth : Nat) :
    EntriesAreRead (runEntry resync depth) (readEntry resync depth) := by
  induction depth with
  | zero =>
      intro entry scope base segment proper
      exact ⟨rfl, Segment.dissolves_onto segment base⟩
  | succ depth ih =>
      intro entry scope base segment proper
      have covers : (Production.ofEntry entry).Covers (· ≠ .deprecatedDirective) false
          (Place.mk (segment.view (scope.around base)) .nothing) := Production.covers_ofEntry entry
      exact covers.run_is (fun _ => id) (readEntry_covers resync depth) ih resync
        (Production.describes_start segment _) proper
        (fun absurd => (Bool.false_ne_true absurd).elim)

/-! ### Loops that read up to the end -/

/-- A loop whose every round moves on ends because a round says so. -/
theorem Reading.satisfies_iterate_moving {step : Segment → Reading Bool} {holds : Segment → Prop}
    {done : Unit → Segment → Prop} {failed : Segment → Prop}
    (round : ∀ segment, holds segment → (step segment).Satisfies
      (fun goesOn later => if goesOn then
        holds later ∧ later.cursor.ahead.length < segment.cursor.ahead.length
        else done () later) failed)
    (bound : List Stop) (segment : Segment) (enough : segment.cursor.ahead.length ≤ bound.length)
    (start : holds segment) : (iterate step bound segment).Satisfies done failed := by
  induction bound generalizing segment with
  | nil =>
      have taken := round segment start
      unfold iterate
      generalize step segment = reading at taken
      cases reading with
      | failed error later => exact taken
      | done goesOn later =>
          cases goesOn with
          | false => exact taken
          | true =>
              have shorter : later.cursor.ahead.length < segment.cursor.ahead.length := taken.2
              rw [List.length_nil] at enough
              omega
  | cons stop rest ih =>
      have taken := round segment start
      unfold iterate
      generalize step segment = reading at taken
      cases reading with
      | failed error later => exact taken
      | done goesOn later =>
          cases goesOn with
          | false => exact taken
          | true =>
              have shorter : later.cursor.ahead.length < segment.cursor.ahead.length := taken.2
              rw [List.length_cons] at enough
              exact ih later (by omega) taken.1

namespace Production

variable {enter : Entry → Surroundings → Segment → Reading Unit}

/-- A statement in a list never fails. -/
theorem listedStatement_succeeds (resync : Bool)
    (enter : Entry → Surroundings → Segment → Reading Unit) (around : Surroundings) (segment : Segment) :
    ∃ later, listedStatement.read resync enter around segment = .done () later := by
  unfold listedStatement eat check
  simp only [read_bind, read_look, Reading.andThen]
  cases (segment.view around).isAt .semicolon with
  | true => exact ⟨_, rfl⟩
  | false =>
      change ∃ later, (guarded (substatement none)).read resync enter around segment = _
      rw [read_guarded]
      split <;> exact ⟨_, rfl⟩

/-- A statement in a list goes on from where it starts, and it consumes a token. -/
theorem listedStatement_reads (resync : Bool) (entries : EntriesCover enter)
    (around : Surroundings) {segment : Segment} (proper : segment.cursor.Proper)
    (more : segment.cursor.isAtEnd = false) :
    ∃ later, listedStatement.read resync enter around segment = .done () later ∧
      segment.Continues later ∧ later.cursor.ahead.length < segment.cursor.ahead.length := by
  have notEnd : (segment.view around).kind ≠ .eof := beq_eq_false_iff_ne.mp more
  have covers : listedStatement.Covers (· ≠ .deprecatedDirective) false
      (Place.mk (segment.view around) .nothing) := covers_listedStatement notEnd
  have statement := covers.sound (fun _ => id) entries resync (describes_start segment around) proper
  obtain ⟨later, same⟩ := listedStatement_succeeds resync enter around segment
  rw [same] at statement
  obtain ⟨continues, reached, described, covered⟩ := statement
  have moved := (described.covered.covers covered).2
  have total := continues.position
  exact ⟨later, same, continues, by omega⟩

/-- The statements of a source file read up to its end. -/
theorem sourceFile_reads (resync : Bool) (entries : EntriesCover enter) (around : Surroundings)
    (segment : Segment) (proper : segment.cursor.Proper) :
    ∃ later, sourceFile.read resync enter around segment = .done () later ∧
      segment.Continues later ∧ later.cursor.isAtEnd = true := by
  have reads : (sourceFile.read resync enter around segment).Satisfies
      (fun _ later => segment.Continues later ∧ later.cursor.isAtEnd = true) (fun _ => False) := by
    unfold sourceFile asLongAs
    rw [read_repeatedly]
    refine Reading.satisfies_iterate_moving ?_ _ _ (Nat.le_refl _) (Segment.Continues.refl segment)
    intro start earlier
    simp only [read_bind, read_look, Reading.andThen]
    cases ended : (start.view around).isAtEnd with
    | true =>
        simp only [Bool.not_true, Bool.false_eq_true, if_false]
        exact ⟨earlier, ended⟩
    | false =>
        simp only [Bool.not_false, if_true, read_bind]
        obtain ⟨later, same, continues, moved⟩ :=
          listedStatement_reads resync entries around (earlier.proper proper) ended
        rw [same]
        exact ⟨earlier.trans continues, moved⟩
  cases same : sourceFile.read resync enter around segment with
  | failed error later =>
      rw [same] at reads
      cases reads
  | done value later =>
      rw [same] at reads
      exact ⟨later, rfl, reads⟩

end Production

/-! ### The reading of a source -/

theorem Production.sourceFile_orderly {allowed : NodeKind → Prop} (place : Place) :
    Production.sourceFile.Orderly allowed false (fun _ _ => True) place := by
  refine Production.orderly_asLongAs (fun view covered more => ?_) (fun _ => trivial)
    (fun _ => trivial)
  refine Production.covers_listedStatement ?_
  intro same
  change view.kind = .eof at same
  simp [View.isAtEnd, View.isAt, same] at more

def Segment.initial (size : Nat) (tokens : List Token) : Segment := ⟨.ofTokens size tokens, [], []⟩

def Surroundings.outermost : Surroundings := Scope.outermost.around (.new .sourceFile)

def nestingOf (source : List Char) : Nat :=
  (ParserState.initial (utf8Length source) (lex source).tokens).nesting

def sourceReading (resync : Bool) (source : List Char) : Reading Unit :=
  Production.sourceFile.read resync (readEntry resync (nestingOf source)) .outermost
    (.initial (utf8Length source) (lex source).tokens)

def readSource (resync : Bool) (source : List Char) : Segment :=
  match sourceReading resync source with
  | .done _ last => last.flush
  | .failed _ last => last.flush

/-- What holds of single extras and of notices holds of all extras of a token list; between them are
its significant tokens. -/
theorem forall_partTokens (holds : Extra → Prop)
    (single : ∀ token, token.kind.isExtra = true → holds (.token token))
    (notice : ∀ (token : Token) (rest : List Token), isDeprecation token = true →
      holds (.deprecated (token :: rest.take (noticeLength rest)))) (bound tokens : List Token) :
    (∀ extra ∈ (partTokens bound tokens).1, holds extra) ∧
      ∀ stop ∈ (partTokens bound tokens).2, (∀ extra ∈ stop.gap, holds extra) ∧
        stop.token ∈ tokens ∧ stop.token.kind ≠ .eof ∧ stop.token.kind.isExtra = false := by
  induction bound generalizing tokens with
  | nil => cases tokens <;> simp [partTokens]
  | cons bounding bound ih =>
      cases tokens with
      | nil => simp [partTokens]
      | cons token rest =>
          have further : ∀ count, ∀ stop ∈ (partTokens bound (rest.drop count)).2,
              (∀ extra ∈ stop.gap, holds extra) ∧ stop.token ∈ token :: rest ∧
                stop.token.kind ≠ .eof ∧ stop.token.kind.isExtra = false := by
            intro count stop member
            obtain ⟨gap, inside, significant⟩ := (ih (rest.drop count)).2 stop member
            exact ⟨gap, List.mem_cons_of_mem token (List.mem_of_mem_drop inside), significant⟩
          rw [partTokens]
          split
          · exact ⟨List.forall_mem_nil _, List.forall_mem_nil _⟩
          next notEnd =>
          split
          · next extra =>
              exact ⟨List.forall_mem_cons.mpr ⟨single token extra, (ih rest).1⟩, further 0⟩
          next significant =>
          split
          · next deprecation =>
              exact ⟨List.forall_mem_cons.mpr ⟨notice token rest deprecation, (ih _).1⟩, further _⟩
          · have kinds : token.kind ≠ .eof ∧ token.kind.isExtra = false :=
              ⟨fun same => notEnd (beq_iff_eq.mpr same), Bool.eq_false_iff.mpr significant⟩
            exact ⟨List.forall_mem_nil _,
              List.forall_mem_cons.mpr ⟨⟨(ih rest).1, List.mem_cons_self, kinds⟩, further 0⟩⟩

theorem TokenCursor.ofTokens_proper (size : Nat) (tokens : List Token) :
    (TokenCursor.ofTokens size tokens).Proper := by
  obtain ⟨gap, stops⟩ := forall_partTokens (fun extra => extra.child.isSignificant = false)
    (fun token extra => by simp [Extra.child, Child.isSignificant, extra]) (fun _ _ _ => rfl)
    tokens tokens
  exact ⟨gap, fun stop member => (stops stop member).1,
    fun stop member => (stops stop member).2.2, rfl⟩

theorem sourceReading_done (resync : Bool) (source : List Char) :
    ∃ last, sourceReading resync source = .done () last ∧
      (Segment.initial (utf8Length source) (lex source).tokens).Continues last ∧
      last.cursor.isAtEnd = true :=
  Production.sourceFile_reads resync (readEntry_covers resync _) .outermost _
    (TokenCursor.ofTokens_proper _ _)

/-- The parse of a source ends with what its statements read. -/
theorem parsed_eq (resync : Bool) (source : List Char) :
    (ParserState.initial (utf8Length source) (lex source).tokens).parsed resync =
      (readSource resync source).onto (.new .sourceFile) := by
  obtain ⟨last, same, -, -⟩ := sourceReading_done resync source
  let start := Segment.initial (utf8Length source) (lex source).tokens
  have matched : (Production.sourceFile.run resync
      (runEntry resync (ParserState.initial (utf8Length source) (lex source).tokens).nesting)
      .outermost (ParserState.initial (utf8Length source) (lex source).tokens)).Is
      (.new .sourceFile) (sourceReading resync source) :=
    (Production.sourceFile_orderly _).run_is (fun _ => id) (readEntry_covers resync _)
      (runEntry_is resync _) resync (Production.describes_start start _) (TokenCursor.ofTokens_proper _ _)
      (fun absurd => (Bool.false_ne_true absurd).elim)
  unfold ParserState.parsed readSource
  rw [same] at matched ⊢
  generalize Production.sourceFile.run resync _ .outermost _ = outcome at matched ⊢
  cases outcome with
  | done value state =>
      obtain ⟨-, rfl⟩ := matched
      exact Segment.flush_onto last _
  | failed error state => cases matched

/-- The tree of a source is what its statements read. -/
theorem parse_tree (options : ParseOptions) (source : List Char) :
    (parse options source).tree =
      .build .sourceFile (readSource options.resyncOnDeclaration source).latest.reverse 0 := by
  change ((ParserState.initial (utf8Length source) (lex source).tokens).parsed
    options.resyncOnDeclaration).builder.finishRoot = _
  rw [parsed_eq]
  simp [Segment.onto, TreeBuilder.new, Frame.new, TreeBuilder.mapTop, TreeBuilder.finishRoot,
    TreeBuilder.dissolveTo, TreeBuilder.dissolve, TreeBuilder.depth, Frame.toNode, Frame.children]

/-- Nothing of a source is left in the end. -/
theorem readSource_ended (resync : Bool) (source : List Char) :
    (Segment.initial (utf8Length source) (lex source).tokens).Continues
        (readSource resync source) ∧
      (readSource resync source).cursor.tokens = [] := by
  obtain ⟨last, same, continues, ended⟩ := sourceReading_done resync source
  unfold readSource
  rw [same]
  refine ⟨continues.trans (Segment.continues_flush last), ?_⟩
  have proper := continues.proper (TokenCursor.ofTokens_proper _ _)
  have none := proper.isAtEnd_iff.mp ended
  simp [Segment.flush, TokenCursor.tokens, none, tokensOfExtras]

end JaiSyntax
