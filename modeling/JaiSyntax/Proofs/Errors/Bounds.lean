import JaiSyntax.Proofs.Errors.Balance
import JaiSyntax.Proofs.Errors.Order
import JaiSyntax.Proofs.Lexer.Reports
import JaiSyntax.Proofs.Lexer.Tiling
/-!
Errors and the bounds of their source. An error of the grammar points at a token, behind one, or at a brace
that was opened before, and all of these lie within the source; so do the spans that the lexer reports.
Hence the list of errors is in order with the one at the end of the source that says it was cut.
-/

set_option autoImplicit false

namespace JaiSyntax

/-- Whether a span runs forward and ends within the first `size` bytes. -/
structure Span.Within (span : Span) (size : Nat) : Prop where
  forward : span.start ≤ span.stop
  bounded : span.stop ≤ size

theorem Span.within_point {offset size : Nat} (bounded : offset ≤ size) :
    (Span.point offset).Within size :=
  ⟨Nat.le_refl offset, bounded⟩

/-- The places that an error shows: its own, and the one that it relates to. -/
def SyntaxError.spans (error : SyntaxError) : List Span :=
  error.span :: (error.related.map Prod.fst).toList

/-- Whether an error shows places of a source of `size` bytes only, and is not about a gap in the declared
conflicts. -/
structure SyntaxError.Sound (size : Nat) (error : SyntaxError) : Prop where
  spans : ∀ span ∈ error.spans, span.Within size
  decided : error.code ≠ .ambiguousConstruct

theorem SyntaxError.sound_plain {size : Nat} {code : ErrorCode} (message : String) {span : Span}
    (within : span.Within size) (decided : code ≠ .ambiguousConstruct) :
    (SyntaxError.plain code message span).Sound size :=
  ⟨List.forall_mem_singleton.mpr within, decided⟩

/-- A decided complaint about tokens of a source makes an error of it. -/
theorem Complaint.sound {size : Nat} {complaint : Complaint} (decided : complaint.isDecided = true)
    {current previous : Token} {opener : Span} (here : current.span.Within size)
    (before : previous.span.Within size) (opened : opener.Within size) :
    (complaint.toError current previous opener).Sound size := by
  have behind := Span.within_point before.bounded
  cases complaint with
  | expected expectation =>
      refine SyntaxError.sound_plain _ here ?_
      cases expectation <;> exact ErrorCode.noConfusion
  | unclosedBrace =>
      exact ⟨List.forall_mem_cons.mpr ⟨opened, List.forall_mem_singleton.mpr here⟩,
        ErrorCode.noConfusion⟩
  | missingTerminator statement =>
      exact ⟨List.forall_mem_singleton.mpr behind, ErrorCode.noConfusion⟩
  | missingAfterEnumMember => exact SyntaxError.sound_plain _ behind ErrorCode.noConfusion
  | missingAfterAssemblyLine => exact SyntaxError.sound_plain _ behind ErrorCode.noConfusion
  | ambiguous candidates chosen => cases decided

/-! ### Tokens of a source -/

structure TokenCursor.Within (cursor : TokenCursor) (size : Nat) : Prop where
  ahead : ∀ stop ∈ cursor.ahead, stop.token.span.Within size
  previous : cursor.previous.span.Within size
  endOfFile : cursor.endOfFile.span.Within size

namespace TokenCursor.Within

variable {cursor : TokenCursor} {size : Nat}

theorem withoutGap (within : cursor.Within size) :
    TokenCursor.Within { cursor with gap := [] } size :=
  ⟨within.ahead, within.previous, within.endOfFile⟩

theorem current (within : cursor.Within size) : cursor.current.span.Within size := by
  unfold TokenCursor.current TokenCursor.peek
  cases found : cursor.ahead[0]? with
  | none => exact within.endOfFile
  | some stop => exact within.ahead stop (List.mem_of_getElem? found)

theorem advance (within : cursor.Within size) : cursor.advance.2.Within size := by
  unfold TokenCursor.advance
  cases same : cursor.ahead with
  | nil => exact within
  | cons stop rest =>
      obtain ⟨first, further⟩ := List.forall_mem_cons.mp (same ▸ within.ahead)
      exact ⟨further, first, within.endOfFile⟩

end TokenCursor.Within

theorem Tiles.bounds {source : List Char} {start stop : Nat} {tokens : List Token}
    (tiles : Tiles source start tokens stop) :
    start ≤ stop ∧ ∀ token ∈ tokens, token.span.Within stop := by
  induction tiles with
  | none boundary => exact ⟨Nat.le_refl _, List.forall_mem_nil _⟩
  | cons starts boundary some later ih =>
      obtain ⟨reaches, within⟩ := ih
      refine ⟨Nat.le_trans (Nat.le_of_lt some) reaches, List.forall_mem_cons.mpr ⟨?_, within⟩⟩
      exact ⟨starts ▸ Nat.le_of_lt some, reaches⟩

theorem lex_within (source : List Char) :
    ∀ token ∈ (lex source).tokens, token.span.Within (utf8Length source) := by
  rw [lex_tokens]
  exact List.forall_mem_append.mpr ⟨(contentTokens_tile source).bounds.2,
    List.forall_mem_singleton.mpr (Span.within_point (Nat.le_refl _))⟩

theorem token_of_occurrence {before : Option TokenKind} {tokens : List Token} {place : Occurrence}
    (member : place ∈ occurrencesAfter before tokens) : place.token ∈ tokens := by
  induction tokens generalizing before with
  | nil => cases member
  | cons token rest ih =>
      rcases List.mem_cons.mp member with rfl | later
      · exact List.mem_cons_self
      · exact List.mem_cons_of_mem token (ih later)

theorem lexErrors_sound (source : List Char) :
    ∀ error ∈ (lex source).errors,
      (SyntaxError.ofLexError error).Sound (utf8Length source) := by
  obtain ⟨reported, inside, matched, -⟩ := lexErrors_report source
  intro error member
  obtain ⟨index, bound, rfl⟩ := List.mem_iff_getElem.mp member
  have listed : index < reported.length := matched.length_eq ▸ bound
  have reports : LexError.Reports _ reported[index] (lex source).errors[index] :=
    matched.get listed bound
  have token : (reported[index]).token.span.Within (utf8Length source) :=
    lex_within source _ (token_of_occurrence (inside.subset (List.getElem_mem listed)))
  refine SyntaxError.sound_plain _ ?_ (fun same => ?_)
  · -- A heredoc that is never closed goes up to the end of the source.
    rw [reports.span]
    unfold LexFault.extent
    split
    · exact ⟨Nat.le_trans token.forward token.bounded, Nat.le_refl _⟩
    · exact token
  · have lexical := category_ofLexError (lex source).errors[index]
    change ErrorCode.category (LexError.code _) = .lexical at lexical
    rw [same] at lexical
    cases lexical

/-- Before the first token, the tokens of a source are ahead. -/
theorem initial_within (source : List Char) :
    (Segment.initial (utf8Length source) (lex source).tokens).cursor.Within
      (utf8Length source) := by
  refine ⟨fun stop member => ?_, Span.within_point (Nat.zero_le _),
    Span.within_point (Nat.le_refl _)⟩
  have kept : stop.token ∈ (Segment.initial (utf8Length source) (lex source).tokens).tokens :=
    List.mem_append_right _ (List.mem_append_right _
      (List.mem_flatMap.mpr ⟨stop, member, List.mem_cons_self⟩))
  rw [initial_tokens] at kept
  apply lex_within source
  rw [lex_tokens]
  exact List.mem_append_left _ kept

/-! ### Readings -/

structure Segment.Sound (size : Nat) (segment : Segment) : Prop where
  cursor : segment.cursor.Within size
  reported : ∀ error ∈ segment.reported, error.Sound size

def Reading.Sound {α : Type} (size : Nat) (reading : Reading α) : Prop :=
  match reading with
  | .done _ segment => segment.Sound size
  | .failed error segment => error.Sound size ∧ segment.Sound size

namespace Segment.Sound

variable {size : Nat} {segment : Segment} {around : Surroundings}

theorem flush (sound : segment.Sound size) : segment.flush.Sound size :=
  ⟨sound.cursor.withoutGap, sound.reported⟩

theorem emptied (sound : segment.Sound size) : segment.emptied.Sound size :=
  ⟨sound.cursor, sound.reported⟩

theorem bumpAs (sound : segment.Sound size) (change : Token → Token) :
    (segment.bumpAs change).Sound size := by
  refine ⟨?_, fun error member => sound.reported error (reported_bumpAs segment change ▸ member)⟩
  rw [cursor_bumpAs]
  split
  · exact sound.cursor.withoutGap
  · exact sound.cursor.withoutGap.advance

theorem bumps (sound : segment.Sound size) (count : Nat) : (segment.bumps count).Sound size := by
  induction count generalizing segment with
  | zero => exact sound
  | succ count ih => exact ih (sound.bumpAs id)

theorem errorOf (sound : segment.Sound size) (opened : around.opener.Within size)
    {complaint : Complaint} (decided : complaint.isDecided = true) :
    (segment.errorOf around complaint).Sound size :=
  complaint.sound decided sound.cursor.current sound.cursor.previous opened

theorem apply (sound : segment.Sound size) (opened : around.opener.Within size) {move : Move}
    (suits : move.Suits (segment.view around)) : (segment.apply around move).Sound size := by
  cases move with
  | bump => exact sound.bumpAs id
  | bumpKeyword => exact sound.bumpAs (fun token => token.retag .keyword)
  | tag | reinterpretLast | spliceParameters => exact ⟨sound.cursor, sound.reported⟩
  | report complaint =>
      exact ⟨sound.cursor, List.forall_mem_cons.mpr ⟨sound.errorOf opened suits, sound.reported⟩⟩

theorem recover (sound : segment.Sound size) (resync : Bool) (around : Surroundings)
    (position : Nat) {error : SyntaxError} (failure : error.Sound size) :
    (segment.recover resync around position error).Sound size := by
  obtain ⟨count, -, recovers, -⟩ := recover_alone (.refl segment.cursor) resync position
  rw [(recovers around error).1]
  have cleared : (segment.mapLatest (List.map (Child.withField none))).Sound size :=
    ⟨sound.cursor, sound.reported⟩
  have skipped := cleared.bumps count
  exact ⟨skipped.cursor, List.forall_mem_cons.mpr ⟨failure, skipped.reported⟩⟩

end Segment.Sound

namespace Reading.Sound

variable {α β : Type} {size : Nat} {reading : Reading α}

theorem andThen {next : α → Segment → Reading β} (sound : reading.Sound size)
    (further : ∀ value segment, reading = .done value segment → segment.Sound size →
      (next value segment).Sound size) : (reading.andThen next).Sound size := by
  cases reading with
  | done value segment => exact further value segment rfl sound
  | failed error segment => exact sound

theorem after (sound : reading.Sound size) (earlier : Segment) :
    (reading.after earlier).Sound size := by
  cases reading with
  | done value segment => exact ⟨sound.cursor, sound.reported⟩
  | failed error segment => exact ⟨sound.1, sound.2.cursor, sound.2.reported⟩

theorem enclosed (sound : reading.Sound size) (kind : NodeKind) (position : Nat) :
    (reading.enclosed kind position).Sound size := by
  cases reading with
  | done value segment => exact ⟨sound.cursor, sound.reported⟩
  | failed error segment => exact sound

end Reading.Sound

theorem Reading.sound_iterate {size : Nat} {step : Segment → Reading Bool}
    (round : ∀ segment, segment.Sound size → (step segment).Sound size) (bound : List Stop)
    {segment : Segment} (sound : segment.Sound size) : (iterate step bound segment).Sound size := by
  induction bound generalizing segment with
  | nil =>
      have taken := round segment sound
      unfold iterate
      split <;> next same => rw [same] at taken; exact taken
  | cons stop rest ih =>
      have taken := round segment sound
      unfold iterate
      split
      · next same => rw [same] at taken; exact taken
      · next same => rw [same] at taken; exact taken
      · next same => rw [same] at taken; exact ih taken

/-- What entries are relied on for: each reports and fails with errors of the source only. -/
def EntriesSound (size : Nat) (enter : Entry → Surroundings → Segment → Reading Unit) : Prop :=
  ∀ entry around segment, around.opener.Within size → segment.Sound size →
    (enter entry around segment).Sound size

namespace Production

variable {resync : Bool} {enter : Entry → Surroundings → Segment → Reading Unit} {size : Nat}

/-- A canonical production reports and fails with errors of the source only. -/
theorem Canonical.readsSound {α : Type} {production : Production α}
    (entries : EntriesSound size enter) {around : Surroundings} {segment : Segment}
    (canonical : production.Canonical (segment.view around)) (opened : around.opener.Within size)
    (sound : segment.Sound size) : (production.read resync enter around segment).Sound size := by
  induction production generalizing around segment with
  | pure value => exact sound
  | bind first next ihFirst ihNext =>
      rw [Canonical] at canonical
      rw [read]
      refine (ihFirst canonical.1 opened sound).andThen (fun value reached same kept => ?_)
      have leads : (first.read resync enter around segment).Satisfies _ _ :=
        read_leads first around segment
      rw [same] at leads
      exact ihNext value (canonical.2 value _ leads) opened kept
  | look seen => exact sound
  | act move =>
      rw [Canonical] at canonical
      exact sound.apply opened canonical
  | refuse complaint =>
      rw [Canonical] at canonical
      exact ⟨sound.errorOf opened canonical, sound⟩
  | within change body ih =>
      rw [Canonical] at canonical
      exact ih (canonical _) opened sound
  | node kind body ih =>
      rw [Canonical] at canonical
      have inner : (body.read resync enter around.first segment.flush.emptied).Sound size :=
        ih (canonical.2 _) opened sound.flush.emptied
      exact (inner.enclosed kind _).after segment.flush
  | marked body ih =>
      rw [Canonical] at canonical
      have inner : (body.read resync enter (segment.flush.atMark around)
          segment.flush.emptied).Sound size :=
        ih (canonical _) opened sound.flush.emptied
      exact inner.after segment.flush
  | wrap kind body ih =>
      rw [Canonical] at canonical
      have inner : (body.read resync enter around.first segment).Sound size :=
        ih (canonical.2 _) opened sound
      exact inner.enclosed kind _
  | opened body ih =>
      rw [Canonical] at canonical
      exact ih (canonical _) sound.cursor.current sound
  | guarded body ih =>
      rw [Canonical] at canonical
      rw [read]
      have tried : (body.read resync enter (segment.flush.following around)
          segment.flush.emptied).Sound size :=
        ih (canonical _) opened sound.flush.emptied
      split
      · next inner same =>
          rw [same] at tried
          exact ⟨tried.cursor, tried.reported⟩
      · next error inner same =>
          rw [same] at tried
          have recovered := tried.2.recover resync (segment.flush.atMark around)
            segment.flush.cursor.position tried.1
          exact ⟨recovered.cursor, recovered.reported⟩
  | repeatedly body ih =>
      rw [Canonical] at canonical
      exact Reading.sound_iterate (fun later => ih (canonical _) opened) _ sound
  | enter entry => exact entries entry around segment opened sound

end Production

theorem readEntry_sound (resync : Bool) (size depth : Nat) :
    EntriesSound size (readEntry resync depth) := by
  induction depth with
  | zero => exact fun entry around segment opened sound => ⟨sound.errorOf opened rfl, sound⟩
  | succ depth ih =>
      exact fun entry around segment =>
        Production.Canonical.readsSound ih (Production.canonical_ofEntry entry)

theorem readSource_sound (resync : Bool) (source : List Char) :
    ∀ error ∈ (readSource resync source).reported, error.Sound (utf8Length source) := by
  obtain ⟨last, done, -, -⟩ := sourceReading_done resync source
  have start : (Segment.initial (utf8Length source) (lex source).tokens).Sound
      (utf8Length source) := ⟨initial_within source, List.forall_mem_nil _⟩
  have reads : (sourceReading resync source).Sound (utf8Length source) :=
    Production.Canonical.readsSound (readEntry_sound resync _ (nestingOf source))
      Production.canonical_sourceFile (Span.within_point (Nat.zero_le _)) start
  unfold readSource
  rw [done] at reads ⊢
  exact reads.reported

/-! ### The list of errors -/

theorem sortErrors_sound (resync : Bool) (source : List Char) :
    (sortErrors (lex source).errors (readSource resync source).reported).Pairwise
        (fun earlier later => earlier.span.start ≤ later.span.start) ∧
      ∀ error ∈ sortErrors (lex source).errors (readSource resync source).reported,
        error.Sound (utf8Length source) := by
  constructor
  · exact (List.pairwise_mergeSort startOrder_trans startOrder_total _).imp of_decide_eq_true
  · intro error member
    rcases List.mem_append.mp ((sortErrors_perm _ _).mem_iff.mp member) with lexical | structural
    · obtain ⟨found, known, rfl⟩ := List.mem_map.mp lexical
      exact lexErrors_sound source found known
    · exact readSource_sound resync source error (List.mem_reverse.mp structural)

theorem limitErrors_sound {size : Nat} {errors : List SyntaxError}
    (ordered : errors.Pairwise (fun earlier later => earlier.span.start ≤ later.span.start))
    (sound : ∀ error ∈ errors, error.Sound size) (limit : Nat) :
    (limitErrors size limit errors).Pairwise
        (fun earlier later => earlier.span.start ≤ later.span.start) ∧
      ∀ error ∈ limitErrors size limit errors, error.Sound size := by
  unfold limitErrors
  split
  · exact ⟨ordered, sound⟩
  · have kept : ∀ error ∈ errors.take limit, error.Sound size := fun error member =>
      sound error (List.mem_of_mem_take member)
    constructor
    · refine List.pairwise_append.mpr
        ⟨ordered.take, List.pairwise_singleton _ _, fun error member last single => ?_⟩
      have own := (kept error member).spans error.span List.mem_cons_self
      rw [List.mem_singleton.mp single]
      exact Nat.le_trans own.forward own.bounded
    · refine List.forall_mem_append.mpr ⟨kept, List.forall_mem_singleton.mpr ?_⟩
      exact SyntaxError.sound_plain _ (Span.within_point (Nat.le_refl size)) ErrorCode.noConfusion

theorem parse_errors_sound (options : ParseOptions) (source : List Char) :
    (parse options source).errors.Pairwise
        (fun earlier later => earlier.span.start ≤ later.span.start) ∧
      ∀ error ∈ (parse options source).errors, error.Sound (utf8Length source) := by
  obtain ⟨ordered, sound⟩ := sortErrors_sound options.resyncOnDeclaration source
  rw [parse_errors]
  cases options.maxErrors with
  | none => exact ⟨ordered, sound⟩
  | some limit => exact limitErrors_sound ordered sound limit

/-- A limit on the errors keeps the tree, and the errors up to the limit; where that cuts any, an error at
the end of the source says so. With or without a limit the errors are in the order of their starts, lie
within the source, are of the category of their code, and never about a gap in the declared conflicts. -/
theorem parse_limits_errors (resync : Bool) (source : List Char) :
    (∀ limit : Nat,
      (parse ⟨some limit, resync⟩ source).tree = (parse ⟨none, resync⟩ source).tree ∧
        (parse ⟨some limit, resync⟩ source).errors =
          if (parse ⟨none, resync⟩ source).errors.length ≤ limit then
            (parse ⟨none, resync⟩ source).errors
          else
            (parse ⟨none, resync⟩ source).errors.take limit ++
              [.plain .tooManyErrors
                ("too many errors; stopped reporting after " ++ toString limit)
                (.point (utf8Length source))]) ∧
      ∀ limit : Option Nat,
        (parse ⟨limit, resync⟩ source).errors.Pairwise
            (fun earlier later => earlier.span.start ≤ later.span.start) ∧
          ∀ error ∈ (parse ⟨limit, resync⟩ source).errors,
            (∀ span ∈ error.spans, span.start ≤ span.stop ∧ span.stop ≤ utf8Length source) ∧
              error.category = error.code.category ∧ error.code ≠ .ambiguousConstruct := by
  refine ⟨fun limit => ⟨rfl, rfl⟩, fun limit => ?_⟩
  have listed := parse_errors_sound ⟨limit, resync⟩ source
  refine ⟨listed.1, fun error member => ?_⟩
  have own := listed.2 error member
  exact ⟨fun span shown => ⟨(own.spans span shown).forward, (own.spans span shown).bounded⟩, rfl,
    own.decided⟩

/-- A block that is never closed and holds no statement has two errors, so that a limit of one cuts. -/
theorem parse_limits_errors_unclosed :
    (parse ⟨none, true⟩ "\x7b ) ".toList).errors.length = 2 ∧
      (parse ⟨some 1, true⟩ "\x7b ) ".toList).errors.getLast? =
        some (.plain .tooManyErrors "too many errors; stopped reporting after 1" (.point 4)) ∧
      ∀ error ∈ (parse ⟨some 1, true⟩ "\x7b ) ".toList).errors, error.code ≠ .ambiguousConstruct := by
  obtain ⟨limited, listed⟩ := parse_limits_errors true "\x7b ) ".toList
  have total : (parse ⟨none, true⟩ "\x7b ) ".toList).errors.length = 2 := by
    rw [parse_errors, (sortErrors_perm _ _).length_eq]
    decide +kernel
  refine ⟨total, ?_, fun error member => ((listed (some 1)).2 error member).2.2⟩
  rw [(limited 1).2, total, if_neg (by decide), List.getLast?_append]
  decide +kernel

end JaiSyntax
