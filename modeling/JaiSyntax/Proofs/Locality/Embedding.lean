import JaiSyntax.Proofs.Locality.Outlook
import JaiSyntax.Proofs.Locality.Shift
import JaiSyntax.Proofs.Reading.Soundness
/-!
A source inside a longer one. Before it stand some bytes, tokens and errors, and after its semicolon the
longer source may go on. At the same token the two are read alike: what is looked at is the same, and
what is read differs in its place only.
-/

set_option autoImplicit false

namespace JaiSyntax

/-- The place of a source inside a longer one: the bytes, the tokens and the errors before it, and what
follows its semicolon there, which is no `else`. All errors of the source start before `bound`. -/
structure Embedding where
  offset : Nat
  steps : Nat
  earlier : List SyntaxError
  gap : List Extra
  tail : List Stop
  bound : Nat
  noElse : ∀ stop ∈ tail.head?, stop.token.isWord "else" = false

variable {embedding : Embedding} {horizon : Horizon} {past : Bool}

/-! ### Cursors -/

namespace TokenCursor

/-- Whether two cursors are at the same token, with the same tokens ahead as far as the horizon goes. -/
def Embedded (embedding : Embedding) (horizon : Horizon) (past : Bool) (left right : TokenCursor) :
    Prop :=
  match horizon, past with
  | .file, true => False
  | .file, false =>
      right.gap = left.gap.map (Extra.shift embedding.offset) ∧
        right.ahead = left.ahead.map (Stop.shift embedding.offset) ∧
          right.endOfFile = left.endOfFile.shift embedding.offset
  | .statement, false =>
      right.gap = left.gap.map (Extra.shift embedding.offset) ∧
        ∃ (run : List Stop) (semicolon : Token),
          left.ahead = run ++ [⟨semicolon, []⟩] ∧
            right.ahead = run.map (Stop.shift embedding.offset) ++
              ⟨semicolon.shift embedding.offset, embedding.gap⟩ :: embedding.tail ∧
            (∀ stop ∈ run, stop.token.kind.isFlat = true ∧
              stop.token.span.start < embedding.bound ∧ stop.token.span.stop < embedding.bound) ∧
            semicolon.kind = .semicolon ∧ semicolon.span.start < embedding.bound ∧
              semicolon.span.stop = embedding.bound
  | .statement, true =>
      left.gap = [] ∧ left.ahead = [] ∧ right.gap = embedding.gap ∧ right.ahead = embedding.tail

variable {left right : TokenCursor}

theorem peek_eq (cursor : TokenCursor) (distance : Nat) :
    cursor.peek distance = (cursor.ahead[distance]?.map Stop.token).getD cursor.endOfFile := by
  unfold peek
  cases cursor.ahead[distance]? <;> rfl

theorem Proper.advance (proper : left.Proper) : left.advance.2.Proper := by
  rcases left with ⟨gap, _ | ⟨stop, rest⟩, position, previous, endOfFile⟩
  · exact proper
  · exact ⟨proper.gaps stop List.mem_cons_self,
      fun other member => proper.gaps other (List.mem_cons_of_mem stop member),
      fun other member => proper.ahead other (List.mem_cons_of_mem stop member), proper.endOfFile⟩

theorem isFlat_notSemicolon {kind : TokenKind} (flat : kind.isFlat = true) : kind ≠ .semicolon := by
  rintro rfl
  exact absurd flat (by decide)

/-- Where all of the rest is shared, so are all tokens ahead. -/
theorem Embedded.peek_file (embedded : left.Embedded embedding .file past right)
    (distance : Nat) : right.peek distance = (left.peek distance).shift embedding.offset := by
  cases past with
  | true => exact embedded.elim
  | false =>
      obtain ⟨-, ahead, endOfFile⟩ := embedded
      rw [peek_eq, peek_eq, ahead, endOfFile, List.getElem?_map]
      cases left.ahead[distance]? <;> rfl

/-- Up to the first semicolon the tokens ahead are the same. -/
theorem Embedded.peek (embedded : left.Embedded embedding horizon false right) (distance : Nat)
    (before : ∀ nearer, nearer < distance → (left.peek nearer).kind ≠ .semicolon) :
    right.peek distance = (left.peek distance).shift embedding.offset := by
  cases horizon with
  | file => exact embedded.peek_file distance
  | statement =>
      rw [peek_eq, peek_eq]
      obtain ⟨-, run, semicolon, leftAhead, rightAhead, -, kind, -⟩ := embedded
      rw [leftAhead, rightAhead]
      rcases Nat.lt_trichotomy distance run.length with within | rfl | beyond
      · rw [List.getElem?_append_left within,
          List.getElem?_append_left (by rwa [List.length_map]), List.getElem?_map,
          List.getElem?_eq_getElem within]
        rfl
      · simp
      · refine absurd ?_ (before run.length beyond)
        simp [peek_eq, leftAhead, kind]

theorem Embedded.current (embedded : left.Embedded embedding horizon false right) :
    right.current = left.current.shift embedding.offset :=
  embedded.peek 0 (fun _ absurd => (Nat.not_lt_zero _ absurd).elim)

theorem Embedded.isAtEnd (embedded : left.Embedded embedding horizon false right) :
    right.isAtEnd = left.isAtEnd := by
  unfold TokenCursor.isAtEnd
  rw [embedded.current, Token.kind_shift]

theorem Embedded.length_le (embedded : left.Embedded embedding horizon false right) :
    left.ahead.length ≤ right.ahead.length := by
  cases horizon with
  | file =>
      obtain ⟨-, ahead, -⟩ := embedded
      simp [ahead]
  | statement =>
      obtain ⟨-, run, semicolon, leftAhead, rightAhead, -⟩ := embedded
      simp [leftAhead, rightAhead]

theorem Embedded.withoutGap (embedded : left.Embedded embedding horizon false right) :
    Embedded embedding horizon false { left with gap := [] } { right with gap := [] } := by
  cases horizon with
  | file => exact ⟨rfl, embedded.2.1, embedded.2.2⟩
  | statement => exact ⟨rfl, embedded.2⟩

theorem Embedded.gap (embedded : left.Embedded embedding horizon false right) :
    right.gap = left.gap.map (Extra.shift embedding.offset) := by
  cases horizon <;> exact embedded.1

/-- Both cursors consume the same token; with the semicolon the shorter source ends. -/
theorem Embedded.advance (embedded : left.Embedded embedding horizon false right) :
    Embedded embedding horizon (horizon == .statement && left.current.kind == .semicolon)
      left.advance.2 right.advance.2 := by
  rcases left with ⟨gap, ahead, position, previous, endOfFile⟩
  rcases right with ⟨otherGap, otherAhead, otherPosition, otherPrevious, otherEnd⟩
  cases horizon with
  | file =>
      obtain ⟨same, rfl, ended⟩ := embedded
      cases ahead with
      | nil => exact ⟨same, rfl, ended⟩
      | cons stop rest => exact ⟨rfl, rfl, ended⟩
  | statement =>
      obtain ⟨-, run, semicolon, rfl, rfl, flat, kind, start⟩ := embedded
      cases run with
      | nil =>
          have past : (semicolon.kind == .semicolon) = true := beq_iff_eq.mpr kind
          simp only [TokenCursor.current, TokenCursor.peek, List.nil_append, List.length_cons,
            Nat.zero_lt_succ, getElem?_pos, List.getElem_cons_zero, past, beq_self_eq_true,
            Bool.and_self]
          exact ⟨rfl, rfl, rfl, rfl⟩
      | cons stop run =>
          have here := flat stop List.mem_cons_self
          have notPast : (stop.token.kind == .semicolon) = false :=
            beq_eq_false_iff_ne.mpr (isFlat_notSemicolon here.1)
          simp only [TokenCursor.current, TokenCursor.peek, List.cons_append, List.length_cons,
            Nat.zero_lt_succ, getElem?_pos, List.getElem_cons_zero, notPast, Bool.and_false]
          exact ⟨rfl, run, semicolon, rfl, rfl,
            fun other member => flat other (List.mem_cons_of_mem stop member), kind, start⟩

end TokenCursor

/-! ### Segments -/

structure Segment.Embedded (embedding : Embedding) (horizon : Horizon) (past : Bool)
    (left right : Segment) : Prop where
  cursor : left.cursor.Embedded embedding horizon past right.cursor
  position : right.cursor.position = left.cursor.position + embedding.steps
  previous : 0 < left.cursor.position →
    right.cursor.previous.kind = left.cursor.previous.kind
  stop : right.cursor.previous.span.stop = left.cursor.previous.span.stop + embedding.offset
  latest : right.latest = left.latest.map (Child.shift embedding.offset)
  reported : right.reported =
    left.reported.map (SyntaxError.shift embedding.offset) ++ embedding.earlier
  leftProper : left.cursor.Proper
  rightProper : right.cursor.Proper
  gap : ∀ extra ∈ left.cursor.gap, extra.tokens ≠ []
  gaps : ∀ stop ∈ left.cursor.ahead, ∀ extra ∈ stop.gap, extra.tokens ≠ []
  bounded : horizon = .statement → ∀ error ∈ left.reported, error.span.start < embedding.bound
  near : horizon = .statement → past = false →
    left.cursor.previous.span.stop < embedding.bound
  last : horizon = .statement → past = true →
    left.cursor.previous.span.stop = embedding.bound

/-- The surroundings of a segment and of the same segment of a longer source. A mark and a brace matter
only where they were set. -/
structure Surroundings.Embedded (embedding : Embedding) (setting : Setting)
    (around other : Surroundings) : Prop where
  context : other.context = around.context
  position : setting.marked = true → other.position = around.position + embedding.offset
  opener : setting.braced = true → other.opener = around.opener.shift embedding.offset

namespace Segment

variable {left right : Segment} {around other : Surroundings} {setting : Setting}

theorem cursor_bumpAs_of_more {segment : Segment} (more : segment.cursor.isAtEnd = false)
    (change : Token → Token) :
    (segment.bumpAs change).cursor = { segment.cursor with gap := [] }.advance.2 := by
  rw [cursor_bumpAs, more]
  rfl

theorem view_kindAt (segment : Segment) (around : Surroundings) (distance : Nat) :
    (segment.view around).kindAt distance = (segment.cursor.peek distance).kind := rfl

namespace Embedded

theorem fits (embedded : left.Embedded embedding horizon past right) (around : Surroundings) :
    horizon.Fits past (left.view around) := by
  have tokens := embedded.cursor
  cases horizon with
  | file =>
      cases past with
      | true => exact tokens.elim
      | false => rfl
  | statement =>
      cases past with
      | true =>
          obtain ⟨-, ahead, -, -⟩ := tokens
          have ended := embedded.leftProper.isAtEnd_iff.mpr ahead
          exact eq_of_beq ended
      | false =>
          obtain ⟨-, run, semicolon, ahead, -, flat, kind, -⟩ := tokens
          refine ⟨run.length, ?_, fun nearer within => ?_⟩
          · simp [view_kindAt, TokenCursor.peek_eq, ahead, kind]
          · have here := (flat (run[nearer]) (List.getElem_mem within)).1
            simpa [view_kindAt, TokenCursor.peek_eq, ahead, List.getElem?_append_left within,
              List.getElem?_eq_getElem within] using here

theorem emptied (embedded : left.Embedded embedding horizon past right) :
    left.emptied.Embedded embedding horizon past right.emptied :=
  { embedded with latest := rfl }

theorem after (embedded : left.Embedded embedding horizon past right)
    {earlier otherEarlier : Segment}
    (before : otherEarlier.latest = earlier.latest.map (Child.shift embedding.offset)) :
    (left.after earlier).Embedded embedding horizon past (right.after otherEarlier) := by
  refine { embedded with latest := ?_ }
  simp only [Segment.after, embedded.latest, before, List.map_append]

theorem enclosed (embedded : left.Embedded embedding horizon past right) (kind : NodeKind)
    {position other : Nat} (places : other = position + embedding.offset) :
    (left.enclosed kind position).Embedded embedding horizon past (right.enclosed kind other) := by
  refine { embedded with latest := ?_ }
  simp only [Segment.enclosed, embedded.latest, places, enclosed_shift, List.map_cons,
    List.map_nil]

theorem replaceLast (embedded : left.Embedded embedding horizon past right)
    (change : Child → List Child)
    (commutes : ∀ child : Child, change (child.shift embedding.offset) =
      (change child).map (Child.shift embedding.offset)) :
    (left.mapLatest (replaceLastSignificant change)).Embedded embedding horizon past
      (right.mapLatest (replaceLastSignificant change)) := by
  refine { embedded with latest := ?_ }
  simp only [Segment.mapLatest, embedded.latest, replaceLastSignificant_shift commutes]

theorem withoutFields (embedded : left.Embedded embedding horizon past right) :
    (left.mapLatest (List.map (Child.withField none))).Embedded embedding horizon past
      (right.mapLatest (List.map (Child.withField none))) := by
  refine { embedded with latest := ?_ }
  simp only [Segment.mapLatest, embedded.latest, List.map_map]
  exact List.map_congr_left (fun child _ => Child.withField_shift none child)

theorem flush (embedded : left.Embedded embedding horizon false right) :
    left.flush.Embedded embedding horizon false right.flush := by
  refine { embedded with
    cursor := embedded.cursor.withoutGap
    latest := ?_
    leftProper := embedded.leftProper.withoutGap
    rightProper := embedded.rightProper.withoutGap
    gap := fun _ member => (List.not_mem_nil member).elim }
  have extras : (left.cursor.gap.map (Extra.shift embedding.offset)).map Extra.child =
      (left.cursor.gap.map Extra.child).map (Child.shift embedding.offset) := by
    rw [List.map_map, List.map_map]
    exact List.map_congr_left (fun extra member => Extra.child_shift (embedded.gap extra member))
  simp only [Segment.flush, embedded.cursor.gap, embedded.latest, extras, List.map_append,
    List.map_reverse]

/-- Before the semicolon the current token and the one before it are near enough for an error. -/
theorem current_near (embedded : left.Embedded embedding horizon false right)
    (statement : horizon = .statement) : left.cursor.current.span.start < embedding.bound := by
  subst statement
  obtain ⟨-, run, semicolon, ahead, -, flat, -, start, -⟩ := embedded.cursor
  unfold TokenCursor.current
  rw [TokenCursor.peek_eq, ahead]
  cases run with
  | nil => exact start
  | cons stop run => exact (flat stop List.mem_cons_self).2.1

theorem report (embedded : left.Embedded embedding horizon past right) {error other : SyntaxError}
    (same : other = error.shift embedding.offset)
    (near : horizon = .statement → error.span.start < embedding.bound) :
    Segment.Embedded embedding horizon past { left with reported := error :: left.reported }
      { right with reported := other :: right.reported } := by
  refine { embedded with reported := ?_, bounded := fun statement found member => ?_ }
  · simp only [same, embedded.reported, List.map_cons, List.cons_append]
  · rcases List.mem_cons.mp member with rfl | earlier
    · exact near statement
    · exact embedded.bounded statement found earlier

theorem errorOf (embedded : left.Embedded embedding horizon false right) {complaint : Complaint}
    (allowed : setting.Allows horizon complaint)
    (places : around.Embedded embedding setting other) :
    right.errorOf other complaint = (left.errorOf around complaint).shift embedding.offset := by
  unfold Segment.errorOf
  rw [embedded.cursor.current]
  exact Complaint.toError_shift complaint _ embedded.stop
    (fun brace => places.opener (allowed brace).1)

theorem errorOf_near (embedded : left.Embedded embedding horizon false right)
    {complaint : Complaint} (allowed : setting.Allows horizon complaint)
    (statement : horizon = .statement) :
    (left.errorOf around complaint).span.start < embedding.bound := by
  have current := embedded.current_near statement
  have previous := embedded.near statement rfl
  cases complaint with
  | unclosedBrace => exact absurd (statement.symm.trans (allowed rfl).2) (by decide)
  | expected expectation => exact current
  | missingTerminator kind => exact previous
  | missingAfterEnumMember => exact previous
  | missingAfterAssemblyLine => exact previous
  | ambiguous candidates chosen => exact current

theorem start (embedded : left.Embedded embedding horizon past right)
    (places : around.Embedded embedding setting other) (marked : setting.marked = true) :
    right.start other = left.start around + embedding.offset := by
  unfold Segment.start
  rw [embedded.latest, List.getLast?_map]
  cases left.latest.getLast? with
  | none => exact places.position marked
  | some first => exact congrArg Span.start (Child.span_shift first)

theorem bumpAs (embedded : left.Embedded embedding horizon false right) (change : Token → Token)
    (commutes : ∀ token : Token,
      change (token.shift embedding.offset) = (change token).shift embedding.offset) :
    (left.bumpAs change).Embedded embedding horizon
      (horizon == .statement && left.cursor.current.kind == .semicolon) (right.bumpAs change) := by
  cases ended : left.cursor.isAtEnd with
  | true =>
      have eof : left.cursor.current.kind = .eof := eq_of_beq ended
      rw [bumpAs_of_end ended, bumpAs_of_end (embedded.cursor.isAtEnd.trans ended), eof]
      have notPast : (horizon == .statement && TokenKind.eof == .semicolon) = false := by
        cases horizon <;> rfl
      exact notPast ▸ embedded.flush
  | false =>
      have otherMore := embedded.cursor.isAtEnd.trans ended
      obtain ⟨stop, rest, ahead, moved⟩ := embedded.leftProper.withoutGap.advance_eq ended
      obtain ⟨other, otherRest, otherAhead, otherMoved⟩ :=
        embedded.rightProper.withoutGap.advance_eq otherMore
      have same := embedded.cursor.current
      simp only [TokenCursor.current, TokenCursor.peek_eq, show left.cursor.ahead = _ from ahead,
        show right.cursor.ahead = _ from otherAhead, List.getElem?_cons_zero, Option.map_some,
        Option.getD_some] at same
      have advanced := embedded.cursor.withoutGap.advance
      have leftProper := embedded.leftProper.withoutGap.advance
      have rightProper := embedded.rightProper.withoutGap.advance
      have leftCursor := cursor_bumpAs_of_more ended change
      have rightCursor := cursor_bumpAs_of_more otherMore change
      rw [moved] at leftCursor leftProper advanced
      rw [otherMoved] at rightCursor rightProper advanced
      rw [← leftCursor] at advanced leftProper
      rw [← rightCursor] at advanced rightProper
      refine ⟨advanced, ?_, fun _ => ?_, ?_, ?_, ?_, leftProper, rightProper, ?_, ?_, ?_, ?_, ?_⟩
      · rw [leftCursor, rightCursor]
        change right.cursor.position + 1 = left.cursor.position + 1 + embedding.steps
        rw [embedded.position]
        omega
      · rw [leftCursor, rightCursor]
        exact (congrArg Token.kind same :)
      · rw [leftCursor, rightCursor]
        exact congrArg (fun token : Token => token.span.stop) same
      · rw [latest_bumpAs embedded.leftProper ended, latest_bumpAs embedded.rightProper otherMore,
          embedded.flush.latest, embedded.cursor.current, commutes, List.map_cons,
          Child.shift_leaf]
      · rw [reported_bumpAs, reported_bumpAs]
        exact embedded.reported
      · rw [leftCursor]
        exact embedded.gaps stop (by simp [show left.cursor.ahead = _ from ahead])
      · rw [leftCursor]
        exact fun next member => embedded.gaps next
          (by simp [show left.cursor.ahead = _ from ahead, show next ∈ rest from member])
      · rw [reported_bumpAs]
        exact embedded.bounded
      · rintro rfl notPast
        rw [leftCursor]
        obtain ⟨-, run, semicolon, front, -, flat, kind, -⟩ := embedded.cursor
        cases run with
        | nil =>
            refine absurd notPast ?_
            simp [TokenCursor.current, TokenCursor.peek_eq, front, kind]
        | cons first run =>
            have here : first = stop := (List.cons.inj (front.symm.trans ahead)).1
            exact here ▸ (flat first List.mem_cons_self).2.2
      · rintro rfl semicolonHere
        rw [leftCursor]
        obtain ⟨-, run, semicolon, front, -, flat, -, -, stopped⟩ := embedded.cursor
        cases run with
        | nil =>
            have here : ⟨semicolon, []⟩ = stop := (List.cons.inj (front.symm.trans ahead)).1
            exact here ▸ stopped
        | cons first run =>
            have notSemicolon := TokenCursor.isFlat_notSemicolon (flat first List.mem_cons_self).1
            refine absurd ?_ notSemicolon
            simpa [TokenCursor.current, TokenCursor.peek_eq, front] using semicolonHere

end Embedded

end Segment

end JaiSyntax
