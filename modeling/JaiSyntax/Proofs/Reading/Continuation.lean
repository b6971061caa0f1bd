import JaiSyntax.Proofs.Reading.Conservation
/-!
How a segment continues another one. It keeps the tokens, it has moved on or stands still, and where
something was covered it holds a significant child and has moved on.
-/

set_option autoImplicit false

namespace JaiSyntax

theorem isSignificant_withField (field : Option Field) (child : Child) :
    (child.withField field).isSignificant = child.isSignificant := by
  cases child <;> rfl

namespace TokenCursor

/-- The gaps hold extras only, and the tokens ahead are significant and do not end the file. -/
structure Proper (cursor : TokenCursor) : Prop where
  gap : ∀ extra ∈ cursor.gap, extra.child.isSignificant = false
  gaps : ∀ stop ∈ cursor.ahead, ∀ extra ∈ stop.gap, extra.child.isSignificant = false
  ahead : ∀ stop ∈ cursor.ahead, stop.token.kind ≠ .eof ∧ stop.token.kind.isExtra = false
  endOfFile : cursor.endOfFile.kind = .eof

variable {cursor : TokenCursor}

theorem Proper.withoutGap (proper : cursor.Proper) : Proper { cursor with gap := [] } :=
  ⟨fun _ member => (List.not_mem_nil member).elim, proper.gaps, proper.ahead, proper.endOfFile⟩

theorem Proper.isAtEnd_iff (proper : cursor.Proper) :
    cursor.isAtEnd = true ↔ cursor.ahead = [] := by
  unfold isAtEnd current peek
  cases same : cursor.ahead with
  | nil => simp [proper.endOfFile]
  | cons stop rest => simp [(proper.ahead stop (by simp [same])).1]

theorem Proper.peek_of_end (proper : cursor.Proper) (ended : cursor.isAtEnd = true)
    (distance : Nat) : cursor.peek distance = cursor.endOfFile := by
  unfold peek
  rw [proper.isAtEnd_iff.mp ended]
  rfl

/-- Consuming the current token, when there is one. -/
theorem Proper.advance_eq (proper : cursor.Proper) (more : cursor.isAtEnd = false) :
    ∃ stop rest, cursor.ahead = stop :: rest ∧
      cursor.advance = (stop.token, { cursor with
        gap := stop.gap
        ahead := rest
        position := cursor.position + 1
        previous := stop.token }) := by
  cases same : cursor.ahead with
  | nil =>
      rw [proper.isAtEnd_iff.mpr same] at more
      cases more
  | cons stop rest =>
      refine ⟨stop, rest, rfl, ?_⟩
      unfold advance
      rw [same]

end TokenCursor

namespace Segment

structure Continues (earlier later : Segment) : Prop where
  tokens : KeptTokens earlier.tokens later.tokens
  suffix : later.cursor.ahead <:+ earlier.cursor.ahead
  position : later.cursor.position + later.cursor.ahead.length =
    earlier.cursor.position + earlier.cursor.ahead.length
  proper : earlier.cursor.Proper → later.cursor.Proper
  endOfFile : later.cursor.endOfFile = earlier.cursor.endOfFile

/-- Something significant was read since the token of number `origin`. -/
def Covered (segment : Segment) (origin : Nat) : Prop :=
  segment.latest.any Child.isSignificant = true ∧ origin < segment.cursor.position

/-- The last child of a segment is significant. -/
def Tight (segment : Segment) : Prop :=
  ∃ child earlier, segment.latest = child :: earlier ∧ child.isSignificant = true

variable {segment earlier later : Segment}

namespace Continues

theorem refl (segment : Segment) : Continues segment segment :=
  ⟨.refl _, List.suffix_rfl, rfl, id, rfl⟩

theorem trans {first second third : Segment} (front : Continues first second)
    (back : Continues second third) : Continues first third :=
  ⟨front.tokens.trans back.tokens, back.suffix.trans front.suffix,
    back.position.trans front.position, fun proper => back.proper (front.proper proper),
    back.endOfFile.trans front.endOfFile⟩

theorem position_le (continues : Continues earlier later) :
    earlier.cursor.position ≤ later.cursor.position := by
  have shorter := continues.suffix.length_le
  have same := continues.position
  omega

/-- A segment that has not moved on has the same tokens ahead. -/
theorem ahead_eq (continues : Continues earlier later)
    (same : later.cursor.position = earlier.cursor.position) :
    later.cursor.ahead = earlier.cursor.ahead := by
  apply continues.suffix.eq_of_length
  have total := continues.position
  omega

theorem current_eq (continues : Continues earlier later)
    (same : later.cursor.position = earlier.cursor.position) :
    later.cursor.current = earlier.cursor.current := by
  simp only [TokenCursor.current, TokenCursor.peek, continues.ahead_eq same, continues.endOfFile]

/-- The same cursor before children with the same leaves. -/
theorem of_cursor_eq (cursor : later.cursor = earlier.cursor)
    (leaves : Child.leavesOfList later.latest.reverse =
      Child.leavesOfList earlier.latest.reverse) : Continues earlier later := by
  refine ⟨.of_eq ?_, ?_, ?_, ?_, ?_⟩
  · rw [Segment.tokens, Segment.tokens, leaves, cursor]
  · exact cursor ▸ List.suffix_rfl
  · rw [cursor]
  · rw [cursor]
    exact id
  · rw [cursor]

end Continues

theorem continues_flush (segment : Segment) : Continues segment segment.flush := by
  refine ⟨.of_eq ?_, List.suffix_rfl, rfl, TokenCursor.Proper.withoutGap, rfl⟩
  simp [Segment.tokens, flush, TokenCursor.tokens, Child.leavesOfList_append, leaves_children,
    tokensOfExtras]

theorem continues_bumpAs {change : Token → Token} (proper : segment.cursor.Proper)
    (kept : segment.cursor.isAtEnd = false →
      segment.cursor.current.KeptAs (change segment.cursor.current)) :
    Continues segment (segment.bumpAs change) := by
  refine (continues_flush segment).trans ?_
  unfold bumpAs
  cases ended : segment.flush.cursor.isAtEnd with
  | true =>
      simp only [ended, if_true]
      exact .refl _
  | false =>
      obtain ⟨stop, rest, ahead, advanced⟩ := proper.withoutGap.advance_eq ended
      change segment.cursor.ahead = stop :: rest at ahead
      have current : segment.cursor.current = stop.token := by
        simp [TokenCursor.current, TokenCursor.peek, ahead]
      change segment.flush.cursor.advance = _ at advanced
      simp only [ended, advanced, Bool.false_eq_true, if_false]
      rw [current] at kept
      refine ⟨?_, ?_, ?_, ?_, rfl⟩
      · have tokens : segment.flush.tokens =
            Child.leavesOfList segment.flush.latest.reverse ++
              ([stop.token] ++ (tokensOfExtras stop.gap ++ rest.flatMap Stop.tokens)) := by
          simp [Segment.tokens, flush, TokenCursor.tokens, ahead, tokensOfExtras, Stop.tokens]
        rw [tokens]
        simp only [Segment.tokens, List.reverse_cons, Child.leavesOfList_append, List.append_assoc]
        refine (KeptTokens.refl _).append (KeptTokens.append ?_ (.refl _))
        exact List.Forall₂.cons (kept ended) List.Forall₂.nil
      · exact ⟨[stop], ahead.symm⟩
      · change segment.cursor.position + 1 + rest.length =
          segment.cursor.position + segment.cursor.ahead.length
        rw [ahead, List.length_cons]
        omega
      · intro flushed
        have member : stop ∈ segment.flush.cursor.ahead := by
          change stop ∈ segment.cursor.ahead
          rw [ahead]
          exact List.mem_cons_self
        have within : ∀ other ∈ rest, other ∈ segment.flush.cursor.ahead := by
          intro other inRest
          change other ∈ segment.cursor.ahead
          rw [ahead]
          exact List.mem_cons_of_mem stop inRest
        exact ⟨flushed.gaps stop member, fun other inRest => flushed.gaps other (within other inRest),
          fun other inRest => flushed.ahead other (within other inRest), flushed.endOfFile⟩

/-- The children after a token was consumed. -/
theorem latest_bumpAs (proper : segment.cursor.Proper) (more : segment.cursor.isAtEnd = false)
    (change : Token → Token) :
    (segment.bumpAs change).latest =
      .leaf none (change segment.cursor.current) :: segment.flush.latest := by
  obtain ⟨stop, rest, ahead, advanced⟩ := proper.withoutGap.advance_eq more
  change segment.cursor.ahead = stop :: rest at ahead
  change segment.flush.cursor.advance = _ at advanced
  have current : segment.cursor.current = stop.token := by
    simp [TokenCursor.current, TokenCursor.peek, ahead]
  unfold bumpAs
  change segment.flush.cursor.isAtEnd = false at more
  simp only [more, advanced, current, Bool.false_eq_true, if_false]

/-- The current token is significant, unless it ends the file. -/
theorem current_significant (proper : segment.cursor.Proper)
    (more : segment.cursor.isAtEnd = false) : segment.cursor.current.kind.isExtra = false := by
  obtain ⟨stop, rest, ahead, -⟩ := proper.advance_eq more
  have current : segment.cursor.current = stop.token := by
    simp [TokenCursor.current, TokenCursor.peek, ahead]
  rw [current]
  exact (proper.ahead stop (by simp [ahead])).2

theorem continues_bump (proper : segment.cursor.Proper) : Continues segment segment.bump :=
  continues_bumpAs proper (fun _ => Or.inl rfl)

theorem continues_bumps (count : Nat) (proper : segment.cursor.Proper) :
    Continues segment (segment.bumps count) := by
  induction count generalizing segment with
  | zero => exact .refl segment
  | succ count ih =>
      have first := continues_bump proper
      exact first.trans (ih (first.proper proper))

theorem continues_mapLatest {change : List Child → List Child}
    (kept : Child.leavesOfList (change segment.latest).reverse =
      Child.leavesOfList segment.latest.reverse) :
    Continues segment (segment.mapLatest change) :=
  .of_cursor_eq rfl kept

theorem Continues.enclosed (continues : Continues earlier later) (kind : NodeKind)
    (position : Nat) : Continues earlier (later.enclosed kind position) :=
  continues.trans (.of_cursor_eq rfl (by simp [Segment.enclosed, Child.leavesOfList]))

/-- What continues an empty segment after another one continues that one. -/
theorem Continues.after (continues : Continues segment.emptied later) :
    Continues segment (later.after segment) := by
  refine ⟨?_, continues.suffix, continues.position, continues.proper, continues.endOfFile⟩
  have kept := (KeptTokens.refl (Child.leavesOfList segment.latest.reverse)).append
    continues.tokens
  simpa [Segment.tokens, Segment.after, emptied, Child.leavesOfList_append, Child.leavesOfList]
    using kept

theorem Continues.report (continues : Continues earlier later) (error : SyntaxError) :
    Continues earlier { later with reported := error :: later.reported } :=
  continues.trans (.of_cursor_eq rfl rfl)

theorem continues_recovered (around : Surroundings) (error : SyntaxError) (count : Nat)
    (proper : segment.cursor.Proper) :
    Continues segment (segment.recovered around error count) := by
  have cleared : Continues segment (segment.mapLatest (List.map (Child.withField none))) := by
    apply continues_mapLatest
    rw [← List.map_reverse, leaves_withoutFields]
  exact ((cleared.trans (continues_bumps count proper)).enclosed .error _).report error

/-! ### Moving on -/

theorem position_bump (proper : segment.cursor.Proper) (more : segment.cursor.ahead ≠ []) :
    segment.bump.cursor.position = segment.cursor.position + 1 := by
  have open_end : segment.cursor.isAtEnd = false :=
    Bool.eq_false_iff.mpr (fun ended => more (proper.isAtEnd_iff.mp ended))
  obtain ⟨stop, rest, -, advanced⟩ := proper.withoutGap.advance_eq open_end
  rw [bump, cursor_bumpAs, open_end]
  simp only [Bool.false_eq_true, if_false, advanced]

theorem position_bumps {count : Nat} (proper : segment.cursor.Proper)
    (more : segment.cursor.ahead ≠ []) (some : 1 ≤ count) :
    segment.cursor.position < (segment.bumps count).cursor.position := by
  cases count with
  | zero => cases some
  | succ count =>
      have first := continues_bump proper
      have rest := (continues_bumps count (first.proper proper)).position_le
      have moved := position_bump proper more
      change _ < (segment.bump.bumps count).cursor.position
      omega

end Segment

end JaiSyntax
