import JaiSyntax.Proofs.Production.Orderly
import JaiSyntax.Proofs.Reading.Continuation
import JaiSyntax.Proofs.Reading.Recovery
/-!
The way through the tokens, and recovery without bounds. Moves and recoveries leave the cursor where it
is or take it further on. The loops of a recovery end by themselves: each of their rounds consumes a
token, and they stop at the end of the file at the latest. So the bounds that are set to them are never
met.
-/

set_option autoImplicit false

namespace JaiSyntax

/-! ### Cursors on their way -/

namespace TokenCursor

/-- The tokens that can be looked at from a cursor, in no context and after no node. -/
def view (cursor : TokenCursor) : View where
  kindAt distance := (cursor.peek distance).kind
  textAt distance := (cursor.peek distance).text
  previous := cursor.previous.kind
  context := .none
  lastNode := none

structure Precedes (earlier later : TokenCursor) : Prop where
  proper : later.Proper
  position : later.position + later.ahead.length = earlier.position + earlier.ahead.length
  shorter : later.ahead.length ≤ earlier.ahead.length
  view : later.ahead.length = earlier.ahead.length → later.view = earlier.view

variable {earlier later : TokenCursor}

theorem Precedes.refl (proper : earlier.Proper) : earlier.Precedes earlier :=
  ⟨proper, rfl, Nat.le_refl _, fun _ => rfl⟩

theorem Precedes.trans {last : TokenCursor} (front : earlier.Precedes later)
    (back : later.Precedes last) : earlier.Precedes last := by
  have first := front.shorter
  have second := back.shorter
  refine ⟨back.proper, back.position.trans front.position, Nat.le_trans second first, fun same => ?_⟩
  exact (back.view (by omega)).trans (front.view (by omega))

/-- Nothing was consumed on the way if nothing was consumed at the end. -/
theorem Precedes.length_eq {last : TokenCursor} (front : earlier.Precedes later)
    (back : later.Precedes last) (same : last.ahead.length = earlier.ahead.length) :
    later.ahead.length = earlier.ahead.length :=
  Nat.le_antisymm front.shorter (same ▸ back.shorter)

theorem Precedes.length_eq_iff (precedes : earlier.Precedes later) :
    later.ahead.length = earlier.ahead.length ↔ later.position = earlier.position := by
  have total := precedes.position
  constructor <;> intro same <;> omega

theorem Precedes.position_le (precedes : earlier.Precedes later) :
    earlier.position ≤ later.position := by
  have total := precedes.position
  have shorter := precedes.shorter
  omega

theorem Precedes.position_lt (precedes : earlier.Precedes later)
    (consumed : later.ahead.length ≠ earlier.ahead.length) : earlier.position < later.position := by
  have total := precedes.position
  have shorter := precedes.shorter
  omega

/-- Handing out the extras leaves a cursor where it is. -/
theorem precedes_withoutGap (proper : earlier.Proper) :
    earlier.Precedes { earlier with gap := [] } :=
  ⟨proper.withoutGap, rfl, Nat.le_refl _, fun _ => rfl⟩

end TokenCursor

namespace ParserState

variable {resync : Bool} {state : ParserState}

/-! ### Moves -/

theorem cursor_bumpAs (state : ParserState) (change : Token → Token) :
    (state.bumpAs change).cursor =
      if state.isAtEnd then { state.cursor with gap := [] }
      else { state.cursor with gap := [] }.advance.2 := by
  unfold bumpAs
  change (if state.isAtEnd then _ else _ : ParserState).cursor = _
  split <;> rfl

/-- Where a cursor is once a token was consumed. -/
theorem cursor_bumpAs_of_token (proper : state.cursor.Proper) (more : state.isAtEnd = false)
    (change : Token → Token) :
    ∃ stop rest, state.cursor.ahead = stop :: rest ∧
      (state.bumpAs change).cursor = { state.cursor with
        gap := stop.gap
        ahead := rest
        position := state.cursor.position + 1
        previous := stop.token } := by
  obtain ⟨stop, rest, ahead, advanced⟩ := proper.withoutGap.advance_eq more
  refine ⟨stop, rest, ahead, ?_⟩
  rw [cursor_bumpAs, more, if_neg Bool.false_ne_true, advanced]

theorem shorter_bumpAs (proper : state.cursor.Proper) (more : state.isAtEnd = false)
    (change : Token → Token) :
    (state.bumpAs change).cursor.ahead.length < state.cursor.ahead.length := by
  obtain ⟨stop, rest, ahead, bumped⟩ := cursor_bumpAs_of_token proper more change
  rw [bumped, ahead]
  exact Nat.lt_succ_self rest.length

theorem precedes_bumpAs (proper : state.cursor.Proper) (change : Token → Token) :
    state.cursor.Precedes (state.bumpAs change).cursor := by
  cases more : state.isAtEnd with
  | true =>
      rw [cursor_bumpAs, more]
      exact TokenCursor.precedes_withoutGap proper
  | false =>
      have shorter := shorter_bumpAs proper more change
      obtain ⟨stop, rest, ahead, bumped⟩ := cursor_bumpAs_of_token proper more change
      have among : ∀ other ∈ rest, other ∈ state.cursor.ahead :=
        fun other inside => ahead ▸ List.mem_cons_of_mem stop inside
      refine ⟨?_, ?_, Nat.le_of_lt shorter, fun same => absurd same (Nat.ne_of_lt shorter)⟩
      · rw [bumped]
        exact ⟨proper.gaps stop (ahead ▸ List.mem_cons_self),
          fun other inside => proper.gaps other (among other inside),
          fun other inside => proper.ahead other (among other inside), proper.endOfFile⟩
      · rw [bumped, ahead, List.length_cons]
        exact Nat.add_right_comm state.cursor.position 1 rest.length

theorem precedes_apply (proper : state.cursor.Proper) (scope : Scope) (move : Move) :
    state.cursor.Precedes (state.apply scope move).cursor := by
  cases move with
  | bump => exact precedes_bumpAs proper id
  | bumpKeyword => exact precedes_bumpAs proper _
  | tag | reinterpretLast | spliceParameters | report => exact .refl proper

/-! ### Recovery without bounds -/

inductive SkipsGroup : Nat → ParserState → ParserState → Prop
  | ended {depth : Nat} {state : ParserState} :
      state.isAtEnd = true → SkipsGroup depth state state
  | closed {depth : Nat} {state : ParserState} :
      state.isAtEnd = false → Segment.depthAfter depth state.current.kind = 0 →
      SkipsGroup depth state state.bump
  | further {depth : Nat} {state last : ParserState} :
      state.isAtEnd = false → Segment.depthAfter depth state.current.kind ≠ 0 →
      SkipsGroup (Segment.depthAfter depth state.current.kind) state.bump last →
      SkipsGroup depth state last

inductive SkipsOne (state : ParserState) : ParserState → Prop
  | token : openDelimiters.contains state.current.kind = false → SkipsOne state state.bump
  | group {last : ParserState} :
      openDelimiters.contains state.current.kind = true → SkipsGroup 0 state last →
      SkipsOne state last

inductive Synchronizes (resync : Bool) : ParserState → ParserState → Prop
  | boundary {state : ParserState} :
      statementBoundary.contains state.current.kind = true → Synchronizes resync state state
  | semicolon {state : ParserState} :
      statementBoundary.contains state.current.kind = false → state.current.kind = .semicolon →
      Synchronizes resync state state.bump
  | declaration {state : ParserState} :
      statementBoundary.contains state.current.kind = false → state.current.kind ≠ .semicolon →
      (resync && state.cursor.isAtDeclaration) = true → Synchronizes resync state state
  | skip {state moved last : ParserState} :
      statementBoundary.contains state.current.kind = false → state.current.kind ≠ .semicolon →
      (resync && state.cursor.isAtDeclaration) = false →
      SkipsOne state moved → Synchronizes resync moved last → Synchronizes resync state last

def openError (checkpoint : Checkpoint) (state : ParserState) : ParserState :=
  { state with
    builder := ((state.builder.dissolveTo checkpoint.depth).startAt checkpoint .error).clearFields }

/-- Whether a recovery skips something before it looks for a synchronization point. -/
def isStuckAt (position : Nat) (state : ParserState) : Bool :=
  state.cursor.position == position && !state.isAtEnd && state.current.kind != .semicolon

def Recovers (resync : Bool) (checkpoint : Checkpoint) (position : Nat) (error : SyntaxError)
    (state last : ParserState) : Prop :=
  ∃ moved settled,
    (if (state.openError checkpoint).isStuckAt position then
      (state.openError checkpoint).SkipsOne moved
    else moved = state.openError checkpoint) ∧
    moved.Synchronizes resync settled ∧
    last = { settled with builder := settled.builder.finish }.report error

variable {checkpoint : Checkpoint} {position : Nat} {error : SyntaxError}

theorem SkipsGroup.unique {depth : Nat} {last other : ParserState}
    (skips : SkipsGroup depth state last) (skipsOther : SkipsGroup depth state other) :
    last = other := by
  induction skips with
  | ended atEnd =>
      cases skipsOther with
      | ended => rfl
      | closed more _ | further more _ _ => exact absurd (more.symm.trans atEnd) (by decide)
  | closed more closes =>
      cases skipsOther with
      | ended atEnd => exact absurd (more.symm.trans atEnd) (by decide)
      | closed => rfl
      | further _ goesOn _ => exact absurd closes goesOn
  | further more goesOn _ ih =>
      cases skipsOther with
      | ended atEnd => exact absurd (more.symm.trans atEnd) (by decide)
      | closed _ closes => exact absurd closes goesOn
      | further _ _ rest => exact ih rest

theorem SkipsOne.unique {last other : ParserState} (skips : state.SkipsOne last)
    (skipsOther : state.SkipsOne other) : last = other := by
  cases skips with
  | token single =>
      cases skipsOther with
      | token => rfl
      | group opens _ => exact absurd (single.symm.trans opens) (by decide)
  | group opens rest =>
      cases skipsOther with
      | token single => exact absurd (single.symm.trans opens) (by decide)
      | group _ restOther => exact rest.unique restOther

theorem Synchronizes.unique {last other : ParserState}
    (synchronizes : state.Synchronizes resync last)
    (synchronizesOther : state.Synchronizes resync other) : last = other := by
  induction synchronizes with
  | boundary ends =>
      cases synchronizesOther with
      | boundary => rfl
      | semicolon inside _ | declaration inside _ _ | skip inside _ _ _ _ =>
          exact absurd (inside.symm.trans ends) (by decide)
  | semicolon inside ends =>
      cases synchronizesOther with
      | boundary ends => exact absurd (inside.symm.trans ends) (by decide)
      | semicolon => rfl
      | declaration _ more _ | skip _ more _ _ _ => exact absurd ends more
  | declaration inside more starts =>
      cases synchronizesOther with
      | boundary ends => exact absurd (inside.symm.trans ends) (by decide)
      | semicolon _ ends => exact absurd ends more
      | declaration => rfl
      | skip _ _ none _ _ => exact absurd (none.symm.trans starts) (by decide)
  | skip inside more none first _ ih =>
      cases synchronizesOther with
      | boundary ends => exact absurd (inside.symm.trans ends) (by decide)
      | semicolon _ ends => exact absurd ends more
      | declaration _ _ starts => exact absurd (none.symm.trans starts) (by decide)
      | skip _ _ _ firstOther rest =>
          cases first.unique firstOther
          exact ih rest

/-- A recovery ends in one state at most. -/
theorem Recovers.unique {last other : ParserState}
    (recovers : state.Recovers resync checkpoint position error last)
    (recoversOther : state.Recovers resync checkpoint position error other) : last = other := by
  obtain ⟨moved, settled, moves, settles, rfl⟩ := recovers
  obtain ⟨otherMoved, otherSettled, movesOther, settlesOther, rfl⟩ := recoversOther
  have same : moved = otherMoved := by
    cases stuck : (state.openError checkpoint).isStuckAt position with
    | true =>
        rw [if_pos stuck] at moves movesOther
        exact moves.unique movesOther
    | false =>
        rw [if_neg (Bool.eq_false_iff.mp stuck)] at moves movesOther
        exact moves.trans movesOther.symm
  subst same
  rw [settles.unique settlesOther]

/-! ### Where a recovery ends -/

theorem SkipsGroup.precedes {depth : Nat} {last : ParserState} (skips : SkipsGroup depth state last)
    (proper : state.cursor.Proper) : state.cursor.Precedes last.cursor := by
  induction skips with
  | ended => exact .refl proper
  | closed => exact precedes_bumpAs proper id
  | further _ _ _ ih =>
      have first := precedes_bumpAs proper id
      exact first.trans (ih first.proper)

theorem SkipsOne.precedes {last : ParserState} (skips : state.SkipsOne last)
    (proper : state.cursor.Proper) : state.cursor.Precedes last.cursor := by
  cases skips with
  | token => exact precedes_bumpAs proper id
  | group _ rest => exact rest.precedes proper

/-- Something is skipped, if there is anything. -/
theorem SkipsOne.shorter {last : ParserState} (skips : state.SkipsOne last)
    (proper : state.cursor.Proper) (more : state.isAtEnd = false) :
    last.cursor.ahead.length < state.cursor.ahead.length := by
  have bumped := shorter_bumpAs proper more id
  cases skips with
  | token => exact bumped
  | group _ rest =>
      cases rest with
      | ended atEnd => exact absurd (more.symm.trans atEnd) (by decide)
      | closed => exact bumped
      | further _ _ rest =>
          exact Nat.lt_of_le_of_lt (rest.precedes (precedes_bumpAs proper id).proper).shorter bumped

theorem Synchronizes.precedes {last : ParserState} (synchronizes : state.Synchronizes resync last)
    (proper : state.cursor.Proper) : state.cursor.Precedes last.cursor := by
  induction synchronizes with
  | boundary | declaration => exact .refl proper
  | semicolon => exact precedes_bumpAs proper id
  | skip _ _ _ first _ ih =>
      have moved := first.precedes proper
      exact moved.trans (ih moved.proper)

theorem precedes_moved {opened moved : ParserState} {stuck : Bool}
    (moves : if stuck then opened.SkipsOne moved else moved = opened)
    (proper : opened.cursor.Proper) : opened.cursor.Precedes moved.cursor := by
  cases stuck with
  | true => exact SkipsOne.precedes moves proper
  | false =>
      obtain rfl : moved = opened := moves
      exact .refl proper

theorem Recovers.precedes {last : ParserState}
    (recovers : state.Recovers resync checkpoint position error last)
    (proper : state.cursor.Proper) : state.cursor.Precedes last.cursor := by
  obtain ⟨moved, settled, moves, settles, rfl⟩ := recovers
  have front : (state.openError checkpoint).cursor.Precedes moved.cursor :=
    precedes_moved moves proper
  exact front.trans (settles.precedes front.proper)

/-- A recovery where nothing was consumed consumes something, unless the file ends there. -/
theorem Recovers.shorter {last : ParserState}
    (recovers : state.Recovers resync checkpoint state.cursor.position error last)
    (proper : state.cursor.Proper) (more : state.isAtEnd = false) :
    last.cursor.ahead.length < state.cursor.ahead.length := by
  obtain ⟨moved, settled, moves, settles, rfl⟩ := recovers
  have place : (state.openError checkpoint).isStuckAt state.cursor.position =
      (state.current.kind != .semicolon) := by
    change (state.cursor.position == state.cursor.position && !state.isAtEnd &&
      state.current.kind != .semicolon) = _
    rw [beq_self_eq_true, more]
    rfl
  rw [place] at moves
  by_cases semicolon : state.current.kind = .semicolon
  · rw [semicolon] at moves
    obtain rfl : moved = state.openError checkpoint := moves
    have here : (state.openError checkpoint).current.kind = .semicolon := semicolon
    cases settles with
    | boundary ends =>
        rw [here] at ends
        exact absurd ends (by decide)
    | semicolon =>
        have opened : (state.openError checkpoint).cursor.Proper := proper
        exact shorter_bumpAs opened more id
    | declaration _ other _ | skip _ other _ _ _ => exact absurd here other
  · rw [if_pos (bne_iff_ne.mpr semicolon)] at moves
    have skipped : moved.cursor.ahead.length < state.cursor.ahead.length := moves.shorter proper more
    exact Nat.lt_of_le_of_lt (settles.precedes (moves.precedes proper).proper).shorter skipped

/-- A recovery consumes nothing from where its production started only at the end of the file. -/
theorem Recovers.ended {start : TokenCursor} {last : ParserState}
    (recovers : state.Recovers resync checkpoint start.position error last)
    (front : start.Precedes state.cursor) (same : last.cursor.ahead.length = start.ahead.length) :
    start.view.kind = .eof := by
  have here := front.length_eq (recovers.precedes front.proper) same
  by_contra more
  rw [← front.view here] at more
  rw [← front.length_eq_iff.mp here] at recovers
  have shorter := recovers.shorter front.proper (beq_eq_false_iff_ne.mpr more)
  omega

/-! ### The bounds of a recovery -/

/-- The tokens ahead bound the skipping of a group, which ends by itself at the end of the file. -/
theorem skipsGroup_skipGroup (depth : Nat) (proper : state.cursor.Proper) :
    SkipsGroup depth state (skipGroup depth state.cursor.ahead state) := by
  induction same : state.cursor.ahead generalizing depth state with
  | nil => exact .ended (proper.isAtEnd_iff.mpr same)
  | cons stop rest ih =>
      have more : state.isAtEnd = false := by
        refine Bool.eq_false_iff.mpr (fun atEnd => ?_)
        rw [proper.isAtEnd_iff.mp atEnd] at same
        cases same
      obtain ⟨first, others, ahead, bumped⟩ := cursor_bumpAs_of_token proper more id
      rw [same] at ahead
      have further : state.bump.cursor.ahead = rest := by
        rw [bump, bumped]
        exact (List.cons.inj ahead).2.symm
      rw [Segment.skipGroup_cons]
      split
      · next closes => exact .closed more (eq_of_beq closes)
      · next goesOn =>
          refine .further more (fun closes => goesOn (beq_iff_eq.mpr closes)) ?_
          exact ih _ (precedes_bumpAs proper id).proper further

theorem skipsOne_skipOne (proper : state.cursor.Proper) : state.SkipsOne state.skipOne := by
  unfold skipOne
  split
  · next opens => exact .group opens (skipsGroup_skipGroup 0 proper)
  · next single => exact .token (eq_false_of_ne_true single)

/-- The skipping to a synchronization point ends by itself before its bound. -/
theorem synchronizes_within (resync : Bool) {bound : List Stop} (proper : state.cursor.Proper)
    (enough : state.cursor.ahead.length ≤ bound.length) :
    state.Synchronizes resync (state.synchronizeWithin resync bound) := by
  induction bound generalizing state with
  | nil =>
      have ended : state.cursor.isAtEnd = true :=
        proper.isAtEnd_iff.mpr (List.length_eq_zero_iff.mp (Nat.le_zero.mp enough))
      have boundary : statementBoundary.contains state.current.kind = true := by
        rw [show state.current.kind = .eof from eq_of_beq ended]
        decide
      unfold synchronizeWithin
      rw [if_pos boundary]
      exact .boundary boundary
  | cons stop bound ih =>
      unfold synchronizeWithin
      split
      · next boundary => exact .boundary boundary
      next inside =>
      have inside := eq_false_of_ne_true inside
      split
      · next semicolon => exact .semicolon inside (eq_of_beq semicolon)
      next more =>
      have more : state.current.kind ≠ .semicolon := fun same => more (beq_iff_eq.mpr same)
      split
      · next declares => exact .declaration inside more declares
      next goesOn =>
      have token : state.isAtEnd = false := by
        refine Bool.eq_false_iff.mpr (fun ended => ?_)
        rw [show state.current.kind = .eof from eq_of_beq ended] at inside
        exact absurd inside (by decide)
      have skips := skipsOne_skipOne proper
      have shorter := skips.shorter proper token
      rw [List.length_cons] at enough
      exact .skip inside more (eq_false_of_ne_true goesOn) skips
        (ih (skips.precedes proper).proper (by omega))

/-- What `recover` does within its bounds is a recovery without any. -/
theorem recovers_recover (resync : Bool) (checkpoint : Checkpoint) (position : Nat)
    (error : SyntaxError) (proper : state.cursor.Proper) :
    state.Recovers resync checkpoint position error
      (state.recover resync checkpoint position error) := by
  let opened := state.openError checkpoint
  let moved := if opened.isStuckAt position then opened.skipOne else opened
  have moves : if opened.isStuckAt position then opened.SkipsOne moved else moved = opened := by
    split
    · next stuck =>
        rw [show moved = opened.skipOne from if_pos stuck]
        exact skipsOne_skipOne proper
    · next free => exact if_neg free
  have front : opened.cursor.Precedes moved.cursor := precedes_moved moves proper
  exact ⟨moved, moved.synchronize resync, moves,
    synchronizes_within resync front.proper (Nat.le_refl _), rfl⟩

end ParserState

end JaiSyntax
