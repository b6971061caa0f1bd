import Mathlib.Data.List.Forall2
import JaiSyntax.Proofs.Reading.Moves
/-!
Recovery on a segment. Skipping after an error consumes a number of tokens that only the kinds and
texts of the tokens ahead decide.
-/

set_option autoImplicit false

namespace JaiSyntax

/-! ### Cursors that are alike -/

namespace TokenCursor

/-- Whether two significant tokens differ in their place only. -/
def SameToken (left right : Token) : Prop := left.kind = right.kind ∧ left.text = right.text

structure Alike (left right : TokenCursor) : Prop where
  ahead : List.Forall₂ (fun first second => SameToken first.token second.token)
    left.ahead right.ahead
  position : left.position = right.position
  previous : left.previous.kind = right.previous.kind
  endOfFile : SameToken left.endOfFile right.endOfFile

variable {left right : TokenCursor}

theorem Alike.refl (cursor : TokenCursor) : cursor.Alike cursor :=
  ⟨List.forall₂_same.mpr (fun _ _ => ⟨rfl, rfl⟩), rfl, rfl, rfl, rfl⟩

theorem Alike.peek (alike : left.Alike right) (distance : Nat) :
    SameToken (left.peek distance) (right.peek distance) := by
  unfold TokenCursor.peek
  have stops := alike.ahead
  generalize left.ahead = first at stops
  generalize right.ahead = second at stops
  induction stops generalizing distance with
  | nil => exact alike.endOfFile
  | cons same _ ih =>
      cases distance with
      | zero => exact same
      | succ earlier => simpa using ih earlier

theorem Alike.current (alike : left.Alike right) : SameToken left.current right.current :=
  alike.peek 0

theorem Alike.isAtEnd (alike : left.Alike right) : left.isAtEnd = right.isAtEnd := by
  unfold TokenCursor.isAtEnd
  rw [alike.current.1]

theorem Alike.length (alike : left.Alike right) : left.ahead.length = right.ahead.length :=
  alike.ahead.length_eq

theorem Alike.isAtDeclaration (alike : left.Alike right) :
    left.isAtDeclaration = right.isAtDeclaration := by
  have kinds : (fun distance => (left.peek distance).kind) =
      fun distance => (right.peek distance).kind :=
    funext (fun distance => (alike.peek distance).1)
  unfold TokenCursor.isAtDeclaration
  rw [alike.current.1, alike.current.2, kinds]

theorem Alike.withoutGap (alike : left.Alike right) (first second : List Extra) :
    Alike { left with gap := first } { right with gap := second } :=
  ⟨alike.ahead, alike.position, alike.previous, alike.endOfFile⟩

theorem Alike.advance (alike : left.Alike right) : left.advance.2.Alike right.advance.2 := by
  rcases left with ⟨gap, ahead, position, previous, endOfFile⟩
  rcases right with ⟨otherGap, otherAhead, otherPosition, otherPrevious, otherEnd⟩
  rcases alike with ⟨stops, same, before, last⟩
  cases stops with
  | nil => exact ⟨.nil, same, before, last⟩
  | cons first rest => exact ⟨rest, congrArg (· + 1) same, first.1, last⟩

/-- The tokens consumed from alike cursors. -/
theorem Alike.advance_token (alike : left.Alike right) :
    SameToken left.advance.1 right.advance.1 := by
  rcases left with ⟨gap, ahead, position, previous, endOfFile⟩
  rcases right with ⟨otherGap, otherAhead, otherPosition, otherPrevious, otherEnd⟩
  rcases alike with ⟨stops, -, -, last⟩
  cases stops with
  | nil => exact last
  | cons first _ => exact first

end TokenCursor

/-! ### Skipping -/

namespace Segment

variable {left right : Segment}

theorem cursor_bumpAs (segment : Segment) (change : Token → Token) :
    (segment.bumpAs change).cursor =
      if segment.cursor.isAtEnd then { segment.cursor with gap := [] }
      else { segment.cursor with gap := [] }.advance.2 := by
  unfold bumpAs
  change (if segment.cursor.isAtEnd then _ else _ : Segment).cursor = _
  split <;> rfl

theorem reported_bumpAs (segment : Segment) (change : Token → Token) :
    (segment.bumpAs change).reported = segment.reported := by
  unfold bumpAs
  change (if segment.cursor.isAtEnd then _ else _ : Segment).reported = _
  split <;> rfl

theorem alike_bumpAs (alike : left.cursor.Alike right.cursor) (first second : Token → Token) :
    (left.bumpAs first).cursor.Alike (right.bumpAs second).cursor := by
  rw [cursor_bumpAs, cursor_bumpAs, alike.isAtEnd]
  split
  · exact alike.withoutGap _ _
  · exact (alike.withoutGap _ _).advance

/-- How two ways to skip are the same number of steps, before segments that are alike. -/
def SkipAlike (left right : Segment) (skipLeft skipRight : ParserState → ParserState)
    (count : Nat) : Prop :=
  ∀ base, skipLeft (left.onto base) = (left.bumps count).onto base ∧
    skipRight (right.onto base) = (right.bumps count).onto base

theorem alike_bumps (alike : left.cursor.Alike right.cursor) (count : Nat) :
    (left.bumps count).cursor.Alike (right.bumps count).cursor := by
  induction count generalizing left right with
  | zero => exact alike
  | succ count ih => exact ih (alike_bumpAs alike id id)

theorem bumps_add (segment : Segment) (first second : Nat) :
    segment.bumps (first + second) = (segment.bumps first).bumps second := by
  induction first generalizing segment with
  | zero => rw [Nat.zero_add, bumps]
  | succ first ih =>
      rw [Nat.succ_add]
      exact ih segment.bump

def depthAfter (depth : Nat) (kind : TokenKind) : Nat :=
  if openDelimiters.contains kind then depth + 1
  else if closeDelimiters.contains kind then depth - 1
  else depth

theorem skipGroup_cons (depth : Nat) (stop : Stop) (bound : List Stop) (state : ParserState) :
    ParserState.skipGroup depth (stop :: bound) state =
      if depthAfter depth state.current.kind == 0 then state.bump
      else ParserState.skipGroup (depthAfter depth state.current.kind) bound state.bump := rfl

theorem skipGroup_alike (alike : left.cursor.Alike right.cursor) (depth : Nat)
    {bound other : List Stop} (same : bound.length = other.length) :
    ∃ count, (bound ≠ [] → 1 ≤ count) ∧
      SkipAlike left right (ParserState.skipGroup depth bound) (ParserState.skipGroup depth other)
        count := by
  induction bound generalizing left right depth other with
  | nil =>
      have none : other = [] := List.length_eq_zero_iff.mp same.symm
      exact ⟨0, fun absurd => (absurd rfl).elim, fun base => by rw [none]; exact ⟨rfl, rfl⟩⟩
  | cons stop bound ih =>
      cases other with
      | nil => cases same
      | cons otherStop other =>
          unfold SkipAlike
          simp only [skipGroup_cons, current_onto, alike.current.1, bump_onto]
          cases depthAfter depth right.cursor.current.kind == 0 with
          | true => exact ⟨1, fun _ => Nat.le_refl 1, fun base => ⟨rfl, rfl⟩⟩
          | false =>
              obtain ⟨count, -, skips⟩ := ih (alike_bumpAs alike id id)
                (depthAfter depth right.cursor.current.kind) (Nat.succ.inj same)
              exact ⟨count + 1, fun _ => Nat.le_add_left 1 count, fun base => skips base⟩

theorem skipOne_alike (alike : left.cursor.Alike right.cursor) :
    ∃ count, (left.cursor.ahead ≠ [] → 1 ≤ count) ∧
      SkipAlike left right ParserState.skipOne ParserState.skipOne count := by
  unfold SkipAlike ParserState.skipOne
  simp only [current_onto, alike.current.1, bump_onto, cursor_onto]
  cases openDelimiters.contains right.cursor.current.kind with
  | true => exact skipGroup_alike alike 0 alike.length
  | false => exact ⟨1, fun _ => Nat.le_refl 1, fun base => ⟨rfl, rfl⟩⟩

/-- Whether skipping ends at the current token, and whether it takes that token. -/
def settles? (resync : Bool) (cursor : TokenCursor) : Option Nat :=
  if statementBoundary.contains cursor.current.kind then some 0
  else if cursor.current.kind == .semicolon then some 1
  else if resync && cursor.isAtDeclaration then some 0
  else none

theorem synchronizeWithin_onto (resync : Bool) (bound : List Stop) (segment : Segment)
    (base : TreeBuilder) :
    (segment.onto base).synchronizeWithin resync bound =
      match settles? resync segment.cursor with
      | some count => (segment.bumps count).onto base
      | none =>
          match bound with
          | [] => segment.onto base
          | _ :: rest => (segment.onto base).skipOne.synchronizeWithin resync rest := by
  rw [ParserState.synchronizeWithin.eq_def, settles?]
  change (if statementBoundary.contains segment.cursor.current.kind then _
    else if segment.cursor.current.kind == .semicolon then _
    else if resync && segment.cursor.isAtDeclaration then _ else _) = _
  split
  · rfl
  split
  · exact bump_onto segment base
  split <;> rfl

theorem settles?_alike (alike : left.cursor.Alike right.cursor) (resync : Bool) :
    settles? resync left.cursor = settles? resync right.cursor := by
  unfold settles?
  rw [alike.current.1, alike.isAtDeclaration]

theorem synchronizeWithin_alike (alike : left.cursor.Alike right.cursor) (resync : Bool)
    {bound other : List Stop} (same : bound.length = other.length) :
    ∃ count, SkipAlike left right (ParserState.synchronizeWithin resync bound)
      (ParserState.synchronizeWithin resync other) count := by
  induction bound generalizing left right other with
  | nil =>
      have none : other = [] := List.length_eq_zero_iff.mp same.symm
      subst none
      unfold SkipAlike
      simp only [synchronizeWithin_onto, settles?_alike alike]
      cases settles? resync right.cursor with
      | none => exact ⟨0, fun base => ⟨rfl, rfl⟩⟩
      | some count => exact ⟨count, fun base => ⟨rfl, rfl⟩⟩
  | cons stop bound ih =>
      cases other with
      | nil => cases same
      | cons otherStop other =>
          unfold SkipAlike
          simp only [synchronizeWithin_onto resync (_ :: _), settles?_alike alike]
          cases settles? resync right.cursor with
          | some count => exact ⟨count, fun base => ⟨rfl, rfl⟩⟩
          | none =>
              obtain ⟨first, -, skipped⟩ := skipOne_alike alike
              obtain ⟨second, settled⟩ := ih (alike_bumps alike first) (Nat.succ.inj same)
              refine ⟨first + second, fun base => ?_⟩
              simp only [(skipped base).1, (skipped base).2, bumps_add]
              exact settled base

theorem synchronize_alike (alike : left.cursor.Alike right.cursor) (resync : Bool) :
    ∃ count, SkipAlike left right (ParserState.synchronize resync)
      (ParserState.synchronize resync) count :=
  synchronizeWithin_alike alike resync alike.length

/-! ### Error nodes -/

/-- A state whose nodes above `base` dissolve into a segment at the end of `base`. The innermost node of
`base` may hold a part of the segment already. -/
structure Dissolves (state : ParserState) (base : TreeBuilder) (segment : Segment) : Prop where
  cursor : state.cursor = segment.cursor
  reported : state.reported = segment.reported
  depth : base.depth ≤ state.builder.depth
  frames : ∃ opened latest,
    state.builder.frames = opened ++ (base.mapTop (latest ++ ·)).frames
  builder : state.builder.dissolveTo base.depth = base.mapTop (segment.latest ++ ·)

theorem dissolves_onto (segment : Segment) (base : TreeBuilder) :
    Dissolves (segment.onto base) base segment := by
  refine ⟨rfl, rfl, ?_, ⟨[], segment.latest, rfl⟩, ?_⟩
  · simp [onto]
  · simp [onto, TreeBuilder.dissolveTo, TreeBuilder.dissolve]

/-- The segment that failed as an error node, with `count` tokens skipped. -/
def recovered (segment : Segment) (around : Surroundings) (error : SyntaxError) (count : Nat) :
    Segment :=
  let settled := ((segment.mapLatest (List.map (Child.withField none))).bumps count).enclosed
    .error (segment.start around)
  { settled with reported := error :: settled.reported }

/-- The state in which a failed segment is skipped. -/
theorem clearFields_onto {state : ParserState} {base : TreeBuilder} {segment : Segment}
    (dissolves : Dissolves state base segment) (around : Surroundings) (checkpoint : Checkpoint)
    (depth : checkpoint.depth = base.depth) (index : checkpoint.index = base.top.latest.length)
    (position : checkpoint.position = around.position) :
    { state with
      builder := ((state.builder.dissolveTo checkpoint.depth).startAt checkpoint
        .error).clearFields } =
      (segment.mapLatest (List.map (Child.withField none))).onto
        (base.start .error (segment.start around)) := by
  rcases state with ⟨cursor, builder, reported⟩
  rcases dissolves with ⟨rfl, rfl, -, -, dissolved⟩
  have opened := congrArg ParserState.builder
    (openNodeAt_onto segment base around checkpoint .error index position)
  change (base.mapTop (segment.latest ++ ·)).startAt checkpoint .error = _ at opened
  rw [depth, dissolved, opened]
  simp [onto, mapLatest, TreeBuilder.clearFields, TreeBuilder.start, TreeBuilder.mapTop, Frame.new]

/-- Whether a segment that started at the `position`-th token failed without consuming anything that
has to be skipped. -/
def isStuck (segment : Segment) (position : Nat) : Bool :=
  segment.cursor.position == position && !segment.cursor.isAtEnd
    && segment.cursor.current.kind != .semicolon

def unstick (stuck : Bool) (state : ParserState) : ParserState :=
  if stuck then state.skipOne else state

theorem unstick_alike (alike : left.cursor.Alike right.cursor) (stuck : Bool) :
    ∃ count, (stuck = true → left.cursor.ahead ≠ [] → 1 ≤ count) ∧
      SkipAlike left right (unstick stuck) (unstick stuck) count := by
  cases stuck with
  | true =>
      obtain ⟨count, some, skipped⟩ := skipOne_alike alike
      exact ⟨count, fun _ => some, skipped⟩
  | false => exact ⟨0, fun absurd => (Bool.false_ne_true absurd).elim, fun base => ⟨rfl, rfl⟩⟩

theorem isStuck_alike (alike : left.cursor.Alike right.cursor) (position : Nat) :
    left.isStuck position = right.isStuck position := by
  simp only [isStuck, alike.position, alike.isAtEnd, alike.current.1]

theorem recover_eq {state : ParserState} {base : TreeBuilder} {segment : Segment}
    (dissolves : Dissolves state base segment) (around : Surroundings) (checkpoint : Checkpoint)
    (depth : checkpoint.depth = base.depth) (index : checkpoint.index = base.top.latest.length)
    (place : checkpoint.position = around.position) (resync : Bool) (position : Nat)
    (error : SyntaxError) (count : Nat)
    (settled : ((unstick (segment.isStuck position)
      ((segment.mapLatest (List.map (Child.withField none))).onto
        (base.start .error (segment.start around)))).synchronize resync) =
      ((segment.mapLatest (List.map (Child.withField none))).bumps count).onto
        (base.start .error (segment.start around))) :
    state.recover resync checkpoint position error =
      (segment.recovered around error count).onto base := by
  have opened := clearFields_onto dissolves around checkpoint depth index place
  rcases state with ⟨cursor, builder, reported⟩
  rcases dissolves with ⟨rfl, rfl, -, -, -⟩
  calc
    _ = ((unstick (segment.isStuck position) ⟨segment.cursor,
            ((builder.dissolveTo checkpoint.depth).startAt checkpoint .error).clearFields,
            segment.reported⟩).synchronize resync).closeNode.report error := rfl
    _ = (segment.recovered around error count).onto base := by
          rw [opened, settled, closeNode_onto]
          rfl

theorem recover_onto (alike : left.cursor.Alike right.cursor) (resync : Bool) (position : Nat) :
    ∃ count, (left.isStuck position = true → left.cursor.ahead ≠ [] → 1 ≤ count) ∧
      ∀ (segment : Segment) (state : ParserState) (base : TreeBuilder) (around : Surroundings)
        (checkpoint : Checkpoint) (error : SyntaxError),
        segment = left ∨ segment = right → Dissolves state base segment →
        checkpoint.depth = base.depth → checkpoint.index = base.top.latest.length →
        checkpoint.position = around.position →
        state.recover resync checkpoint position error =
          (segment.recovered around error count).onto base := by
  have same : (left.mapLatest (List.map (Child.withField none))).cursor.Alike
      (right.mapLatest (List.map (Child.withField none))).cursor := alike
  obtain ⟨first, some, skipped⟩ := unstick_alike same (left.isStuck position)
  obtain ⟨second, settled⟩ := synchronize_alike (alike_bumps same first) resync
  refine ⟨first + second, fun stuck ahead => Nat.le_add_right_of_le (some stuck ahead), ?_⟩
  intro segment state base around checkpoint error member dissolves depth index place
  apply recover_eq dissolves around checkpoint depth index place
  rcases member with rfl | rfl
  · rw [(skipped _).1, bumps_add]
    exact (settled _).1
  · rw [← isStuck_alike alike, (skipped _).2, bumps_add]
    exact (settled _).2

/-- Recovery on a segment alone. -/
theorem recover_alone (alike : left.cursor.Alike right.cursor) (resync : Bool) (position : Nat) :
    ∃ count, (left.isStuck position = true → left.cursor.ahead ≠ [] → 1 ≤ count) ∧
      (∀ around error,
        left.recover resync around position error = left.recovered around error count ∧
        right.recover resync around position error = right.recovered around error count) ∧
      ∀ (state : ParserState) (base : TreeBuilder) (around : Surroundings)
        (checkpoint : Checkpoint) (error : SyntaxError), Dissolves state base left →
        checkpoint.depth = base.depth → checkpoint.index = base.top.latest.length →
        checkpoint.position = around.position →
        state.recover resync checkpoint position error =
          (left.recover resync around position error).onto base := by
  obtain ⟨count, some, recovers⟩ := recover_onto alike resync position
  have alone : ∀ segment, segment = left ∨ segment = right → ∀ around error,
      segment.recover resync around position error = segment.recovered around error count := by
    intro segment member around error
    unfold recover alone
    rw [recovers segment _ _ around _ error member (dissolves_onto segment _) rfl rfl rfl,
      ofRoot_onto_new]
  refine ⟨count, some, fun around error =>
    ⟨alone left (Or.inl rfl) around error, alone right (Or.inr rfl) around error⟩, ?_⟩
  intro state base around checkpoint error dissolves depth index place
  rw [recovers left state base around checkpoint error (Or.inl rfl) dissolves depth index place,
    alone left (Or.inl rfl)]

/-- An error that was recovered from is reported. -/
theorem reported_recover (segment : Segment) (resync : Bool) (around : Surroundings) (position : Nat)
    (error : SyntaxError) : (segment.recover resync around position error).reported ≠ [] := by
  obtain ⟨count, -, recovers, -⟩ := recover_alone (.refl segment.cursor) resync position
  rw [(recovers around error).1]
  exact List.cons_ne_nil _ _

end Segment

end JaiSyntax
