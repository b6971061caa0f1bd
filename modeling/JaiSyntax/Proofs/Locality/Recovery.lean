import JaiSyntax.Proofs.Locality.Embedding
/-!
Recovery inside a longer source. After an error in a statement without brackets nothing is skipped beyond
its semicolon, and up to there the same tokens are skipped in both sources.
-/

set_option autoImplicit false

namespace JaiSyntax

variable {embedding : Embedding} {horizon : Horizon} {left right : Segment}

namespace Segment

theorem Embedded.bump (embedded : left.Embedded embedding horizon false right) :
    left.bump.Embedded embedding horizon
      (horizon == .statement && left.cursor.current.kind == .semicolon) right.bump :=
  embedded.bumpAs id (fun _ => rfl)

/-- A token that is no semicolon is consumed from both sources, and both go on. -/
theorem Embedded.bump_within (embedded : left.Embedded embedding horizon false right)
    (within : horizon = .file ∨ left.cursor.current.kind ≠ .semicolon) :
    left.bump.Embedded embedding horizon false right.bump := by
  have notPast : (horizon == .statement && left.cursor.current.kind == .semicolon) = false := by
    rcases within with rfl | other
    · rfl
    · rw [beq_eq_false_iff_ne.mpr other, Bool.and_false]
  exact notPast ▸ embedded.bump

/-! ### Skipping -/

theorem skipGroup_embedded (embedded : left.Embedded embedding .file false right) (depth : Nat)
    {bound other : List Stop} (same : bound.length = other.length) :
    ∃ count, (bound ≠ [] → 1 ≤ count) ∧
      SkipAlike left right (ParserState.skipGroup depth bound) (ParserState.skipGroup depth other)
        count ∧
      (left.bumps count).Embedded embedding .file false (right.bumps count) := by
  induction bound generalizing left right depth other with
  | nil =>
      obtain rfl : other = [] := List.length_eq_zero_iff.mp same.symm
      exact ⟨0, fun absurd => (absurd rfl).elim, fun base => ⟨rfl, rfl⟩, embedded⟩
  | cons stop bound ih =>
      cases other with
      | nil => cases same
      | cons otherStop other =>
          unfold SkipAlike
          have next := embedded.bump_within (Or.inl rfl)
          simp only [skipGroup_cons, current_onto, embedded.cursor.current, Token.kind_shift,
            bump_onto]
          cases depthAfter depth left.cursor.current.kind == 0 with
          | true => exact ⟨1, fun _ => Nat.le_refl 1, fun base => ⟨rfl, rfl⟩, next⟩
          | false =>
              obtain ⟨count, -, skips, reached⟩ :=
                ih next (depthAfter depth left.cursor.current.kind) (Nat.succ.inj same)
              exact ⟨count + 1, fun _ => Nat.le_add_left 1 count, fun base => skips base, reached⟩

theorem skipOne_embedded (embedded : left.Embedded embedding horizon false right)
    (within : left.cursor.current.kind ≠ .semicolon) :
    ∃ count, (left.cursor.ahead ≠ [] → 1 ≤ count) ∧
      SkipAlike left right ParserState.skipOne ParserState.skipOne count ∧
      (left.bumps count).Embedded embedding horizon false (right.bumps count) := by
  unfold SkipAlike ParserState.skipOne
  simp only [current_onto, embedded.cursor.current, Token.kind_shift, bump_onto, cursor_onto]
  cases bracket : openDelimiters.contains left.cursor.current.kind with
  | false =>
      exact ⟨1, fun _ => Nat.le_refl 1, fun base => ⟨rfl, rfl⟩,
        embedded.bump_within (Or.inr within)⟩
  | true =>
      cases horizon with
      | file =>
          refine skipGroup_embedded embedded 0 ?_
          rw [embedded.cursor.2.1, List.length_map]
      | statement =>
          have flat := (embedded.fits ⟨.none, .point 0, 0, none⟩).isFlat within
          rw [TokenKind.isFlat, Segment.kind_view, bracket] at flat
          cases flat

theorem settles?_embedded (embedded : left.Embedded embedding horizon false right)
    (resync : Bool) : settles? resync right.cursor = settles? resync left.cursor := by
  have declares : right.cursor.isAtDeclaration = left.cursor.isAtDeclaration := by
    unfold TokenCursor.isAtDeclaration
    rw [embedded.cursor.current, Token.kind_shift, Token.text_shift]
    cases here : left.cursor.current.kind
    case ident =>
        have first := embedded.cursor.peek 1 (by
          intro nearer within
          obtain rfl : nearer = 0 := by omega
          rw [show left.cursor.peek 0 = left.cursor.current from rfl, here]
          decide)
        have second (colon : (left.cursor.peek 1).kind = .colon) := embedded.cursor.peek 2 (by
          intro nearer within
          obtain rfl | rfl : nearer = 0 ∨ nearer = 1 := by omega
          · rw [show left.cursor.peek 0 = left.cursor.current from rfl, here]
            decide
          · rw [colon]
            decide)
        simp only [doubleColonAt?, first, Token.kind_shift]
        cases colon : (left.cursor.peek 1).kind
        case colon => simp [second colon]
        all_goals rfl
    all_goals rfl
  unfold settles?
  rw [embedded.cursor.current, Token.kind_shift, declares]

/-- Skipping ends before the current token or right after it. -/
theorem settles?_le {resync : Bool} {cursor : TokenCursor} {count : Nat}
    (settles : settles? resync cursor = some count) : count = 0 ∨ count = 1 := by
  unfold settles? at settles
  split at settles
  · exact Or.inl (Option.some.inj settles).symm
  split at settles
  · exact Or.inr (Option.some.inj settles).symm
  split at settles
  · exact Or.inl (Option.some.inj settles).symm
  · cases settles

/-- Where skipping goes on, there is a token that is no semicolon. -/
theorem settles?_none {resync : Bool} {cursor : TokenCursor}
    (goesOn : settles? resync cursor = none) (proper : cursor.Proper) :
    cursor.current.kind ≠ .semicolon ∧ cursor.ahead ≠ [] := by
  unfold settles? at goesOn
  split at goesOn
  · cases goesOn
  next notBoundary =>
  split at goesOn
  · cases goesOn
  next other =>
  refine ⟨fun same => other (beq_iff_eq.mpr same), fun none => notBoundary ?_⟩
  rw [show cursor.current.kind = .eof from eq_of_beq (proper.isAtEnd_iff.mpr none)]
  decide

theorem synchronizeWithin_embedded (embedded : left.Embedded embedding horizon false right)
    (resync : Bool) {bound other : List Stop} (enough : left.cursor.ahead.length ≤ bound.length)
    (otherEnough : left.cursor.ahead.length ≤ other.length) :
    ∃ count past,
      SkipAlike left right (ParserState.synchronizeWithin resync bound)
        (ParserState.synchronizeWithin resync other) count ∧
      (left.bumps count).Embedded embedding horizon past (right.bumps count) := by
  induction bound generalizing left right other with
  | nil =>
      have none : left.cursor.ahead = [] := List.length_eq_zero_iff.mp (Nat.le_zero.mp enough)
      have ended := embedded.leftProper.isAtEnd_iff.mpr none
      have boundary : settles? resync left.cursor = some 0 := by
        unfold settles?
        rw [show left.cursor.current.kind = .eof from eq_of_beq ended]
        rfl
      refine ⟨0, false, fun base => ?_, embedded⟩
      rw [synchronizeWithin_onto, synchronizeWithin_onto, settles?_embedded embedded, boundary]
      exact ⟨rfl, rfl⟩
  | cons stop bound ih =>
      unfold SkipAlike
      simp only [synchronizeWithin_onto, settles?_embedded embedded]
      cases settles : settles? resync left.cursor with
      | some count =>
          rcases settles?_le settles with rfl | rfl
          · exact ⟨0, false, fun base => ⟨rfl, rfl⟩, embedded⟩
          · exact ⟨1, _, fun base => ⟨rfl, rfl⟩, embedded.bump⟩
      | none =>
          obtain ⟨within, more⟩ := settles?_none settles embedded.leftProper
          cases other with
          | nil => exact absurd (List.length_eq_zero_iff.mp (Nat.le_zero.mp otherEnough)) more
          | cons otherStop other =>
              obtain ⟨first, some, skipped, reached⟩ := skipOne_embedded embedded within
              have moved := position_bumps embedded.leftProper more (some more)
              have total := (continues_bumps first embedded.leftProper).position
              rw [List.length_cons] at enough otherEnough
              obtain ⟨second, past, settled, ends⟩ := ih reached
                (show _ ≤ bound.length by omega) (show _ ≤ other.length by omega)
              refine ⟨first + second, past, fun base => ?_, ?_⟩
              · simp only [(skipped base).1, (skipped base).2, bumps_add]
                exact settled base
              · rw [bumps_add, bumps_add]
                exact ends

/-! ### Error nodes -/

/-- Recovery on a segment alone, by the number of tokens that it skips. -/
theorem recover_eq_recovered (segment : Segment) (around : Surroundings) (resync : Bool)
    (position : Nat) (error : SyntaxError) (count : Nat)
    (settled : ∀ base, ((unstick (segment.isStuck position)
      ((segment.mapLatest (List.map (Child.withField none))).onto base)).synchronize resync) =
      ((segment.mapLatest (List.map (Child.withField none))).bumps count).onto base) :
    segment.recover resync around position error = segment.recovered around error count := by
  unfold recover alone
  rw [recover_eq (dissolves_onto segment _) around _ rfl rfl rfl resync position error count
    (settled _), ofRoot_onto_new]

theorem Embedded.bumps_recovered {past : Bool} {count : Nat} {around other : Surroundings}
    {error : SyntaxError}
    (embedded : left.Embedded embedding horizon false right)
    (reached : ((left.mapLatest (List.map (Child.withField none))).bumps count).Embedded embedding
      horizon past ((right.mapLatest (List.map (Child.withField none))).bumps count))
    {setting : Setting} (places : around.Embedded embedding setting other)
    (marked : setting.marked = true)
    (near : horizon = .statement → error.span.start < embedding.bound) :
    (left.recovered around error count).Embedded embedding horizon past
      (right.recovered other (error.shift embedding.offset) count) :=
  (reached.enclosed .error (embedded.start places marked)).report rfl near

/-- A segment that failed is recovered in the same way inside the longer source. -/
theorem Embedded.recover (embedded : left.Embedded embedding horizon false right) (resync : Bool)
    (position : Nat) {around other : Surroundings} {setting : Setting}
    (places : around.Embedded embedding setting other) (marked : setting.marked = true)
    {error : SyntaxError} (near : horizon = .statement → error.span.start < embedding.bound) :
    ∃ count past,
      (left.isStuck position = true → 1 ≤ count) ∧
      left.recover resync around position error = left.recovered around error count ∧
      right.recover resync other (position + embedding.steps) (error.shift embedding.offset) =
        right.recovered other (error.shift embedding.offset) count ∧
      (left.recovered around error count).Embedded embedding horizon past
        (right.recovered other (error.shift embedding.offset) count) := by
  have cleared := embedded.withoutFields
  have stuck : right.isStuck (position + embedding.steps) = left.isStuck position := by
    unfold isStuck
    rw [embedded.position, embedded.cursor.isAtEnd, embedded.cursor.current, Token.kind_shift]
    congr 2
    simp
  have unstuck : ∃ count,
      (left.isStuck position = true → 1 ≤ count) ∧
      SkipAlike (left.mapLatest (List.map (Child.withField none)))
        (right.mapLatest (List.map (Child.withField none))) (unstick (left.isStuck position))
        (unstick (left.isStuck position)) count ∧
      ((left.mapLatest (List.map (Child.withField none))).bumps count).Embedded embedding horizon
        false ((right.mapLatest (List.map (Child.withField none))).bumps count) := by
    cases isStuck : left.isStuck position with
    | false => exact ⟨0, nofun, fun base => ⟨rfl, rfl⟩, cleared⟩
    | true =>
        simp only [Segment.isStuck, Bool.and_eq_true, bne_iff_ne, Bool.not_eq_true'] at isStuck
        obtain ⟨count, some, skips, reached⟩ := skipOne_embedded cleared isStuck.2
        refine ⟨count, fun _ => some (fun none => ?_), skips, reached⟩
        exact absurd (embedded.leftProper.isAtEnd_iff.mpr none) (by simp [isStuck.1.2])
  obtain ⟨first, some, skipped, reached⟩ := unstuck
  obtain ⟨second, past, settled, ends⟩ :=
    synchronizeWithin_embedded reached resync (Nat.le_refl _) reached.cursor.length_le
  rw [← bumps_add, ← bumps_add] at ends
  have leftRecovers := recover_eq_recovered left around resync position error (first + second)
    (fun base => by rw [(skipped base).1, bumps_add]; exact (settled base).1)
  have rightRecovers := recover_eq_recovered right other resync (position + embedding.steps)
    (error.shift embedding.offset) (first + second)
    (fun base => by rw [stuck, (skipped base).2, bumps_add]; exact (settled base).2)
  exact ⟨first + second, past, fun isStuck => Nat.le_add_right_of_le (some isStuck), leftRecovers,
    rightRecovers,
    embedded.bumps_recovered ends places marked near⟩

end Segment

end JaiSyntax
