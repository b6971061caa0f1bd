import JaiSyntax.Proofs.Production.StatementCoverage
import JaiSyntax.Proofs.Reading.Continuation
/-!
What an orderly production reads. It keeps all tokens, and where it ends, what was said to hold there
does hold.
-/

set_option autoImplicit false

namespace JaiSyntax

/-! ### Readings that satisfy something -/

namespace Reading

def Satisfies {α : Type} (reading : Reading α) (done : α → Segment → Prop)
    (failed : Segment → Prop) : Prop :=
  match reading with
  | .done value segment => done value segment
  | .failed _ segment => failed segment

variable {α β : Type} {reading : Reading α} {failed : Segment → Prop}

theorem Satisfies.weaken {done later : α → Segment → Prop} {failedLater : Segment → Prop}
    (satisfied : reading.Satisfies done failed)
    (weaker : ∀ value segment, done value segment → later value segment)
    (weakerFailed : ∀ segment, failed segment → failedLater segment) :
    reading.Satisfies later failedLater := by
  cases reading with
  | done value segment => exact weaker value segment satisfied
  | failed error segment => exact weakerFailed segment satisfied

theorem Satisfies.of_done {done : α → Segment → Prop} {value : α} {later : Segment}
    (satisfied : reading.Satisfies done failed) (ended : reading = .done value later) :
    done value later := by
  rw [ended] at satisfied
  exact satisfied

/-- What goes on and comes to its end has ended in both parts. -/
theorem andThen_eq_done {next : α → Segment → Reading β} {value : β} {later : Segment}
    (ended : reading.andThen next = .done value later) :
    ∃ first middle, reading = .done first middle ∧ next first middle = .done value later := by
  cases reading with
  | done first middle => exact ⟨first, middle, rfl, ended⟩
  | failed error middle => cases ended

theorem Satisfies.andThen {done : α → Segment → Prop} {doneNext : β → Segment → Prop}
    {next : α → Segment → Reading β} (satisfied : reading.Satisfies done failed)
    (further : ∀ value segment, done value segment →
      (next value segment).Satisfies doneNext failed) :
    (reading.andThen next).Satisfies doneNext failed := by
  cases reading with
  | done value segment => exact further value segment satisfied
  | failed error segment => exact satisfied

/-- Both of two things that hold of the ends of a reading. -/
theorem Satisfies.and {α : Type} {reading : Reading α} {done other : α → Segment → Prop}
    {failed failedOther : Segment → Prop} (first : reading.Satisfies done failed)
    (second : reading.Satisfies other failedOther) :
    reading.Satisfies (fun value later => done value later ∧ other value later)
      (fun later => failed later ∧ failedOther later) := by
  cases reading with
  | done value later => exact ⟨first, second⟩
  | failed error later => exact ⟨first, second⟩

theorem satisfies_trivial {α : Type} (reading : Reading α) :
    reading.Satisfies (fun _ _ => True) (fun _ => True) := by
  cases reading <;> trivial

theorem satisfies_after {earlier : Segment} {done : α → Segment → Prop} :
    (reading.after earlier).Satisfies done failed ↔
      reading.Satisfies (fun value segment => done value (segment.after earlier))
        (fun segment => failed (segment.after earlier)) := by
  cases reading <;> rfl

theorem satisfies_enclosed {kind : NodeKind} {position : Nat} {done : α → Segment → Prop} :
    (reading.enclosed kind position).Satisfies done failed ↔
      reading.Satisfies (fun value segment => done value (segment.enclosed kind position))
        failed := by
  cases reading <;> rfl

/-- A loop keeps what each of its rounds keeps, from the end of the first round on. -/
theorem satisfies_iterate {step : Segment → Reading Bool} {holds : Segment → Prop}
    {done : Unit → Segment → Prop} {segment : Segment}
    (first : (step segment).Satisfies
      (fun goesOn later => if goesOn then holds later else done () later) failed)
    (further : ∀ segment, holds segment →
      (step segment).Satisfies
        (fun goesOn later => if goesOn then holds later else done () later) failed)
    (ended : ∀ segment, holds segment → done () segment) (bound : List Stop) :
    (iterate step bound segment).Satisfies done failed := by
  induction bound generalizing segment with
  | nil =>
      unfold iterate
      cases taken : step segment with
      | failed error later =>
          rw [taken] at first
          exact first
      | done goesOn later =>
          rw [taken] at first
          cases goesOn with
          | false => exact first
          | true => exact ended later first
  | cons stop rest ih =>
      unfold iterate
      cases taken : step segment with
      | failed error later =>
          rw [taken] at first
          exact first
      | done goesOn later =>
          rw [taken] at first
          cases goesOn with
          | false => exact first
          | true => exact ih (further later first)

/-- A loop keeps what each of its rounds keeps, whether it is the last one or not. -/
theorem satisfies_iterate_of_kept {step : Segment → Reading Bool} {holds : Segment → Prop}
    {segment : Segment} (start : holds segment)
    (round : ∀ segment, holds segment → (step segment).Satisfies (fun _ => holds) failed)
    (bound : List Stop) : (iterate step bound segment).Satisfies (fun _ => holds) failed := by
  have further : ∀ segment, holds segment → (step segment).Satisfies
      (fun goesOn later => if goesOn then holds later else holds later) failed := by
    intro segment held
    refine (round segment held).weaken (fun goesOn later kept => ?_) (fun _ => id)
    rw [ite_self]
    exact kept
  exact satisfies_iterate (further segment start) further (fun _ => id) bound

end Reading

structure Segment.Attains (segment : Segment) (covered : Coverage) (origin : Nat) : Prop where
  some : covered.isSome = true → segment.Covered origin
  tight : covered = .tight → segment.Tight

namespace Segment.Attains

variable {segment : Segment} {covered less : Coverage} {origin : Nat}

theorem of_nothing : segment.Attains .nothing origin := ⟨nofun, nofun⟩

theorem of_tight (covers : segment.Covered origin) (tight : segment.Tight) :
    segment.Attains covered origin :=
  ⟨fun _ => covers, fun _ => tight⟩

theorem weaken (attains : segment.Attains covered origin) (weaker : less ≤ covered) :
    segment.Attains less origin :=
  ⟨fun some => attains.some (weaker.1 some), fun tight => attains.tight (weaker.2 tight)⟩

theorem covers (attains : segment.Attains covered origin) (tight : covered = .tight) :
    segment.Covered origin :=
  attains.some (Coverage.isSome_of_tight tight)

end Segment.Attains

/-- What entries are relied on for: each keeps the tokens and covers something, up to its end. -/
def EntriesCover (enter : Entry → Surroundings → Segment → Reading Unit) : Prop :=
  ∀ entry around segment, segment.cursor.Proper →
    (enter entry around segment).Satisfies
      (fun _ later => segment.Continues later ∧ later.Attains .tight segment.cursor.position)
      segment.Continues

/-! ### Places and segments -/

structure Place.Describes (place : Place) (around : Surroundings) (segment : Segment)
    (origin : Nat) : Prop where
  view : place.view = segment.view around
  covered : segment.Attains place.covered origin
  origin : origin ≤ segment.cursor.position

namespace Segment

variable {segment : Segment} {around : Surroundings}

theorem lastKindAfter_append (before : Option NodeKind) (latest earlier : List Child) :
    lastKindAfter before (latest ++ earlier) =
      lastKindAfter (lastKindAfter before earlier) latest := by
  unfold lastKindAfter
  rw [List.find?_append]
  cases latest.find? Child.isSignificant <;> rfl

theorem lastKindAfter_extras (before : Option NodeKind) {extras : List Child}
    (insignificant : ∀ child ∈ extras, child.isSignificant = false) :
    lastKindAfter before extras = before := by
  unfold lastKindAfter
  rw [List.find?_eq_none.mpr (fun child member => by simp [insignificant child member])]

theorem lastKindAfter_flush (proper : segment.cursor.Proper) (before : Option NodeKind) :
    lastKindAfter before segment.flush.latest = lastKindAfter before segment.latest := by
  rw [flush, lastKindAfter_append, lastKindAfter_extras]
  intro child member
  rw [List.mem_reverse, List.mem_map] at member
  obtain ⟨extra, inGap, rfl⟩ := member
  exact proper.gap extra inGap

@[simp] theorem kind_view (segment : Segment) (around : Surroundings) :
    (segment.view around).kind = segment.cursor.current.kind := rfl

theorem view_flush (proper : segment.cursor.Proper) :
    segment.flush.view around = segment.view around := by
  unfold view
  rw [lastKindAfter_flush proper]
  rfl

/-- The view at the start of a segment that follows another one. -/
theorem view_following (proper : segment.cursor.Proper) {inside : Surroundings}
    (context : inside.context = around.context)
    (before : inside.before = lastKindAfter around.before segment.flush.latest) :
    segment.flush.emptied.view inside = segment.view around := by
  rw [← view_flush proper]
  unfold view
  rw [context, ← before]
  rfl

/-- The view at the end of a segment, from the segment that it follows on. -/
theorem view_after (later : Segment) (surroundings : Surroundings) (start : Segment)
    (context : surroundings.context = around.context)
    (before : surroundings.before = lastKindAfter around.before start.latest) :
    (later.after start).view around = later.view surroundings := by
  unfold view after
  rw [lastKindAfter_append, ← before, context]

theorem covered_mono {origin : Nat} {later : Segment} (covered : segment.Covered origin)
    (kept : segment.latest.any Child.isSignificant = true →
      later.latest.any Child.isSignificant = true)
    (moved : segment.cursor.position ≤ later.cursor.position) : later.Covered origin :=
  ⟨kept covered.1, Nat.lt_of_lt_of_le covered.2 moved⟩

theorem any_replaceLastSignificant {change : Child → List Child}
    (kept : ∀ child, child.isSignificant = true →
      (change child).any Child.isSignificant = true) (latest : List Child)
    (some : latest.any Child.isSignificant = true) :
    (replaceLastSignificant change latest).any Child.isSignificant = true := by
  induction latest with
  | nil => cases some
  | cons child earlier ih =>
      rw [replaceLastSignificant]
      split
      · next significant =>
          rw [List.any_append, List.any_reverse, kept child significant]
          rfl
      · next insignificant =>
          rw [List.any_cons, Bool.eq_false_iff.mpr insignificant, Bool.false_or] at some ⊢
          exact ih some

theorem forall_replaceLastSignificant {holds : Child → Prop} {change : Child → List Child}
    {latest : List Child} (all : ∀ child ∈ latest, holds child)
    (kept : ∀ child, holds child → ∀ part ∈ change child, holds part) :
    ∀ child ∈ replaceLastSignificant change latest, holds child := by
  induction latest with
  | nil => exact all
  | cons child earlier ih =>
      obtain ⟨first, later⟩ := List.forall_mem_cons.mp all
      rw [replaceLastSignificant]
      split
      · intro part member
        rcases List.mem_append.mp member with own | other
        · exact kept child first part (List.mem_reverse.mp own)
        · exact later part other
      · exact List.forall_mem_cons.mpr ⟨first, ih later⟩

/-- A change of the last significant child stays among the later children if one of them is
significant. -/
theorem replaceLastSignificant_append (change : Child → List Child) {latest : List Child}
    (some : latest.any Child.isSignificant = true) (earlier : List Child) :
    replaceLastSignificant change (latest ++ earlier) =
      replaceLastSignificant change latest ++ earlier := by
  induction latest with
  | nil => cases some
  | cons child rest ih =>
      rw [List.cons_append, replaceLastSignificant, replaceLastSignificant]
      split
      · rw [List.append_assoc]
      · next insignificant =>
          rw [List.any_cons, Bool.eq_false_iff.mpr insignificant, Bool.false_or] at some
          rw [ih some]
          rfl

theorem find?_replaceLastSignificant {change : Child → Child}
    (kept : ∀ child, (change child).isSignificant = child.isSignificant) (latest : List Child) :
    (replaceLastSignificant (fun child => [change child]) latest).find? Child.isSignificant =
      (latest.find? Child.isSignificant).map change := by
  induction latest with
  | nil => rfl
  | cons child earlier ih =>
      rw [replaceLastSignificant]
      split
      · next significant => simp [kept, significant]
      · next insignificant => simp [insignificant, ih]

/-- A field does not change the kind of the last node. -/
theorem lastKindAfter_withField (before : Option NodeKind) (field : Option Field)
    (latest : List Child) :
    lastKindAfter before
        (replaceLastSignificant (fun child => [child.withField field]) latest) =
      lastKindAfter before latest := by
  unfold lastKindAfter
  rw [find?_replaceLastSignificant (isSignificant_withField field)]
  cases latest.find? Child.isSignificant with
  | none => rfl
  | some child => cases child <;> rfl

theorem isSignificant_reinterpretAsType (field : Option Field) {node : Node}
    (ordinary : node.kind ≠ .deprecatedDirective) :
    (Child.ofNode field node.reinterpretAsType).isSignificant = true := by
  unfold Node.reinterpretAsType
  cases reading : typeReading? node.kind with
  | none => simpa [Child.ofNode, Child.isSignificant] using ordinary
  | some found =>
      unfold typeReading? at reading
      split at reading <;> simp at reading <;> subst reading <;> rfl

/-! ### Moves -/

theorem peek_bumpAs (proper : segment.cursor.Proper) (change : Token → Token) (distance : Nat) :
    (segment.bumpAs change).cursor.peek distance = segment.cursor.peek (distance + 1) := by
  rw [cursor_bumpAs]
  cases ended : segment.cursor.isAtEnd with
  | true =>
      rw [proper.peek_of_end ended]
      exact proper.peek_of_end ended distance
  | false =>
      obtain ⟨stop, rest, ahead, advanced⟩ := proper.withoutGap.advance_eq ended
      change segment.cursor.ahead = stop :: rest at ahead
      simp only [Bool.false_eq_true, if_false, advanced]
      simp [TokenCursor.peek, ahead]

theorem view_bumpAs (proper : segment.cursor.Proper) (around : Surroundings)
    (change : Token → Token) :
    ∃ previous last, (segment.bumpAs change).view around =
      (segment.view around).next previous last := by
  refine ⟨(segment.bumpAs change).cursor.previous.kind,
    lastKindAfter around.before (segment.bumpAs change).latest, ?_⟩
  simp only [view, View.next, peek_bumpAs proper]

/-- Consuming a token covers something, if the token is not made an extra. -/
theorem covered_bumpAs {origin : Nat} {change : Token → Token} (proper : segment.cursor.Proper)
    (more : segment.cursor.isAtEnd = false) (start : origin ≤ segment.cursor.position)
    (kept : segment.cursor.current.kind.isExtra = false →
      (change segment.cursor.current).kind.isExtra = false) :
    (segment.bumpAs change).Covered origin := by
  have significant := kept (current_significant proper more)
  have moved : (segment.bumpAs change).cursor.position = segment.cursor.position + 1 := by
    obtain ⟨stop, rest, -, advanced⟩ := proper.withoutGap.advance_eq more
    rw [cursor_bumpAs, more]
    simp only [Bool.false_eq_true, if_false, advanced]
  refine ⟨?_, by omega⟩
  rw [latest_bumpAs proper more, List.any_cons, Child.isSignificant, significant]
  rfl

theorem tight_bumpAs {change : Token → Token} (proper : segment.cursor.Proper)
    (more : segment.cursor.isAtEnd = false)
    (kept : segment.cursor.current.kind.isExtra = false →
      (change segment.cursor.current).kind.isExtra = false) : (segment.bumpAs change).Tight := by
  refine ⟨_, _, latest_bumpAs proper more change, ?_⟩
  rw [Child.isSignificant, kept (current_significant proper more)]
  rfl

theorem attains_bumpAs {origin : Nat} {change : Token → Token} {covered : Coverage}
    (proper : segment.cursor.Proper) (more : segment.cursor.isAtEnd = false)
    (start : origin ≤ segment.cursor.position)
    (kept : segment.cursor.current.kind.isExtra = false →
      (change segment.cursor.current).kind.isExtra = false) :
    (segment.bumpAs change).Attains covered origin :=
  .of_tight (covered_bumpAs proper more start kept) (tight_bumpAs proper more kept)

/-- A change of the last significant child that leaves one significant child in its place. -/
theorem attains_mapLast {covered : Coverage} {origin : Nat}
    (attains : segment.Attains covered origin) {change : Child → List Child}
    (kept : ∀ child, child.isSignificant = true →
      ∃ part, change child = [part] ∧ part.isSignificant = true) :
    (segment.mapLatest (replaceLastSignificant change)).Attains covered origin := by
  refine ⟨fun some => ?_, fun tight => ?_⟩
  · refine covered_mono (attains.some some) (any_replaceLastSignificant ?_ _) (Nat.le_refl _)
    intro child significant
    obtain ⟨part, same, stays⟩ := kept child significant
    rw [same, List.any_cons, stays, Bool.true_or]
  · obtain ⟨child, earlier, same, significant⟩ := attains.tight tight
    obtain ⟨part, single, stays⟩ := kept child significant
    refine ⟨part, earlier, ?_, stays⟩
    rw [mapLatest, same, replaceLastSignificant, if_pos significant, single]
    rfl

theorem any_flush (some : segment.latest.any Child.isSignificant = true) :
    segment.flush.latest.any Child.isSignificant = true := by
  rw [flush, List.any_append, some, Bool.or_true]

theorem bumpAs_of_end (ended : segment.cursor.isAtEnd = true) (change : Token → Token) :
    segment.bumpAs change = segment.flush := by
  unfold bumpAs
  change (if segment.cursor.isAtEnd then _ else _) = _
  rw [if_pos ended]

/-- A move that is in order keeps the tokens and ends where it was said to end. -/
theorem apply_sound {place : Place} {after : Place → Prop} {move : Move} {origin : Nat}
    (permits : place.Permits after move) (describes : place.Describes around segment origin)
    (proper : segment.cursor.Proper) :
    segment.Continues (segment.apply around move) ∧
      ∃ reached, Place.Describes reached around (segment.apply around move) origin ∧
        after reached := by
  rcases place with ⟨view, flag⟩
  rcases describes with ⟨same, covered, start⟩
  obtain rfl : view = segment.view around := same
  cases move with
  | bump =>
      have continues := continues_bump proper
      obtain ⟨previous, last, next⟩ := view_bumpAs proper around id
      refine ⟨continues, _, ⟨next.symm, ?_, Nat.le_trans start continues.position_le⟩,
        permits previous last⟩
      cases ended : segment.cursor.isAtEnd with
      | false => exact attains_bumpAs proper ended start id
      | true =>
          have atEnd : (segment.view around).kind = .eof := by
            rw [kind_view]
            exact eq_of_beq ended
          rw [Place.bumped, if_pos atEnd]
          refine ⟨fun some => ?_, fun tight => (Coverage.loosened_ne_tight _ tight).elim⟩
          rw [Coverage.isSome_loosened] at some
          refine covered_mono (covered.some some) ?_ continues.position_le
          rw [Segment.apply, bump, bumpAs_of_end ended]
          exact any_flush
  | bumpKeyword =>
      have word : segment.cursor.current.kind = .ident := permits.1
      have more : segment.cursor.isAtEnd = false := by
        rw [TokenCursor.isAtEnd, word]
        rfl
      have continues : Continues segment (segment.bumpAs (fun token => token.retag .keyword)) :=
        continues_bumpAs proper (fun _ => Or.inr ⟨word, rfl⟩)
      obtain ⟨previous, last, next⟩ :=
        view_bumpAs proper around (fun token => token.retag .keyword)
      have attains : (segment.bumpAs (fun token => token.retag .keyword)).Attains .tight origin :=
        attains_bumpAs proper more start (fun _ => rfl)
      exact ⟨continues, ⟨_, .tight⟩,
        ⟨next.symm, attains, Nat.le_trans start continues.position_le⟩, permits.2 previous last⟩
  | tag field =>
      refine ⟨continues_mapLatest (leaves_replaceLastSignificant (fun child => ?_) _), _,
        ⟨?_, attains_mapLast covered (fun child significant => ?_), start⟩, permits.2⟩
      · simp [Child.leavesOfList]
      · simp only [view, Segment.apply, mapLatest, lastKindAfter_withField]
      · exact ⟨_, rfl, by rw [isSignificant_withField, significant]⟩
  | reinterpretLast =>
      refine ⟨continues_mapLatest (leaves_replaceLastSignificant (fun child => ?_) _), ⟨_, flag⟩,
        ⟨rfl, attains_mapLast covered (fun child significant => ?_), start⟩, permits.2 _⟩
      · cases child with
        | leaf field token => rfl
        | branch field kind span children =>
            simp [Child.node?, Child.leavesOfList, leaves_reinterpretAsType]
            rfl
      · cases child with
        | leaf field token => exact ⟨_, rfl, significant⟩
        | branch field kind span children =>
            have ordinary : kind ≠ .deprecatedDirective := by
              simpa [Child.isSignificant] using significant
            exact ⟨_, rfl, isSignificant_reinterpretAsType field
              (show (Node.mk kind span children).kind ≠ .deprecatedDirective from ordinary)⟩
  | spliceParameters =>
      refine ⟨continues_mapLatest (leaves_replaceLastSignificant (fun child => ?_) _), _,
        ⟨rfl, .of_nothing, start⟩, permits.2 _⟩
      cases child with
      | leaf field token => simp [Child.node?, Child.leavesOfList]
      | branch field kind span children => exact leaves_asParameterList _
  | report complaint =>
      exact ⟨(Continues.refl segment).report _, _,
        ⟨rfl, ⟨covered.some, covered.tight⟩, start⟩, permits⟩

end Segment

/-! ### Readings -/

/-- What holds at the end of an orderly production: it keeps the tokens, and some place that is as it
was said to be describes where it ends. -/
def EndsAt {α : Type} (start : Segment) (around : Surroundings) (origin : Nat)
    (after : α → Place → Prop) (value : α) (later : Segment) : Prop :=
  start.Continues later ∧
    ∃ reached, Place.Describes reached around later origin ∧ after value reached

namespace Production

variable {allowed : NodeKind → Prop} {enter : Entry → Surroundings → Segment → Reading Unit}

/-- The place where a segment stands, of which nothing was read. -/
theorem describes_start (segment : Segment) (around : Surroundings) :
    (Place.mk (segment.view around) .nothing).Describes around segment segment.cursor.position :=
  ⟨rfl, .of_nothing, Nat.le_refl _⟩

/-- A body that is read into a segment of its own, from a description of its start. -/
theorem describes_following {place : Place} {around : Surroundings} {segment : Segment}
    {origin : Nat} (describes : place.Describes around segment origin)
    (proper : segment.cursor.Proper) (inside : Surroundings)
    (context : inside.context = around.context)
    (before : inside.before = lastKindAfter around.before segment.flush.latest) :
    place.marked.Describes inside segment.flush.emptied segment.cursor.position :=
  ⟨describes.view.trans (Segment.view_following proper context before).symm, .of_nothing,
    Nat.le_refl _⟩

theorem describes_within {place : Place} {around : Surroundings} {segment : Segment} {origin : Nat}
    (describes : place.Describes around segment origin) (change : Context → Context) :
    (place.withContext (change place.view.context)).Describes
      { around with context := change around.context } segment origin :=
  ⟨by rw [Place.withContext, describes.view]; rfl, ⟨describes.covered.some, describes.covered.tight⟩,
    describes.origin⟩

theorem describes_inside {place : Place} {around : Surroundings} {segment : Segment} {origin : Nat}
    (describes : place.Describes around segment origin) :
    place.inside.Describes around.first segment.flush.emptied segment.cursor.position :=
  ⟨by rw [Place.inside, describes.view]; rfl, .of_nothing, Nat.le_refl _⟩

theorem describes_wrapped {place : Place} {around : Surroundings} {segment : Segment}
    {origin : Nat} (describes : place.Describes around segment origin) :
    (Place.mk (place.view.withLast (lastKindAfter none segment.latest)) place.covered).Describes
      around.first segment origin :=
  ⟨by rw [describes.view]; rfl, describes.covered, describes.origin⟩

theorem describes_opened {place : Place} {around : Surroundings} {segment : Segment} {origin : Nat}
    (describes : place.Describes around segment origin) (opener : Span) :
    place.Describes { around with opener := opener } segment origin :=
  ⟨describes.view, describes.covered, describes.origin⟩

theorem proper_emptied {segment : Segment} (proper : segment.cursor.Proper) :
    segment.flush.emptied.cursor.Proper :=
  proper.withoutGap

/-- What is covered in a segment of its own is covered in the segment it is put after. -/
theorem covered_after {segment later : Segment} {origin : Nat}
    (start : origin ≤ segment.cursor.position) (earlier : Segment)
    (covered : later.Covered segment.cursor.position) : (later.after earlier).Covered origin :=
  ⟨by rw [Segment.after, List.any_append, covered.1, Bool.true_or],
    Nat.lt_of_le_of_lt start covered.2⟩

theorem attains_after {segment later : Segment} {origin : Nat} {covered : Coverage}
    (start : origin ≤ segment.cursor.position) (earlier : Segment)
    (attains : later.Attains covered segment.cursor.position) :
    (later.after earlier).Attains covered origin := by
  refine ⟨fun some => covered_after start earlier (attains.some some), fun tight => ?_⟩
  obtain ⟨child, inner, same, significant⟩ := attains.tight tight
  exact ⟨child, inner ++ earlier.latest, by rw [Segment.after, same, List.cons_append], significant⟩

theorem covered_enclosed {segment : Segment} {kind : NodeKind} {position origin : Nat}
    (ordinary : kind ≠ .deprecatedDirective) (covered : segment.Covered origin) :
    (segment.enclosed kind position).Covered origin := by
  refine ⟨?_, covered.2⟩
  simpa [Segment.enclosed, Child.ofNode, Child.isSignificant, Node.build] using ordinary

theorem attains_enclosed {segment : Segment} {kind : NodeKind} {position origin : Nat}
    {covered less : Coverage} (ordinary : kind ≠ .deprecatedDirective)
    (attains : segment.Attains covered origin) (tight : covered = .tight) :
    (segment.enclosed kind position).Attains less origin := by
  refine .of_tight (covered_enclosed ordinary (attains.covers tight)) ⟨_, [], rfl, ?_⟩
  simpa [Child.ofNode, Child.isSignificant, Node.build] using ordinary

theorem lastKindAfter_enclosed {kind : NodeKind} (ordinary : kind ≠ .deprecatedDirective)
    (before : Option NodeKind) (node : Node) (same : node.kind = kind) (earlier : List Child) :
    lastKindAfter before (.ofNode none node :: earlier) = some kind := by
  have significant : (Child.ofNode none node).isSignificant = true := by
    simpa [Child.ofNode, Child.isSignificant, same] using ordinary
  simp [lastKindAfter, significant, same]

/-- The view after a node that was just closed. -/
theorem view_enclosed {kind : NodeKind} (ordinary : kind ≠ .deprecatedDirective)
    (inner earlier : Segment) (position : Nat) (around inside : Surroundings)
    (context : inside.context = around.context) :
    ((inner.enclosed kind position).after earlier).view around =
      (inner.view inside).withLast (some kind) := by
  have last := lastKindAfter_enclosed ordinary around.before
    (.build kind inner.latest.reverse position) rfl earlier.latest
  unfold Segment.view View.withLast
  simp only [Segment.after, Segment.enclosed, List.singleton_append, last, context]

/-- The place after a node that was opened and closed. -/
theorem describes_closed {place reached : Place} {around : Surroundings} {segment inner : Segment}
    {origin : Nat} {kind : NodeKind} (ordinary : kind ≠ .deprecatedDirective)
    (describes : place.Describes around segment origin)
    (described : reached.Describes around.first inner segment.cursor.position)
    (covered : reached.covered = .tight) (position : Nat) :
    (reached.closed kind).Describes around ((inner.enclosed kind position).after segment.flush)
      origin := by
  refine ⟨?_, ?_, Nat.le_trans describes.origin described.origin⟩
  · rw [view_enclosed ordinary inner _ _ around around.first rfl, ← described.view]
    rfl
  · exact attains_after describes.origin _ (attains_enclosed ordinary described.covered covered)

/-- The place after a body with a mark of its own. -/
theorem describes_joined {place reached : Place} {around : Surroundings}
    {segment inner : Segment} {origin : Nat} (describes : place.Describes around segment origin)
    (described : reached.Describes (segment.flush.atMark around) inner segment.cursor.position) :
    reached.Describes around (inner.after segment.flush) origin := by
  refine ⟨?_, attains_after describes.origin _ described.covered,
    Nat.le_trans describes.origin described.origin⟩
  have joined : (inner.after segment.flush).view around =
      inner.view (segment.flush.atMark around) :=
    Segment.view_after inner _ segment.flush rfl rfl
  exact described.view.trans joined.symm

/-- The place after a node around everything since the mark. -/
theorem describes_enclosed {reached : Place} {around : Surroundings} {inner : Segment}
    {origin : Nat} {kind : NodeKind} (ordinary : kind ≠ .deprecatedDirective)
    (described : reached.Describes around.first inner origin) (covered : reached.covered = .tight)
    (position : Nat) :
    (reached.closed kind).Describes around (inner.enclosed kind position) origin := by
  refine ⟨?_, attains_enclosed ordinary described.covered covered, described.origin⟩
  have alone : (inner.enclosed kind position).after inner.emptied = inner.enclosed kind position :=
    rfl
  rw [← alone, view_enclosed ordinary inner _ _ around around.first rfl, ← described.view]
  rfl

/-- The place after a guard. -/
theorem describes_guarded {place : Place} {around : Surroundings} {segment inner : Segment}
    {origin : Nat} (describes : place.Describes around segment origin)
    (continues : segment.flush.emptied.Continues inner)
    (attains : inner.Attains .tight segment.cursor.position) :
    (Place.mk ((inner.after segment.flush).view around) .tight).Describes around
      (inner.after segment.flush) origin :=
  ⟨rfl, attains_after describes.origin _ attains,
    Nat.le_trans describes.origin continues.position_le⟩

/-- The place after an entry. -/
theorem describes_entered {place : Place} {around : Surroundings} {segment later : Segment}
    {origin : Nat} (describes : place.Describes around segment origin)
    (continues : segment.Continues later) (attains : later.Attains .tight segment.cursor.position) :
    (Place.mk (later.view around) .tight).Describes around later origin := by
  have covered := attains.some rfl
  exact ⟨rfl, .of_tight ⟨covered.1, Nat.lt_of_le_of_lt describes.origin covered.2⟩
    (attains.tight rfl), Nat.le_trans describes.origin continues.position_le⟩

/-- A segment that recovered from an error before a token other than a semicolon moved on. -/
theorem recover_moves {segment inner : Segment} (around : Surroundings) (resync : Bool)
    (error : SyntaxError) (continues : segment.flush.emptied.Continues inner)
    (proper : segment.cursor.Proper) (notEnd : segment.cursor.current.kind ≠ .eof)
    (notSemicolon : segment.cursor.current.kind ≠ .semicolon) :
    segment.flush.emptied.Continues
        (inner.recover resync around segment.cursor.position error) ∧
      (inner.recover resync around segment.cursor.position error).Attains .tight
        segment.cursor.position := by
  obtain ⟨count, some, recovers, -⟩ :=
    Segment.recover_alone (.refl inner.cursor) resync segment.cursor.position
  rw [(recovers around error).1]
  have innerProper := continues.proper (proper_emptied proper)
  refine ⟨continues.trans (Segment.continues_recovered around error count innerProper),
    .of_tight ⟨rfl, ?_⟩ ⟨_, [], rfl, rfl⟩⟩
  have clearedProper : (inner.mapLatest (List.map (Child.withField none))).cursor.Proper :=
    innerProper
  have moved := (Segment.continues_bumps count clearedProper).position_le
  change segment.cursor.position <
    ((inner.mapLatest (List.map (Child.withField none))).bumps count).cursor.position
  have least := continues.position_le
  change segment.cursor.position ≤ inner.cursor.position at least
  rcases Nat.lt_or_eq_of_le least with further | still
  · exact Nat.lt_of_lt_of_le further moved
  · -- Nothing was consumed, so the current token is skipped.
    have current : inner.cursor.current = segment.cursor.current := continues.current_eq still.symm
    have more : inner.cursor.ahead ≠ [] := by
      intro none
      have ended := innerProper.isAtEnd_iff.mpr none
      rw [TokenCursor.isAtEnd, current] at ended
      exact notEnd (eq_of_beq ended)
    have stuck : inner.isStuck segment.cursor.position = true := by
      simp [Segment.isStuck, still, TokenCursor.isAtEnd, current, notEnd, notSemicolon]
    rw [still]
    exact Segment.position_bumps clearedProper more (some stuck more)

/-- What holds before each further round of an orderly loop: what the first round covered is still
covered, and every round keeps it. -/
def BeforeRound (allowed : NodeKind → Prop) (body : Production Bool) (marked : Bool)
    (after : Unit → Place → Prop) (around : Surroundings) (segment : Segment) (origin : Nat)
    (later : Segment) : Prop :=
  segment.Continues later ∧
    ∃ covered,
      (∀ view, Orderly allowed body marked (fun _ reached => covered ≤ reached.covered)
        ⟨view, covered⟩) ∧
      (∀ view, after () ⟨view, covered⟩) ∧
      (Place.mk (later.view around) covered).Describes around later origin

section Rounds

variable {body : Production Bool} {marked : Bool} {after : Unit → Place → Prop}
  {around : Surroundings} {segment start : Segment} {origin : Nat} {reading : Reading Bool}

theorem first_round
    (ends : reading.Satisfies
      (EndsAt segment around origin (fun goesOn reached =>
        if goesOn then
          ∃ kept, kept ≤ reached.covered ∧
            (∀ view, Orderly allowed body marked (fun _ later => kept ≤ later.covered)
              ⟨view, kept⟩) ∧
            ∀ view, after () ⟨view, kept⟩
        else after () reached))
      segment.Continues) :
    reading.Satisfies
      (fun goesOn later => if goesOn then
        BeforeRound allowed body marked after around segment origin later
        else EndsAt segment around origin after () later) segment.Continues := by
  refine ends.weaken ?_ (fun _ => id)
  rintro goesOn later ⟨continues, reached, described, ended⟩
  cases goesOn with
  | false => exact ⟨continues, reached, described, ended⟩
  | true =>
      obtain ⟨kept, least, rounds, further⟩ := ended
      exact ⟨continues, kept, rounds, further,
        ⟨rfl, described.covered.weaken least, described.origin⟩⟩

theorem further_round {covered : Coverage}
    (ends : reading.Satisfies
      (EndsAt start around origin (fun _ reached => covered ≤ reached.covered)) start.Continues)
    (earlier : segment.Continues start)
    (rounds : ∀ view, Orderly allowed body marked (fun _ reached => covered ≤ reached.covered)
      ⟨view, covered⟩)
    (ended : ∀ view, after () ⟨view, covered⟩) :
    reading.Satisfies
      (fun goesOn later => if goesOn then
        BeforeRound allowed body marked after around segment origin later
        else EndsAt segment around origin after () later) segment.Continues := by
  refine ends.weaken ?_ (fun later => earlier.trans)
  rintro goesOn later ⟨continues, reached, described, kept⟩
  have same : (Place.mk (later.view around) covered).Describes around later origin :=
    ⟨rfl, described.covered.weaken kept, described.origin⟩
  cases goesOn with
  | false => exact ⟨earlier.trans continues, _, same, ended _⟩
  | true => exact ⟨earlier.trans continues, covered, rounds, ended, same⟩

end Rounds

/-- An orderly production keeps the tokens and ends where it was said to end. -/
theorem Orderly.sound {α : Type} {production : Production α} {marked : Bool}
    {after : α → Place → Prop} {place : Place}
    (orderly : production.Orderly allowed marked after place)
    (ordinary : ∀ kind, allowed kind → kind ≠ .deprecatedDirective) (entries : EntriesCover enter)
    (resync : Bool) {around : Surroundings} {segment : Segment} {origin : Nat}
    (describes : place.Describes around segment origin) (proper : segment.cursor.Proper) :
    (production.read resync enter around segment).Satisfies (EndsAt segment around origin after)
      segment.Continues := by
  induction production generalizing marked place around segment origin with
  | pure value =>
      rw [Orderly] at orderly
      exact ⟨.refl segment, place, describes, orderly⟩
  | bind first next ihFirst ihNext =>
      rw [Orderly] at orderly
      rw [read]
      refine (ihFirst orderly describes proper).andThen ?_
      rintro value reached ⟨continues, there, described, further⟩
      refine (ihNext value further described (continues.proper proper)).weaken ?_ ?_
      · rintro result later ⟨onward, ended⟩
        exact ⟨continues.trans onward, ended⟩
      · exact fun later onward => continues.trans onward
  | look seen =>
      rw [Orderly, describes.view] at orderly
      exact ⟨.refl segment, place, describes, describes.view ▸ orderly⟩
  | act move =>
      rw [Orderly] at orderly
      exact Segment.apply_sound orderly describes proper
  | refuse complaint => exact .refl segment
  | within change body ih =>
      rw [Orderly] at orderly
      rw [read]
      refine (ih orderly (describes_within describes change) proper).weaken ?_ (fun _ => id)
      rintro value later ⟨continues, reached, described, ended⟩
      refine ⟨continues, reached.withContext place.view.context,
        ⟨?_, described.covered.weaken (Coverage.le_refl _), described.origin⟩, ended⟩
      change reached.view.withContext place.view.context = _
      rw [described.view, describes.view]
      rfl
  | node kind body ih =>
      rw [Orderly] at orderly
      rw [read]
      have flushed := Segment.continues_flush segment
      refine Reading.satisfies_after.mpr (Reading.satisfies_enclosed.mpr ?_)
      refine (ih orderly.2 (describes_inside describes) (proper_emptied proper)).weaken ?_ ?_
      · rintro value inner ⟨continues, reached, described, covered, ended⟩
        exact ⟨flushed.trans (continues.enclosed kind _).after, _,
          describes_closed (ordinary kind orderly.1) describes described covered _, ended⟩
      · exact fun inner continues => flushed.trans continues.after
  | marked body ih =>
      rw [Orderly] at orderly
      rw [read]
      have flushed := Segment.continues_flush segment
      refine Reading.satisfies_after.mpr ?_
      have start := describes_following describes proper (segment.flush.atMark around) rfl rfl
      refine (ih orderly start (proper_emptied proper)).weaken ?_
        (fun inner continues => flushed.trans continues.after)
      rintro value inner ⟨continues, reached, described, ended⟩
      exact ⟨flushed.trans continues.after, _, describes_joined describes described, ended⟩
  | wrap kind body ih =>
      rw [Orderly] at orderly
      rw [read]
      refine Reading.satisfies_enclosed.mpr ?_
      refine (ih (orderly.2.2 _) (describes_wrapped describes) proper).weaken ?_ (fun _ => id)
      rintro value inner ⟨continues, reached, described, covered, ended⟩
      exact ⟨continues.enclosed kind _, _,
        describes_enclosed (ordinary kind orderly.2.1) described covered _, ended⟩
  | opened body ih =>
      rw [Orderly] at orderly
      rw [read]
      refine (ih orderly (describes_opened describes _) proper).weaken ?_ (fun _ => id)
      rintro value later ⟨continues, reached, described, ended⟩
      exact ⟨continues, reached, ⟨described.view, described.covered, described.origin⟩, ended⟩
  | guarded body ih =>
      rw [Orderly] at orderly
      rw [read]
      have flushed := Segment.continues_flush segment
      have start := describes_following describes proper (segment.flush.following around) rfl rfl
      obtain ⟨notEnd, notSemicolon, inside, further⟩ := orderly
      rw [describes.view, Segment.kind_view] at notEnd notSemicolon
      have tried := ih inside start (proper_emptied proper)
      split
      · next inner same =>
          rw [same] at tried
          obtain ⟨continues, reached, described, covered⟩ := tried
          exact ⟨flushed.trans continues.after, _,
            describes_guarded describes continues (covered ▸ described.covered), further _⟩
      · next error inner same =>
          rw [same] at tried
          have recovers := recover_moves (segment.flush.atMark around) resync error tried
            proper notEnd notSemicolon
          exact ⟨flushed.trans recovers.1.after, _,
            describes_guarded describes recovers.1 recovers.2, further _⟩
  | repeatedly body ih =>
      rw [Orderly] at orderly
      rw [read]
      refine Reading.satisfies_iterate (first_round (ih orderly describes proper)) ?_ ?_ _
      · intro start before
        obtain ⟨earlier, covered, rounds, ended, described⟩ := before
        exact further_round (ih (rounds _) described (earlier.proper proper)) earlier rounds ended
      · rintro later ⟨continues, covered, -, ended, described⟩
        exact ⟨continues, _, described, ended _⟩
  | enter entry =>
      rw [Orderly] at orderly
      rw [read]
      refine (entries entry around segment proper).weaken ?_ (fun _ => id)
      rintro value later ⟨continues, covered⟩
      exact ⟨continues, _, describes_entered describes continues covered, orderly _⟩

end Production

end JaiSyntax
