import JaiSyntax.Parse
import JaiSyntax.Proofs.Reading.Soundness
/-!
A run is a reading. What an orderly production does to a stack of open nodes is what it reads on its
own, put at the end of the innermost node; the nodes that a failed run leaves open dissolve into it.
-/

set_option autoImplicit false

namespace JaiSyntax

def Scope.around (scope : Scope) (base : TreeBuilder) : Surroundings :=
  ⟨scope.context, scope.opener, scope.mark.position, base.lastNodeKind?⟩

/-! ### Dissolving open nodes -/

namespace TreeBuilder

theorem dissolve_succ (count : Nat) (builder : TreeBuilder) :
    dissolve (count + 1) builder = dissolve 1 (dissolve count builder) := by
  induction count generalizing builder with
  | zero => rfl
  | succ count ih =>
      rcases builder with ⟨root, _ | ⟨frame, rest⟩⟩
      · rfl
      · exact ih _

/-- Dissolving down to a node is dissolving down to the node inside it and then that one. -/
theorem dissolveTo_succ {builder : TreeBuilder} {depth : Nat} (deeper : depth < builder.depth) :
    builder.dissolveTo depth = dissolve 1 (builder.dissolveTo (depth + 1)) := by
  unfold dissolveTo
  rw [← dissolve_succ]
  congr 1
  omega

theorem dissolve_start (base : TreeBuilder) (kind : NodeKind) (position : Nat)
    (latest : List Child) :
    dissolve 1 ((base.start kind position).mapTop (latest ++ ·)) =
      base.mapTop (latest ++ ·) := by
  rcases base with ⟨root, stack⟩
  simp [start, Frame.new, mapTop, dissolve]

theorem frames_start (base : TreeBuilder) (kind : NodeKind) (position : Nat)
    (latest : List Child) :
    ((base.start kind position).mapTop (latest ++ ·)).frames =
      ⟨kind, position, latest⟩ :: base.frames := by
  simp [start, Frame.new, mapTop, frames]

end TreeBuilder

namespace Segment

variable {state : ParserState} {base : TreeBuilder} {inner : Segment}

/-- A node that failed dissolves into the node around it. -/
theorem Dissolves.ofNode {kind : NodeKind} {position : Nat}
    (dissolves : Dissolves state (base.start kind position) inner) :
    Dissolves state base inner := by
  have deeper : base.depth < state.builder.depth := dissolves.depth
  obtain ⟨opened, latest, frames⟩ := dissolves.frames
  refine ⟨dissolves.cursor, dissolves.reported, Nat.le_of_lt deeper, ?_, ?_⟩
  · refine ⟨opened ++ [⟨kind, position, latest⟩], [], ?_⟩
    rw [frames, TreeBuilder.frames_start, List.append_assoc]
    simp
  · rw [TreeBuilder.dissolveTo_succ deeper, ← TreeBuilder.dissolve_start base kind position]
    exact congrArg _ dissolves.builder

/-- What dissolves after a segment dissolves together with it. -/
theorem Dissolves.ofAfter {earlier : Segment}
    (dissolves : Dissolves state (earlier.onto base).builder inner) :
    Dissolves state base (inner.after earlier) := by
  have same : (earlier.onto base).builder.depth = base.depth := TreeBuilder.depth_mapTop _ _
  obtain ⟨opened, latest, frames⟩ := dissolves.frames
  refine ⟨dissolves.cursor, dissolves.reported, same ▸ dissolves.depth, ?_, ?_⟩
  · refine ⟨opened, latest ++ earlier.latest, ?_⟩
    rw [frames]
    simp [onto]
  · rw [← same, dissolves.builder]
    exact congrArg ParserState.builder (onto_after inner base earlier).symm

theorem lastNodeKind?_onto (segment : Segment) (base : TreeBuilder) :
    (segment.onto base).builder.lastNodeKind? =
      lastKindAfter base.lastNodeKind? segment.latest := by
  unfold TreeBuilder.lastNodeKind? lastKindAfter
  rw [onto, TreeBuilder.top_mapTop_latest, List.find?_append]
  cases segment.latest.find? Child.isSignificant <;> rfl

theorem mark_onto (segment : Segment) (base : TreeBuilder) :
    (segment.onto base).mark =
      ((segment.flush.onto base).builder.checkpoint segment.flush.cursor.current.span.start,
        segment.flush.emptied.onto (segment.flush.onto base).builder) := by
  unfold ParserState.mark
  rw [flush_onto, onto_emptied]
  rfl

/-- The surroundings after a mark that was just set. -/
theorem around_atMark (segment : Segment) (base : TreeBuilder) (scope : Scope) :
    Scope.around { scope with
        mark := (segment.flush.onto base).builder.checkpoint
          segment.flush.cursor.current.span.start }
      (segment.flush.onto base).builder = segment.flush.atMark (scope.around base) := by
  unfold Scope.around
  rw [lastNodeKind?_onto]
  rfl

theorem around_following (segment : Segment) (base : TreeBuilder) (scope : Scope) :
    scope.around (segment.flush.onto base).builder =
      segment.flush.following (scope.around base) := by
  unfold Scope.around
  rw [lastNodeKind?_onto]
  rfl

/-- A move at the end of a builder that stays within the segment. -/
theorem mapLast_onto {segment : Segment} (change : Child → List Child)
    (some : segment.latest.any Child.isSignificant = true) :
    { segment.onto base with
      builder := (segment.onto base).builder.mapTop (replaceLastSignificant change) } =
      (segment.mapLatest (replaceLastSignificant change)).onto base := by
  simp only [onto, mapLatest, TreeBuilder.mapTop_mapTop, replaceLastSignificant_append change some]

end Segment

/-! ### Runs and readings -/

def Outcome.Is {α : Type} (base : TreeBuilder) (outcome : Outcome α) (reading : Reading α) : Prop :=
  match outcome, reading with
  | .done value state, .done other segment => value = other ∧ state = segment.onto base
  | .failed error state, .failed other segment =>
      error = other ∧ Segment.Dissolves state base segment
  | _, _ => False

def EntriesAreRead (run : Entry → Scope → ParserState → Outcome Unit)
    (read : Entry → Surroundings → Segment → Reading Unit) : Prop :=
  ∀ entry scope base segment, segment.cursor.Proper →
    (run entry scope (segment.onto base)).Is base (read entry (scope.around base) segment)

theorem Outcome.Is.andThen {α β : Type} {base : TreeBuilder} {outcome : Outcome α}
    {reading : Reading α} {next : α → ParserState → Outcome β} {nextRead : α → Segment → Reading β}
    {done : α → Segment → Prop} {failed : Segment → Prop} (same : outcome.Is base reading)
    (satisfied : reading.Satisfies done failed)
    (further : ∀ value segment, done value segment →
      (next value (segment.onto base)).Is base (nextRead value segment)) :
    (outcome.andThen next).Is base (reading.andThen nextRead) := by
  cases outcome with
  | done value state =>
      cases reading with
      | done other segment =>
          obtain ⟨rfl, rfl⟩ := same
          exact further value segment satisfied
      | failed error segment => cases same
  | failed error state =>
      cases reading with
      | done other segment => cases same
      | failed other segment => exact same

/-- A node that is closed around what was read. -/
theorem Outcome.Is.closeNode {α : Type} {base : TreeBuilder} {kind : NodeKind} {position : Nat}
    {outcome : Outcome α} {reading : Reading α}
    (same : outcome.Is (base.start kind position) reading) :
    outcome.closeNode.Is base (reading.enclosed kind position) := by
  cases outcome with
  | done value state =>
      cases reading with
      | done other segment =>
          obtain ⟨rfl, rfl⟩ := same
          exact ⟨rfl, Segment.closeNode_onto segment base kind position⟩
      | failed error segment => cases same
  | failed error state =>
      cases reading with
      | done other segment => cases same
      | failed other segment => exact ⟨same.1, same.2.ofNode⟩

/-- What is read after a segment, at the end of the builder that the segment ends. -/
theorem Outcome.Is.after {α : Type} {base : TreeBuilder} {earlier : Segment}
    {outcome : Outcome α} {reading : Reading α}
    (same : outcome.Is (earlier.onto base).builder reading) :
    outcome.Is base (reading.after earlier) := by
  cases outcome with
  | done value state =>
      cases reading with
      | done other segment =>
          obtain ⟨rfl, rfl⟩ := same
          exact ⟨rfl, (Segment.onto_after segment base earlier).symm⟩
      | failed error segment => cases same
  | failed error state =>
      cases reading with
      | done other segment => cases same
      | failed other segment => exact ⟨same.1, same.2.ofAfter⟩

/-- A loop by its first round. -/
theorem iterate_eq (step : ParserState → Outcome Bool) (bound : List Stop) (state : ParserState) :
    iterate step bound state = (step state).andThen (fun goesOn next =>
      if goesOn then
        match bound with
        | [] => .done () next
        | _ :: rest => iterate step rest next
      else .done () next) := by
  conv =>
    lhs
    unfold iterate
  rcases step state with ⟨_ | _, next⟩ | ⟨error, next⟩ <;> cases bound <;> rfl

theorem iterate_is {stepRun : ParserState → Outcome Bool} {stepRead : Segment → Reading Bool}
    {base : TreeBuilder} {holds : Segment → Prop} {done : Unit → Segment → Prop}
    {failed : Segment → Prop} {segment : Segment}
    (first : (stepRun (segment.onto base)).Is base (stepRead segment))
    (firstKeeps : (stepRead segment).Satisfies
      (fun goesOn later => if goesOn then holds later else done () later) failed)
    (further : ∀ segment, holds segment →
      (stepRun (segment.onto base)).Is base (stepRead segment))
    (furtherKeeps : ∀ segment, holds segment → (stepRead segment).Satisfies
      (fun goesOn later => if goesOn then holds later else done () later) failed)
    (bound : List Stop) :
    (iterate stepRun bound (segment.onto base)).Is base
      (Reading.iterate stepRead bound segment) := by
  induction bound generalizing segment with
  | nil =>
      unfold iterate Reading.iterate
      generalize stepRun (segment.onto base) = outcome at first
      generalize stepRead segment = reading at first firstKeeps
      cases outcome with
      | done goesOn state =>
          cases reading with
          | done other later =>
              obtain ⟨rfl, rfl⟩ := first
              cases goesOn <;> exact ⟨rfl, rfl⟩
          | failed error later => cases first
      | failed error state =>
          cases reading with
          | done other later => cases first
          | failed other later => exact first
  | cons stop rest ih =>
      unfold iterate Reading.iterate
      generalize stepRun (segment.onto base) = outcome at first
      generalize stepRead segment = reading at first firstKeeps
      cases outcome with
      | done goesOn state =>
          cases reading with
          | done other later =>
              obtain ⟨rfl, rfl⟩ := first
              cases goesOn with
              | false => exact ⟨rfl, rfl⟩
              | true => exact ih (further later firstKeeps) (furtherKeeps later firstKeeps)
          | failed error later => cases first
      | failed error state =>
          cases reading with
          | done other later => cases first
          | failed other later => exact first

namespace Production

variable {allowed : NodeKind → Prop} {run : Entry → Scope → ParserState → Outcome Unit}
  {enter : Entry → Surroundings → Segment → Reading Unit}

/-- A move that is in order is the move on the segment. -/
theorem apply_onto {place : Place} {after : Place → Prop} {move : Move} {origin : Nat}
    {segment : Segment} {scope : Scope} {base : TreeBuilder}
    (permits : place.Permits after move)
    (describes : place.Describes (scope.around base) segment origin) :
    (segment.onto base).apply scope move = (segment.apply (scope.around base) move).onto base := by
  cases move with
  | bump => exact Segment.bump_onto segment base
  | bumpKeyword => exact Segment.bumpAs_onto segment base (fun token => token.retag .keyword)
  | tag field => exact Segment.mapLast_onto _ (describes.covered.some permits.1).1
  | reinterpretLast => exact Segment.mapLast_onto _ (describes.covered.some permits.1).1
  | spliceParameters => exact Segment.mapLast_onto _ (describes.covered.some permits.1).1
  | report complaint => rfl

/-- The run of an orderly production is its reading. -/
theorem Orderly.run_is {α : Type} {production : Production α} {marked : Bool}
    {after : α → Place → Prop} {place : Place}
    (orderly : production.Orderly allowed marked after place)
    (ordinary : ∀ kind, allowed kind → kind ≠ .deprecatedDirective) (entries : EntriesCover enter)
    (areRead : EntriesAreRead run enter) (resync : Bool) {scope : Scope} {base : TreeBuilder}
    {segment : Segment} {origin : Nat}
    (describes : place.Describes (scope.around base) segment origin)
    (proper : segment.cursor.Proper)
    (mark : marked = true → scope.mark.index = base.top.latest.length) :
    (production.run resync run scope (segment.onto base)).Is base
      (production.read resync enter (scope.around base) segment) := by
  induction production generalizing marked place scope base segment origin with
  | pure value => exact ⟨rfl, rfl⟩
  | bind first next ihFirst ihNext =>
      rw [Orderly] at orderly
      rw [Production.run, read]
      refine (ihFirst orderly describes proper mark).andThen
        (orderly.sound ordinary entries resync describes proper) ?_
      rintro value reached ⟨continues, there, described, further⟩
      exact ihNext value further described (continues.proper proper) mark
  | look seen =>
      refine ⟨?_, rfl⟩
      rw [Segment.view_onto segment base (scope.around base) scope rfl rfl]
  | act move =>
      rw [Orderly] at orderly
      exact ⟨rfl, apply_onto orderly describes⟩
  | refuse complaint => exact ⟨rfl, Segment.dissolves_onto segment base⟩
  | within change body ih =>
      rw [Orderly] at orderly
      rw [Production.run, read]
      have inside : (place.withContext (change place.view.context)).Describes
          (Scope.around { scope with context := change scope.context } base) segment origin :=
        describes_within describes change
      exact ih orderly inside proper mark
  | node kind body ih =>
      rw [Orderly] at orderly
      rw [Production.run, read, Segment.openNode_onto]
      have start : place.inside.Describes (scope.around
          ((segment.flush.onto base).builder.start kind segment.flush.cursor.current.span.start))
          segment.flush.emptied segment.cursor.position := describes_inside describes
      exact (ih orderly.2 start (proper_emptied proper)
        (fun absurd => (Bool.false_ne_true absurd).elim)).closeNode.after
  | marked body ih =>
      rw [Orderly] at orderly
      rw [Production.run, read, Segment.mark_onto, ← Segment.around_atMark]
      have start := describes_following describes proper (segment.flush.atMark (scope.around base))
        rfl rfl
      rw [← Segment.around_atMark] at start
      exact (ih orderly start (proper_emptied proper) (fun _ => rfl)).after
  | wrap kind body ih =>
      rw [Orderly] at orderly
      rw [Production.run, read, Segment.openNodeAt_onto segment base (scope.around base) scope.mark
        kind (mark orderly.1) rfl]
      have start : (Place.mk (place.view.withLast (lastKindAfter none segment.latest))
          place.covered).Describes (scope.around
            (base.start kind (segment.start (scope.around base)))) segment origin :=
        describes_wrapped describes
      exact (ih (orderly.2.2 _) start proper
        (fun absurd => (Bool.false_ne_true absurd).elim)).closeNode
  | opened body ih =>
      rw [Orderly] at orderly
      rw [Production.run, read]
      have inside : place.Describes
          (Scope.around { scope with opener := segment.cursor.current.span } base) segment origin :=
        describes_opened describes _
      exact ih orderly inside proper mark
  | guarded body ih =>
      rw [Orderly] at orderly
      rw [Production.run, read, Segment.mark_onto, ← Segment.around_following]
      have start := describes_following describes proper
        (segment.flush.following (scope.around base)) rfl rfl
      rw [← Segment.around_following] at start
      have tried := ih orderly.2.2.1 start (proper_emptied proper)
        (fun absurd => (Bool.false_ne_true absurd).elim)
      simp only
      generalize body.run resync run scope
        (segment.flush.emptied.onto (segment.flush.onto base).builder) = outcome at tried
      generalize body.read resync enter (scope.around (segment.flush.onto base).builder)
        segment.flush.emptied = reading at tried
      cases outcome with
      | done value state =>
          cases reading with
          | done other inner =>
              obtain ⟨rfl, rfl⟩ := tried
              exact ⟨rfl, (Segment.onto_after inner base segment.flush).symm⟩
          | failed error inner => cases tried
      | failed error state =>
          cases reading with
          | done other inner => cases tried
          | failed other inner =>
              obtain ⟨rfl, dissolves⟩ := tried
              refine ⟨rfl, ?_⟩
              obtain ⟨count, -, -, recovers⟩ := Segment.recover_alone (.refl inner.cursor) resync
                segment.flush.cursor.position
              rw [Segment.onto_after]
              exact recovers state _ (segment.flush.atMark (scope.around base)) _ error dissolves
                rfl rfl rfl
  | repeatedly body ih =>
      rw [Orderly] at orderly
      rw [Production.run, read]
      have reads := orderly.sound ordinary entries resync describes proper
      refine iterate_is (ih orderly describes proper mark) (first_round reads) ?_ ?_ _
      · rintro later ⟨continues, covered, rounds, -, described⟩
        exact ih (rounds _) described (continues.proper proper) mark
      · rintro later ⟨continues, covered, rounds, ended, described⟩
        exact further_round ((rounds _).sound ordinary entries resync described
          (continues.proper proper)) continues rounds ended
  | enter entry => exact areRead entry scope base segment proper

end Production

end JaiSyntax
