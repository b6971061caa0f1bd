import JaiSyntax.Proofs.Audit.Tokens
import JaiSyntax.Proofs.Progress.Evaluation
/-!
The audit of the parser. A production opens a node around its own mark only, and that mark was set in the
node that is the innermost one, since whatever ran in between has closed every node it opened.
-/

set_option autoImplicit false

namespace JaiSyntax

variable {significant : List Nat}

/-! ### Recovery -/

namespace Tally

variable {tally : Tally}

theorem skipGroup_cons (depth : Nat) (stop : Stop) (bound : List Stop) (tally : Tally) :
    tally.skipGroup significant depth (stop :: bound) =
      (tally.bump significant).bind (fun moved =>
        if Segment.depthAfter depth tally.state.current.kind == 0 then some moved
        else moved.skipGroup significant (Segment.depthAfter depth tally.state.current.kind) bound) :=
  rfl

theorem skipGroup_passes (depth : Nat) (bound : List Stop) {tally : Tally}
    (tracks : tally.state.cursor.Tracks significant tally.emitted) :
    Passes significant (tally.skipGroup significant depth bound)
      (tally.state.skipGroup depth bound) := by
  induction bound generalizing depth tally with
  | nil => exact ⟨tally.emitted, rfl, tracks⟩
  | cons stop bound ih =>
      rw [skipGroup_cons, Segment.skipGroup_cons]
      refine (bumpAs_passes id tracks).bind ?_
      intro emitted moved
      split
      · exact ⟨emitted, rfl, moved⟩
      · exact ih _ moved

theorem skipOne_passes (tracks : tally.state.cursor.Tracks significant tally.emitted) :
    Passes significant (tally.skipOne significant) tally.state.skipOne := by
  unfold skipOne ParserState.skipOne
  split
  · exact skipGroup_passes 0 _ tracks
  · exact bumpAs_passes id tracks

/-- A token is skipped only where recovery is stuck. -/
theorem unstick_passes (tally : Tally) (stuck : Bool)
    (tracks : tally.state.cursor.Tracks significant tally.emitted) :
    Passes significant (tally.unstick significant stuck)
      (if stuck then tally.state.skipOne else tally.state) := by
  unfold unstick
  split
  · exact skipOne_passes tracks
  · exact ⟨tally.emitted, rfl, tracks⟩

theorem synchronizeWithin_passes (resync : Bool) (bound : List Stop) {tally : Tally}
    (tracks : tally.state.cursor.Tracks significant tally.emitted) :
    Passes significant (tally.synchronizeWithin significant resync bound)
      (tally.state.synchronizeWithin resync bound) := by
  induction bound generalizing tally with
  | nil =>
      rw [synchronizeWithin, ParserState.synchronizeWithin]
      split
      · exact ⟨tally.emitted, rfl, tracks⟩
      split
      · exact bumpAs_passes id tracks
      split
      · exact ⟨tally.emitted, rfl, tracks⟩
      · exact ⟨tally.emitted, rfl, tracks⟩
  | cons stop rest ih =>
      rw [synchronizeWithin, ParserState.synchronizeWithin]
      split
      · exact ⟨tally.emitted, rfl, tracks⟩
      split
      · exact bumpAs_passes id tracks
      split
      · exact ⟨tally.emitted, rfl, tracks⟩
      · exact (skipOne_passes tracks).bind (fun emitted moved => ih moved)

/-- A node is opened around a mark that was set in the innermost node. -/
theorem openNodeAt_passes (tally : Tally) {checkpoint : Checkpoint} (kind : NodeKind)
    (inNode : checkpoint.depth = tally.state.builder.depth)
    (tracks : tally.state.cursor.Tracks significant tally.emitted) :
    Passes significant (tally.openNodeAt checkpoint kind) (tally.state.openNodeAt checkpoint kind) :=
  ⟨tally.emitted, if_pos inNode, tracks⟩

/-- Recovery from a run that left the nodes below its checkpoint alone. -/
theorem recover_passes (tally : Tally) (resync : Bool) (checkpoint : Checkpoint) (position : Nat)
    (error : SyntaxError) (tracks : tally.state.cursor.Tracks significant tally.emitted)
    (depth : checkpoint.depth ≤ tally.state.builder.depth) :
    Passes significant (tally.recover significant resync checkpoint position error)
      (tally.state.recover resync checkpoint position error) := by
  have dissolved : (tally.state.builder.dissolveTo checkpoint.depth).depth = checkpoint.depth := by
    rw [TreeBuilder.dissolveTo, TreeBuilder.depth_dissolve]
    omega
  rw [recover, ParserState.recover]
  let bare : ParserState :=
    { tally.state with builder := tally.state.builder.dissolveTo checkpoint.depth }
  refine (openNodeAt_passes ⟨bare, tally.emitted⟩ .error dissolved.symm tracks).bind ?_
  intro emitted opened
  refine (unstick_passes ⟨{ tally.state with builder :=
    ((tally.state.builder.dissolveTo checkpoint.depth).startAt checkpoint .error).clearFields },
    emitted⟩ _ opened).bind ?_
  intro emitted moved
  refine (synchronizeWithin_passes resync _ moved).bind ?_
  intro emitted settled
  exact ⟨emitted, rfl, settled⟩

end Tally

/-! ### Productions -/

/-- What an audited run makes of an outcome: the outcome itself, with its tokens counted. -/
def Audited.Passes {α : Type} (significant : List Nat) (audited : Audited α) (outcome : Outcome α) :
    Prop :=
  ∃ emitted, audited = some (outcome, emitted) ∧ outcome.state.cursor.Tracks significant emitted

/-- What entries are relied on for: each run passes its audit. -/
def EntriesPass (significant : List Nat) (run : Entry → Scope → ParserState → Outcome Unit)
    (enter : Entry → Scope → Tally → Audited Unit) : Prop :=
  ∀ entry scope base (segment : Segment) emitted, segment.cursor.Tracks significant emitted →
    (enter entry scope ⟨segment.onto base, emitted⟩).Passes significant
      (run entry scope (segment.onto base))

namespace Audited

variable {α β : Type} {outcome : Outcome α} {audited : Audited α}

theorem Passes.andThen {next : α → ParserState → Outcome β} {nextAudit : α → Tally → Audited β}
    (passes : audited.Passes significant outcome)
    (further : ∀ value state emitted, outcome = .done value state →
      state.cursor.Tracks significant emitted →
      (nextAudit value ⟨state, emitted⟩).Passes significant (next value state)) :
    (audited.andThen nextAudit).Passes significant (outcome.andThen next) := by
  obtain ⟨emitted, rfl, tracks⟩ := passes
  cases outcome with
  | done value state => exact further value state emitted rfl tracks
  | failed error state => exact ⟨emitted, rfl, tracks⟩

theorem Passes.closeNode (passes : audited.Passes significant outcome) :
    audited.closeNode.Passes significant outcome.closeNode := by
  obtain ⟨emitted, rfl, tracks⟩ := passes
  cases outcome <;> exact ⟨emitted, rfl, tracks⟩

/-- A loop passes its audit if its first round does, and every round in which a round ends. -/
theorem iterate_passes {step : ParserState → Outcome Bool} {stepAudit : Tally → Audited Bool}
    (holds : ParserState → Prop) {state : ParserState} {emitted : Nat}
    (first : (stepAudit ⟨state, emitted⟩).Passes significant (step state))
    (firstKeeps : ∀ later, step state = .done true later → holds later)
    (further : ∀ state emitted, holds state → state.cursor.Tracks significant emitted →
      (stepAudit ⟨state, emitted⟩).Passes significant (step state))
    (furtherKeeps : ∀ state later, holds state → step state = .done true later → holds later)
    (bound : List Stop) :
    (iterate stepAudit bound ⟨state, emitted⟩).Passes significant
      (JaiSyntax.iterate step bound state) := by
  induction bound generalizing state emitted with
  | nil =>
      rw [iterate_eq, iterate]
      refine first.andThen ?_
      rintro (_ | _) next emitted - tracks <;> exact ⟨emitted, rfl, tracks⟩
  | cons stop rest ih =>
      rw [iterate_eq, iterate]
      refine first.andThen ?_
      rintro (_ | _) next emitted ends tracks
      · exact ⟨emitted, rfl, tracks⟩
      · have held := firstKeeps next ends
        exact ih (further next emitted held tracks) (furtherKeeps next · held)

end Audited

/-- What a run that is a reading ends in. -/
theorem Outcome.Is.ends {α : Type} {base : TreeBuilder} {outcome : Outcome α} {reading : Reading α}
    {done : α → Segment → Prop} {failed : Segment → Prop} (same : outcome.Is base reading)
    (satisfied : reading.Satisfies done failed) {value : α} {state : ParserState}
    (ended : outcome = .done value state) :
    ∃ segment, state = segment.onto base ∧ done value segment := by
  subst ended
  cases reading with
  | done other segment =>
      obtain ⟨rfl, rfl⟩ := same
      exact ⟨segment, rfl, satisfied⟩
  | failed error segment => cases same

/-- A run that is a reading closes no node that was open before it, not even if it fails. -/
theorem Outcome.Is.depth_le {α : Type} {base : TreeBuilder} {outcome : Outcome α}
    {reading : Reading α} (same : outcome.Is base reading) {error : SyntaxError}
    {state : ParserState} (failed : outcome = .failed error state) :
    base.depth ≤ state.builder.depth := by
  subst failed
  cases reading with
  | done value segment => cases same
  | failed other segment => exact same.2.depth

namespace Production

variable {allowed : NodeKind → Prop} {run : Entry → Scope → ParserState → Outcome Unit}
  {enter : Entry → Surroundings → Segment → Reading Unit}
  {auditEnter : Entry → Scope → Tally → Audited Unit}

theorem apply_passes (scope : Scope) (move : Move) (tally : Tally)
    (tracks : tally.state.cursor.Tracks significant tally.emitted) :
    Tally.Passes significant (tally.apply significant scope move) (tally.state.apply scope move) := by
  cases move with
  | bump => exact Tally.bumpAs_passes id tracks
  | bumpKeyword => exact Tally.bumpAs_passes _ tracks
  | tag field => exact ⟨tally.emitted, rfl, tracks⟩
  | reinterpretLast => exact ⟨tally.emitted, rfl, tracks⟩
  | spliceParameters => exact ⟨tally.emitted, rfl, tracks⟩
  | report complaint => exact ⟨tally.emitted, rfl, tracks⟩

/-- The run of an orderly production passes its audit, if its mark was set in the innermost node. -/
theorem Orderly.audit_passes {α : Type} {production : Production α} {marked : Bool}
    {after : α → Place → Prop} {place : Place}
    (orderly : production.Orderly allowed marked after place)
    (ordinary : ∀ kind, allowed kind → kind ≠ .deprecatedDirective) (entries : EntriesCover enter)
    (areRead : EntriesAreRead run enter) (pass : EntriesPass significant run auditEnter)
    (resync : Bool) {scope : Scope} {base : TreeBuilder} {segment : Segment} {origin emitted : Nat}
    (describes : place.Describes (scope.around base) segment origin)
    (tracks : segment.cursor.Tracks significant emitted)
    (mark : marked = true →
      scope.mark.index = base.top.latest.length ∧ scope.mark.depth = base.depth) :
    (production.audit significant resync auditEnter scope ⟨segment.onto base, emitted⟩).Passes
      significant (production.run resync run scope (segment.onto base)) := by
  induction production generalizing marked place scope base segment origin emitted with
  | pure value => exact ⟨emitted, rfl, tracks⟩
  | bind first next ihFirst ihNext =>
      rw [Orderly] at orderly
      rw [Production.run, audit]
      refine (ihFirst orderly describes tracks mark).andThen ?_
      intro value state emitted ended tracks'
      have same := orderly.run_is ordinary entries areRead resync describes tracks.proper
        (fun marked => (mark marked).1)
      obtain ⟨reached, rfl, continues, there, described, further⟩ :=
        same.ends (orderly.sound ordinary entries resync describes tracks.proper) ended
      exact ihNext value further described tracks' mark
  | look seen => exact ⟨emitted, rfl, tracks⟩
  | act move =>
      obtain ⟨later, same, tracks⟩ := apply_passes scope move ⟨segment.onto base, emitted⟩ tracks
      rw [Production.run, audit, same]
      exact ⟨later, rfl, tracks⟩
  | refuse complaint => exact ⟨emitted, rfl, tracks⟩
  | within change body ih =>
      rw [Orderly] at orderly
      rw [Production.run, audit]
      have inside : (place.withContext (change place.view.context)).Describes
          (Scope.around { scope with context := change scope.context } base) segment origin :=
        describes_within describes change
      exact ih orderly inside tracks mark
  | node kind body ih =>
      rw [Orderly] at orderly
      rw [Production.run, audit]
      have start : place.inside.Describes (scope.around
          ((segment.flush.onto base).builder.start kind segment.flush.cursor.current.span.start))
          segment.flush.emptied segment.cursor.position := describes_inside describes
      have flushed : segment.flush.emptied.cursor.Tracks significant
          (Tally.flush ⟨segment.onto base, emitted⟩).emitted :=
        Tally.flush_tracks ⟨segment.onto base, emitted⟩ tracks
      have inner := ih orderly.2 start flushed (fun absurd => (Bool.false_ne_true absurd).elim)
      rw [← Segment.openNode_onto] at inner
      exact inner.closeNode
  | marked body ih =>
      rw [Orderly] at orderly
      rw [Production.run, audit, Tally.mark, Segment.mark_onto]
      have start := describes_following describes tracks.proper
        (segment.flush.atMark (scope.around base)) rfl rfl
      rw [← Segment.around_atMark] at start
      exact ih orderly start (Tally.flush_tracks ⟨segment.onto base, emitted⟩ tracks)
        (fun _ => ⟨rfl, rfl⟩)
  | wrap kind body ih =>
      rw [Orderly] at orderly
      obtain ⟨index, depth⟩ := mark orderly.1
      have inNode : scope.mark.depth = (segment.onto base).builder.depth := by
        rw [depth]
        exact (TreeBuilder.depth_mapTop _ _).symm
      rw [Production.run, audit, Tally.openNodeAt, if_pos inNode, Option.bind_some]
      rw [Segment.openNodeAt_onto segment base (scope.around base) scope.mark kind index rfl]
      have start : (Place.mk (place.view.withLast (lastKindAfter none segment.latest))
          place.covered).Describes (scope.around
            (base.start kind (segment.start (scope.around base)))) segment origin :=
        describes_wrapped describes
      exact (ih (orderly.2.2 _) start tracks
        (fun absurd => (Bool.false_ne_true absurd).elim)).closeNode
  | opened body ih =>
      rw [Orderly] at orderly
      rw [Production.run, audit]
      have inside : place.Describes
          (Scope.around { scope with opener := segment.cursor.current.span } base) segment origin :=
        describes_opened describes _
      exact ih orderly inside tracks mark
  | guarded body ih =>
      rw [Orderly] at orderly
      rw [Production.run, audit, Tally.mark, Segment.mark_onto]
      have start := describes_following describes tracks.proper
        (segment.flush.following (scope.around base)) rfl rfl
      rw [← Segment.around_following] at start
      have passes := ih orderly.2.2.1 start
        (Tally.flush_tracks ⟨segment.onto base, emitted⟩ tracks)
        (fun absurd => (Bool.false_ne_true absurd).elim)
      have same := orderly.2.2.1.run_is ordinary entries areRead resync start
        (proper_emptied tracks.proper) (fun absurd => (Bool.false_ne_true absurd).elim)
      obtain ⟨last, audited, tracks⟩ := passes
      simp only at audited ⊢
      rw [audited]
      generalize body.run resync run scope
        (segment.flush.emptied.onto (segment.flush.onto base).builder) = outcome at same tracks
      cases outcome with
      | done value state => exact ⟨last, rfl, tracks⟩
      | failed error state =>
          obtain ⟨later, recovers, tracks⟩ := Tally.recover_passes ⟨state, last⟩ resync
            ((segment.flush.onto base).builder.checkpoint segment.flush.cursor.current.span.start)
            segment.flush.cursor.position error tracks (same.depth_le rfl)
          refine ⟨later, ?_, tracks⟩
          exact congrArg (Option.bind · (Audited.done ())) recovers
  | repeatedly body ih =>
      rw [Orderly] at orderly
      rw [Production.run, audit]
      have reads := orderly.sound ordinary entries resync describes tracks.proper
      have index (marked : marked = true) : scope.mark.index = base.top.latest.length :=
        (mark marked).1
      refine Audited.iterate_passes (fun state => ∃ later : Segment, state = later.onto base ∧
        BeforeRound allowed body marked after (scope.around base) segment origin later)
        (ih orderly describes tracks mark) ?_ ?_ ?_ _
      · intro later goesOn
        exact (orderly.run_is ordinary entries areRead resync describes tracks.proper index).ends
          (first_round reads) goesOn
      · rintro state emitted ⟨later, rfl, continues, covered, rounds, -, described⟩ tracks
        exact ih (rounds _) described tracks mark
      · rintro state next ⟨later, rfl, continues, covered, rounds, ended, described⟩ goesOn
        have proper := continues.proper tracks.proper
        exact ((rounds _).run_is ordinary entries areRead resync described proper index).ends
          (further_round ((rounds _).sound ordinary entries resync described proper) continues rounds
            ended) goesOn
  | enter entry => exact pass entry scope base segment emitted tracks

end Production

/-! ### Sources -/

theorem auditEntry_passes (resync : Bool) (depth : Nat) :
    EntriesPass significant (runEntry resync depth) (auditEntry significant resync depth) := by
  induction depth with
  | zero => exact fun entry scope base segment emitted tracks => ⟨emitted, rfl, tracks⟩
  | succ depth ih =>
      intro entry scope base segment emitted tracks
      have covers : (Production.ofEntry entry).Covers (· ≠ .deprecatedDirective) false
          (Place.mk (segment.view (scope.around base)) .nothing) := Production.covers_ofEntry entry
      exact covers.audit_passes (fun _ => id) (readEntry_covers resync depth)
        (runEntry_is resync depth) ih resync (Production.describes_start segment _) tracks
        (fun absurd => (Bool.false_ne_true absurd).elim)

theorem auditParsed_eq (resync : Bool) (size : Nat) (tokens : List Token) :
    auditParsed (significantFrom 0 tokens tokens) resync ⟨.initial size tokens, 0⟩ =
      some ((ParserState.initial size tokens).parsed resync) := by
  have passes : (Production.sourceFile.audit (significantFrom 0 tokens tokens) resync
      (auditEntry (significantFrom 0 tokens tokens) resync (ParserState.initial size tokens).nesting)
      .outermost ⟨.initial size tokens, 0⟩).Passes (significantFrom 0 tokens tokens)
      (Production.sourceFile.run resync
        (runEntry resync (ParserState.initial size tokens).nesting) .outermost
        (.initial size tokens)) :=
    (Production.sourceFile_orderly _).audit_passes (fun _ => id) (readEntry_covers resync _)
      (runEntry_is resync _) (auditEntry_passes resync _) resync
      (Production.describes_start (Segment.initial size tokens)
        (Scope.outermost.around (.new .sourceFile)))
      (Tally.tracks_initial size tokens) (fun absurd => (Bool.false_ne_true absurd).elim)
  obtain ⟨emitted, audited, -⟩ := passes
  unfold auditParsed ParserState.parsed
  rw [audited]
  cases Production.sourceFile.run resync
    (runEntry resync (ParserState.initial size tokens).nesting) .outermost
    (.initial size tokens) <;> rfl

/-- No check of the lexer, the token cursor or the builder fails, whatever the source. -/
theorem parse_passes_audit (options : ParseOptions) (source : List Char) :
    auditParse options source = some (parse options source) := by
  rw [auditParse, auditLex_eq]
  simp only [Option.bind_eq_bind, Option.bind_some, auditParsed_eq]
  rfl

end JaiSyntax
