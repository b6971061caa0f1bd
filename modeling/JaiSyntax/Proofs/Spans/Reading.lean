import JaiSyntax.Proofs.Reading.Source
import JaiSyntax.Proofs.Spans.Snug
/-!
What is read is snug. A segment that starts right before a token starts with something significant, an
orderly production ends its nodes with something significant, and so every node it closes is snug. The
nodes of errors start like the segments that failed and may end with any extra.
-/

set_option autoImplicit false

namespace JaiSyntax

structure TokenCursor.Closed (cursor : TokenCursor) : Prop where
  gap : ∀ extra ∈ cursor.gap, extra.IsClosed
  gaps : ∀ stop ∈ cursor.ahead, ∀ extra ∈ stop.gap, extra.IsClosed

namespace TokenCursor.Closed

variable {cursor : TokenCursor}

theorem withoutGap (closed : cursor.Closed) : TokenCursor.Closed { cursor with gap := [] } :=
  ⟨List.forall_mem_nil _, closed.gaps⟩

theorem advance (closed : cursor.Closed) : cursor.advance.2.Closed := by
  unfold TokenCursor.advance
  cases same : cursor.ahead with
  | nil => exact closed
  | cons stop rest =>
      obtain ⟨first, further⟩ := List.forall_mem_cons.mp (same ▸ closed.gaps)
      exact ⟨first, further⟩

end TokenCursor.Closed

/-- A segment with snug nodes. A `fresh` one started right before the token of number `origin`, so that
what was read first is significant, and a segment without children has not moved on. -/
structure Segment.IsSnug (fresh : Prop) (origin : Nat) (segment : Segment) : Prop where
  nodes : ∀ child ∈ segment.latest, child.Throughout Node.IsSnug
  first : fresh → ∀ child ∈ segment.latest.getLast?, child.isSignificant = true
  start : fresh → segment.latest = [] →
    segment.cursor.gap = [] ∧ segment.cursor.position = origin
  closed : segment.cursor.Closed

theorem getLast?_replaceLastSignificant {change : Child → List Child} {latest : List Child}
    (kept : ∀ child ∈ latest, child.isSignificant = true →
      (change child).head?.map Child.isSignificant = some true)
    (first : latest.getLast?.map Child.isSignificant = some true) :
    (replaceLastSignificant change latest).getLast?.map Child.isSignificant = some true := by
  induction latest with
  | nil => cases first
  | cons child earlier ih =>
      obtain ⟨own, others⟩ := List.forall_mem_cons.mp kept
      rw [replaceLastSignificant]
      by_cases none : earlier = []
      · subst none
        have significant : child.isSignificant = true := Option.some_inj.mp first
        rw [if_pos significant, List.append_nil, List.getLast?_reverse]
        exact own significant
      · rw [List.getLast?_cons_of_ne_nil none] at first
        have later := ih others first
        have some : replaceLastSignificant change earlier ≠ [] := by
          intro absurd
          rw [absurd] at later
          cases later
        split
        · rw [List.getLast?_append_of_ne_nil _ none]
          exact first
        · rw [List.getLast?_cons_of_ne_nil some]
          exact later

namespace Segment.IsSnug

variable {fresh : Prop} {origin : Nat} {segment inner : Segment}

/-- Children put in front of a segment. A fresh segment without children starts with them. -/
theorem prepend (snug : segment.IsSnug fresh origin) {later : Segment} {front : List Child}
    (same : later.latest = front ++ segment.latest)
    (nodes : ∀ child ∈ front, child.Throughout Node.IsSnug) (closed : later.cursor.Closed)
    (first : fresh → segment.latest = [] → ∀ child ∈ front.getLast?, child.isSignificant = true)
    (start : fresh → segment.latest = [] → front = [] →
      later.cursor.gap = [] ∧ later.cursor.position = origin) : later.IsSnug fresh origin := by
  refine ⟨?_, fun own child member => ?_, fun own none => ?_, closed⟩
  · rw [same]
    exact List.forall_mem_append.mpr ⟨nodes, snug.nodes⟩
  · rw [same] at member
    by_cases none : segment.latest = []
    · rw [none, List.append_nil] at member
      exact first own none child member
    · rw [List.getLast?_append_of_ne_nil _ none] at member
      exact snug.first own child member
  · rw [same] at none
    obtain ⟨noFront, noLatest⟩ := List.append_eq_nil_iff.mp none
    exact start own noLatest noFront

theorem flush (snug : segment.IsSnug fresh origin) : segment.flush.IsSnug fresh origin := by
  refine snug.prepend rfl ?_ snug.closed.withoutGap ?_ ?_
  · intro child member
    rw [List.mem_reverse, List.mem_map] at member
    obtain ⟨extra, inGap, rfl⟩ := member
    exact (snug.closed.gap extra inGap).snug
  · intro own none child member
    rw [(snug.start own none).1] at member
    cases member
  · exact fun own none _ => ⟨rfl, (snug.start own none).2⟩

theorem bumpAs (snug : segment.IsSnug fresh origin) (proper : segment.cursor.Proper)
    {change : Token → Token}
    (kept : segment.cursor.isAtEnd = false →
      (change segment.cursor.current).kind.isExtra = false) :
    (segment.bumpAs change).IsSnug fresh origin := by
  cases ended : segment.cursor.isAtEnd with
  | true =>
      rw [bumpAs_of_end ended]
      exact snug.flush
  | false =>
      have cursor : (segment.bumpAs change).cursor = segment.flush.cursor.advance.2 := by
        rw [cursor_bumpAs, ended]
        rfl
      have significant :
          (Child.leaf none (change segment.cursor.current)).isSignificant = true := by
        rw [Child.isSignificant, kept ended]
        rfl
      have bumped : (segment.bumpAs change).latest =
          [.leaf none (change segment.cursor.current)] ++ segment.flush.latest :=
        latest_bumpAs proper ended change
      refine snug.flush.prepend bumped (List.forall_mem_singleton.mpr (throughout_leaf none _))
        (cursor ▸ snug.closed.withoutGap.advance) (fun _ _ child member => ?_)
        (fun _ _ absurd => (List.cons_ne_nil _ _ absurd).elim)
      cases member
      exact significant

theorem bump (snug : segment.IsSnug fresh origin) (proper : segment.cursor.Proper) :
    segment.bump.IsSnug fresh origin :=
  snug.bumpAs proper (current_significant proper)

theorem bumps (snug : segment.IsSnug fresh origin) (proper : segment.cursor.Proper) (count : Nat) :
    (segment.bumps count).IsSnug fresh origin := by
  induction count generalizing segment with
  | zero => exact snug
  | succ count ih => exact ih (snug.bump proper) ((continues_bump proper).proper proper)

theorem mapLast (snug : segment.IsSnug fresh origin) {change : Child → List Child}
    (nodes : ∀ child, child.Throughout Node.IsSnug →
      ∀ part ∈ change child, part.Throughout Node.IsSnug)
    (kept : ∀ child, child.Throughout Node.IsSnug → child.isSignificant = true →
      (change child).head?.map Child.isSignificant = some true)
    (some : segment.latest.any Child.isSignificant = true) :
    (segment.mapLatest (replaceLastSignificant change)).IsSnug fresh origin := by
  have more : segment.latest ≠ [] := by
    intro none
    rw [none] at some
    cases some
  have changed : fresh → (replaceLastSignificant change segment.latest).getLast?.map
      Child.isSignificant = .some true := by
    intro own
    have keeps : ∀ child ∈ segment.latest, child.isSignificant = true →
        (change child).head?.map Child.isSignificant = .some true :=
      fun child inside => kept child (snug.nodes child inside)
    refine getLast?_replaceLastSignificant keeps ?_
    have first := snug.first own
    rw [List.getLast?_eq_getLast_of_ne_nil more] at first ⊢
    exact congrArg Option.some (first _ rfl)
  refine ⟨forall_replaceLastSignificant snug.nodes nodes, fun own child member => ?_,
    fun own none => ?_, snug.closed⟩
  · have last := changed own
    change child ∈ (replaceLastSignificant change segment.latest).getLast? at member
    rw [Option.mem_def.mp member] at last
    exact Option.some_inj.mp last
  · have last := changed own
    change replaceLastSignificant change segment.latest = [] at none
    rw [none] at last
    cases last

theorem emptied (snug : segment.IsSnug fresh origin) :
    segment.flush.emptied.IsSnug True segment.cursor.position :=
  ⟨List.forall_mem_nil _, nofun, fun _ _ => ⟨rfl, rfl⟩, snug.closed.withoutGap⟩

theorem after (snug : segment.IsSnug fresh origin)
    (further : inner.IsSnug True segment.cursor.position) :
    (inner.after segment.flush).IsSnug fresh origin := by
  refine snug.flush.prepend rfl further.nodes further.closed (fun _ _ => further.first trivial) ?_
  intro own none noneInner
  have start := further.start trivial noneInner
  have earlier := (snug.flush.start own none).2
  exact ⟨start.1, start.2.trans earlier⟩

/-- A node around everything in a fresh segment. -/
theorem enclosed (snug : segment.IsSnug fresh origin) (own : fresh) {kind : NodeKind}
    (some : segment.latest ≠ []) (ordinary : kind ≠ .deprecatedDirective)
    (tight : kind ≠ .error → segment.Tight) (position : Nat) :
    (segment.enclosed kind position).IsSnug fresh origin := by
  have node : (Node.build kind segment.latest.reverse position).IsSnug := by
    refine Node.isSnug_build ?_ (fun sound => ?_)
    · have first := snug.first own
      rw [List.head?_reverse]
      rw [List.getLast?_eq_getLast_of_ne_nil some] at first ⊢
      exact congrArg Option.some (first _ rfl)
    · obtain ⟨child, earlier, same, significant⟩ := tight sound
      rw [List.getLast?_reverse, same]
      exact congrArg Option.some significant
  refine ⟨List.forall_mem_singleton.mpr (throughout_build node snug.nodes),
    fun _ child member => ?_, nofun, snug.closed⟩
  cases member
  simpa [Child.ofNode, Child.isSignificant, Node.build] using ordinary

theorem withoutFields (snug : segment.IsSnug fresh origin) :
    (segment.mapLatest (List.map (Child.withField none))).IsSnug fresh origin := by
  refine ⟨fun child member => ?_, fun own child member => ?_, fun own none => ?_, snug.closed⟩
  · obtain ⟨before, inside, rfl⟩ := List.mem_map.mp member
    exact throughout_withField.mpr (snug.nodes before inside)
  · change child ∈ (segment.latest.map (Child.withField none)).getLast? at member
    rw [List.getLast?_map] at member
    obtain ⟨before, last, rfl⟩ := Option.map_eq_some_iff.mp member
    rw [isSignificant_withField]
    exact snug.first own before last
  · exact snug.start own (List.map_eq_nil_iff.mp none)

theorem report (snug : segment.IsSnug fresh origin) (errors : List SyntaxError) :
    IsSnug fresh origin { segment with reported := errors } :=
  ⟨snug.nodes, snug.first, snug.start, snug.closed⟩

/-- The error node around a segment that moved on in the end. -/
theorem recover (snug : segment.IsSnug fresh origin) (own : fresh) (proper : segment.cursor.Proper)
    (resync : Bool) (around : Surroundings) (position : Nat) (error : SyntaxError)
    (moved : (segment.recover resync around position error).cursor.position ≠ origin) :
    (segment.recover resync around position error).IsSnug fresh origin := by
  obtain ⟨count, -, recovers, -⟩ := recover_alone (.refl segment.cursor) resync position
  rw [(recovers around error).1] at moved ⊢
  have skipped := snug.withoutFields.bumps
    (show (segment.mapLatest (List.map (Child.withField none))).cursor.Proper from proper) count
  -- A segment without children has not moved on.
  have some : Segment.latest _ ≠ [] := fun none => moved (skipped.start own none).2
  exact (skipped.enclosed own some (by decide) (fun sound => (sound rfl).elim) _).report _

end Segment.IsSnug

theorem Segment.apply_snug {fresh : Prop} {around : Surroundings} {segment : Segment}
    {place : Place} {after : Place → Prop} {move : Move} {origin number : Nat}
    (permits : place.Permits after move) (describes : place.Describes around segment origin)
    (proper : segment.cursor.Proper) (snug : segment.IsSnug fresh number) :
    (segment.apply around move).IsSnug fresh number := by
  cases move with
  | bump => exact snug.bump proper
  | bumpKeyword =>
      have kept : (segment.bumpAs (fun token => token.retag .keyword)).IsSnug fresh number :=
        snug.bumpAs proper (fun _ => rfl)
      exact kept
  | tag field =>
      refine snug.mapLast (fun child all => ?_) (fun child _ significant => ?_)
        (describes.covered.some permits.1).1
      · exact List.forall_mem_singleton.mpr (throughout_withField.mpr all)
      · exact congrArg some ((isSignificant_withField _ child).trans significant)
  | reinterpretLast =>
      refine snug.mapLast (fun child all => throughout_rereadLast snug_keptByReading all)
        (fun child _ significant => ?_) (describes.covered.some permits.1).1
      cases child with
      | leaf field token => exact congrArg some significant
      | branch field kind span children =>
          have ordinary : (Node.mk kind span children).kind ≠ .deprecatedDirective := by
            simpa [Child.isSignificant] using significant
          exact congrArg some (isSignificant_reinterpretAsType field ordinary)
  | spliceParameters =>
      refine snug.mapLast (fun child all => throughout_splicedLast snug_keptByReading all)
        (fun child all significant => ?_) (describes.covered.some permits.1).1
      cases child with
      | leaf field token => exact congrArg some significant
      | branch field kind span children =>
          change (Node.asParameterList ⟨kind, span, children⟩).head?.map Child.isSignificant = _
          rw [← List.head?_map, isSignificant_asParameterList, List.head?_map]
          exact (throughout_branch.mp all).1.first
  | report complaint => exact snug.report _

theorem Segment.Covered.ne_nil {segment : Segment} {origin : Nat}
    (covered : segment.Covered origin) : segment.latest ≠ [] := by
  intro none
  have some := covered.1
  rw [none] at some
  cases some

/-- A round of a loop that keeps something, besides what is known to hold before a further round. -/
theorem Reading.Satisfies.round {reading : Reading Bool} {keeps holds failed : Segment → Prop}
    {done : Unit → Segment → Prop} (kept : reading.Satisfies (fun _ => keeps) keeps)
    (ends : reading.Satisfies
      (fun goesOn later => if goesOn then holds later else done () later) failed) :
    reading.Satisfies
      (fun goesOn later => if goesOn then holds later ∧ keeps later else keeps later) keeps := by
  refine (kept.and ends).weaken ?_ (fun _ => And.left)
  rintro goesOn later ⟨kept, ended⟩
  cases goesOn with
  | false => exact kept
  | true => exact ⟨ended, kept⟩

def EntriesSnug (enter : Entry → Surroundings → Segment → Reading Unit) : Prop :=
  ∀ (entry : Entry) (around : Surroundings) (segment : Segment) (fresh : Prop) (number : Nat),
    segment.cursor.Proper → segment.IsSnug fresh number →
      (enter entry around segment).Satisfies (fun _ later => later.IsSnug fresh number)
        (fun later => later.IsSnug fresh number)

namespace Production

variable {allowed : NodeKind → Prop} {enter : Entry → Surroundings → Segment → Reading Unit}

/-- What an orderly production reads is snug. -/
theorem Orderly.snug {α : Type} {production : Production α} {marked : Bool}
    {after : α → Place → Prop} {place : Place}
    (orderly : production.Orderly allowed marked after place)
    (ordinary : ∀ kind, allowed kind → kind ≠ .deprecatedDirective) (entries : EntriesCover enter)
    (snugEntries : EntriesSnug enter) (resync : Bool) {around : Surroundings} {segment : Segment}
    {fresh : Prop} {origin number : Nat} (own : marked = true → fresh)
    (describes : place.Describes around segment origin) (proper : segment.cursor.Proper)
    (snug : segment.IsSnug fresh number) :
    (production.read resync enter around segment).Satisfies
      (fun _ later => later.IsSnug fresh number) (fun later => later.IsSnug fresh number) := by
  induction production generalizing marked place around segment fresh origin number with
  | pure value => exact snug
  | bind first next ihFirst ihNext =>
      rw [Orderly] at orderly
      rw [read]
      have sound := orderly.sound ordinary entries resync describes proper
      have reads := ((ihFirst orderly own describes proper snug).and sound).weaken
        (fun _ _ => id) (fun _ => And.left)
      refine reads.andThen ?_
      rintro value reached ⟨snugReached, continues, there, described, further⟩
      exact ihNext value further own described (continues.proper proper) snugReached
  | look seen => exact snug
  | act move =>
      rw [Orderly] at orderly
      exact Segment.apply_snug orderly describes proper snug
  | refuse complaint => exact snug
  | within change body ih =>
      rw [Orderly] at orderly
      exact ih orderly own (describes_within describes change) proper snug
  | node kind body ih =>
      rw [Orderly] at orderly
      rw [read]
      have inside := describes_inside describes
      have sound := orderly.2.sound ordinary entries resync inside (proper_emptied proper)
      have reads := ih orderly.2 (fun _ => trivial) inside (proper_emptied proper) snug.emptied
      refine Reading.satisfies_after.mpr (Reading.satisfies_enclosed.mpr ?_)
      refine (reads.and sound).weaken ?_ (fun inner both => snug.after both.1)
      rintro value inner ⟨snugInner, -, reached, described, covered, -⟩
      exact snug.after (snugInner.enclosed trivial (described.covered.covers covered).ne_nil
        (ordinary kind orderly.1) (fun _ => described.covered.tight covered) _)
  | marked body ih =>
      rw [Orderly] at orderly
      rw [read]
      refine Reading.satisfies_after.mpr ?_
      have start := describes_following describes proper (segment.flush.atMark around) rfl rfl
      exact (ih orderly (fun _ => trivial) start (proper_emptied proper) snug.emptied).weaken
        (fun _ _ => snug.after) (fun _ => snug.after)
  | wrap kind body ih =>
      rw [Orderly] at orderly
      obtain ⟨owned, permitted, orderly⟩ := orderly
      rw [read]
      have inside := describes_wrapped describes
      have sound := (orderly _).sound ordinary entries resync inside proper
      have reads := ih (orderly _) (fun _ => own owned) inside proper snug
      -- The mark is the segment's own, so the node starts where the segment does.
      refine Reading.satisfies_enclosed.mpr ((reads.and sound).weaken ?_ (fun _ => And.left))
      rintro value inner ⟨snugInner, -, reached, described, covered, -⟩
      exact snugInner.enclosed (own owned) (described.covered.covers covered).ne_nil
        (ordinary kind permitted) (fun _ => described.covered.tight covered) _
  | opened body ih =>
      rw [Orderly] at orderly
      exact ih orderly own (describes_opened describes _) proper snug
  | guarded body ih =>
      rw [Orderly] at orderly
      obtain ⟨notEnd, notSemicolon, orderly, -⟩ := orderly
      rw [describes.view, Segment.kind_view] at notEnd notSemicolon
      rw [read]
      have start := describes_following describes proper (segment.flush.following around) rfl rfl
      have sound := orderly.sound ordinary entries resync start (proper_emptied proper)
      have tried := (ih orderly (fun _ => trivial) start (proper_emptied proper) snug.emptied).and
        sound
      split
      · next inner same =>
          rw [same] at tried
          exact snug.after tried.1
      · next error inner same =>
          rw [same] at tried
          obtain ⟨snugInner, continues⟩ := tried
          obtain ⟨-, attains⟩ := recover_moves (segment.flush.atMark around) resync error continues
            proper notEnd notSemicolon
          have properInner := continues.proper (proper_emptied proper)
          exact snug.after (snugInner.recover trivial properInner resync _ _ _
            (Nat.ne_of_gt (attains.some rfl).2))
  | repeatedly body ih =>
      rw [Orderly] at orderly
      rw [read]
      have sound := first_round (orderly.sound ordinary entries resync describes proper)
      refine Reading.satisfies_iterate ((ih orderly own describes proper snug).round sound) ?_ ?_ _
      · rintro start ⟨⟨earlier, covered, rounds, ended, described⟩, snugStart⟩
        have properStart := earlier.proper proper
        have sound := further_round ((rounds _).sound ordinary entries resync described properStart)
          earlier rounds ended
        exact (ih (rounds _) own described properStart snugStart).round sound
      · exact fun later both => both.2
  | enter entry => exact snugEntries entry around segment fresh number proper snug

end Production

theorem readEntry_snug (resync : Bool) (depth : Nat) : EntriesSnug (readEntry resync depth) := by
  induction depth with
  | zero => exact fun entry around segment fresh number proper snug => snug
  | succ depth ih =>
      intro entry around segment fresh number proper snug
      have covers : (Production.ofEntry entry).Covers (· ≠ .deprecatedDirective) false
          (Place.mk (segment.view around) .nothing) := Production.covers_ofEntry entry
      exact covers.snug (fun _ => id) (readEntry_covers resync depth) ih resync nofun
        (Production.describes_start segment around) proper snug

theorem readSource_snug (resync : Bool) (source : List Char) :
    ∀ child ∈ (readSource resync source).latest, child.Throughout Node.IsSnug := by
  let start := Segment.initial (utf8Length source) (lex source).tokens
  have closed : start.cursor.Closed := by
    obtain ⟨gap, gaps⟩ := partTokens_closed (lex source).tokens (lex source).tokens
    exact ⟨gap, gaps⟩
  have snug : start.IsSnug False 0 := ⟨List.forall_mem_nil _, nofun, nofun, closed⟩
  have orderly : Production.sourceFile.Orderly (· ≠ .deprecatedDirective) false (fun _ _ => True)
      (Place.mk (start.view .outermost) .nothing) := Production.sourceFile_orderly _
  have reads := orderly.snug (fun _ => id) (readEntry_covers resync (nestingOf source))
    (readEntry_snug resync (nestingOf source)) resync nofun
    (Production.describes_start start .outermost) (TokenCursor.ofTokens_proper _ _) snug
  obtain ⟨last, done, -, -⟩ := sourceReading_done resync source
  unfold readSource
  rw [done]
  change (sourceReading resync source).Satisfies _ _ at reads
  rw [done] at reads
  exact reads.flush.nodes

end JaiSyntax
