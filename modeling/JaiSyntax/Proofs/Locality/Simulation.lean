import JaiSyntax.Proofs.Locality.Soundness
/-!
Local productions are read alike. From an outlook that describes a segment of a source and the same
segment of a longer one, a local production reads the same in both, and ends where it was said to end.
-/

set_option autoImplicit false

namespace JaiSyntax

variable {embedding : Embedding} {horizon : Horizon} {setting : Setting} {origin size : Nat}
  {around other : Surroundings} {left right : Segment}

namespace Surroundings.Embedded

theorem within (places : around.Embedded embedding setting other) (context : Context) :
    Surroundings.Embedded embedding setting { around with context := context }
      { other with context := context } :=
  ⟨rfl, places.position, places.opener⟩

/-- Inside a node no mark was set. -/
theorem first (places : around.Embedded embedding setting other) :
    around.first.Embedded embedding setting.inside other.first :=
  ⟨places.context, fun absurd => (Bool.false_ne_true absurd).elim, places.opener⟩

theorem following (places : around.Embedded embedding setting other)
    (earlier otherEarlier : Segment) :
    (earlier.following around).Embedded embedding setting.inside (otherEarlier.following other) :=
  ⟨places.context, fun absurd => (Bool.false_ne_true absurd).elim, places.opener⟩

/-- A mark is set at the same token. -/
theorem marked (places : around.Embedded embedding setting other)
    (embedded : left.Embedded embedding horizon false right) :
    Surroundings.Embedded embedding { setting with marked := true } (left.flush.atMark around)
      (right.flush.atMark other) := by
  refine ⟨places.context, fun _ => ?_, places.opener⟩
  exact congrArg (fun token : Token => token.span.start) embedded.flush.cursor.current

/-- A brace is opened at the same token. -/
theorem opened (places : around.Embedded embedding setting other)
    (embedded : left.Embedded embedding horizon false right) :
    Surroundings.Embedded embedding { setting with braced := true }
      { around with opener := left.cursor.current.span }
      { other with opener := right.cursor.current.span } :=
  ⟨places.context, places.position, fun _ => congrArg Token.span embedded.cursor.current⟩

end Surroundings.Embedded

namespace Outlook.Describes

variable {outlook reached : Outlook horizon} {inner otherInner : Segment}

theorem within (describes : outlook.Describes embedding origin size around other left right)
    (context : Context) :
    (outlook.withContext context).Describes embedding origin size { around with context := context }
      { other with context := context } left right := by
  refine ⟨?_, describes.embedded, describes.taken, describes.size, describes.lastNode⟩
  exact congrArg (fun view : View => view.withContext context) describes.view

/-- The place at the start of a segment of its own, with surroundings of its own. -/
theorem following (describes : outlook.Describes embedding origin size around other left right)
    (notPast : outlook.past = false) (inside otherInside : Surroundings)
    (context : inside.context = around.context)
    (before : inside.before = lastKindAfter around.before left.flush.latest)
    (otherBefore : otherInside.before = lastKindAfter other.before right.flush.latest) :
    outlook.Describes embedding origin size inside otherInside left.flush.emptied
      right.flush.emptied := by
  have embedded := describes.embedded
  rw [notPast] at embedded
  refine ⟨describes.view.trans
      (Segment.view_following embedded.leftProper context before).symm,
    notPast ▸ embedded.flush.emptied, describes.taken, describes.size,
    fun settled => ?_⟩
  change otherInside.before = inside.before
  rw [before, otherBefore, Segment.lastKindAfter_flush embedded.leftProper,
    Segment.lastKindAfter_flush embedded.rightProper]
  exact describes.lastNode settled

/-- The place after a segment of its own. -/
theorem joined (describes : outlook.Describes embedding origin size around other left right)
    (notPast : outlook.past = false) (inside otherInside : Surroundings)
    (context : inside.context = around.context)
    (before : inside.before = lastKindAfter around.before left.flush.latest)
    (otherBefore : otherInside.before = lastKindAfter other.before right.flush.latest)
    (described : reached.Describes embedding origin size inside otherInside inner otherInner) :
    reached.Describes embedding origin size around other (inner.after left.flush)
      (otherInner.after right.flush) := by
  have embedded := describes.embedded
  rw [notPast] at embedded
  refine ⟨described.view.trans (Segment.view_after inner inside left.flush context before).symm,
    described.embedded.after embedded.flush.latest, described.taken, described.size,
    fun settled => ?_⟩
  simp only [Segment.after, Segment.lastKindAfter_append, ← before, ← otherBefore]
  exact described.lastNode settled

/-- The place inside a node that was just opened. -/
theorem inside (describes : outlook.Describes embedding origin size around other left right)
    (notPast : outlook.past = false) :
    (outlook.withLast none true).Describes embedding origin size around.first other.first
      left.flush.emptied right.flush.emptied := by
  have embedded := describes.embedded
  rw [notPast] at embedded
  refine ⟨?_, ?_, describes.taken, describes.size, fun _ => rfl⟩
  · exact congrArg (fun view : View => view.withLast none) describes.view
  · exact notPast ▸ embedded.flush.emptied

/-- The place after a node that was opened and closed. -/
theorem closed (describes : outlook.Describes embedding origin size around other left right)
    (notPast : outlook.past = false) {kind : NodeKind} (ordinary : kind ≠ .deprecatedDirective)
    (described : reached.Describes embedding origin size around.first other.first inner otherInner) :
    (reached.withLast (some kind) true).Describes embedding origin size around other
      ((inner.enclosed kind left.flush.cursor.current.span.start).after left.flush)
      ((otherInner.enclosed kind right.flush.cursor.current.span.start).after right.flush) := by
  have embedded := describes.embedded
  rw [notPast] at embedded
  refine ⟨?_, ?_, described.taken, described.size, fun _ => ?_⟩
  · rw [Production.view_enclosed ordinary inner _ _ around around.first rfl, ← described.view]
    rfl
  · refine (described.embedded.enclosed kind ?_).after embedded.flush.latest
    exact congrArg (fun token : Token => token.span.start) embedded.flush.cursor.current
  · rw [Segment.after, Segment.after, Segment.enclosed, Segment.enclosed, List.singleton_append,
      List.singleton_append, Production.lastKindAfter_enclosed ordinary _ _ rfl,
      Production.lastKindAfter_enclosed ordinary _ _ rfl]

/-- The brace that was opened last is in no view. -/
theorem brace (describes : outlook.Describes embedding origin size around other left right)
    (opener otherOpener : Span) :
    outlook.Describes embedding origin size { around with opener := opener }
      { other with opener := otherOpener } left right :=
  ⟨describes.view, describes.embedded, describes.taken, describes.size, describes.lastNode⟩

/-- The place inside a node around everything since the mark. -/
theorem wrapped (describes : outlook.Describes embedding origin size around other left right) :
    (outlook.withLast (lastKindAfter none left.latest) true).Describes embedding origin size
      around.first other.first left right := by
  refine ⟨?_, describes.embedded, describes.taken, describes.size, fun _ => ?_⟩
  · exact congrArg (fun view : View => view.withLast _) describes.view
  · rw [describes.embedded.latest]
    exact lastKindAfter_shift none left.latest

/-- The place after a node around everything since the mark. -/
theorem enclosed (described : reached.Describes embedding origin size around.first other.first inner
      otherInner) {kind : NodeKind} (ordinary : kind ≠ .deprecatedDirective)
    {position otherPosition : Nat} (places : otherPosition = position + embedding.offset) :
    (reached.withLast (some kind) true).Describes embedding origin size around other
      (inner.enclosed kind position) (otherInner.enclosed kind otherPosition) := by
  refine ⟨?_, described.embedded.enclosed kind places, described.taken, described.size,
    fun _ => ?_⟩
  · have alone : (inner.enclosed kind position).after inner.emptied =
        inner.enclosed kind position := rfl
    rw [← alone, Production.view_enclosed ordinary inner _ _ around around.first rfl,
      ← described.view]
    rfl
  · rw [Segment.enclosed, Segment.enclosed, Production.lastKindAfter_enclosed ordinary _ _ rfl,
      Production.lastKindAfter_enclosed ordinary _ _ rfl]

end Outlook.Describes

theorem Stops.after {start : Outlook horizon} {earlier otherEarlier : Segment}
    (stops : Stops embedding origin size start left right)
    (before : otherEarlier.latest = earlier.latest.map (Child.shift embedding.offset)) :
    Stops embedding origin size start (left.after earlier) (right.after otherEarlier) := by
  obtain ⟨embedded, further⟩ := stops
  exact ⟨embedded.after before, further⟩

/-- A segment that was recovered ends with its error node. -/
theorem Segment.lastKindAfter_recovered (segment earlier : Segment) (around : Surroundings)
    (error : SyntaxError) (count : Nat) (before : Option NodeKind) :
    lastKindAfter before ((segment.recovered around error count).after earlier).latest =
      some .error := by
  have ordinary : NodeKind.error ≠ .deprecatedDirective := by decide
  exact Production.lastKindAfter_enclosed ordinary before _ rfl earlier.latest

/-- Skipping a token moves on. -/
theorem Segment.position_recovered {segment : Segment} (proper : segment.cursor.Proper)
    (more : segment.cursor.ahead ≠ []) {count : Nat} (some : 1 ≤ count) (around : Surroundings)
    (error : SyntaxError) :
    segment.cursor.position < (segment.recovered around error count).cursor.position := by
  have cleared : (segment.mapLatest (List.map (Child.withField none))).cursor.Proper := proper
  exact Segment.position_bumps cleared more some

/-- The place after a segment that failed and was recovered. -/
theorem Outlook.Describes.recovered {outlook : Outlook horizon} {later otherLater : Segment}
    {error : SyntaxError} {after : Unit → Outlook horizon → Prop}
    (describes : outlook.Describes embedding origin size around other left right)
    (notPast : outlook.past = false) (resync : Bool)
    (places : around.Embedded embedding setting other)
    (stops : Stops embedding origin size outlook later otherLater)
    (near : horizon = .statement → error.span.start < embedding.bound)
    (ends : ∀ reached : Outlook horizon, outlook.taken ≤ reached.taken →
      (outlook.view.kind.isSolid = true → outlook.taken < reached.taken) →
      reached.settled = true → after () reached) :
    (Reading.done ()
      ((later.recover resync (left.flush.atMark around) left.flush.cursor.position error).after
        left.flush)).Embedded embedding horizon
      (Reaches embedding origin size around other outlook after)
      (Stops embedding origin size outlook)
      (Reading.done ()
        ((otherLater.recover resync (right.flush.atMark other) right.flush.cursor.position
          (error.shift embedding.offset)).after right.flush)) := by
  have embedded := describes.embedded
  rw [notPast] at embedded
  obtain ⟨stopped, taken, least, kind, position, total⟩ := stops
  obtain ⟨count, past, some, leftRecovers, rightRecovers, recovered⟩ := stopped.recover resync
    left.flush.cursor.position (places.marked embedded) rfl near
  rw [embedded.flush.position, leftRecovers, rightRecovers]
  have continues := Segment.continues_recovered (left.flush.atMark around) error count
    stopped.leftProper
  have joined := recovered.after embedded.flush.latest
  have start : left.flush.cursor.position = origin + outlook.taken := describes.taken
  have moved := continues.position_le
  have kept := continues.position
  obtain ⟨further, same⟩ : ∃ further,
      (later.recovered (left.flush.atMark around) error count).cursor.position =
        origin + outlook.taken + further :=
    Nat.exists_eq_add_of_le (by omega)
  have consumed : outlook.view.kind.isSolid = true → 0 < further := by
    intro solid
    obtain ⟨notSemicolon, notEnd⟩ := TokenKind.isSolid_iff.mp solid
    rcases Nat.lt_or_eq_of_le least with before | still
    · omega
    · -- Nothing was consumed, so the current token is skipped.
      have here := kind still.symm
      have more : later.cursor.ahead ≠ [] := by
        intro none
        have ended := stopped.leftProper.isAtEnd_iff.mpr none
        exact notEnd (here.symm.trans (eq_of_beq ended))
      have stuck : later.isStuck left.flush.cursor.position = true := by
        simp [Segment.isStuck, TokenCursor.isAtEnd, here, notSemicolon, notEnd, start, position,
          still]
      have skipped := Segment.position_recovered stopped.leftProper more (some stuck)
        (left.flush.atMark around) error
      omega
  let reached : Outlook horizon :=
    ⟨_, outlook.taken + further, past, true, joined.fits around⟩
  have before : outlook.Precedes reached := by
    refine ⟨Nat.le_add_right _ _, fun still => ?_⟩
    change outlook.taken + further = outlook.taken at still
    have current := continues.current_eq (by omega)
    exact (congrArg Token.kind current).trans (kind (by omega))
  refine ⟨rfl, reached, ⟨rfl, joined, ?_, ?_, fun _ => ?_⟩, before,
    ends reached (Nat.le_add_right _ _) (fun solid => Nat.lt_add_of_pos_right (consumed solid)) rfl⟩
  · exact same.trans (Nat.add_assoc _ _ _)
  · change outlook.taken + further +
      (later.recovered (left.flush.atMark around) error count).cursor.ahead.length = size
    omega
  · rw [Segment.lastKindAfter_recovered, Segment.lastKindAfter_recovered]

namespace Production

variable {enter otherEnter : Entry → Surroundings → Segment → Reading Unit} {budget : Nat}

/-- A local production reads the same inside the longer source. -/
theorem Local.sound {α : Type} {production : Production α} {after : α → Outlook horizon → Prop}
    {start : Outlook horizon} (isLocal : production.Local horizon setting after start)
    (entries : EntriesEmbedded embedding horizon budget enter otherEnter) (resync : Bool)
    (places : around.Embedded embedding setting other)
    (describes : start.Describes embedding origin size around other left right)
    (enough : 3 * size + setting.limit ≤ budget) :
    (production.read resync enter around left).Embedded embedding horizon
      (Reaches embedding origin size around other start after)
      (Stops embedding origin size start)
      (production.read resync otherEnter other right) := by
  induction production generalizing setting start around other left right with
  | pure value => exact ⟨rfl, start, describes, .refl start, isLocal⟩
  | bind first next ihFirst ihNext =>
      rw [Local] at isLocal
      rw [read, read]
      refine (ihFirst isLocal places describes enough).andThen ?_
      rintro value reached otherReached ⟨there, described, before, further⟩
      exact (ihNext value further places described enough).weaken
        (fun _ _ _ reaches => reaches.weaken before (fun _ => id))
        (fun _ _ stops => stops.weaken before)
  | look seen =>
      rw [Local] at isLocal
      obtain ⟨shows, ended⟩ := isLocal
      have same := shows _ (describes.agrees places.context)
      rw [read, read, same, describes.view]
      exact ⟨rfl, start, describes, .refl start, describes.view ▸ ended⟩
  | act move =>
      rw [Local] at isLocal
      exact ⟨rfl, describes.apply places isLocal⟩
  | refuse complaint =>
      rw [Local] at isLocal
      have embedded := describes.embedded
      rw [isLocal.1] at embedded
      refine ⟨embedded.errorOf isLocal.2 places, embedded.errorOf_near isLocal.2, embedded,
        start.taken, Nat.le_refl _, fun _ => ?_, describes.taken, describes.size⟩
      rw [describes.view]
      rfl
  | within change body ih =>
      rw [Local] at isLocal
      rw [read, read, places.context]
      have context : start.view.context = around.context := by
        rw [describes.view]
        rfl
      rw [context] at isLocal
      have inner := ih isLocal (places.within (change around.context))
        (describes.within (change around.context)) enough
      refine inner.weaken ?_ (fun _ _ stops => stops)
      rintro value later otherLater ⟨reached, described, before, ended⟩
      have back := described.within around.context
      have same : { other with context := around.context } = other := by
        rw [← places.context]
      rw [same] at back
      exact ⟨reached.withContext around.context, back, ⟨before.taken, before.kind⟩, ended⟩
  | node kind body ih =>
      rw [Local] at isLocal
      obtain ⟨notPast, ordinary, inner⟩ := isLocal
      have embedded := describes.embedded
      rw [notPast] at embedded
      rw [read, read, Reading.embedded_after, Reading.embedded_enclosed]
      refine (ih inner places.first (describes.inside notPast) enough).weaken ?_
        (fun _ _ stops => stops.after embedded.flush.latest)
      rintro value later otherLater ⟨reached, described, before, ended⟩
      exact ⟨_, describes.closed notPast ordinary described, ⟨before.taken, before.kind⟩, ended⟩
  | marked body ih =>
      rw [Local] at isLocal
      obtain ⟨notPast, inner⟩ := isLocal
      have embedded := describes.embedded
      rw [notPast] at embedded
      rw [read, read, Reading.embedded_after]
      have start := describes.following notPast (left.flush.atMark around)
        (right.flush.atMark other) rfl rfl rfl
      refine (ih inner (places.marked embedded) start enough).weaken ?_
        (fun _ _ stops => stops.after embedded.flush.latest)
      rintro value later otherLater ⟨reached, described, before, ended⟩
      have back := describes.joined notPast (left.flush.atMark around)
        (right.flush.atMark other) rfl rfl rfl described
      exact ⟨reached, back, before, ended⟩
  | wrap kind body ih =>
      rw [Local] at isLocal
      obtain ⟨marked, ordinary, inner⟩ := isLocal
      rw [read, read, Reading.embedded_enclosed]
      refine (ih (inner _) places.first describes.wrapped enough).weaken ?_ (fun _ _ stops => stops)
      rintro value later otherLater ⟨reached, described, before, ended⟩
      exact ⟨_, described.enclosed ordinary (describes.embedded.start places marked),
        ⟨before.taken, before.kind⟩, ended⟩
  | opened body ih =>
      rw [Local] at isLocal
      obtain ⟨notPast, inner⟩ := isLocal
      have embedded := describes.embedded
      rw [notPast] at embedded
      rw [read, read]
      refine (ih inner (places.opened embedded) (describes.brace _ _) enough).weaken ?_
        (fun _ _ stops => stops)
      rintro value later otherLater ⟨reached, described, before, ended⟩
      exact ⟨reached, described.brace _ _, before, ended⟩
  | guarded body ih =>
      rw [Local] at isLocal
      obtain ⟨notPast, inner, further⟩ := isLocal
      have embedded := describes.embedded
      rw [notPast] at embedded
      have begun := describes.following notPast (left.flush.following around)
        (right.flush.following other) rfl rfl rfl
      have tried := ih inner (places.following left.flush right.flush) begun enough
      rw [read, read]
      generalize body.read resync enter (left.flush.following around) left.flush.emptied = first
        at tried
      generalize body.read resync otherEnter (right.flush.following other) right.flush.emptied =
        second at tried
      cases first with
      | done value later =>
          cases second with
          | failed error otherLater => cases tried
          | done same otherLater =>
              obtain ⟨-, reached, described, before, moved, settled⟩ := tried
              have back := describes.joined notPast (left.flush.following around)
                (right.flush.following other) rfl rfl rfl described
              exact ⟨rfl, reached, back, before,
                further reached before.taken (fun _ => moved) settled⟩
      | failed error later =>
          cases second with
          | done same otherLater => cases tried
          | failed same otherLater =>
              obtain ⟨rfl, near, stops⟩ := tried
              exact describes.recovered notPast resync places stops near further
  | repeatedly body ih =>
      rw [Local] at isLocal
      obtain ⟨holds, held, rounds⟩ := isLocal
      rw [read, read]
      have embedded := describes.embedded
      rw [(rounds start held).1] at embedded
      exact iterate_embedded (fun outlook _ _ held described =>
          ih (rounds outlook held).2 places described enough)
        held (.refl start) describes (Nat.le_refl _) embedded.cursor.length_le
  | enter entry =>
      rw [Local] at isLocal
      obtain ⟨notPast, ranked, further⟩ := isLocal
      have rank : entry.rank ≤ 2 := by cases entry <;> simp [Entry.rank]
      have total := describes.size
      refine (entries entry start notPast places.context describes (by omega)).weaken ?_
        (fun _ _ stops => stops)
      rintro value later otherLater ⟨reached, described, before, moved, settled, past, ended⟩
      exact ⟨reached, described, before, further reached moved settled past ended⟩

end Production

end JaiSyntax
