import JaiSyntax.Proofs.Production.Canonical
import JaiSyntax.Proofs.Reading.Source
/-!
What a canonical production keeps. A relation between the segments before and after a part that single
moves, nodes and error nodes keep is kept by every production that opens its nodes as their kinds admit
it, and so by a whole source.
-/

set_option autoImplicit false

namespace JaiSyntax

/-- A relation between an earlier and a later segment that is kept by the steps of a reading, where what
becomes of a part that failed is a single step. What is known of a block and of a quick procedure is how its
inside was read. -/
structure Preserving (resync : Bool) (enter : Entry → Surroundings → Segment → Reading Unit)
    (keeps : Segment → Segment → Prop) : Prop where
  refl : ∀ segment, keeps segment segment
  trans : ∀ {first second third}, keeps first second → keeps second third → keeps first third
  apply : ∀ around (segment : Segment) move, move.Suits (segment.view around) →
    keeps segment (segment.apply around move)
  after : ∀ {segment inner : Segment}, keeps segment.flush.emptied inner →
    keeps segment (inner.after segment.flush)
  enclosed : ∀ {segment inner : Segment} {kind : NodeKind} (position : Nat),
    kind.isCommon = true → keeps segment inner → keeps segment (inner.enclosed kind position)
  token : ∀ {segment : Segment} (position : Nat), segment.cursor.Proper →
    segment.cursor.current.kind = .error → segment.cursor.gap = [] → segment.latest = [] →
    keeps segment (segment.bump.enclosed .error position)
  block : ∀ {around : Surroundings} {segment inner : Segment} (position : Nat),
    segment.cursor.Proper → segment.latest = [] →
    Production.bracedStatements.read resync enter around segment = .done () inner →
    keeps segment inner → keeps segment (inner.enclosed .block position)
  quick : ∀ {around : Surroundings} {segment inner : Segment} {body : Production Unit} (position : Nat),
    segment.cursor.Proper → segment.latest = [] → body.IsQuick (segment.view around).kindAt →
    body.read resync enter around segment = .done () inner →
    keeps segment inner → keeps segment (inner.enclosed .quickProcedure position)
  recover : ∀ {segment inner : Segment} (around : Surroundings) (position : Nat)
    (error : SyntaxError), inner.cursor.Proper → keeps segment inner →
    keeps segment (inner.recover resync around position error)

/-- A relation between an earlier and a later segment that is kept by the steps of a reading, those of
recovery one by one. What is known of a block and of a quick procedure is how its inside was read. -/
structure Keeping (resync : Bool) (enter : Entry → Surroundings → Segment → Reading Unit)
    (keeps : Segment → Segment → Prop) : Prop where
  refl : ∀ segment, keeps segment segment
  trans : ∀ {first second third}, keeps first second → keeps second third → keeps first third
  apply : ∀ around (segment : Segment) move, move.Suits (segment.view around) →
    keeps segment (segment.apply around move)
  after : ∀ {segment inner : Segment}, keeps segment.flush.emptied inner →
    keeps segment (inner.after segment.flush)
  enclosed : ∀ {segment inner : Segment} {kind : NodeKind} (position : Nat),
    kind.isCommon = true → keeps segment inner → keeps segment (inner.enclosed kind position)
  token : ∀ {segment : Segment} (position : Nat), segment.cursor.Proper →
    segment.cursor.current.kind = .error → segment.latest = [] →
    keeps segment (segment.bump.enclosed .error position)
  block : ∀ {around : Surroundings} {segment inner : Segment} (position : Nat),
    segment.cursor.Proper → segment.latest = [] →
    Production.bracedStatements.read resync enter around segment = .done () inner →
    keeps segment inner → keeps segment (inner.enclosed .block position)
  quick : ∀ {around : Surroundings} {segment inner : Segment} {body : Production Unit} (position : Nat),
    segment.cursor.Proper → segment.latest = [] → body.IsQuick (segment.view around).kindAt →
    body.read resync enter around segment = .done () inner →
    keeps segment inner → keeps segment (inner.enclosed .quickProcedure position)
  cleared : ∀ {segment inner : Segment}, keeps segment inner →
    keeps segment (inner.mapLatest (List.map (Child.withField none)))
  failed : ∀ {segment inner : Segment} (position : Nat) (error : SyntaxError), keeps segment inner →
    keeps segment { inner.enclosed .error position with reported := error :: inner.reported }

/-- A node is kept like its inside, whichever kind it is that admits what was read there. -/
theorem Preserving.admitted {resync : Bool}
    {enter : Entry → Surroundings → Segment → Reading Unit} {keeps : Segment → Segment → Prop}
    (preserving : Preserving resync enter keeps) {α : Type} {kind : NodeKind}
    {body : Production α} {view : View} {around : Surroundings} {segment inner : Segment} {value : α}
    (proper : segment.cursor.Proper) (withoutGap : segment.cursor.gap = [])
    (none : segment.latest = []) (shown : view.kindAt = (segment.view around).kindAt)
    (admits : kind.Admits body view)
    (read : body.read resync enter around segment = .done value inner) (kept : keeps segment inner)
    (position : Nat) : keeps segment (inner.enclosed kind position) := by
  by_cases common : kind.isCommon = true
  · exact preserving.enclosed position common kept
  · unfold NodeKind.Admits at admits
    split at admits
    · obtain ⟨invalid, single⟩ := admits
      cases single
      cases read
      exact preserving.token position proper ((congrFun shown 0).symm.trans invalid) withoutGap none
    · cases admits
      exact preserving.block position proper none read kept
    · rw [shown] at admits
      cases admits with
      | listed opens arrow =>
          exact preserving.quick position proper none (.listed opens arrow) read kept
      | bare name arrow => exact preserving.quick position proper none (.bare name arrow) read kept
    · cases admits
    · cases admits
    · exact (common (by cases kind <;> first | rfl | contradiction)).elim

namespace Segment

theorem apply_proper {segment : Segment} (proper : segment.cursor.Proper) (around : Surroundings)
    (move : Move) : (segment.apply around move).cursor.Proper := by
  have bumped : ∀ change, (segment.bumpAs change).cursor.Proper := by
    intro change
    have same : (segment.bumpAs change).cursor = segment.bump.cursor := by
      rw [cursor_bumpAs, bump, cursor_bumpAs]
    rw [same]
    exact (continues_bump proper).proper proper
  cases move with
  | bump => exact bumped id
  | bumpKeyword => exact bumped _
  | tag | reinterpretLast | spliceParameters | report => exact proper

end Segment

namespace Keeping

variable {resync : Bool} {enter : Entry → Surroundings → Segment → Reading Unit}
  {keeps : Segment → Segment → Prop}

theorem bumps (keeping : Keeping resync enter keeps) {segment inner : Segment}
    (kept : keeps segment inner) (around : Surroundings) (count : Nat) :
    keeps segment (inner.bumps count) := by
  induction count generalizing inner with
  | zero => exact kept
  | succ count ih => exact ih (keeping.trans kept (keeping.apply around inner .bump trivial))

theorem recover (keeping : Keeping resync enter keeps) {segment inner : Segment}
    (kept : keeps segment inner) (around : Surroundings) (position : Nat) (error : SyntaxError) :
    keeps segment (inner.recover resync around position error) := by
  obtain ⟨count, -, recovers, -⟩ :=
    Segment.recover_alone (.refl inner.cursor) resync position
  rw [(recovers around error).1]
  exact keeping.failed _ error (keeping.bumps (keeping.cleared kept) around count)

theorem preserving (keeping : Keeping resync enter keeps) : Preserving resync enter keeps where
  refl := keeping.refl
  trans := keeping.trans
  apply := keeping.apply
  after := keeping.after
  enclosed := keeping.enclosed
  token position proper invalid _ none := keeping.token position proper invalid none
  block := keeping.block
  quick := keeping.quick
  recover around position error _ kept := keeping.recover kept around position error

theorem recover_proper {inner : Segment} (proper : inner.cursor.Proper) (around : Surroundings)
    (position : Nat) (error : SyntaxError) :
    (inner.recover resync around position error).cursor.Proper := by
  obtain ⟨count, -, recovers, -⟩ :=
    Segment.recover_alone (.refl inner.cursor) resync position
  rw [(recovers around error).1]
  exact (Segment.continues_recovered around error count proper).proper proper

end Keeping

def EntriesKeep (keeps : Segment → Segment → Prop)
    (enter : Entry → Surroundings → Segment → Reading Unit) : Prop :=
  ∀ entry around segment, segment.cursor.Proper →
    (enter entry around segment).Satisfies
      (fun _ later => later.cursor.Proper ∧ keeps segment later)
      (fun later => later.cursor.Proper ∧ keeps segment later)

namespace Production

variable {resync : Bool} {enter : Entry → Surroundings → Segment → Reading Unit}
  {keeps : Segment → Segment → Prop}

theorem read_leads {α : Type} (production : Production α) (around : Surroundings)
    (segment : Segment) :
    (production.read resync enter around segment).Satisfies
      (fun value later => production.Leads value (segment.view around) (later.view around))
      (fun _ => True) := by
  induction production generalizing around segment with
  | pure value => exact ⟨rfl, rfl⟩
  | bind first next ihFirst ihNext =>
      rw [read]
      refine (ihFirst around segment).andThen (fun value reached leads => ?_)
      exact (ihNext value around reached).weaken (fun _ _ onward => ⟨value, _, leads, onward⟩)
        (fun _ => id)
  | look seen => exact ⟨rfl, rfl⟩
  | refuse complaint => trivial
  | act move => trivial
  | within change body ih =>
      rw [read]
      exact (ih _ segment).weaken (fun _ _ leads => ⟨_, _, leads⟩) (fun _ => id)
  | node kind body ih =>
      rw [read]
      refine Reading.satisfies_after.mpr (Reading.satisfies_enclosed.mpr ?_)
      refine (ih around.first segment.flush.emptied).weaken (fun _ inner leads => ?_) (fun _ => id)
      refine ⟨fun ordinary => ?_, _, _, leads⟩
      rw [view_enclosed ordinary inner segment.flush _ around around.first rfl]
      rfl
  | marked body ih =>
      rw [read]
      refine Reading.satisfies_after.mpr ?_
      exact (ih _ segment.flush.emptied).weaken (fun _ _ leads => ⟨_, _, leads⟩) (fun _ => id)
  | wrap kind body ih =>
      rw [read]
      refine Reading.satisfies_enclosed.mpr ?_
      exact (ih _ segment).weaken (fun _ _ leads => ⟨_, _, leads⟩) (fun _ => id)
  | opened body ih =>
      rw [read]
      exact (ih _ segment).weaken (fun _ _ leads => ⟨_, _, leads⟩) (fun _ => id)
  | guarded | repeatedly | enter =>
      exact (Reading.satisfies_trivial _).weaken (fun _ _ => id) (fun _ => id)

/-- Whatever a production reads, the cursor stays proper. -/
theorem read_proper {α : Type}
    (entries : ∀ entry around segment, segment.cursor.Proper →
      (enter entry around segment).Satisfies (fun _ later => later.cursor.Proper)
        (fun later => later.cursor.Proper))
    (production : Production α) (around : Surroundings) {segment : Segment}
    (proper : segment.cursor.Proper) :
    (production.read resync enter around segment).Satisfies (fun _ later => later.cursor.Proper)
      (fun later => later.cursor.Proper) := by
  induction production generalizing around segment with
  | pure | look | refuse => exact proper
  | act move => exact Segment.apply_proper proper around move
  | bind first next ihFirst ihNext =>
      rw [read]
      exact (ihFirst around proper).andThen (fun value _ reached => ihNext value around reached)
  | within _ body ih | opened body ih =>
      rw [read]
      exact ih _ proper
  | node _ body ih =>
      rw [read]
      exact Reading.satisfies_after.mpr
        (Reading.satisfies_enclosed.mpr (ih around.first (proper_emptied proper)))
  | marked body ih =>
      rw [read]
      exact Reading.satisfies_after.mpr (ih _ (proper_emptied proper))
  | wrap _ body ih =>
      rw [read]
      exact Reading.satisfies_enclosed.mpr (ih around.first proper)
  | guarded body ih =>
      rw [read]
      have tried := ih (segment.flush.following around) (proper_emptied proper)
      split
      · next inner same =>
          rw [same] at tried
          exact tried
      · next error inner same =>
          rw [same] at tried
          exact Keeping.recover_proper tried (segment.flush.atMark around) _ error
  | repeatedly body ih =>
      rw [read]
      exact Reading.satisfies_iterate_of_kept proper (fun _ reached => ih around reached) _
  | enter entry =>
      rw [read]
      exact entries entry around segment proper

/-- A canonical production keeps what its steps keep. -/
theorem Canonical.preserves {α : Type} {production : Production α}
    (preserving : Preserving resync enter keeps) (entries : EntriesKeep keeps enter)
    {around : Surroundings} {segment : Segment}
    (canonical : production.Canonical (segment.view around)) (proper : segment.cursor.Proper) :
    (production.read resync enter around segment).Satisfies
      (fun _ later => later.cursor.Proper ∧ keeps segment later)
      (fun later => later.cursor.Proper ∧ keeps segment later) := by
  induction production generalizing around segment with
  | pure value => exact ⟨proper, preserving.refl segment⟩
  | bind first next ihFirst ihNext =>
      rw [Canonical] at canonical
      rw [read]
      -- The rest is canonical at each view that the first part leads to.
      have leading : (first.read resync enter around segment).Satisfies _ _ :=
        read_leads first around segment
      have front := ((ihFirst canonical.1 proper).and leading).weaken (fun _ _ => id)
        (fun _ => And.left)
      refine front.andThen ?_
      rintro value reached ⟨⟨reachedProper, kept⟩, leads⟩
      refine (ihNext value (canonical.2 value _ leads) reachedProper).weaken ?_ ?_
      · exact fun _ later => And.imp_right (preserving.trans kept)
      · exact fun later => And.imp_right (preserving.trans kept)
  | look seen => exact ⟨proper, preserving.refl segment⟩
  | act move =>
      rw [Canonical] at canonical
      exact ⟨Segment.apply_proper proper around move,
        preserving.apply around segment move canonical⟩
  | refuse complaint => exact ⟨proper, preserving.refl segment⟩
  | within change body ih =>
      rw [Canonical] at canonical
      rw [read]
      exact ih (canonical _) proper
  | node kind body ih =>
      rw [Canonical] at canonical
      rw [read]
      refine Reading.satisfies_after.mpr (Reading.satisfies_enclosed.mpr ?_)
      have inside := ih (canonical.2 (segment.flush.emptied.view around.first))
        (proper_emptied proper)
      cases same : body.read resync enter around.first segment.flush.emptied with
      | failed error inner =>
          rw [same] at inside
          exact ⟨inside.1, preserving.after inside.2⟩
      | done value inner =>
          rw [same] at inside
          exact ⟨inside.1, preserving.after
            (preserving.admitted (proper_emptied proper) rfl rfl rfl canonical.1 same inside.2 _)⟩
  | marked body ih =>
      rw [Canonical] at canonical
      rw [read]
      refine Reading.satisfies_after.mpr ?_
      exact (ih (canonical _) (proper_emptied proper)).weaken
        (fun _ _ => And.imp_right preserving.after) (fun _ => And.imp_right preserving.after)
  | wrap kind body ih =>
      rw [Canonical] at canonical
      rw [read]
      refine Reading.satisfies_enclosed.mpr ?_
      exact (ih (canonical.2 _) proper).weaken
        (fun _ _ => And.imp_right (preserving.enclosed _ canonical.1)) (fun _ => id)
  | opened body ih =>
      rw [Canonical] at canonical
      rw [read]
      exact ih (canonical _) proper
  | guarded body ih =>
      rw [Canonical] at canonical
      rw [read]
      have tried := ih (canonical (segment.flush.emptied.view (segment.flush.following around)))
        (proper_emptied proper)
      split
      · next inner same =>
          rw [same] at tried
          exact ⟨tried.1, preserving.after tried.2⟩
      · next error inner same =>
          rw [same] at tried
          exact ⟨Keeping.recover_proper tried.1 (segment.flush.atMark around) _ error,
            preserving.after (preserving.recover _ _ _ tried.1 tried.2)⟩
  | repeatedly body ih =>
      rw [Canonical] at canonical
      rw [read]
      let reached (later : Segment) : Prop := later.cursor.Proper ∧ keeps segment later
      have start : reached segment := ⟨proper, preserving.refl segment⟩
      refine Reading.satisfies_iterate_of_kept start ?_ _
      rintro later ⟨laterProper, kept⟩
      refine (ih (canonical _) laterProper).weaken ?_ ?_
      · exact fun _ last => And.imp_right (preserving.trans kept)
      · exact fun last => And.imp_right (preserving.trans kept)
  | enter entry =>
      rw [read]
      exact entries entry around segment proper

theorem Canonical.reads {α : Type} {production : Production α}
    (keeping : Keeping resync enter keeps) (entries : EntriesKeep keeps enter)
    {around : Surroundings} {segment : Segment}
    (canonical : production.Canonical (segment.view around)) (proper : segment.cursor.Proper) :
    (production.read resync enter around segment).Satisfies
      (fun _ later => later.cursor.Proper ∧ keeps segment later)
      (fun later => later.cursor.Proper ∧ keeps segment later) :=
  canonical.preserves keeping.preserving entries proper

end Production

theorem readEntry_preserves {resync : Bool} {keeps : Segment → Segment → Prop}
    (preserving : ∀ depth, Preserving resync (readEntry resync depth) keeps) (depth : Nat) :
    EntriesKeep keeps (readEntry resync depth) := by
  induction depth with
  | zero => exact fun entry around segment proper => ⟨proper, (preserving 0).refl segment⟩
  | succ depth ih =>
      intro entry around segment proper
      exact Production.Canonical.preserves (preserving depth) ih (Production.canonical_ofEntry entry)
        proper

theorem readEntry_keeps {resync : Bool} {keeps : Segment → Segment → Prop}
    (keeping : ∀ depth, Keeping resync (readEntry resync depth) keeps) (depth : Nat) :
    EntriesKeep keeps (readEntry resync depth) :=
  readEntry_preserves (fun depth => (keeping depth).preserving) depth

/-- A source keeps what the steps of a reading keep. -/
theorem sourceReading_preserves {resync : Bool} {keeps : Segment → Segment → Prop}
    (preserving : ∀ depth, Preserving resync (readEntry resync depth) keeps) (source : List Char)
    {last : Segment} (done : sourceReading resync source = .done () last) :
    keeps (.initial (utf8Length source) (lex source).tokens) last := by
  have kept : (sourceReading resync source).Satisfies _ _ :=
    Production.Canonical.preserves (preserving (nestingOf source))
      (readEntry_preserves preserving (nestingOf source)) Production.canonical_sourceFile
      (TokenCursor.ofTokens_proper _ _)
  rw [done] at kept
  exact kept.2

theorem sourceReading_keeps {resync : Bool} {keeps : Segment → Segment → Prop}
    (keeping : ∀ depth, Keeping resync (readEntry resync depth) keeps) (source : List Char)
    {last : Segment} (done : sourceReading resync source = .done () last) :
    keeps (.initial (utf8Length source) (lex source).tokens) last :=
  sourceReading_preserves (fun depth => (keeping depth).preserving) source done

end JaiSyntax
