import JaiSyntax.Proofs.Production.Obedience
import JaiSyntax.Proofs.Reading.Frame
import JaiSyntax.Proofs.Reading.Keeping
/-!
Laws for children. What holds of tokens, extras and nodes of the allowed kinds, and is kept by the allowed
moves, holds of every child that an obedient production reads. Children that were there before may be
excused, if they are extras: no move reaches them, and no node is closed around them.
-/

set_option autoImplicit false

namespace JaiSyntax

/-- What holds of every child that is read, and the nodes and moves that it allows. What is asked of
entries may be more than that they keep the law. -/
structure ChildLaw where
  holds : Child → Prop
  kinds : NodeKind → Bool
  moves : Move → Bool
  relies : (Entry → Surroundings → Segment → Reading Unit) → Prop
  leaf : ∀ token, holds (.leaf none token)
  extra : ∀ extra : Extra, holds extra.child
  node : ∀ {kind : NodeKind} {children : List Child} (position : Nat), kinds kind = true →
    (∀ child ∈ children, holds child) → holds (.ofNode none (.build kind children position))
  error : kinds .error = true
  cleared : ∀ {child : Child}, holds child → holds (child.withField none)
  tag : ∀ {child : Child} (field : Field), child.isSignificant = true → holds child →
    holds (child.withField (some field))
  reread : ∀ {field : Option Field} {node : Node}, holds (.ofNode field node) →
    holds (.ofNode field node.reinterpretAsType)
  splice : moves .spliceParameters = true → ∀ {field : Option Field} {node : Node},
    holds (.ofNode field node) → ∀ child ∈ node.asParameterList, holds child

/-- Whether children that a law does not hold of are extras, and it holds of them once they are under no
field. -/
structure ChildLaw.Excuses (law : ChildLaw) (excused : Child → Prop) : Prop where
  extra : ∀ child, excused child → child.isSignificant = false
  cleared : ∀ child, excused child → law.holds (child.withField none)

theorem ChildLaw.excuses_none (law : ChildLaw) : law.Excuses (fun _ => False) :=
  ⟨fun _ absurd => absurd.elim, fun _ absurd => absurd.elim⟩

structure Segment.Holds (holds : Child → Prop) (segment : Segment) : Prop where
  proper : segment.cursor.Proper
  children : ∀ child ∈ segment.latest, holds child

namespace Segment

variable {holds other : Child → Prop} {segment inner : Segment}

theorem Holds.weaken (held : segment.Holds holds) (weaker : ∀ child, holds child → other child) :
    segment.Holds other :=
  ⟨held.proper, fun child member => weaker child (held.children child member)⟩

theorem holds_emptied (proper : segment.cursor.Proper) : segment.flush.emptied.Holds holds :=
  ⟨Production.proper_emptied proper, fun child member => by cases member⟩

theorem Holds.after (earlier : segment.Holds holds) (added : inner.Holds holds) :
    (inner.after segment).Holds holds := by
  refine ⟨added.proper, fun child member => ?_⟩
  rcases List.mem_append.mp member with later | before
  · exact added.children child later
  · exact earlier.children child before

theorem Holds.flush (held : segment.Holds holds) (extras : ∀ extra : Extra, holds extra.child) :
    segment.flush.Holds holds := by
  refine ⟨held.proper.withoutGap, fun child member => ?_⟩
  rcases List.mem_append.mp member with extra | earlier
  · rw [List.mem_reverse, List.mem_map] at extra
    obtain ⟨extra, -, rfl⟩ := extra
    exact extras extra
  · exact held.children child earlier

theorem Holds.bumpAs (held : segment.Holds holds) (extras : ∀ extra : Extra, holds extra.child)
    (leaf : ∀ token, holds (.leaf none token)) (change : Token → Token) :
    (segment.bumpAs change).Holds holds := by
  have proper : (segment.bumpAs change).cursor.Proper := by
    rw [cursor_bumpAs, ← cursor_bumpAs segment id]
    exact (continues_bump held.proper).proper held.proper
  refine ⟨proper, ?_⟩
  unfold Segment.bumpAs
  change ∀ child ∈ (if segment.flush.cursor.isAtEnd then _ else _ : Segment).latest, _
  split
  · exact (held.flush extras).children
  · exact List.forall_mem_cons.mpr ⟨leaf _, (held.flush extras).children⟩

/-- A change of the last significant child. -/
theorem Holds.mapLast (held : segment.Holds holds) {change : Child → List Child}
    (kept : ∀ child, child.isSignificant = true → holds child → ∀ part ∈ change child, holds part) :
    (segment.mapLatest (replaceLastSignificant change)).Holds holds := by
  refine ⟨held.proper, ?_⟩
  have all := held.children
  unfold mapLatest
  generalize segment.latest = latest at all
  induction latest with
  | nil => exact List.forall_mem_nil _
  | cons child rest ih =>
      obtain ⟨first, later⟩ := List.forall_mem_cons.mp all
      dsimp only at ih ⊢
      rw [replaceLastSignificant]
      split
      · next significant =>
          intro part member
          rcases List.mem_append.mp member with own | earlier
          · exact kept child significant first part (List.mem_reverse.mp own)
          · exact later part earlier
      · exact List.forall_mem_cons.mpr ⟨first, ih later⟩

end Segment

namespace ChildLaw

/-- Whether the children of a segment keep a law, but for some that are excused. -/
def Kept (law : ChildLaw) (excused : Child → Prop) (segment : Segment) : Prop :=
  segment.Holds (fun child => law.holds child ∨ excused child)

def KeptCleared (law : ChildLaw) (segment : Segment) : Prop :=
  segment.Holds (fun child => law.holds (child.withField none))

variable {law : ChildLaw} {excused : Child → Prop} {segment inner : Segment}

theorem Kept.excusing (kept : law.Kept (fun _ => False) segment) : law.Kept excused segment :=
  kept.weaken (fun _ => Or.imp_right False.elim)

theorem Kept.clear (kept : law.Kept excused segment) (excuses : law.Excuses excused) :
    law.KeptCleared segment :=
  kept.weaken (fun child held => held.elim law.cleared (excuses.cleared child))

theorem kept_emptied (proper : segment.cursor.Proper) : law.Kept excused segment.flush.emptied :=
  Segment.holds_emptied proper

theorem Kept.flush (kept : law.Kept excused segment) : law.Kept excused segment.flush :=
  Segment.Holds.flush kept (fun extra => Or.inl (law.extra extra))

theorem Kept.after (kept : law.Kept excused segment) (added : law.Kept excused inner) :
    law.Kept excused (inner.after segment) :=
  Segment.Holds.after kept added

theorem KeptCleared.after (kept : law.Kept excused segment) (excuses : law.Excuses excused)
    (failed : law.KeptCleared inner) : law.KeptCleared (inner.after segment) :=
  Segment.Holds.after (kept.clear excuses) failed

theorem Kept.bumpAs (kept : law.Kept excused segment) (change : Token → Token) :
    law.Kept excused (segment.bumpAs change) :=
  Segment.Holds.bumpAs kept (fun extra => Or.inl (law.extra extra))
    (fun token => Or.inl (law.leaf token)) change

theorem Kept.bumps (kept : law.Kept excused segment) (count : Nat) :
    law.Kept excused (segment.bumps count) := by
  induction count generalizing segment with
  | zero => exact kept
  | succ count ih => exact ih (kept.bumpAs id)

theorem Kept.enclosed (kept : law.Kept (fun _ => False) segment) {kind : NodeKind}
    (allowed : law.kinds kind = true) (position : Nat) :
    law.Kept excused (segment.enclosed kind position) := by
  refine ⟨kept.proper, List.forall_mem_singleton.mpr (Or.inl (law.node position allowed ?_))⟩
  intro child member
  exact (kept.children child (List.mem_reverse.mp member)).resolve_right id

theorem Kept.mapLast (kept : law.Kept excused segment) (excuses : law.Excuses excused)
    {change : Child → List Child}
    (keeps : ∀ child, child.isSignificant = true → law.holds child →
      ∀ part ∈ change child, law.holds part) :
    law.Kept excused (segment.mapLatest (replaceLastSignificant change)) := by
  refine Segment.Holds.mapLast kept (fun child significant held part member => Or.inl ?_)
  refine keeps child significant (held.resolve_right (fun absurd => ?_)) part member
  rw [excuses.extra child absurd] at significant
  cases significant

/-- An allowed move keeps the law, and does not touch what is excused. -/
theorem Kept.apply (kept : law.Kept excused segment) (excuses : law.Excuses excused)
    (around : Surroundings) {move : Move} (allowed : law.moves move = true) :
    law.Kept excused (segment.apply around move) := by
  cases move with
  | bump => exact kept.bumpAs id
  | bumpKeyword => exact kept.bumpAs (fun token => token.retag .keyword)
  | tag field =>
      exact kept.mapLast excuses (fun child significant held =>
        List.forall_mem_singleton.mpr (law.tag field significant held))
  | reinterpretLast =>
      refine kept.mapLast excuses (fun child _ held => ?_)
      cases child with
      | leaf field token => exact List.forall_mem_singleton.mpr held
      | branch field kind span children => exact List.forall_mem_singleton.mpr (law.reread held)
  | spliceParameters =>
      refine kept.mapLast excuses (fun child _ held => ?_)
      cases child with
      | leaf field token => exact List.forall_mem_singleton.mpr held
      | branch field kind span children => exact law.splice allowed held
  | report complaint => exact ⟨kept.proper, kept.children⟩

theorem KeptCleared.recover (failed : law.KeptCleared inner) (resync : Bool)
    (around : Surroundings) (position : Nat) (error : SyntaxError) :
    law.Kept excused (inner.recover resync around position error) := by
  obtain ⟨count, -, recovers, -⟩ := Segment.recover_alone (.refl inner.cursor) resync position
  rw [(recovers around error).1]
  have cleared : law.Kept (fun _ => False) (inner.mapLatest (List.map (Child.withField none))) := by
    refine ⟨failed.proper, fun child member => ?_⟩
    obtain ⟨before, inside, rfl⟩ := List.mem_map.mp member
    exact Or.inl (failed.children before inside)
  have node : law.Kept excused _ := (cleared.bumps count).enclosed law.error (inner.start around)
  exact ⟨node.proper, node.children⟩

/-- What entries are relied on for: they keep the law, and what it asks of them besides. -/
structure Entries (law : ChildLaw) (enter : Entry → Surroundings → Segment → Reading Unit) :
    Prop where
  keep : ∀ {excused : Child → Prop}, law.Excuses excused → ∀ entry around segment,
    law.Kept excused segment →
      (enter entry around segment).Satisfies (fun _ later => law.Kept excused later) law.KeptCleared
  more : law.relies enter

end ChildLaw

namespace Production

variable {α : Type}

/-- Whether a production keeps a law, whatever is excused before it. Where it fails, the law holds of
everything once the fields are cleared. -/
def Upholds (law : ChildLaw) (production : Production α) : Prop :=
  ∀ (resync : Bool) (enter : Entry → Surroundings → Segment → Reading Unit), law.Entries enter →
    ∀ {excused : Child → Prop}, law.Excuses excused →
      ∀ (around : Surroundings) (segment : Segment), law.Kept excused segment →
        (production.read resync enter around segment).Satisfies
          (fun _ later => law.Kept excused later) law.KeptCleared

end Production

/-- The rules that a law makes. What they do not allow may be done by a part that keeps the law as a
whole. -/
def ChildLaw.rules (law : ChildLaw) : Rules where
  kinds := law.kinds
  moves := law.moves
  whole := fun production => production.Upholds law

namespace Production

variable {law : ChildLaw} {α : Type}

/-- A production that obeys the rules of a law keeps it. Behind a mark of its own nothing is excused, since
a node may be closed around everything there. -/
theorem Obeys.reads {production : Production α} {marked : Bool}
    (obeys : production.Obeys law.rules marked) {resync : Bool}
    {enter : Entry → Surroundings → Segment → Reading Unit} (entries : law.Entries enter)
    {excused : Child → Prop} (excuses : law.Excuses excused)
    (own : marked = true → ∀ child, ¬ excused child) {around : Surroundings} {segment : Segment}
    (kept : law.Kept excused segment) :
    (production.read resync enter around segment).Satisfies
      (fun _ later => law.Kept excused later) law.KeptCleared := by
  induction production generalizing marked excused around segment with
  | pure value => exact kept
  | look seen => exact kept
  | refuse complaint => exact kept.clear excuses
  | act move => exact kept.apply excuses around obeys
  | enter entry => exact entries.keep excuses entry around segment kept
  | bind first next ihFirst ihNext =>
      rw [read]
      have leading : (first.read resync enter around segment).Satisfies _ _ :=
        read_leads first around segment
      have front := ((ihFirst obeys.1 excuses own kept).and leading).weaken (fun _ _ => id)
        (fun _ => And.left)
      refine front.andThen ?_
      rintro value reached ⟨further, leads⟩
      exact ihNext value (obeys.2 value _ _ leads) excuses own further
  | within change body ih =>
      rw [read]
      exact ih obeys excuses own kept
  | opened body ih =>
      rw [read]
      exact ih obeys excuses own kept
  | node kind body ih =>
      rw [read_node]
      refine Reading.satisfies_after.mpr (Reading.satisfies_enclosed.mpr ?_)
      refine (ih obeys.2 law.excuses_none (fun _ _ => id) (ChildLaw.kept_emptied kept.proper)).weaken
        ?_ ?_
      · exact fun _ inner reached => kept.flush.after (reached.enclosed obeys.1 _)
      · exact fun inner failed => failed.after kept.flush excuses
  | marked body ih =>
      rcases obeys with obeys | whole
      · rw [read_marked]
        refine Reading.satisfies_after.mpr ?_
        refine (ih obeys law.excuses_none (fun _ _ => id) (ChildLaw.kept_emptied kept.proper)).weaken
          ?_ ?_
        · exact fun _ inner reached => kept.flush.after reached.excusing
        · exact fun inner failed => failed.after kept.flush excuses
      · exact whole resync enter entries excuses around segment kept
  | wrap kind body ih =>
      obtain ⟨ours, allowed, inside⟩ := obeys
      have nothing : law.Kept (fun _ => False) segment :=
        kept.weaken (fun child => Or.imp_right (own ours child))
      rw [read_wrap]
      refine Reading.satisfies_enclosed.mpr ?_
      refine (ih inside law.excuses_none (fun _ _ => id) nothing).weaken ?_ (fun _ => id)
      exact fun _ inner reached => reached.enclosed allowed _
  | guarded body ih =>
      rw [read_guarded]
      have tried : (body.read resync enter (segment.flush.following around)
          segment.flush.emptied).Satisfies (fun _ inner => law.Kept (fun _ => False) inner) _ :=
        ih obeys law.excuses_none (fun _ _ => id) (ChildLaw.kept_emptied kept.proper)
      split
      · next inner same =>
          rw [same] at tried
          have reached : law.Kept (fun _ => False) inner := tried
          exact kept.flush.after reached.excusing
      · next error inner same =>
          rw [same] at tried
          have failed : law.KeptCleared inner := tried
          exact kept.flush.after (failed.recover resync _ _ error)
  | repeatedly body ih =>
      rw [read_repeatedly]
      exact Reading.satisfies_iterate_of_kept kept (fun _ reached => ih obeys excuses own reached) _

/-- A production that obeys the rules of a law keeps it, wherever it stands. -/
theorem Obeys.keeps {production : Production α} (obeys : production.Obeys law.rules false) :
    production.Upholds law :=
  fun _ _ entries _ excuses _ _ kept => obeys.reads entries excuses nofun kept

def KeepsOwn (law : ChildLaw) (production : Production α) : Prop :=
  ∀ (resync : Bool) (enter : Entry → Surroundings → Segment → Reading Unit), law.Entries enter →
    ∀ (around : Surroundings) (segment : Segment), law.Kept (fun _ => False) segment →
      (production.read resync enter around segment).Satisfies
        (fun _ later => law.Kept (fun _ => False) later) law.KeptCleared

theorem Obeys.keepsOwn {production : Production α} {marked : Bool}
    (obeys : production.Obeys law.rules marked) : production.KeepsOwn law :=
  fun _ _ entries _ _ kept => obeys.reads entries law.excuses_none (fun _ _ => id) kept

theorem keepsOwn_bind {β : Type} {first : Production α} {next : α → Production β}
    (front : first.KeepsOwn law) (further : ∀ value, (next value).KeepsOwn law) :
    (first >>= next).KeepsOwn law := by
  intro resync enter entries around segment kept
  rw [read_bind]
  refine (front resync enter entries around segment kept).andThen (fun value later reached => ?_)
  exact further value resync enter entries around later reached

/-- A mark in front of a part that keeps a law as a whole: there is nothing before it. -/
theorem obeys_marked_whole {body : Production α}
    (reads : ∀ (resync : Bool) (enter : Entry → Surroundings → Segment → Reading Unit),
      law.Entries enter → ∀ (around : Surroundings) (segment : Segment), segment.cursor.Proper →
        (body.read resync enter around segment.emptied).Satisfies
          (fun _ later => law.Kept (fun _ => False) later) law.KeptCleared)
    (marked : Bool) : (Production.marked body).Obeys law.rules marked := by
  refine Or.inr (fun resync enter entries excused excuses around segment kept => ?_)
  rw [read_marked]
  refine Reading.satisfies_after.mpr ?_
  refine (reads resync enter entries _ segment.flush kept.flush.proper).weaken ?_ ?_
  · exact fun _ _ reached => kept.flush.after reached.excusing
  · exact fun _ failed => failed.after kept.flush excuses

theorem KeepsOwn.obeys {body : Production α} (keeps : body.KeepsOwn law) (marked : Bool) :
    (Production.marked body).Obeys law.rules marked :=
  obeys_marked_whole (fun resync enter entries around segment proper =>
    keeps resync enter entries around segment.emptied ⟨proper, fun child member => by cases member⟩)
    marked

end Production

/-! ### Sources -/

variable {law : ChildLaw}

/-- Entries keep a law whose rules the grammar obeys, however deep they are nested. -/
theorem readEntry_obeys [law.rules.TakesExpressions] (resync : Bool)
    (relied : ∀ depth, law.relies (readEntry resync depth)) (depth : Nat) :
    law.Entries (readEntry resync depth) := by
  induction depth with
  | zero => exact ⟨fun excuses _ _ _ kept => kept.clear excuses, relied 0⟩
  | succ depth ih =>
      refine ⟨fun excuses entry around segment kept => ?_, relied (depth + 1)⟩
      exact (Production.obeys_ofEntry entry : Production.Obeys law.rules _ false).keeps resync _ ih
        excuses around segment kept

/-- The children that are read of a source keep a law whose rules the grammar obeys. -/
theorem readSource_obeys [law.rules.TakesExpressions] (resync : Bool)
    (relied : ∀ depth, law.relies (readEntry resync depth)) (source : List Char) :
    ∀ child ∈ (readSource resync source).latest, law.holds child := by
  have start : law.Kept (fun _ => False)
      (Segment.initial (utf8Length source) (lex source).tokens) :=
    ⟨TokenCursor.ofTokens_proper _ _, fun child member => by cases member⟩
  have obeys : Production.sourceFile.Obeys law.rules false := Production.obeys_sourceFile
  have kept : (sourceReading resync source).Satisfies _ _ :=
    obeys.keeps resync _ (readEntry_obeys resync relied (nestingOf source)) law.excuses_none
      .outermost _ start
  obtain ⟨last, same, -, -⟩ := sourceReading_done resync source
  rw [same] at kept
  have reached : law.Kept (fun _ => False) last := kept
  unfold readSource
  rw [same]
  exact fun child member => (reached.flush.children child member).resolve_right id

end JaiSyntax
