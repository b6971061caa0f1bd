import JaiSyntax.Proofs.Reading.Soundness
/-!
What an orderly production leaves alone. It only adds to the children that were read before it, and
a property of nodes that every node but an operator has holds throughout what it adds.
-/

set_option autoImplicit false

namespace JaiSyntax

/-- Whether nodes of a kind are made without a production that opens them: out of layout, or by reading
an expression as a type. -/
def NodeKind.isIncidental : NodeKind → Bool
  | .deprecatedDirective | .string | .parameterizedStructType | .qualifiedType | .pointerType => true
  | _ => false

theorem NodeKind.isOperator_of_incidental {kind : NodeKind} (incidental : kind.isIncidental = true) :
    kind.isOperator = false := by
  cases kind <;> first | rfl | cases incidental

/-! ### Properties of all nodes of a child -/

def Child.Throughout (holds : Node → Prop) (child : Child) : Prop :=
  ∀ node ∈ child.preorder, holds node

theorem Child.mem_preorderOfList {node : Node} (children : List Child) :
    node ∈ Child.preorderOfList children ↔ ∃ child ∈ children, node ∈ child.preorder := by
  induction children with
  | nil => simp [Child.preorderOfList]
  | cons child rest ih => simp [Child.preorderOfList, ih]

/-- Whether something stays true of a node that is read as a type. -/
def KeptByReading (holds : Node → Prop) : Prop :=
  ∀ (node : Node) (reading : TypeReading) (position : Nat), holds node →
    typeReading? node.kind = some reading →
    holds (.build reading.kind (reinterpretChildren reading.select node.children) position)

section Throughout

variable {holds : Node → Prop}

theorem throughout_leaf (field : Option Field) (token : Token) :
    (Child.leaf field token).Throughout holds := by
  intro node member
  cases member

theorem throughout_branch {field : Option Field} {kind : NodeKind} {span : Span}
    {children : List Child} :
    (Child.branch field kind span children).Throughout holds ↔
      holds ⟨kind, span, children⟩ ∧ ∀ child ∈ children, child.Throughout holds := by
  unfold Child.Throughout
  simp only [Child.preorder, List.forall_mem_cons, Child.mem_preorderOfList]
  constructor
  · exact fun all => ⟨all.1, fun child member node inside => all.2 node ⟨child, member, inside⟩⟩
  · rintro ⟨own, inner⟩
    exact ⟨own, fun node ⟨child, member, inside⟩ => inner child member node inside⟩

theorem throughout_ofNode {field : Option Field} {node : Node} :
    (Child.ofNode field node).Throughout holds ↔ ∀ inner ∈ node.preorder, holds inner := Iff.rfl

theorem throughout_withField {field : Option Field} {child : Child} :
    (child.withField field).Throughout holds ↔ child.Throughout holds := by
  cases child <;> exact Iff.rfl

theorem throughout_build {kind : NodeKind} {latest : List Child} {position : Nat}
    (own : holds (.build kind latest.reverse position))
    (inner : ∀ child ∈ latest, child.Throughout holds) :
    (Child.ofNode none (.build kind latest.reverse position)).Throughout holds :=
  throughout_branch.mpr ⟨own, fun child member => inner child (List.mem_reverse.mp member)⟩

variable (plain : ∀ node : Node, node.kind.isIncidental = true → holds node)

include plain

theorem throughout_extra (extra : Extra) : extra.child.Throughout holds := by
  cases extra with
  | token single => exact throughout_leaf none single
  | deprecated group =>
      have literal : ∀ tokens : List Token, (Child.ofNode (some .message)
          (.build .string (tokens.map (Child.leaf none)) 0)).Throughout holds := fun tokens =>
        throughout_branch.mpr ⟨plain _ rfl, forall_leaves (throughout_leaf none) tokens⟩
      exact throughout_branch.mpr ⟨plain _ rfl, forall_noticeChildren (throughout_leaf none)
        (fun _ _ _ _ _ => literal _) none group nofun⟩

omit plain in
theorem isIncidental_typeReading {kind : NodeKind} {reading : TypeReading}
    (found : typeReading? kind = some reading) : reading.kind.isIncidental = true := by
  unfold typeReading? at found
  split at found <;> simp at found <;> subst found <;> rfl

/-- Reading a node as a type makes incidental nodes only. -/
theorem keptByReading_of_incidental : KeptByReading holds :=
  fun _ _ _ _ found => plain _ (isIncidental_typeReading found)

end Throughout

section Rereading

variable {holds : Node → Prop} (kept : KeptByReading holds)

include kept

theorem throughout_reinterpretChildren (select : Option Field → Option (Option Field))
    (children : List Child) (all : ∀ child ∈ children, child.Throughout holds) :
    ∀ child ∈ reinterpretChildren select children, child.Throughout holds := by
  induction select, children using reinterpretChildren.induct with
  | case1 select =>
      rw [reinterpretChildren]
      exact all
  | case2 select field token rest ih =>
      have rest := (List.forall_mem_cons.mp all).2
      rw [reinterpretChildren]
      exact List.forall_mem_cons.mpr ⟨throughout_leaf field token, ih rest⟩
  | case3 select field kind span children rest outer inner =>
      obtain ⟨first, later⟩ := List.forall_mem_cons.mp all
      rw [reinterpretChildren]
      refine List.forall_mem_cons.mpr ⟨?_, inner later⟩
      split
      · exact first
      · split
        · exact first
        · next reading same =>
            obtain ⟨own, below⟩ := throughout_branch.mp first
            exact throughout_branch.mpr
              ⟨kept ⟨kind, span, children⟩ reading span.start own same, outer reading below⟩

theorem throughout_reinterpretAsType {field : Option Field} {node : Node}
    (all : (Child.ofNode field node).Throughout holds) (other : Option Field) :
    (Child.ofNode other node.reinterpretAsType).Throughout holds := by
  unfold Node.reinterpretAsType
  cases found : typeReading? node.kind with
  | none => exact all
  | some reading =>
      obtain ⟨own, below⟩ := throughout_branch.mp all
      exact throughout_branch.mpr ⟨kept node reading node.span.start own found,
        throughout_reinterpretChildren kept _ _ below⟩

theorem throughout_asParameterList {field : Option Field} {node : Node}
    (all : (Child.ofNode field node).Throughout holds) :
    ∀ child ∈ node.asParameterList, child.Throughout holds := by
  intro child member
  obtain ⟨inner, inside, rfl⟩ := List.mem_map.mp member
  cases inner with
  | leaf field token => exact throughout_leaf field token
  | branch role kind span children =>
      have held : (Child.ofNode role ⟨kind, span, children⟩).Throughout holds :=
        (throughout_branch.mp all).2 _ inside
      exact throughout_reinterpretAsType kept held _

/-- What becomes of the last child when it is read as a type. -/
theorem throughout_rereadLast {child : Child} (all : child.Throughout holds) :
    ∀ part ∈ (match child.node? with
      | some node => [Child.ofNode child.field? node.reinterpretAsType]
      | none => [child]), part.Throughout holds := by
  cases child with
  | leaf field token => exact List.forall_mem_singleton.mpr all
  | branch field kind span children =>
      have held : (Child.ofNode field ⟨kind, span, children⟩).Throughout holds := all
      exact List.forall_mem_singleton.mpr (throughout_reinterpretAsType kept held field)

/-- What becomes of the last child when it is taken apart. -/
theorem throughout_splicedLast {child : Child} (all : child.Throughout holds) :
    ∀ part ∈ (match child.node? with
      | some node => node.asParameterList
      | none => [child]), part.Throughout holds := by
  cases child with
  | leaf field token => exact List.forall_mem_singleton.mpr all
  | branch field kind span children =>
      have held : (Child.ofNode field ⟨kind, span, children⟩).Throughout holds := all
      exact throughout_asParameterList kept held

end Rereading

/-! ### Segments throughout -/

namespace Segment

def Throughout (holds : Node → Prop) (segment : Segment) : Prop :=
  ∀ child ∈ segment.latest, child.Throughout holds

section Throughout

variable {holds : Node → Prop} {segment inner : Segment}

theorem Throughout.after (inside : inner.Throughout holds) (earlier : segment.Throughout holds) :
    (inner.after segment).Throughout holds :=
  List.forall_mem_append.mpr ⟨inside, earlier⟩

theorem Throughout.enclosed (inside : inner.Throughout holds) {kind : NodeKind} (position : Nat)
    (own : holds (.build kind inner.latest.reverse position)) :
    (inner.enclosed kind position).Throughout holds :=
  List.forall_mem_singleton.mpr (throughout_build own inside)

theorem Throughout.cleared (inside : inner.Throughout holds) :
    (inner.mapLatest (List.map (Child.withField none))).Throughout holds := by
  intro child member
  obtain ⟨before, inside', rfl⟩ := List.mem_map.mp member
  exact throughout_withField.mpr (inside before inside')

variable (plain : ∀ node : Node, node.kind.isIncidental = true → holds node)

include plain

theorem Throughout.flush (all : segment.Throughout holds) : segment.flush.Throughout holds := by
  intro child member
  rcases List.mem_append.mp member with extra | earlier
  · rw [List.mem_reverse, List.mem_map] at extra
    obtain ⟨extra, -, rfl⟩ := extra
    exact throughout_extra plain extra
  · exact all child earlier

theorem Throughout.bumpAs (all : segment.Throughout holds) (change : Token → Token) :
    (segment.bumpAs change).Throughout holds := by
  unfold Segment.bumpAs
  change Segment.Throughout holds (if segment.flush.cursor.isAtEnd then _ else _)
  split
  · exact all.flush plain
  · exact List.forall_mem_cons.mpr ⟨throughout_leaf none _, all.flush plain⟩

theorem Throughout.apply (all : segment.Throughout holds) (around : Surroundings) (move : Move) :
    (segment.apply around move).Throughout holds := by
  have reread := keptByReading_of_incidental plain
  cases move with
  | bump => exact all.bumpAs plain id
  | bumpKeyword => exact all.bumpAs plain (fun token => token.retag .keyword)
  | tag field =>
      exact forall_replaceLastSignificant all (fun child held =>
        List.forall_mem_singleton.mpr (throughout_withField.mpr held))
  | reinterpretLast =>
      exact forall_replaceLastSignificant all (fun child held => throughout_rereadLast reread held)
  | spliceParameters =>
      exact forall_replaceLastSignificant all (fun child held => throughout_splicedLast reread held)
  | report complaint => exact all

end Throughout

end Segment

/-! ### Growing segments -/

namespace Segment

/-- A segment that adds children to earlier ones. Something holds throughout what it adds, and one of
the children added is significant if something is covered. -/
def Grows (holds : Node → Prop) (earlier : List Child) (covered : Bool) (segment : Segment) : Prop :=
  ∃ added, segment.latest = added ++ earlier ∧ (∀ child ∈ added, child.Throughout holds) ∧
    (covered = true → added.any Child.isSignificant = true)

variable {holds : Node → Prop} {earlier : List Child} {covered : Bool} {segment : Segment}

theorem grows_refl (segment : Segment) : segment.Grows holds segment.latest false :=
  ⟨[], rfl, by simp, by simp⟩

theorem Grows.weaken {flag : Bool} (grows : segment.Grows holds earlier covered)
    (less : flag = true → covered = true) : segment.Grows holds earlier flag := by
  obtain ⟨added, same, all, some⟩ := grows
  exact ⟨added, same, all, fun set => some (less set)⟩

theorem Grows.uncovered (grows : segment.Grows holds earlier covered) :
    segment.Grows holds earlier false :=
  grows.weaken (fun absurd => (Bool.false_ne_true absurd).elim)

theorem Grows.covers (grows : segment.Grows holds earlier true) (flag : Bool) :
    segment.Grows holds earlier flag :=
  grows.weaken (fun _ => rfl)

/-- Children put before those that were added. -/
theorem Grows.cons (grows : segment.Grows holds earlier covered) {front : List Child}
    (all : ∀ child ∈ front, child.Throughout holds) {later : Segment}
    (same : later.latest = front ++ segment.latest) {flag : Bool}
    (significant : flag = true → covered = true ∨ front.any Child.isSignificant = true) :
    later.Grows holds earlier flag := by
  obtain ⟨added, old, held, some⟩ := grows
  refine ⟨front ++ added, ?_, ?_, ?_⟩
  · rw [same, old, List.append_assoc]
  · intro child member
    rcases List.mem_append.mp member with first | second
    · exact all child first
    · exact held child second
  · intro set
    rw [List.any_append, Bool.or_eq_true]
    rcases significant set with before | now
    · exact Or.inr (some before)
    · exact Or.inl now

/-- A segment put after one that grows. -/
theorem Grows.after (grows : segment.Grows holds earlier covered) {later : Segment} {own : Bool}
    (added : later.Grows holds [] own) :
    (later.after segment).Grows holds earlier (covered || own) := by
  obtain ⟨front, same, all, some⟩ := added
  rw [List.append_nil] at same
  refine grows.cons all (by rw [Segment.after, same]) (fun set => ?_)
  exact (Bool.or_eq_true_iff.mp set).imp_right some

theorem Grows.flush (grows : segment.Grows holds earlier covered)
    (plain : ∀ node : Node, node.kind.isOperator = false → holds node) :
    segment.flush.Grows holds earlier covered := by
  refine grows.cons ?_ rfl Or.inl
  intro child member
  rw [List.mem_reverse, List.mem_map] at member
  obtain ⟨extra, -, rfl⟩ := member
  exact throughout_extra
    (fun node incidental => plain node (NodeKind.isOperator_of_incidental incidental)) extra

/-- A node around all that was added. -/
theorem Grows.enclosed (grows : segment.Grows holds [] covered) {kind : NodeKind} {position : Nat}
    (own : holds (.build kind segment.latest.reverse position))
    (ordinary : kind ≠ .deprecatedDirective) :
    (segment.enclosed kind position).Grows holds [] true := by
  obtain ⟨added, same, all, -⟩ := grows
  rw [List.append_nil] at same
  subst same
  refine ⟨_, (List.append_nil _).symm, List.forall_mem_singleton.mpr (throughout_build own all),
    fun _ => ?_⟩
  simpa [Segment.enclosed, Child.ofNode, Child.isSignificant, Node.build] using ordinary

theorem Grows.bumpAs (grows : segment.Grows holds earlier covered)
    (plain : ∀ node : Node, node.kind.isOperator = false → holds node) (change : Token → Token) :
    (segment.bumpAs change).Grows holds earlier covered := by
  unfold Segment.bumpAs
  change Grows holds earlier covered (if segment.flush.cursor.isAtEnd then _ else _)
  split
  · exact grows.flush plain
  · exact (grows.flush plain).cons (List.forall_mem_singleton.mpr (throughout_leaf none _)) rfl
      Or.inl

/-- A token that is consumed is significant. -/
theorem Grows.bumpAs_covers (grows : segment.Grows holds earlier covered)
    (plain : ∀ node : Node, node.kind.isOperator = false → holds node) {change : Token → Token}
    (proper : segment.cursor.Proper) (more : segment.cursor.isAtEnd = false)
    (kept : segment.cursor.current.kind.isExtra = false →
      (change segment.cursor.current).kind.isExtra = false) :
    (segment.bumpAs change).Grows holds earlier true := by
  have significant := kept (current_significant proper more)
  refine (grows.flush plain).cons (List.forall_mem_singleton.mpr (throughout_leaf none _))
    (latest_bumpAs proper more change) (fun _ => Or.inr ?_)
  simp [Child.isSignificant, significant]

theorem Grows.bumps (grows : segment.Grows holds earlier covered)
    (plain : ∀ node : Node, node.kind.isOperator = false → holds node) (count : Nat) :
    (segment.bumps count).Grows holds earlier covered := by
  induction count generalizing segment with
  | zero => exact grows
  | succ count ih => exact ih (grows.bumpAs plain id)

/-- What adds to children that were added to earlier ones adds to the earlier ones. -/
theorem Grows.trans (grows : segment.Grows holds earlier covered) {later : Segment} {own : Bool}
    (added : later.Grows holds segment.latest own) :
    later.Grows holds earlier (covered || own) := by
  obtain ⟨front, same, all, some⟩ := added
  exact grows.cons all same (fun set => (Bool.or_eq_true_iff.mp set).imp_right some)

theorem Grows.withoutFields (grows : segment.Grows holds [] covered) :
    (segment.mapLatest (List.map (Child.withField none))).Grows holds [] false := by
  obtain ⟨added, same, all, -⟩ := grows
  refine ⟨added.map (Child.withField none), by simp [mapLatest, same], ?_, by simp⟩
  intro child member
  obtain ⟨before, inside, rfl⟩ := List.mem_map.mp member
  exact throughout_withField.mpr (all before inside)

/-- The error node that a failed segment becomes. -/
theorem Grows.recover (grows : segment.Grows holds [] covered)
    (plain : ∀ node : Node, node.kind.isOperator = false → holds node) (resync : Bool)
    (around : Surroundings) (position : Nat) (error : SyntaxError) :
    (segment.recover resync around position error).Grows holds [] true := by
  obtain ⟨count, -, recovers, -⟩ := recover_alone (.refl segment.cursor) resync position
  rw [(recovers around error).1]
  exact (grows.withoutFields.bumps plain count).enclosed (plain _ rfl) (by decide)

/-- A change of the last significant child stays among the children that were added. -/
theorem Grows.mapLast (grows : segment.Grows holds earlier true) {change : Child → List Child}
    {flag : Bool}
    (all : ∀ child, child.Throughout holds → ∀ part ∈ change child, part.Throughout holds)
    (kept : flag = true → ∀ child, child.isSignificant = true →
      (change child).any Child.isSignificant = true) :
    (segment.mapLatest (replaceLastSignificant change)).Grows holds earlier flag := by
  obtain ⟨added, same, held, some⟩ := grows
  refine ⟨replaceLastSignificant change added, ?_, ?_, ?_⟩
  · rw [mapLatest, same, replaceLastSignificant_append change (some rfl)]
  · exact forall_replaceLastSignificant held all
  · exact fun set => any_replaceLastSignificant (kept set) added (some rfl)

end Segment

/-- A move that is in order adds to what was added. -/
theorem Segment.apply_grows {holds : Node → Prop} {around : Surroundings} {segment : Segment}
    {earlier : List Child} {place : Place} {after : Place → Prop} {move : Move} {origin : Nat}
    (plain : ∀ node : Node, node.kind.isOperator = false → holds node)
    (permits : place.Permits after move) (describes : place.Describes around segment origin)
    (proper : segment.cursor.Proper) (grows : segment.Grows holds earlier place.covered.isSome) :
    place.Permits (fun reached => after reached ∧
      (segment.apply around move).Grows holds earlier reached.covered.isSome) move := by
  have kept : KeptByReading holds := keptByReading_of_incidental
    (fun node incidental => plain node (NodeKind.isOperator_of_incidental incidental))
  have kind : place.view.kind = segment.cursor.current.kind := by
    rw [describes.view]
    rfl
  have more : place.view.kind ≠ .eof → segment.cursor.isAtEnd = false := by
    intro token
    rw [kind] at token
    simpa [TokenCursor.isAtEnd] using token
  cases move with
  | bump =>
      refine fun previous last => ⟨permits previous last, ?_⟩
      unfold Place.bumped
      split
      · rw [Coverage.isSome_loosened]
        exact grows.bumpAs plain id
      · next token => exact grows.bumpAs_covers plain proper (more token) id
  | bumpKeyword =>
      refine ⟨permits.1, fun previous last => ⟨permits.2 previous last, ?_⟩⟩
      exact grows.bumpAs_covers plain proper (more (by rw [permits.1]; decide)) (fun _ => rfl)
  | tag field =>
      refine ⟨permits.1, permits.2, Grows.mapLast (permits.1 ▸ grows) ?_ ?_⟩
      · intro child all
        exact List.forall_mem_singleton.mpr (throughout_withField.mpr all)
      · intro _ child significant
        simp [isSignificant_withField, significant]
  | reinterpretLast =>
      refine ⟨permits.1, fun last => ⟨permits.2 last, Grows.mapLast (permits.1 ▸ grows) ?_ ?_⟩⟩
      · exact fun child all => throughout_rereadLast kept all
      · intro _ child significant
        cases child with
        | leaf field token => simpa [Child.node?] using significant
        | branch field kind span children =>
            have ordinary : kind ≠ .deprecatedDirective := by
              simpa [Child.isSignificant] using significant
            have kept := isSignificant_reinterpretAsType field
              (show (Node.mk kind span children).kind ≠ .deprecatedDirective from ordinary)
            simpa [Child.node?, Child.field?] using kept
  | spliceParameters =>
      refine ⟨permits.1, fun last => ⟨permits.2 last, Grows.mapLast (permits.1 ▸ grows) ?_ ?_⟩⟩
      · exact fun child all => throughout_splicedLast kept all
      · exact fun absurd => (Bool.false_ne_true absurd).elim
  | report complaint => exact ⟨permits, grows⟩

def EntriesGrow (holds : Node → Prop) (enter : Entry → Surroundings → Segment → Reading Unit) :
    Prop :=
  ∀ entry around segment, segment.cursor.Proper →
    (enter entry around segment).Satisfies (fun _ later => later.Grows holds segment.latest true)
      (fun later => later.Grows holds segment.latest false)

/-- What holds at the end of an orderly production that started after some children: it only added to
them. -/
def GrowsTo {α : Type} (holds : Node → Prop) (earlier : List Child) (start : Segment)
    (around : Surroundings) (origin : Nat) (after : α → Place → Prop) (value : α)
    (later : Segment) : Prop :=
  start.Continues later ∧
    ∃ reached, Place.Describes reached around later origin ∧
      later.Grows holds earlier reached.covered.isSome ∧ after value reached

namespace Production

variable {holds : Node → Prop} {enter : Entry → Surroundings → Segment → Reading Unit}

def BeforeGrowth (holds : Node → Prop) (earlier : List Child) (body : Production Bool)
    (marked : Bool) (after : Unit → Place → Prop) (around : Surroundings) (segment : Segment)
    (origin : Nat) (later : Segment) : Prop :=
  segment.Continues later ∧
    ∃ covered,
      (∀ view, Orderly (fun kind => kind.isPlain = true) body marked
        (fun _ reached => covered ≤ reached.covered) ⟨view, covered⟩) ∧
      (∀ view, after () ⟨view, covered⟩) ∧
      (Place.mk (later.view around) covered).Describes around later origin ∧
      later.Grows holds earlier covered.isSome

section Rounds

variable {body : Production Bool} {marked : Bool} {after : Unit → Place → Prop}
  {around : Surroundings} {segment start : Segment} {origin : Nat} {reading : Reading Bool}
  {earlier : List Child}

theorem first_growth
    (ends : reading.Satisfies
      (GrowsTo holds earlier segment around origin (fun goesOn reached =>
        if goesOn then
          ∃ kept, kept ≤ reached.covered ∧
            (∀ view, Orderly (fun kind => kind.isPlain = true) body marked
              (fun _ later => kept ≤ later.covered) ⟨view, kept⟩) ∧
            ∀ view, after () ⟨view, kept⟩
        else after () reached))
      (fun later => segment.Continues later ∧ later.Grows holds earlier false)) :
    reading.Satisfies
      (fun goesOn later => if goesOn then
        BeforeGrowth holds earlier body marked after around segment origin later
        else GrowsTo holds earlier segment around origin after () later)
      (fun later => segment.Continues later ∧ later.Grows holds earlier false) := by
  refine ends.weaken ?_ (fun _ => id)
  rintro goesOn later ⟨continues, reached, described, grown, ended⟩
  cases goesOn with
  | false => exact ⟨continues, reached, described, grown, ended⟩
  | true =>
      obtain ⟨kept, least, rounds, further⟩ := ended
      exact ⟨continues, kept, rounds, further,
        ⟨rfl, described.covered.weaken least, described.origin⟩, grown.weaken least.1⟩

theorem further_growth {covered : Coverage}
    (ends : reading.Satisfies
      (GrowsTo holds earlier start around origin (fun _ reached => covered ≤ reached.covered))
      (fun later => start.Continues later ∧ later.Grows holds earlier false))
    (before : segment.Continues start)
    (rounds : ∀ view, Orderly (fun kind => kind.isPlain = true) body marked
      (fun _ reached => covered ≤ reached.covered) ⟨view, covered⟩)
    (ended : ∀ view, after () ⟨view, covered⟩) :
    reading.Satisfies
      (fun goesOn later => if goesOn then
        BeforeGrowth holds earlier body marked after around segment origin later
        else GrowsTo holds earlier segment around origin after () later)
      (fun later => segment.Continues later ∧ later.Grows holds earlier false) := by
  refine ends.weaken ?_ (fun later => And.imp_left before.trans)
  rintro goesOn later ⟨continues, reached, described, grown, kept⟩
  have same : (Place.mk (later.view around) covered).Describes around later origin :=
    ⟨rfl, described.covered.weaken kept, described.origin⟩
  have less : later.Grows holds earlier covered.isSome := grown.weaken kept.1
  cases goesOn with
  | false => exact ⟨before.trans continues, _, same, less, ended _⟩
  | true => exact ⟨before.trans continues, covered, rounds, ended, same, less⟩

end Rounds

theorem isPlain_ordinary {kind : NodeKind} (plain : kind.isPlain = true) :
    kind ≠ .deprecatedDirective := by
  intro same
  rw [same] at plain
  cases plain

theorem isPlain_operator {kind : NodeKind} (plain : kind.isPlain = true) :
    kind.isOperator = false := by
  simp only [NodeKind.isPlain, Bool.and_eq_true, Bool.not_eq_true'] at plain
  exact plain.1

/-- An orderly production without operators only adds to what was read before it. -/
theorem Orderly.grows {α : Type} {production : Production α} {marked : Bool}
    {after : α → Place → Prop} {place : Place}
    (orderly : production.Orderly (fun kind => kind.isPlain = true) marked after place)
    (plain : ∀ node : Node, node.kind.isOperator = false → holds node)
    (entries : EntriesCover enter) (grow : EntriesGrow holds enter) (resync : Bool)
    {around : Surroundings} {segment : Segment} {origin : Nat} {earlier : List Child}
    (own : marked = true → earlier = []) (describes : place.Describes around segment origin)
    (proper : segment.cursor.Proper) (start : segment.Grows holds earlier place.covered.isSome) :
    (production.read resync enter around segment).Satisfies
      (GrowsTo holds earlier segment around origin after)
      (fun later => segment.Continues later ∧ later.Grows holds earlier false) := by
  induction production generalizing marked place around segment origin earlier with
  | pure value =>
      rw [Orderly] at orderly
      exact ⟨.refl segment, place, describes, start, orderly⟩
  | bind first next ihFirst ihNext =>
      rw [Orderly] at orderly
      rw [read]
      refine (ihFirst orderly own describes proper start).andThen ?_
      rintro value reached ⟨continues, there, described, grown, further⟩
      refine (ihNext value further own described (continues.proper proper) grown).weaken ?_ ?_
      · rintro result later ⟨onward, ended⟩
        exact ⟨continues.trans onward, ended⟩
      · rintro later ⟨onward, ended⟩
        exact ⟨continues.trans onward, ended⟩
  | look seen =>
      rw [Orderly, describes.view] at orderly
      exact ⟨.refl segment, place, describes, start, describes.view ▸ orderly⟩
  | act move =>
      rw [Orderly] at orderly
      have grows := Segment.apply_grows plain orderly describes proper start
      obtain ⟨continues, reached, described, ended, grown⟩ :=
        Segment.apply_sound grows describes proper
      exact ⟨continues, reached, described, grown, ended⟩
  | refuse complaint => exact ⟨.refl segment, start.uncovered⟩
  | within change body ih =>
      rw [Orderly] at orderly
      rw [read]
      refine (ih orderly own (describes_within describes change) proper start).weaken ?_
        (fun _ => id)
      rintro value later ⟨continues, reached, described, grown, ended⟩
      refine ⟨continues, reached.withContext place.view.context,
        ⟨?_, described.covered.weaken (Coverage.le_refl _), described.origin⟩, grown, ended⟩
      change reached.view.withContext place.view.context = _
      rw [described.view, describes.view]
      rfl
  | node kind body ih =>
      rw [Orderly] at orderly
      rw [read]
      have flushed := Segment.continues_flush segment
      have ordinary := isPlain_ordinary orderly.1
      refine Reading.satisfies_after.mpr (Reading.satisfies_enclosed.mpr ?_)
      refine (ih orderly.2 (fun _ => rfl) (describes_inside describes) (proper_emptied proper)
        (Segment.grows_refl _)).weaken ?_ ?_
      · rintro value inner ⟨continues, reached, described, grown, covered, ended⟩
        have node := plain (.build kind inner.latest.reverse segment.flush.cursor.current.span.start)
          (isPlain_operator orderly.1)
        have joined := (start.flush plain).after (grown.enclosed node ordinary)
        rw [Bool.or_true] at joined
        exact ⟨flushed.trans (continues.enclosed kind _).after, _,
          describes_closed ordinary describes described covered _, joined, ended⟩
      · rintro inner ⟨continues, grown⟩
        exact ⟨flushed.trans continues.after, ((start.flush plain).after grown).uncovered⟩
  | marked body ih =>
      rw [Orderly] at orderly
      rw [read]
      have flushed := Segment.continues_flush segment
      refine Reading.satisfies_after.mpr ?_
      have opened := describes_following describes proper (segment.flush.atMark around) rfl rfl
      refine (ih orderly (fun _ => rfl) opened (proper_emptied proper)
        (Segment.grows_refl _)).weaken ?_ ?_
      · rintro value inner ⟨continues, reached, described, grown, ended⟩
        exact ⟨flushed.trans continues.after, _, describes_joined describes described,
          ((start.flush plain).after grown).weaken (fun own => by rw [own, Bool.or_true]), ended⟩
      · rintro inner ⟨continues, grown⟩
        exact ⟨flushed.trans continues.after, ((start.flush plain).after grown).uncovered⟩
  | wrap kind body ih =>
      rw [Orderly] at orderly
      rw [read]
      obtain ⟨owned, permitted, inner⟩ := orderly
      obtain rfl : earlier = [] := own owned
      have ordinary := isPlain_ordinary permitted
      refine Reading.satisfies_enclosed.mpr ?_
      refine (ih (inner _) (fun _ => rfl) (describes_wrapped describes) proper start).weaken ?_
        (fun _ => id)
      rintro value inner ⟨continues, reached, described, grown, covered, ended⟩
      exact ⟨continues.enclosed kind _, _, describes_enclosed ordinary described covered _,
        grown.enclosed (plain _ (isPlain_operator permitted)) ordinary, ended⟩
  | opened body ih =>
      rw [Orderly] at orderly
      rw [read]
      refine (ih orderly own (describes_opened describes _) proper start).weaken ?_ (fun _ => id)
      rintro value later ⟨continues, reached, described, grown, ended⟩
      exact ⟨continues, reached, ⟨described.view, described.covered, described.origin⟩, grown, ended⟩
  | guarded body ih =>
      rw [Orderly] at orderly
      rw [read]
      have flushed := Segment.continues_flush segment
      have opened := describes_following describes proper (segment.flush.following around) rfl rfl
      obtain ⟨notEnd, notSemicolon, inside, further⟩ := orderly
      rw [describes.view, Segment.kind_view] at notEnd notSemicolon
      have tried := ih inside (fun _ => rfl) opened (proper_emptied proper)
        (Segment.grows_refl _)
      split
      · next inner same =>
          rw [same] at tried
          obtain ⟨continues, reached, described, grown, covered⟩ := tried
          refine ⟨flushed.trans continues.after, _,
            describes_guarded describes continues (covered ▸ described.covered), ?_, further _⟩
          have added := (start.flush plain).after grown
          rw [covered, Coverage.isSome_tight, Bool.or_true] at added
          exact added
      · next error inner same =>
          rw [same] at tried
          obtain ⟨continues, grown⟩ := tried
          have recovers := recover_moves (segment.flush.atMark around) resync error continues proper
            notEnd notSemicolon
          refine ⟨flushed.trans recovers.1.after, _,
            describes_guarded describes recovers.1 recovers.2, ?_, further _⟩
          have added := (start.flush plain).after
            (grown.recover plain resync (segment.flush.atMark around) segment.cursor.position error)
          rw [Bool.or_true] at added
          exact added
  | repeatedly body ih =>
      rw [Orderly] at orderly
      rw [read]
      refine Reading.satisfies_iterate
        (first_growth (ih orderly own describes proper start)) ?_ ?_ _
      · intro later before
        obtain ⟨continues, covered, rounds, ended, described, grown⟩ := before
        exact further_growth (ih (rounds _) own described (continues.proper proper) grown) continues
          rounds ended
      · rintro later ⟨continues, covered, -, ended, described, grown⟩
        exact ⟨continues, _, described, grown, ended _⟩
  | enter entry =>
      rw [Orderly] at orderly
      rw [read]
      have covers := entries entry around segment proper
      have adds := grow entry around segment proper
      generalize enter entry around segment = reading at covers adds
      cases reading with
      | failed error later => exact ⟨covers, (start.trans adds).uncovered⟩
      | done value later =>
          obtain ⟨continues, covered⟩ := covers
          refine ⟨continues, _, describes_entered describes continues covered, ?_, orderly _⟩
          have joined := start.trans adds
          rw [Bool.or_true] at joined
          exact joined

end Production

end JaiSyntax
