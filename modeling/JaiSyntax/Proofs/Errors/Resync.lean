import JaiSyntax.Proofs.Errors.Balance
/-!
The places where skipping may end. Whether the start of a declaration is one of them matters only where
something is skipped, and what is skipped stays in an error node. So two readings with and without it are
the same up to the first error node, and no later step of either takes that node away.
-/

set_option autoImplicit false

namespace JaiSyntax

/-! ### Error nodes stay -/

namespace Child

def isBroken (child : Child) : Bool := child.preorder.any (fun node => node.kind == .error)

theorem any_preorderOfList (children : List Child) :
    (preorderOfList children).any (fun node => node.kind == .error) = children.any isBroken := by
  induction children with
  | nil => rfl
  | cons child rest ih => rw [preorderOfList, List.any_append, ih, List.any_cons, isBroken]

theorem isBroken_branch (field : Option Field) (kind : NodeKind) (span : Span)
    (children : List Child) :
    (branch field kind span children).isBroken = (kind == .error || children.any isBroken) := by
  rw [isBroken, preorder, List.any_cons, any_preorderOfList]

theorem isBroken_withField (field : Option Field) (child : Child) :
    (child.withField field).isBroken = child.isBroken := by
  cases child <;> rfl

theorem any_reinterpretChildren (select : Option Field → Option (Option Field))
    (children : List Child) :
    (reinterpretChildren select children).any isBroken = children.any isBroken := by
  induction select, children using reinterpretChildren.induct with
  | case1 select => rw [reinterpretChildren]
  | case2 select field token rest ih =>
      rw [reinterpretChildren, List.any_cons, List.any_cons, ih]
  | case3 select field kind span children rest outer inner =>
      rw [reinterpretChildren, List.any_cons, List.any_cons, inner]
      congr 1
      split
      · rfl
      · split
        · rfl
        · next reading same =>
            obtain ⟨before, after⟩ := typeReading?_error same
            rw [isBroken_branch, isBroken_branch, outer reading, beq_false_of_ne before,
              beq_false_of_ne after]

/-- Reading a node as a type keeps its error nodes. -/
theorem isBroken_reinterpretAsType (field other : Option Field) (node : Node) :
    (ofNode field node.reinterpretAsType).isBroken = (ofNode other node).isBroken := by
  unfold Node.reinterpretAsType
  cases found : typeReading? node.kind with
  | none => rfl
  | some reading =>
      obtain ⟨before, after⟩ := typeReading?_error found
      change (branch field reading.kind _ (reinterpretChildren reading.select node.children)).isBroken
        = (branch other node.kind node.span node.children).isBroken
      rw [isBroken_branch, isBroken_branch, any_reinterpretChildren, beq_false_of_ne before,
        beq_false_of_ne after]

/-- Taking a node apart keeps the error nodes inside it. -/
theorem any_asParameterList (node : Node) :
    node.asParameterList.any isBroken = node.children.any isBroken := by
  rw [Node.asParameterList, List.any_map]
  congr 1
  funext child
  cases child with
  | leaf field token => rfl
  | branch field kind span children =>
      exact isBroken_reinterpretAsType (some .parameters) field ⟨kind, span, children⟩

theorem any_replaceLastSignificant {change : Child → List Child} {latest : List Child}
    (kept : ∀ child, latest.find? isSignificant = some child → child.isBroken = true →
      (change child).any isBroken = true)
    (broken : latest.any isBroken = true) :
    (replaceLastSignificant change latest).any isBroken = true := by
  induction latest with
  | nil => cases broken
  | cons child earlier ih =>
      rw [List.any_cons, Bool.or_eq_true] at broken
      rw [replaceLastSignificant]
      split
      · next significant =>
          rw [List.any_append, List.any_reverse, Bool.or_eq_true]
          exact broken.imp_left (kept child (List.find?_cons_of_pos significant))
      · next insignificant =>
          rw [List.any_cons, Bool.or_eq_true]
          refine broken.imp_right (ih fun last found => kept last ?_)
          rw [List.find?_cons_of_neg insignificant, found]

end Child

namespace Segment

variable {segment inner : Segment}

def isBroken (segment : Segment) : Bool := segment.latest.any Child.isBroken

theorem isBroken_flush (broken : segment.isBroken = true) : segment.flush.isBroken = true := by
  unfold isBroken flush at *
  rw [List.any_append, broken, Bool.or_true]

theorem isBroken_bumpAs (change : Token → Token) (broken : segment.isBroken = true) :
    (segment.bumpAs change).isBroken = true := by
  have flushed := isBroken_flush broken
  unfold bumpAs
  change (if segment.flush.cursor.isAtEnd then segment.flush else _ : Segment).isBroken = true
  split
  · exact flushed
  · unfold isBroken at *
    rw [List.any_cons, flushed, Bool.or_true]

theorem isBroken_after (broken : inner.isBroken = true) :
    (inner.after segment).isBroken = true := by
  unfold isBroken after at *
  rw [List.any_append, broken, Bool.true_or]

theorem isBroken_enclosed (kind : NodeKind) (position : Nat) (broken : inner.isBroken = true) :
    (inner.enclosed kind position).isBroken = true := by
  unfold isBroken at *
  change [Child.branch none kind _ inner.latest.reverse].any Child.isBroken = true
  rw [List.any_cons, Child.isBroken_branch, List.any_reverse, broken, Bool.or_true, Bool.true_or]

theorem isBroken_apply {around : Surroundings} {move : Move}
    (suits : move.Suits (segment.view around)) (broken : segment.isBroken = true) :
    (segment.apply around move).isBroken = true := by
  cases move with
  | bump => exact isBroken_bumpAs id broken
  | bumpKeyword => exact isBroken_bumpAs (fun token => token.retag .keyword) broken
  | tag field =>
      refine Child.any_replaceLastSignificant (fun child _ own => ?_) broken
      rw [List.any_cons, Child.isBroken_withField, own]
      rfl
  | reinterpretLast =>
      refine Child.any_replaceLastSignificant (fun child _ own => ?_) broken
      cases child with
      | leaf field token => cases own
      | branch field kind span children =>
          change [Child.ofNode field (Node.reinterpretAsType ⟨kind, span, children⟩)].any
            Child.isBroken = true
          rw [List.any_cons, Child.isBroken_reinterpretAsType field field]
          exact Bool.or_eq_true_iff.mpr (Or.inl own)
  | spliceParameters =>
      refine Child.any_replaceLastSignificant (fun child found own => ?_) broken
      cases child with
      | leaf field token => cases own
      | branch field kind span children =>
          -- The node that is taken apart holds parentheses and is no error node itself.
          have last : lastKindAfter around.before segment.latest = some .parenthesizedExpression :=
            suits
          unfold lastKindAfter at last
          rw [found] at last
          cases last
          rw [Child.isBroken_branch] at own
          exact (Child.any_asParameterList _).trans own
  | report complaint => exact broken

theorem isBroken_recover (resync : Bool) (around : Surroundings) (position : Nat)
    (error : SyntaxError) : (inner.recover resync around position error).isBroken = true := by
  obtain ⟨count, -, recovers, -⟩ := recover_alone (.refl inner.cursor) resync position
  rw [(recovers around error).1]
  rfl

/-- Whether an error node that an earlier segment holds is still there in a later one. -/
def KeepsBroken (earlier later : Segment) : Prop := earlier.isBroken = true → later.isBroken = true

theorem keepsBroken_preserving (resync : Bool)
    (enter : Entry → Surroundings → Segment → Reading Unit) :
    Preserving resync enter KeepsBroken where
  refl _ := id
  trans front back := back ∘ front
  apply _ _ _ suits := isBroken_apply suits
  after := by
    intro segment inner _ broken
    unfold isBroken after
    rw [List.any_append, Bool.or_eq_true]
    exact Or.inr (isBroken_flush broken)
  enclosed position _ kept broken := isBroken_enclosed _ position (kept broken)
  token position _ _ _ _ broken := isBroken_enclosed _ position (isBroken_bumpAs id broken)
  block position _ _ _ kept broken := isBroken_enclosed _ position (kept broken)
  quick position _ _ _ _ kept broken := isBroken_enclosed _ position (kept broken)
  recover around position error _ _ _ := isBroken_recover resync around position error

end Segment

/-! ### Readings with and without declarations -/

namespace Reading

variable {α β : Type}

def IsBroken (reading : Reading α) : Prop :=
  reading.Satisfies (fun _ later => later.isBroken = true) (fun later => later.isBroken = true)

/-- Two readings that are the same, or both hold an error node. -/
def Agrees (left right : Reading α) : Prop := left = right ∨ left.IsBroken ∧ right.IsBroken

theorem IsBroken.after {reading : Reading α} (broken : reading.IsBroken) (earlier : Segment) :
    (reading.after earlier).IsBroken :=
  satisfies_after.mpr (broken.weaken (fun _ _ => Segment.isBroken_after)
    (fun _ => Segment.isBroken_after))

theorem IsBroken.enclosed {reading : Reading α} (broken : reading.IsBroken) (kind : NodeKind)
    (position : Nat) : (reading.enclosed kind position).IsBroken :=
  satisfies_enclosed.mpr (broken.weaken (fun _ _ => Segment.isBroken_enclosed kind position)
    (fun _ => id))

theorem Agrees.after {left right : Reading α} (agrees : left.Agrees right) (earlier : Segment) :
    (left.after earlier).Agrees (right.after earlier) :=
  agrees.imp (congrArg (Reading.after earlier))
    (fun broken => ⟨broken.1.after earlier, broken.2.after earlier⟩)

theorem Agrees.enclosed {left right : Reading α} (agrees : left.Agrees right) (kind : NodeKind)
    (position : Nat) : (left.enclosed kind position).Agrees (right.enclosed kind position) :=
  agrees.imp (congrArg (Reading.enclosed kind position))
    (fun broken => ⟨broken.1.enclosed kind position, broken.2.enclosed kind position⟩)

/-- What becomes of the body of a guard after a segment: where it failed, it is an error node. -/
def caught (resync : Bool) (around : Surroundings) (segment : Segment) : Reading Unit → Reading Unit
  | .done _ inner => .done () (inner.after segment.flush)
  | .failed error inner =>
      .done () ((inner.recover resync (segment.flush.atMark around) segment.flush.cursor.position
        error).after segment.flush)

theorem IsBroken.caught {reading : Reading Unit} (broken : reading.IsBroken) (resync : Bool)
    (around : Surroundings) (segment : Segment) : (caught resync around segment reading).IsBroken := by
  cases reading with
  | done value inner => exact Segment.isBroken_after broken
  | failed error inner =>
      exact Segment.isBroken_after (Segment.isBroken_recover resync _ _ error)

/-- Guards agree wherever their skipping ends, since a body that failed leaves an error node. -/
theorem agrees_caught {left right : Reading Unit} (first second : Bool) {around : Surroundings}
    (segment : Segment) (agrees : left.Agrees right) :
    (caught first around segment left).Agrees (caught second around segment right) := by
  rcases agrees with rfl | broken
  · cases left with
    | done value inner => exact Or.inl rfl
    | failed error inner =>
        exact Or.inr ⟨Segment.isBroken_after (Segment.isBroken_recover first _ _ error),
          Segment.isBroken_after (Segment.isBroken_recover second _ _ error)⟩
  · exact Or.inr ⟨broken.1.caught first around segment, broken.2.caught second around segment⟩

def StepKeeps (step : Segment → Reading Bool) : Prop :=
  ∀ segment, segment.cursor.Proper → (step segment).Satisfies
    (fun _ later => later.cursor.Proper ∧ segment.KeepsBroken later)
    (fun later => later.cursor.Proper ∧ segment.KeepsBroken later)

/-- A loop with an error node in front of it, or in its first round, ends with one. -/
theorem StepKeeps.staysBroken {step : Segment → Reading Bool} (keeps : StepKeeps step)
    {segment : Segment} (proper : segment.cursor.Proper) (broken : (step segment).IsBroken)
    (bound : List Stop) : (Reading.iterate step bound segment).IsBroken := by
  let holds (later : Segment) : Prop := later.cursor.Proper ∧ later.isBroken = true
  -- Each round ends so, whether it is the last one or not.
  have each {later : Segment} (ends : (step later).Satisfies (fun _ => holds)
      (fun last => last.isBroken = true)) : (step later).Satisfies
        (fun goesOn last => if goesOn then holds last else holds last)
        (fun last => last.isBroken = true) := by
    refine ends.weaken (fun goesOn last held => ?_) (fun _ => id)
    rw [ite_self]
    exact held
  have first : (step segment).Satisfies (fun _ => holds) (fun last => last.isBroken = true) :=
    (broken.and (keeps segment proper)).weaken (fun _ _ both => ⟨both.2.1, both.1⟩)
      (fun _ => And.left)
  have further (later : Segment) (held : holds later) :
      (step later).Satisfies (fun _ => holds) (fun last => last.isBroken = true) :=
    (keeps later held.1).weaken (fun _ _ kept => ⟨kept.1, kept.2 held.2⟩)
      (fun _ kept => kept.2 held.2)
  have looped : (Reading.iterate step bound segment).Satisfies (fun _ => holds)
      (fun last => last.isBroken = true) :=
    satisfies_iterate (each first) (fun later held => each (further later held)) (fun _ => id) bound
  exact looped.weaken (fun _ _ => And.right) (fun _ => id)

/-- Two loops whose rounds agree agree. -/
theorem agrees_iterate {left right : Segment → Reading Bool}
    (agree : ∀ segment, segment.cursor.Proper → (left segment).Agrees (right segment))
    (leftKeeps : StepKeeps left) (rightKeeps : StepKeeps right) (bound : List Stop)
    {segment : Segment} (proper : segment.cursor.Proper) :
    (iterate left bound segment).Agrees (iterate right bound segment) := by
  induction bound generalizing segment with
  | nil =>
      rcases agree segment proper with same | broken
      · unfold iterate
        rw [same]
        exact Or.inl rfl
      · exact Or.inr ⟨leftKeeps.staysBroken proper broken.1 [],
          rightKeeps.staysBroken proper broken.2 []⟩
  | cons stop rest ih =>
      rcases agree segment proper with same | broken
      · have kept := rightKeeps segment proper
        unfold iterate
        rw [same]
        cases taken : right segment with
        | failed error later => exact Or.inl rfl
        | done goesOn later =>
            rw [taken] at kept
            cases goesOn with
            | false => exact Or.inl rfl
            | true => exact ih kept.1
      · exact Or.inr ⟨leftKeeps.staysBroken proper broken.1 _,
          rightKeeps.staysBroken proper broken.2 _⟩

end Reading

/-- What entries are relied on for: with and without declarations they agree. -/
def EntriesAgree (left right : Entry → Surroundings → Segment → Reading Unit) : Prop :=
  ∀ entry around segment, segment.cursor.Proper →
    (left entry around segment).Agrees (right entry around segment)

namespace Production

variable {enter other : Entry → Surroundings → Segment → Reading Unit}

theorem read_caught (resync : Bool) (body : Production Unit) (around : Surroundings)
    (segment : Segment) :
    (guarded body).read resync enter around segment =
      Reading.caught resync around segment
        (body.read resync enter (segment.flush.following around) segment.flush.emptied) := by
  rw [read_guarded]
  cases body.read resync enter (segment.flush.following around) segment.flush.emptied <;> rfl

theorem Canonical.keepsBroken {α : Type} {production : Production α} {resync : Bool}
    (entries : EntriesKeep Segment.KeepsBroken enter) {around : Surroundings} {segment : Segment}
    (canonical : production.Canonical (segment.view around)) (proper : segment.cursor.Proper) :
    (production.read resync enter around segment).Satisfies
      (fun _ later => later.cursor.Proper ∧ segment.KeepsBroken later)
      (fun later => later.cursor.Proper ∧ segment.KeepsBroken later) :=
  canonical.preserves (Segment.keepsBroken_preserving resync enter) entries proper

/-- A canonical sequence with an error node in its first part ends with one. -/
theorem Canonical.staysBroken {α β : Type} {first : Production α} {next : α → Production β}
    {resync : Bool} (entries : EntriesKeep Segment.KeepsBroken enter) {around : Surroundings}
    {segment : Segment} (canonical : (first >>= next).Canonical (segment.view around))
    (proper : segment.cursor.Proper)
    (broken : (first.read resync enter around segment).IsBroken) :
    ((first >>= next).read resync enter around segment).IsBroken := by
  have leading : (first.read resync enter around segment).Satisfies _ _ :=
    read_leads first around segment
  have reaching : (first.read resync enter around segment).Satisfies _ _ :=
    Canonical.keepsBroken entries canonical.1 proper
  have front := ((broken.and reaching).and leading).weaken (fun _ _ => id)
    (fun _ ends => ends.1.1)
  rw [read_bind]
  refine front.andThen ?_
  rintro value reached ⟨⟨held, reachedProper, -⟩, leads⟩
  have onward : ((next value).read resync enter around reached).Satisfies _ _ :=
    Canonical.keepsBroken entries (canonical.2 value _ leads) reachedProper
  exact onward.weaken (fun _ _ kept => kept.2 held) (fun _ kept => kept.2 held)

/-- Two readings of a canonical production that resynchronize differently are the same, or both hold an
error node. -/
theorem Canonical.agrees {α : Type} {production : Production α} (left right : Bool)
    (entries : EntriesKeep Segment.KeepsBroken enter)
    (others : EntriesKeep Segment.KeepsBroken other) (agree : EntriesAgree enter other)
    {around : Surroundings} {segment : Segment}
    (canonical : production.Canonical (segment.view around)) (proper : segment.cursor.Proper) :
    (production.read left enter around segment).Agrees
      (production.read right other around segment) := by
  induction production generalizing around segment with
  | pure | look | act | refuse => exact Or.inl rfl
  | bind first next ihFirst ihNext =>
      rcases ihFirst canonical.1 proper with same | broken
      · have leading : (first.read right other around segment).Satisfies _ _ :=
          read_leads first around segment
        have reaching : (first.read right other around segment).Satisfies _ _ :=
          Canonical.keepsBroken others canonical.1 proper
        rw [read, read, same]
        cases taken : first.read right other around segment with
        | failed error reached => exact Or.inl rfl
        | done value reached =>
            rw [taken] at leading reaching
            exact ihNext value (canonical.2 value _ leading) reaching.1
      · exact Or.inr ⟨canonical.staysBroken entries proper broken.1,
          canonical.staysBroken others proper broken.2⟩
  | within change body ih => exact ih (canonical _) proper
  | opened body ih => exact ih (canonical _) proper
  | node kind body ih =>
      rw [read, read]
      exact ((ih (canonical.2 _) (proper_emptied proper)).enclosed kind _).after _
  | marked body ih =>
      rw [read, read]
      exact (ih (canonical _) (proper_emptied proper)).after _
  | wrap kind body ih =>
      rw [read, read]
      exact (ih (canonical.2 _) proper).enclosed kind _
  | guarded body ih =>
      rw [read_caught, read_caught]
      exact Reading.agrees_caught left right segment (ih (canonical _) (proper_emptied proper))
  | repeatedly body ih =>
      rw [read, read]
      refine Reading.agrees_iterate (fun later => ih (canonical _)) ?_ ?_ _ proper
      · exact fun later => Canonical.keepsBroken entries (canonical _)
      · exact fun later => Canonical.keepsBroken others (canonical _)
  | enter entry => exact agree entry around segment proper

end Production

/-! ### The two parses of a source -/

theorem readEntry_agrees (left right : Bool) (depth : Nat) :
    EntriesAgree (readEntry left depth) (readEntry right depth) := by
  have keeps (resync : Bool) (depth : Nat) :
      EntriesKeep Segment.KeepsBroken (readEntry resync depth) :=
    readEntry_preserves (fun depth => Segment.keepsBroken_preserving resync (readEntry resync depth))
      depth
  induction depth with
  | zero => exact fun _ _ _ _ => Or.inl rfl
  | succ depth ih =>
      exact fun entry around segment proper =>
        Production.Canonical.agrees left right (keeps left depth) (keeps right depth) ih
          (Production.canonical_ofEntry entry) proper

/-- What two readings of a source have read in the end is the same, or both hold an error node. -/
theorem readSource_agrees (source : List Char) (left right : Bool) :
    readSource left source = readSource right source ∨
      (readSource left source).isBroken = true ∧ (readSource right source).isBroken = true := by
  have keeps (resync : Bool) :
      EntriesKeep Segment.KeepsBroken (readEntry resync (nestingOf source)) :=
    readEntry_preserves (fun depth => Segment.keepsBroken_preserving resync (readEntry resync depth))
      _
  have agrees : (sourceReading left source).Agrees (sourceReading right source) :=
    Production.Canonical.agrees left right (keeps left) (keeps right)
      (readEntry_agrees left right (nestingOf source)) Production.canonical_sourceFile
      (TokenCursor.ofTokens_proper _ _)
  have flushed {resync : Bool} (broken : (sourceReading resync source).IsBroken) :
      (readSource resync source).isBroken = true := by
    unfold readSource
    generalize sourceReading resync source = reading at broken
    cases reading with
    | done value last => exact Segment.isBroken_flush broken
    | failed error last => exact Segment.isBroken_flush broken
  rcases agrees with same | broken
  · left
    unfold readSource
    rw [same]
  · exact Or.inr ⟨flushed broken.1, flushed broken.2⟩

/-- A source that was read with an error node has one in its tree. -/
theorem not_broken {options : ParseOptions} {source : List Char}
    (valid : ∀ node ∈ (parse options source).tree.descendants, node.kind ≠ .error) :
    (readSource options.resyncOnDeclaration source).isBroken = false := by
  rw [parse_tree, Node.descendants_eq, Node.preorder] at valid
  unfold Segment.isBroken
  rw [← List.any_reverse, ← Child.any_preorderOfList, List.any_eq_false]
  intro node member error
  exact valid node (List.mem_cons_of_mem _ member) (eq_of_beq error)

/-- Whether the start of a declaration ends the skipping matters only where something is skipped: if one of
the two trees holds no error node, the parses are the same. -/
theorem parse_resync_irrelevant (limit : Option Nat) (source : List Char)
    (valid : (∀ node ∈ (parse ⟨limit, true⟩ source).tree.descendants, node.kind ≠ .error) ∨
      ∀ node ∈ (parse ⟨limit, false⟩ source).tree.descendants, node.kind ≠ .error) :
    parse ⟨limit, true⟩ source = parse ⟨limit, false⟩ source := by
  rcases readSource_agrees source true false with same | ⟨left, right⟩
  · unfold parse
    simp only [parsed_eq, same]
  · rcases valid with valid | valid
    · exact absurd left (Bool.eq_false_iff.mp (not_broken valid))
    · exact absurd right (Bool.eq_false_iff.mp (not_broken valid))

/-- A declaration without its semicolon is reported and leaves no error node. -/
theorem parse_resync_irrelevant_semicolon :
    (∀ node ∈ (parse ⟨none, true⟩ "x := 1\ny := 2;".toList).tree.descendants,
        node.kind ≠ .error) ∧
      (parse ⟨none, true⟩ "x := 1\ny := 2;".toList).errors.length = 1 ∧
      parse ⟨none, true⟩ "x := 1\ny := 2;".toList =
        parse ⟨none, false⟩ "x := 1\ny := 2;".toList := by
  have valid : ∀ node ∈ (parse ⟨none, true⟩ "x := 1\ny := 2;".toList).tree.descendants,
      node.kind ≠ .error := by
    decide +kernel
  refine ⟨valid, ?_, parse_resync_irrelevant none _ (Or.inl valid)⟩
  rw [parse_errors, (sortErrors_perm _ _).length_eq]
  decide +kernel

end JaiSyntax
