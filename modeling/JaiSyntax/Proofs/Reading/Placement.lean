import JaiSyntax.Proofs.Reading.Keeping
import JaiSyntax.Proofs.Type.Kinds
/-!
Types in their places. A node records types under some of its fields, and no expression stands there.
A production that labels nothing under these fields but a type it has just read keeps it so, wherever it
fails; what entries read is a parameter.
-/

set_option autoImplicit false

namespace JaiSyntax

namespace NodeKind

def typeFields : NodeKind → List Field
  | .variableDeclaration | .constDeclaration | .parameter | .namedReturn | .castExpression =>
      [.type, .result]
  | .arrayType => [.element, .result]
  | _ => [.result]

/-- The kinds that record types under a field that other nodes use for values as well. -/
def isTyped (kind : NodeKind) : Bool := kind.typeFields != [.result]

end NodeKind

namespace Field

/-- Whether a field is kept for types: that of results always, those of types and elements where it is
open yet which node they are for. -/
def isForTypes (strict : Bool) : Field → Bool
  | .result => true
  | .type | .element => strict
  | _ => false

theorem isForTypes_strict {field : Field} {strict : Bool} (types : field.isForTypes strict = true) :
    field.isForTypes true = true := by
  cases strict with
  | true => exact types
  | false => cases field <;> first | rfl | cases types

theorem isForTypes_free {field : Field} {strict : Bool} (free : field.isForTypes true = false) :
    field.isForTypes strict = false := by
  rw [Bool.eq_false_iff] at free ⊢
  exact fun types => free (isForTypes_strict types)

theorem isForTypes_loose {field : Field} :
    field.isForTypes false = true ↔ field = .result := by
  cases field <;> simp [isForTypes]

theorem result_mem_typeFields (kind : NodeKind) : .result ∈ kind.typeFields := by
  unfold NodeKind.typeFields
  split <;> simp

theorem isForTypes_typeFields {kind : NodeKind} {field : Field}
    (recorded : field ∈ kind.typeFields) : field.isForTypes kind.isTyped = true := by
  unfold NodeKind.isTyped
  unfold NodeKind.typeFields at recorded ⊢
  split at recorded <;> simp at recorded <;> rcases recorded with rfl | rfl <;> rfl

end Field

/-! ### Children in their places -/

namespace Child

/-- Whether a child under a field that asks for a type is no expression. -/
def Fits (asks : Field → Bool) (child : Child) : Prop :=
  ∀ field node, child.field? = some field → asks field = true → child.node? = some node →
    node.kind.isValue = false

variable {asks other : Field → Bool} {child : Child}

theorem Fits.weaken (fits : child.Fits asks)
    (less : ∀ field, other field = true → asks field = true) : child.Fits other :=
  fun field node labelled asked => fits field node labelled (less field asked)

theorem fits_leaf (field : Option Field) (token : Token) : (leaf field token).Fits asks := by
  intro role node _ _ none
  cases none

theorem fits_unlabelled (unlabelled : child.field? = none) : child.Fits asks := by
  intro field node labelled
  rw [unlabelled] at labelled
  cases labelled

theorem fits_under {field : Field} (unasked : asks field = false)
    (labelled : child.field? = some field) : child.Fits asks := by
  intro role node same asked
  rw [labelled, Option.some.injEq] at same
  rw [← same, unasked] at asked
  cases asked

theorem fits_type {field : Option Field} {kind : NodeKind} {span : Span} {children : List Child}
    (type : kind.isValue = false) : (branch field kind span children).Fits asks := by
  rintro role node - - same
  cases same
  exact type

end Child

def Node.KeepsTypes (node : Node) : Prop :=
  ∀ child ∈ node.children, child.Fits (fun field => node.kind.typeFields.contains field)

structure Child.InPlace (asks : Field → Bool) (child : Child) : Prop where
  fits : child.Fits asks
  below : child.Throughout Node.KeepsTypes

theorem Node.keepsTypes_of_fits {node : Node}
    (fits : ∀ child ∈ node.children, child.Fits (Field.isForTypes node.kind.isTyped)) :
    node.KeepsTypes := by
  intro child member
  refine (fits child member).weaken (fun field recorded => ?_)
  exact Field.isForTypes_typeFields (List.contains_iff_mem.mp recorded)

namespace Child

variable {asks other : Field → Bool} {child : Child}

theorem InPlace.weaken (place : child.InPlace asks)
    (less : ∀ field, other field = true → asks field = true) : child.InPlace other :=
  ⟨place.fits.weaken less, place.below⟩

theorem inPlace_leaf (field : Option Field) (token : Token) : (leaf field token).InPlace asks :=
  ⟨fits_leaf field token, throughout_leaf field token⟩

theorem inPlace_branch {field : Option Field} {kind : NodeKind} {span : Span}
    {children : List Child} (fits : (branch field kind span children).Fits asks)
    (inner : ∀ child ∈ children, child.InPlace (Field.isForTypes kind.isTyped)) :
    (branch field kind span children).InPlace asks := by
  refine ⟨fits, throughout_branch.mpr ⟨?_, fun child member => (inner child member).below⟩⟩
  exact Node.keepsTypes_of_fits (fun child member => (inner child member).fits)

/-- Among the children of a node that is in its place, at least the results are no expressions. -/
theorem InPlace.inner {field : Option Field} {kind : NodeKind} {span : Span}
    {children : List Child} (place : (branch field kind span children).InPlace asks) :
    ∀ child ∈ children, child.InPlace (Field.isForTypes false) := by
  obtain ⟨own, below⟩ := throughout_branch.mp place.below
  intro child member
  refine ⟨(own child member).weaken (fun role asked => ?_), below child member⟩
  rw [Field.isForTypes_loose.mp asked, List.contains_iff_mem]
  exact Field.result_mem_typeFields kind

theorem inPlace_extra (extra : Extra) : extra.child.InPlace asks := by
  cases extra with
  | token single => exact inPlace_leaf none single
  | deprecated group =>
      have literal : ∀ tokens : List Token, (Child.ofNode (some .message)
          (.build .string (tokens.map (Child.leaf none)) 0)).InPlace (Field.isForTypes false) :=
        fun tokens => inPlace_branch (fits_type rfl) (forall_leaves (inPlace_leaf none) tokens)
      exact inPlace_branch (fits_unlabelled rfl) (forall_noticeChildren (inPlace_leaf none)
        (fun _ _ _ _ _ => literal _) none group nofun)

end Child

/-! ### Expressions read as types -/

/-- Whether children are recorded as results only if they were before. -/
def KeepsResults (select : Option Field → Option (Option Field)) : Prop :=
  ∀ field, select field = some (some .result) → field = some .result

/-- An expression that reads as a type becomes a type, and its results stay what they are. -/
theorem typeReading_keeps {kind : NodeKind} {reading : TypeReading}
    (found : typeReading? kind = some reading) :
    reading.kind.isValue = false ∧ reading.kind.isTyped = false ∧
      KeepsResults reading.select := by
  unfold typeReading? at found
  split at found
  · cases found
    refine ⟨rfl, rfl, fun field selected => ?_⟩
    by_cases function : field = some .function <;> simp [function] at selected
  · cases found
    refine ⟨rfl, rfl, fun field selected => ?_⟩
    by_cases object : field = some .object <;> simp [object] at selected
  · cases found
    exact ⟨rfl, rfl, fun field selected => Option.some.inj selected⟩
  · cases found

namespace Child

variable {asks : Field → Bool}

theorem inPlace_relabelled {field newField : Option Field} {kind : NodeKind} {span : Span}
    {children : List Child}
    (place : (branch field kind span children).InPlace (Field.isForTypes false))
    (kept : newField = some .result → field = some .result) :
    (branch newField kind span children).InPlace (Field.isForTypes false) := by
  refine ⟨fun role node labelled asked same => ?_, place.below⟩
  obtain rfl := Field.isForTypes_loose.mp asked
  exact place.fits .result node (kept labelled) asked same

theorem inPlace_reinterpretChildren (select : Option Field → Option (Option Field))
    (children : List Child) (keeps : KeepsResults select)
    (places : ∀ child ∈ children, child.InPlace (Field.isForTypes false)) :
    ∀ child ∈ reinterpretChildren select children, child.InPlace (Field.isForTypes false) := by
  induction select, children using reinterpretChildren.induct with
  | case1 select =>
      rw [reinterpretChildren]
      exact places
  | case2 select field token rest ih =>
      rw [reinterpretChildren]
      obtain ⟨-, later⟩ := List.forall_mem_cons.mp places
      exact List.forall_mem_cons.mpr ⟨inPlace_leaf field token, ih keeps later⟩
  | case3 select field kind span children rest inner ih =>
      obtain ⟨first, later⟩ := List.forall_mem_cons.mp places
      rw [reinterpretChildren]
      refine List.forall_mem_cons.mpr ⟨?_, ih keeps later⟩
      split
      · exact first
      · next newField selected =>
          split
          · exact inPlace_relabelled first (fun same => keeps field (same ▸ selected))
          · next reading found =>
              obtain ⟨type, loose, further⟩ := typeReading_keeps found
              apply inPlace_branch (fits_type type)
              rw [loose]
              exact inner reading further first.inner

theorem inPlace_reinterpretAsType {field : Option Field} {node : Node}
    (place : (ofNode field node).InPlace asks) :
    (ofNode field node.reinterpretAsType).InPlace asks := by
  unfold Node.reinterpretAsType
  cases found : typeReading? node.kind with
  | none => exact place
  | some reading =>
      obtain ⟨type, loose, keeps⟩ := typeReading_keeps found
      apply inPlace_branch (fits_type type)
      rw [loose]
      exact inPlace_reinterpretChildren _ _ keeps place.inner

theorem inPlace_asParameterList {field : Option Field} {node : Node} {strict : Bool}
    (place : (ofNode field node).InPlace asks) :
    ∀ child ∈ node.asParameterList, child.InPlace (Field.isForTypes strict) := by
  intro child member
  obtain ⟨part, inside, rfl⟩ := List.mem_map.mp member
  cases part with
  | leaf role token => exact inPlace_leaf role token
  | branch role kind span children =>
      have read : (ofNode role (Node.mk kind span children).reinterpretAsType).InPlace _ :=
        inPlace_reinterpretAsType (place.inner _ inside)
      exact ⟨fits_under rfl (Child.field?_ofNode (some .parameters) _), read.below⟩

end Child

/-! ### Segments with everything in its place -/

structure Segment.InPlace (asks : Field → Bool) (segment : Segment) : Prop where
  proper : segment.cursor.Proper
  children : ∀ child ∈ segment.latest, child.InPlace asks

namespace Segment

variable {asks other : Field → Bool} {segment inner : Segment}

theorem InPlace.weaken (place : segment.InPlace asks)
    (less : ∀ field, other field = true → asks field = true) : segment.InPlace other :=
  ⟨place.proper, fun child member => (place.children child member).weaken less⟩

theorem InPlace.unasked (place : segment.InPlace asks) : segment.InPlace (fun _ => false) :=
  place.weaken (fun _ absurd => by cases absurd)

theorem inPlace_emptied (proper : segment.cursor.Proper) :
    segment.flush.emptied.InPlace asks :=
  ⟨Production.proper_emptied proper, fun child member => by cases member⟩

theorem InPlace.flush (place : segment.InPlace asks) : segment.flush.InPlace asks := by
  refine ⟨place.proper.withoutGap, fun child member => ?_⟩
  rcases List.mem_append.mp member with extra | earlier
  · rw [List.mem_reverse, List.mem_map] at extra
    obtain ⟨extra, -, rfl⟩ := extra
    exact Child.inPlace_extra extra
  · exact place.children child earlier

theorem InPlace.after (place : segment.InPlace asks) (added : inner.InPlace asks) :
    (inner.after segment).InPlace asks := by
  refine ⟨added.proper, fun child member => ?_⟩
  rcases List.mem_append.mp member with later | earlier
  · exact added.children child later
  · exact place.children child earlier

theorem InPlace.enclosed {kind : NodeKind} (place : segment.InPlace (Field.isForTypes kind.isTyped))
    (position : Nat) : (segment.enclosed kind position).InPlace asks := by
  refine ⟨place.proper, List.forall_mem_singleton.mpr ?_⟩
  apply Child.inPlace_branch (Child.fits_unlabelled rfl)
  exact fun child member => place.children child (List.mem_reverse.mp member)

theorem InPlace.bumpAs (place : segment.InPlace asks) (change : Token → Token) :
    (segment.bumpAs change).InPlace asks := by
  have proper : (segment.bumpAs change).cursor.Proper := by
    rw [cursor_bumpAs, ← cursor_bumpAs segment id]
    exact (continues_bump place.proper).proper place.proper
  refine ⟨proper, ?_⟩
  unfold Segment.bumpAs
  change ∀ child ∈ (if segment.flush.cursor.isAtEnd then _ else _ : Segment).latest, _
  split
  · exact place.flush.children
  · exact List.forall_mem_cons.mpr ⟨Child.inPlace_leaf none _, place.flush.children⟩

theorem InPlace.mapLast (place : segment.InPlace asks) {change : Child → List Child}
    (kept : ∀ child, child.InPlace asks → segment.latest.find? Child.isSignificant = some child →
      ∀ part ∈ change child, part.InPlace asks) :
    (segment.mapLatest (replaceLastSignificant change)).InPlace asks := by
  refine ⟨place.proper, ?_⟩
  have places := place.children
  unfold mapLatest
  generalize segment.latest = latest at kept places
  induction latest with
  | nil => exact List.forall_mem_nil _
  | cons child rest ih =>
      obtain ⟨first, later⟩ := List.forall_mem_cons.mp places
      dsimp only at ih ⊢
      rw [replaceLastSignificant]
      by_cases significant : child.isSignificant = true
      · rw [if_pos significant]
        intro part member
        rcases List.mem_append.mp member with own | earlier
        · refine kept child first ?_ part (List.mem_reverse.mp own)
          rw [List.find?_cons_of_pos significant]
        · exact later part earlier
      · rw [if_neg significant]
        rw [List.find?_cons_of_neg significant] at kept
        exact List.forall_mem_cons.mpr ⟨first, ih kept later⟩

theorem InPlace.bumps (place : segment.InPlace asks) (count : Nat) :
    (segment.bumps count).InPlace asks := by
  induction count generalizing segment with
  | zero => exact place
  | succ count ih => exact ih (place.bumpAs id)

theorem InPlace.recover (place : segment.InPlace (fun _ => false)) (resync : Bool)
    (around : Surroundings) (position : Nat) (error : SyntaxError) :
    (segment.recover resync around position error).InPlace asks := by
  obtain ⟨count, -, recovers, -⟩ := recover_alone (.refl segment.cursor) resync position
  rw [(recovers around error).1]
  have cleared : (segment.mapLatest (List.map (Child.withField none))).InPlace
      (Field.isForTypes NodeKind.error.isTyped) := by
    refine ⟨place.proper, fun child member => ?_⟩
    obtain ⟨before, inside, rfl⟩ := List.mem_map.mp member
    exact ⟨Child.fits_unlabelled (Child.field?_withField none before),
      throughout_withField.mpr (place.children before inside).below⟩
  have node : Segment.InPlace asks _ := (cleared.bumps count).enclosed (segment.start around)
  exact ⟨node.proper, node.children⟩

end Segment

def Move.labelsType (strict : Bool) : Move → Bool
  | .tag field => field.isForTypes strict
  | _ => false

/-- A move that labels nothing as a type keeps everything in its place. -/
theorem Segment.InPlace.apply {segment : Segment} {strict : Bool}
    (place : segment.InPlace (Field.isForTypes strict)) (around : Surroundings) {move : Move}
    (free : move.labelsType strict = false) :
    (segment.apply around move).InPlace (Field.isForTypes strict) := by
  cases move with
  | bump => exact place.bumpAs id
  | bumpKeyword => exact place.bumpAs (fun token => token.retag .keyword)
  | tag field =>
      refine place.mapLast (fun child before _ => List.forall_mem_singleton.mpr ?_)
      exact ⟨Child.fits_under free (Child.field?_withField _ _), throughout_withField.mpr before.below⟩
  | reinterpretLast =>
      refine place.mapLast (fun child before _ => ?_)
      cases child with
      | leaf field token => exact List.forall_mem_singleton.mpr before
      | branch field kind span children =>
          exact List.forall_mem_singleton.mpr (Child.inPlace_reinterpretAsType before)
  | spliceParameters =>
      refine place.mapLast (fun child before _ => ?_)
      cases child with
      | leaf field token => exact List.forall_mem_singleton.mpr before
      | branch field kind span children => exact Child.inPlace_asParameterList before
  | report complaint => exact ⟨place.proper, place.children⟩

theorem Segment.InPlace.tag {segment : Segment} {asks : Field → Bool} {earlier : List Child}
    (place : segment.InPlace asks) (around : Surroundings)
    (type : segment.Yields (fun node => node.kind.isValue = false) earlier) (field : Field) :
    (segment.apply around (.tag field)).InPlace asks := by
  obtain ⟨node, same, type⟩ := type
  refine place.mapLast (fun child before last => List.forall_mem_singleton.mpr ?_)
  have head : segment.latest.find? Child.isSignificant = some (Child.ofNode none node) := by
    rw [← List.head?_filter]
    exact congrArg List.head? same
  rw [head, Option.some.injEq] at last
  subst last
  exact ⟨Child.fits_type type, throughout_withField.mpr before.below⟩

/-! ### Productions that place types -/

/-- What entries are relied on for: they keep everything in its place, and a type is none of the kinds
that only an expression has. -/
structure EntriesPlace (enter : Entry → Surroundings → Segment → Reading Unit) : Prop where
  keep : ∀ (strict : Bool) (entry : Entry) (around : Surroundings) (segment : Segment),
    segment.InPlace (Field.isForTypes strict) →
      (enter entry around segment).Satisfies (fun _ later => later.InPlace (Field.isForTypes strict))
        (Segment.InPlace (fun _ => false))
  name : TypesName enter

namespace Production

variable {α β : Type} {strict : Bool}

/-- Whether a production keeps everything in its place. Where it fails, no field is kept. -/
def KeepsPlaces (strict : Bool) (production : Production α) : Prop :=
  ∀ (resync : Bool) (enter : Entry → Surroundings → Segment → Reading Unit), EntriesPlace enter →
    ∀ (around : Surroundings) (segment : Segment), segment.InPlace (Field.isForTypes strict) →
      (production.read resync enter around segment).Satisfies
        (fun _ later => later.InPlace (Field.isForTypes strict)) (Segment.InPlace (fun _ => false))

/-- Whether a production labels nothing under a field that is kept for types. A sequence that does may
keep everything in its place as a whole. Inside a node the fields are those of its kind; between a mark
and the node around what follows it they are those of any kind. -/
def Places (strict : Bool) {α : Type} (production : Production α) : Prop :=
  match production with
  | .pure _ | .look _ | .refuse _ | .enter _ => True
  | .act move => move.labelsType strict = false
  | .bind first next =>
      (first.Places strict ∧ ∀ value, (next value).Places strict) ∨
        (Production.bind first next).KeepsPlaces strict
  | .within _ body | .opened body | .repeatedly body => body.Places strict
  | .marked body | .guarded body => body.Places true
  | .node kind body => body.Places kind.isTyped
  | .wrap kind body => (kind.isTyped = true → strict = true) ∧ body.Places kind.isTyped
termination_by structural production

theorem keepsPlaces_bind {first : Production α} {next : α → Production β}
    (front : first.KeepsPlaces strict) (further : ∀ value, (next value).KeepsPlaces strict) :
    (first >>= next).KeepsPlaces strict := by
  intro resync enter entries around segment place
  rw [read_bind]
  refine (front resync enter entries around segment place).andThen (fun value later reached => ?_)
  exact further value resync enter entries around later reached

theorem reads_wrap {kind : NodeKind} {body : Production α} (inside : body.KeepsPlaces kind.isTyped)
    {resync : Bool} {enter : Entry → Surroundings → Segment → Reading Unit}
    (entries : EntriesPlace enter) (around : Surroundings) {segment : Segment}
    (place : segment.InPlace (Field.isForTypes kind.isTyped)) (asks : Field → Bool) :
    ((wrap kind body).read resync enter around segment).Satisfies (fun _ later => later.InPlace asks)
      (Segment.InPlace (fun _ => false)) := by
  rw [read_wrap]
  refine Reading.satisfies_enclosed.mpr ?_
  refine (inside resync enter entries around.first segment place).weaken ?_ (fun _ => id)
  exact fun _ inner reached => reached.enclosed _

theorem keepsPlaces_wrap {kind : NodeKind} {body : Production α}
    (inside : body.KeepsPlaces kind.isTyped) (enough : kind.isTyped = true → strict = true) :
    (wrap kind body).KeepsPlaces strict := by
  intro resync enter entries around segment place
  refine reads_wrap inside entries around (place.weaken (fun field types => ?_)) _
  cases typed : kind.isTyped with
  | true =>
      rw [enough typed]
      exact Field.isForTypes_strict types
  | false =>
      rw [typed, Field.isForTypes_loose] at types
      exact types ▸ rfl

/-- A production that labels nothing as a type but what it read as one keeps everything in its place. -/
theorem Places.keeps {production : Production α} (places : production.Places strict) :
    production.KeepsPlaces strict := by
  induction production generalizing strict with
  | pure value => exact fun _ _ _ _ _ place => place
  | look seen => exact fun _ _ _ _ _ place => place
  | refuse complaint => exact fun _ _ _ _ _ place => place.unasked
  | act move =>
      rw [Places] at places
      exact fun _ _ _ around _ place => place.apply around places
  | enter entry => exact fun _ _ entries around segment => entries.keep strict entry around segment
  | bind first next ihFirst ihNext =>
      rw [Places] at places
      -- A type and its label keep everything in its place only together.
      rcases places with ⟨front, further⟩ | whole
      · exact keepsPlaces_bind (ihFirst front) (fun value => ihNext value (further value))
      · exact whole
  | within change body ih =>
      rw [Places] at places
      intro resync enter entries around segment place
      rw [read]
      exact ih places resync enter entries _ segment place
  | opened body ih =>
      rw [Places] at places
      intro resync enter entries around segment place
      rw [read]
      exact ih places resync enter entries _ segment place
  | node kind body ih =>
      rw [Places] at places
      intro resync enter entries around segment place
      rw [read_node]
      refine Reading.satisfies_after.mpr (Reading.satisfies_enclosed.mpr ?_)
      refine (ih places resync enter entries _ _ (Segment.inPlace_emptied place.proper)).weaken ?_ ?_
      · exact fun _ inner reached => place.flush.after (reached.enclosed _)
      · exact fun inner failed => place.flush.unasked.after failed
  | marked body ih =>
      rw [Places] at places
      intro resync enter entries around segment place
      rw [read_marked]
      refine Reading.satisfies_after.mpr ?_
      -- Behind a mark it is open which node the children are for, so they are in place for each kind.
      refine (ih places resync enter entries _ _ (Segment.inPlace_emptied place.proper)).weaken ?_ ?_
      · exact fun _ inner reached => place.flush.after (reached.weaken (fun _ => Field.isForTypes_strict))
      · exact fun inner failed => place.flush.unasked.after failed
  | wrap kind body ih =>
      rw [Places] at places
      exact keepsPlaces_wrap (ih places.2) places.1
  | guarded body ih =>
      rw [Places] at places
      intro resync enter entries around segment place
      rw [read_guarded]
      have tried := ih places resync enter entries (segment.flush.following around) _
        (Segment.inPlace_emptied place.proper)
      split
      · next inner same =>
          rw [same] at tried
          have kept : inner.InPlace (Field.isForTypes true) := tried
          exact place.flush.after (kept.weaken (fun _ => Field.isForTypes_strict))
      · next error inner same =>
          rw [same] at tried
          have failed : inner.InPlace (fun _ => false) := tried
          exact place.flush.after (failed.recover resync _ _ error)
  | repeatedly body ih =>
      rw [Places] at places
      intro resync enter entries around segment place
      rw [read_repeatedly]
      exact Reading.satisfies_iterate_of_kept place (ih places resync enter entries around) _

end Production

end JaiSyntax
