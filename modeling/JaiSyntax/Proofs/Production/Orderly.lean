import JaiSyntax.Production.Basic
/-!
Orderly productions. An orderly production turns only words into keywords, labels only what it has
read itself, opens a node around its own mark only, and closes no node that holds nothing significant
or ends in layout. What it may rely on is the view and what was read so far; the predicate runs
backwards through the production, from what has to hold after it.
-/

set_option autoImplicit false

namespace JaiSyntax

namespace View

def next (view : View) (previous : TokenKind) (last : Option NodeKind) : View :=
  { view with
    kindAt := fun distance => view.kindAt (distance + 1)
    textAt := fun distance => view.textAt (distance + 1)
    previous := previous
    lastNode := last }

def withLast (view : View) (last : Option NodeKind) : View := { view with lastNode := last }

def withContext (view : View) (context : Context) : View := { view with context := context }

@[simp] theorem kindAt_next (view : View) (previous : TokenKind) (last : Option NodeKind)
    (distance : Nat) : (view.next previous last).kindAt distance = view.kindAt (distance + 1) := rfl

@[simp] theorem textAt_next (view : View) (previous : TokenKind) (last : Option NodeKind)
    (distance : Nat) : (view.next previous last).textAt distance = view.textAt (distance + 1) := rfl

@[simp] theorem kind_next (view : View) (previous : TokenKind) (last : Option NodeKind) :
    (view.next previous last).kind = view.kindAt 1 := rfl

@[simp] theorem kindAt_withLast (view : View) (last : Option NodeKind) (distance : Nat) :
    (view.withLast last).kindAt distance = view.kindAt distance := rfl

@[simp] theorem textAt_withLast (view : View) (last : Option NodeKind) (distance : Nat) :
    (view.withLast last).textAt distance = view.textAt distance := rfl

@[simp] theorem kind_withLast (view : View) (last : Option NodeKind) :
    (view.withLast last).kind = view.kind := rfl

@[simp] theorem kindAt_withContext (view : View) (context : Context) (distance : Nat) :
    (view.withContext context).kindAt distance = view.kindAt distance := rfl

@[simp] theorem textAt_withContext (view : View) (context : Context) (distance : Nat) :
    (view.withContext context).textAt distance = view.textAt distance := rfl

@[simp] theorem kind_withContext (view : View) (context : Context) :
    (view.withContext context).kind = view.kind := rfl

end View

/-- What was read since the innermost node was opened or the innermost mark was set: nothing that is
significant, something significant with layout perhaps behind it, or something significant at the
very end. -/
inductive Coverage where
  | nothing | loose | tight
  deriving DecidableEq

namespace Coverage

def isSome : Coverage → Bool
  | .nothing => false
  | .loose | .tight => true

def loosened : Coverage → Coverage
  | .nothing => .nothing
  | .loose | .tight => .loose

@[simp] theorem isSome_tight : Coverage.tight.isSome = true := rfl

@[simp] theorem isSome_loosened (covered : Coverage) : covered.loosened.isSome = covered.isSome := by
  cases covered <;> rfl

theorem isSome_of_tight {covered : Coverage} (tight : covered = .tight) : covered.isSome = true := by
  rw [tight]
  rfl

theorem loosened_ne_tight (covered : Coverage) : covered.loosened ≠ .tight := by
  cases covered <;> nofun

/-- What one coverage says another one says too. -/
instance : LE Coverage where
  le less more := (less.isSome = true → more.isSome = true) ∧ (less = .tight → more = .tight)

protected theorem le_refl (covered : Coverage) : covered ≤ covered := ⟨id, id⟩

theorem le_of_tight {less more : Coverage} (tight : more = .tight) : less ≤ more :=
  ⟨fun _ => isSome_of_tight tight, fun _ => tight⟩

theorem loose_le {covered : Coverage} (some : covered.isSome = true) : .loose ≤ covered :=
  ⟨fun _ => some, nofun⟩

end Coverage

/-- What is known at a place inside a production: the view, and what was read since the innermost node
was opened or the innermost mark was set. -/
structure Place where
  view : View
  covered : Coverage

namespace Place

/-- What was read once the current token is consumed. At the end of the file there is none, but the
layout before it is read. -/
def bumped (place : Place) : Coverage :=
  if place.view.kind = .eof then place.covered.loosened else .tight

def Permits (place : Place) (after : Place → Prop) : Move → Prop
  | .bump => ∀ previous last, after ⟨place.view.next previous last, place.bumped⟩
  | .bumpKeyword =>
      place.view.kind = .ident ∧ ∀ previous last, after ⟨place.view.next previous last, .tight⟩
  | .tag _ => place.covered.isSome = true ∧ after place
  | .reinterpretLast =>
      place.covered.isSome = true ∧ ∀ last, after ⟨place.view.withLast last, place.covered⟩
  | .spliceParameters =>
      place.covered.isSome = true ∧ ∀ last, after ⟨place.view.withLast last, .nothing⟩
  | .report _ => after place

def inside (place : Place) : Place := ⟨place.view.withLast none, .nothing⟩

def closed (place : Place) (kind : NodeKind) : Place := ⟨place.view.withLast (some kind), .tight⟩

def withContext (place : Place) (context : Context) : Place :=
  ⟨place.view.withContext context, place.covered⟩

def marked (place : Place) : Place := ⟨place.view, .nothing⟩

theorem bumped_of_token {place : Place} (notEnd : place.view.kind ≠ .eof) :
    place.bumped = .tight :=
  if_neg notEnd

theorem isSome_bumped {place : Place}
    (some : place.covered.isSome = true ∨ place.view.kind ≠ .eof) : place.bumped.isSome = true := by
  unfold bumped
  split
  · next ended =>
      rw [Coverage.isSome_loosened]
      exact some.resolve_right (fun token => token ended)
  · rfl

end Place

namespace Production

/-- Whether a production is orderly at a place where `marked` says that its mark is its own, and ends
where `after` holds. Its nodes are of the kinds that `allowed` holds of and end in something
significant. The rounds of a loop that go on keep some coverage, a guard stands before a token that can
start a statement, and an entry covers something. -/
def Orderly (allowed : NodeKind → Prop) {α : Type} (production : Production α) (marked : Bool)
    (after : α → Place → Prop) (place : Place) : Prop :=
  match production with
  | .pure value => after value place
  | .bind first next =>
      Orderly allowed first marked
        (fun value reached => Orderly allowed (next value) marked after reached) place
  | .look read => after (read place.view) place
  | .act move => place.Permits (after ()) move
  | .refuse _ => True
  | .within change body =>
      Orderly allowed body marked
        (fun value reached => after value (reached.withContext place.view.context))
        (place.withContext (change place.view.context))
  | .node kind body =>
      allowed kind ∧
        Orderly allowed body false
          (fun value reached => reached.covered = .tight ∧ after value (reached.closed kind))
          place.inside
  | .marked body => Orderly allowed body true after place.marked
  | .wrap kind body =>
      marked = true ∧ allowed kind ∧
        ∀ last,
          Orderly allowed body false
            (fun value reached => reached.covered = .tight ∧ after value (reached.closed kind))
            ⟨place.view.withLast last, place.covered⟩
  | .opened body => Orderly allowed body marked after place
  | .guarded body =>
      place.view.kind ≠ .eof ∧ place.view.kind ≠ .semicolon ∧
        Orderly allowed body false (fun _ reached => reached.covered = .tight) place.marked ∧
          ∀ view, after () ⟨view, .tight⟩
  | .repeatedly body =>
      Orderly allowed body marked
        (fun goesOn reached =>
          if goesOn then
            ∃ kept, kept ≤ reached.covered ∧
              (∀ view, Orderly allowed body marked (fun _ later => kept ≤ later.covered)
                ⟨view, kept⟩) ∧
              ∀ view, after () ⟨view, kept⟩
          else after () reached)
        place
  | .enter _ => ∀ view, after () ⟨view, .tight⟩
termination_by structural production

section Rules

variable {allowed : NodeKind → Prop} {marked : Bool} {α β : Type} {place : Place}

/-! ### One rule for each part -/

@[simp] theorem orderly_pure {after : α → Place → Prop} (value : α) :
    (Pure.pure value : Production α).Orderly allowed marked after place ↔ after value place :=
  Iff.rfl

@[simp] theorem orderly_bind {after : β → Place → Prop} (first : Production α)
    (next : α → Production β) :
    (first >>= next).Orderly allowed marked after place ↔
      first.Orderly allowed marked
        (fun value reached => (next value).Orderly allowed marked after reached) place :=
  Iff.rfl

@[simp] theorem orderly_look {after : α → Place → Prop} (read : View → α) :
    (look read).Orderly allowed marked after place ↔ after (read place.view) place :=
  Iff.rfl

@[simp] theorem orderly_refuse {after : α → Place → Prop} (complaint : Complaint) :
    (refuse complaint : Production α).Orderly allowed marked after place ↔ True :=
  Iff.rfl

@[simp] theorem orderly_enter {after : Unit → Place → Prop} (entry : Entry) :
    (enter entry).Orderly allowed marked after place ↔ ∀ view, after () ⟨view, .tight⟩ :=
  Iff.rfl

@[simp] theorem orderly_within {after : α → Place → Prop} (change : Context → Context)
    (body : Production α) :
    (within change body).Orderly allowed marked after place ↔
      body.Orderly allowed marked
        (fun value reached => after value (reached.withContext place.view.context))
        (place.withContext (change place.view.context)) :=
  Iff.rfl

@[simp] theorem orderly_node {after : α → Place → Prop} (kind : NodeKind) (body : Production α) :
    (node kind body).Orderly allowed marked after place ↔
      allowed kind ∧
        body.Orderly allowed false
          (fun value reached => reached.covered = .tight ∧ after value (reached.closed kind))
          place.inside :=
  Iff.rfl

@[simp] theorem orderly_marked {after : α → Place → Prop} (body : Production α) :
    (Production.marked body).Orderly allowed marked after place ↔
      body.Orderly allowed true after place.marked :=
  Iff.rfl

@[simp] theorem orderly_wrap {after : α → Place → Prop} (kind : NodeKind) (body : Production α) :
    (wrap kind body).Orderly allowed marked after place ↔
      marked = true ∧ allowed kind ∧
        ∀ last,
          body.Orderly allowed false
            (fun value reached => reached.covered = .tight ∧ after value (reached.closed kind))
            ⟨place.view.withLast last, place.covered⟩ :=
  Iff.rfl

@[simp] theorem orderly_opened {after : α → Place → Prop} (body : Production α) :
    (opened body).Orderly allowed marked after place ↔
      body.Orderly allowed marked after place :=
  Iff.rfl

@[simp] theorem orderly_guarded {after : Unit → Place → Prop} (body : Production Unit) :
    (guarded body).Orderly allowed marked after place ↔
      place.view.kind ≠ .eof ∧ place.view.kind ≠ .semicolon ∧
        body.Orderly allowed false (fun _ reached => reached.covered = .tight) place.marked ∧
          ∀ view, after () ⟨view, .tight⟩ :=
  Iff.rfl

@[simp] theorem orderly_repeatedly {after : Unit → Place → Prop} (body : Production Bool) :
    (repeatedly body).Orderly allowed marked after place ↔
      body.Orderly allowed marked
        (fun goesOn reached =>
          if goesOn then
            ∃ kept, kept ≤ reached.covered ∧
              (∀ view, body.Orderly allowed marked (fun _ later => kept ≤ later.covered)
                ⟨view, kept⟩) ∧
              ∀ view, after () ⟨view, kept⟩
          else after () reached)
        place :=
  Iff.rfl

end Rules

/-- What holds after an orderly production may be weakened. -/
theorem Orderly.weaken {allowed : NodeKind → Prop} {α : Type} {production : Production α}
    {marked : Bool} {after later : α → Place → Prop} {place : Place}
    (orderly : production.Orderly allowed marked after place)
    (weaker : ∀ value reached, after value reached → later value reached) :
    production.Orderly allowed marked later place := by
  induction production generalizing marked place with
  | pure value =>
      rw [Orderly] at orderly ⊢
      exact weaker value place orderly
  | bind first next ihFirst ihNext =>
      rw [Orderly] at orderly ⊢
      exact ihFirst orderly (fun value reached ordered => ihNext value ordered weaker)
  | look read =>
      rw [Orderly] at orderly ⊢
      exact weaker _ _ orderly
  | act move =>
      rw [Orderly] at orderly ⊢
      cases move with
      | bump => exact fun previous last => weaker _ _ (orderly previous last)
      | bumpKeyword => exact ⟨orderly.1, fun previous last => weaker _ _ (orderly.2 previous last)⟩
      | tag field => exact ⟨orderly.1, weaker _ _ orderly.2⟩
      | reinterpretLast => exact ⟨orderly.1, fun last => weaker _ _ (orderly.2 last)⟩
      | spliceParameters => exact ⟨orderly.1, fun last => weaker _ _ (orderly.2 last)⟩
      | report complaint => exact weaker _ _ orderly
  | refuse complaint =>
      rw [Orderly]
      trivial
  | within change body ih =>
      rw [Orderly] at orderly ⊢
      exact ih orderly (fun value reached => weaker value _)
  | node kind body ih =>
      rw [Orderly] at orderly ⊢
      exact ⟨orderly.1, ih orderly.2 (fun value reached both => ⟨both.1, weaker value _ both.2⟩)⟩
  | marked body ih =>
      rw [Orderly] at orderly ⊢
      exact ih orderly weaker
  | wrap kind body ih =>
      rw [Orderly] at orderly ⊢
      exact ⟨orderly.1, orderly.2.1, fun last =>
        ih (orderly.2.2 last) (fun value reached both => ⟨both.1, weaker value _ both.2⟩)⟩
  | opened body ih =>
      rw [Orderly] at orderly ⊢
      exact ih orderly weaker
  | guarded body ih =>
      rw [Orderly] at orderly ⊢
      exact ⟨orderly.1, orderly.2.1, orderly.2.2.1, fun view => weaker _ _ (orderly.2.2.2 view)⟩
  | repeatedly body ih =>
      rw [Orderly] at orderly ⊢
      refine ih orderly (fun goesOn reached ended => ?_)
      cases goesOn with
      | false => exact weaker _ _ ended
      | true =>
          obtain ⟨kept, least, rounds, further⟩ := ended
          exact ⟨kept, least, rounds, fun view => weaker _ _ (further view)⟩
  | enter entry =>
      rw [Orderly] at orderly ⊢
      exact fun view => weaker _ _ (orderly view)

def Covers (allowed : NodeKind → Prop) {α : Type} (production : Production α) (marked : Bool)
    (place : Place) : Prop :=
  production.Orderly allowed marked (fun _ reached => reached.covered = .tight) place

section Covers

variable {allowed : NodeKind → Prop} {marked : Bool} {α β : Type} {place : Place}

theorem Covers.orderly {production : Production α} {after : α → Place → Prop}
    (covers : production.Covers allowed marked place)
    (further : ∀ value view, after value ⟨view, .tight⟩) :
    production.Orderly allowed marked after place := by
  apply covers.weaken
  rintro value ⟨view, covered⟩ same
  subst same
  exact further value view

theorem covers_pure (covered : place.covered = .tight) (value : α) :
    (Pure.pure value : Production α).Covers allowed marked place :=
  (orderly_pure value).mpr covered

theorem covers_bind {first : Production α} {next : α → Production β}
    (front : first.Covers allowed marked place)
    (back : ∀ value view, (next value).Covers allowed marked ⟨view, .tight⟩) :
    (first >>= next).Covers allowed marked place :=
  (orderly_bind first next).mpr (front.orderly back)

@[simp] theorem covers_look_bind (read : View → α) (next : α → Production β) :
    (look read >>= next).Covers allowed marked place ↔
      (next (read place.view)).Covers allowed marked place := by
  simp [Covers]

theorem covers_refuse (complaint : Complaint) :
    (refuse complaint : Production α).Covers allowed marked place :=
  (orderly_refuse complaint).mpr trivial

theorem covers_refuse_bind (complaint : Complaint) (next : α → Production β) :
    (refuse complaint >>= next).Covers allowed marked place := by
  simp [Covers]

theorem covers_enter (entry : Entry) : (enter entry).Covers allowed marked place :=
  (orderly_enter entry).mpr (fun _ => rfl)

theorem covers_bump (notEnd : place.view.kind ≠ .eof) : bump.Covers allowed marked place :=
  fun _ _ => Place.bumped_of_token notEnd

/-- What covers something wherever it stands may follow a token that may be the last one. -/
theorem covers_bump_bind {next : Unit → Production α}
    (further : ∀ reached, (next ()).Covers allowed marked reached) :
    (bump >>= next).Covers allowed marked place :=
  (orderly_bind _ _).mpr (fun _ _ => further _)

theorem covers_bumpKeyword (word : place.view.kind = .ident) :
    bumpKeyword.Covers allowed marked place :=
  ⟨word, fun _ _ => rfl⟩

theorem covers_tag (covered : place.covered = .tight) (field : Field) :
    (tag field).Covers allowed marked place :=
  ⟨Coverage.isSome_of_tight covered, covered⟩

theorem covers_tag_bind {field : Field} {next : Unit → Production α} (covered : place.covered = .tight)
    (further : (next ()).Covers allowed marked place) :
    (tag field >>= next).Covers allowed marked place :=
  (orderly_bind _ _).mpr ⟨Coverage.isSome_of_tight covered, further⟩

theorem covers_report (covered : place.covered = .tight) (complaint : Complaint) :
    (act (.report complaint)).Covers allowed marked place :=
  covered

theorem covers_within {change : Context → Context} {body : Production α}
    (inner : body.Covers allowed marked (place.withContext (change place.view.context))) :
    (within change body).Covers allowed marked place :=
  (orderly_within change body).mpr inner

theorem covers_node {kind : NodeKind} {body : Production α} (permitted : allowed kind)
    (inner : body.Covers allowed false place.inside) :
    (node kind body).Covers allowed marked place :=
  (orderly_node kind body).mpr
    ⟨permitted, inner.weaken (fun _ _ covered => ⟨covered, rfl⟩)⟩

theorem covers_marked {body : Production α} (inner : body.Covers allowed true place.marked) :
    (Production.marked body).Covers allowed marked place :=
  (orderly_marked body).mpr inner

theorem covers_wrap {kind : NodeKind} {body : Production α} (permitted : allowed kind)
    (inner : ∀ last, body.Covers allowed false ⟨place.view.withLast last, place.covered⟩) :
    (wrap kind body).Covers allowed true place :=
  (orderly_wrap kind body).mpr
    ⟨rfl, permitted, fun last => (inner last).weaken (fun _ _ covered => ⟨covered, rfl⟩)⟩

theorem covers_opened {body : Production α} (inner : body.Covers allowed marked place) :
    (opened body).Covers allowed marked place :=
  (orderly_opened body).mpr inner

theorem covers_guarded {body : Production Unit} (notEnd : place.view.kind ≠ .eof)
    (notSemicolon : place.view.kind ≠ .semicolon)
    (inner : body.Covers allowed false place.marked) :
    (guarded body).Covers allowed marked place :=
  (orderly_guarded body).mpr ⟨notEnd, notSemicolon, inner, fun _ => rfl⟩

theorem covers_repeatedly {body : Production Bool} (covered : place.covered = .tight)
    (inner : ∀ view, body.Covers allowed marked ⟨view, .tight⟩) :
    (repeatedly body).Covers allowed marked place := by
  rcases place with ⟨start, flag⟩
  cases covered
  refine (orderly_repeatedly body).mpr ((inner start).orderly (fun goesOn view => ?_))
  cases goesOn with
  | false => rfl
  | true =>
      refine ⟨.tight, Coverage.le_refl _, fun later => ?_, fun _ => rfl⟩
      exact (inner later).weaken (fun _ _ covered => Coverage.le_of_tight covered)

end Covers

end Production

end JaiSyntax
