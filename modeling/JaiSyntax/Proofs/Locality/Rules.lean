import JaiSyntax.Proofs.Locality.Outlook
import JaiSyntax.Proofs.Production.Coverage
/-!
Rules for local productions. Most productions stay before the semicolon and consume a token; one rule
for each small part of the grammar says so, and the productions are put together from them.
-/

set_option autoImplicit false

namespace JaiSyntax

namespace View

theorem solid_of_kind {view : View} {kind : TokenKind} (same : view.kind = kind)
    (solid : kind.isSolid = true) : view.kind.isSolid = true := by
  rw [same]
  exact solid

theorem solid_of_isAt {view : View} {kind : TokenKind} (found : view.isAt kind = true)
    (solid : kind.isSolid = true) : view.kind.isSolid = true :=
  solid_of_kind (kind_of_isAt found) solid

end View

namespace Outlook

variable {horizon : Horizon}

/-- A place before the semicolon with at least `least` tokens behind it. -/
structure Near (outlook : Outlook horizon) (least : Nat) : Prop where
  notPast : outlook.past = false
  least : least ≤ outlook.taken

/-- A place with more than `least` tokens behind it, whose last node is shared. -/
structure Behind (outlook : Outlook horizon) (least : Nat) : Prop where
  more : least < outlook.taken
  settled : outlook.settled = true

structure Within (outlook : Outlook horizon) (least : Nat) : Prop extends
    outlook.Behind least where
  notPast : outlook.past = false

variable {outlook later : Outlook horizon} {least : Nat}

namespace Within

theorem near (within : outlook.Within least) : outlook.Near least :=
  ⟨within.notPast, Nat.le_of_lt within.more⟩

/-- The place as the start of a round that has to consume a token. -/
theorem again (within : outlook.Within least) : outlook.Near outlook.taken :=
  ⟨within.notPast, Nat.le_refl _⟩

theorem some (within : outlook.Within least) : 0 < outlook.taken :=
  Nat.zero_lt_of_lt within.more

theorem withLast (within : outlook.Within least) (last : Option NodeKind) :
    (outlook.withLast last true).Within least :=
  ⟨⟨within.more, rfl⟩, within.notPast⟩

theorem withContext (within : outlook.Within least) (context : Context) :
    (outlook.withContext context).Within least :=
  ⟨⟨within.more, within.settled⟩, within.notPast⟩

/-- A later place is behind what an earlier one is behind. -/
theorem trans (further : later.Within outlook.taken) (within : outlook.Within least) :
    later.Within least :=
  ⟨⟨Nat.lt_trans within.more further.more, further.settled⟩, further.notPast⟩

end Within

theorem Near.withLast (near : outlook.Near least) (last : Option NodeKind) (settled : Bool) :
    (outlook.withLast last settled).Near least :=
  ⟨near.notPast, near.least⟩

theorem Near.inside (near : outlook.Near least) : (outlook.withLast none true).Near least :=
  near.withLast none true

theorem Near.withContext (near : outlook.Near least) (context : Context) :
    (outlook.withContext context).Near least :=
  ⟨near.notPast, near.least⟩

/-- The place after a token that is neither a semicolon nor the end of the file. -/
theorem Bumps.within (bumps : outlook.Bumps later) (near : outlook.Near least)
    (solid : outlook.view.kind.isSolid = true) : later.Within least := by
  obtain ⟨notSemicolon, notEnd⟩ := TokenKind.isSolid_iff.mp solid
  have taken := bumps.taken
  rw [if_neg notEnd] at taken
  have before := near.least
  constructor
  · exact ⟨by omega, bumps.settled notEnd⟩
  · rw [bumps.past, beq_eq_false_iff_ne.mpr notSemicolon, Bool.and_false]

theorem Bumps.kindAt (bumps : outlook.Bumps later) (distance : Nat) :
    later.view.kindAt distance = outlook.view.kindAt (distance + 1) := by
  obtain ⟨previous, last, view⟩ := bumps.view
  rw [view]
  rfl

/-! ### What is shared -/

namespace Near

variable {other : View}

theorem kind (near : outlook.Near least) (agrees : outlook.Agrees other) :
    other.kind = outlook.view.kind :=
  (agrees.ahead near.notPast 0 (fun _ absurd => (Nat.not_lt_zero _ absurd).elim)).1

theorem text (near : outlook.Near least) (agrees : outlook.Agrees other) :
    other.text = outlook.view.text :=
  (agrees.ahead near.notPast 0 (fun _ absurd => (Nat.not_lt_zero _ absurd).elim)).2

/-- The token after one that is no semicolon is shared. -/
theorem next (near : outlook.Near least) (agrees : outlook.Agrees other)
    (more : outlook.view.kind ≠ .semicolon) :
    other.kindAt 1 = outlook.view.kindAt 1 ∧ other.textAt 1 = outlook.view.textAt 1 := by
  apply agrees.ahead near.notPast
  intro nearer before
  obtain rfl : nearer = 0 := by omega
  exact more

theorem shows_kind (near : outlook.Near least) : outlook.Shows (fun view => view.kind) :=
  fun _ agrees => near.kind agrees

theorem shows_text (near : outlook.Near least) : outlook.Shows (fun view => view.text) :=
  fun _ agrees => near.text agrees

theorem shows_isAt (near : outlook.Near least) (kind : TokenKind) :
    outlook.Shows (fun view => view.isAt kind) := by
  intro other agrees
  simp only [View.isAt, near.kind agrees]

theorem shows_endsAt (near : outlook.Near least) (close : TokenKind) :
    outlook.Shows (fun view => view.endsAt close) := by
  intro other agrees
  simp only [View.endsAt, View.isAtEnd, View.isAt, near.kind agrees]

theorem shows_isWordIn (near : outlook.Near least) (words : List String) :
    outlook.Shows (fun view => view.isWordIn words) := by
  intro other agrees
  simp only [View.isWordIn, View.isAt, near.kind agrees, near.text agrees]

theorem shows_isDirectiveIn (near : outlook.Near least) (names : List String) :
    outlook.Shows (fun view => view.isDirectiveIn names) := by
  intro other agrees
  simp only [View.isDirectiveIn, View.isAt, near.kind agrees, near.text agrees]

theorem shows_kindAt_one (near : outlook.Near least) (more : outlook.view.kind ≠ .semicolon) :
    outlook.Shows (fun view => view.kindAt 1) :=
  fun _ agrees => (near.next agrees more).1

end Near

section Conditions

variable {first second : View → Bool}

theorem shows_not (shows : outlook.Shows first) : outlook.Shows (fun view => !first view) := by
  intro other agrees
  simp only [shows other agrees]

/-- A second condition matters only where the first one holds. -/
theorem shows_and (shows : outlook.Shows first)
    (further : first outlook.view = true → outlook.Shows second) :
    outlook.Shows (fun view => first view && second view) := by
  intro other agrees
  simp only [shows other agrees]
  cases holds : first outlook.view with
  | false => rfl
  | true => simp only [further holds other agrees]

theorem shows_or (shows : outlook.Shows first)
    (further : first outlook.view = false → outlook.Shows second) :
    outlook.Shows (fun view => first view || second view) := by
  intro other agrees
  simp only [shows other agrees]
  cases holds : first outlook.view with
  | true => rfl
  | false => simp only [further holds other agrees]

end Conditions

theorem Near.shows_next (near : outlook.Near least) {condition : View → Bool} {kind : TokenKind}
    (shows : outlook.Shows condition)
    (more : condition outlook.view = true → outlook.view.kind ≠ .semicolon) :
    outlook.Shows (fun view => condition view && view.kindAt 1 == kind) := by
  apply shows_and shows
  intro holds other agrees
  simp only [(near.next agrees (more holds)).1]

theorem Near.shows_isWordAt (near : outlook.Near least) (word : String) :
    outlook.Shows (fun view => view.isWordAt 0 word) := by
  intro other agrees
  have kind : other.kindAt 0 = outlook.view.kindAt 0 := near.kind agrees
  have text : other.textAt 0 = outlook.view.textAt 0 := near.text agrees
  simp only [View.isWordAt, kind, text]

theorem Near.shows_isNameBefore (near : outlook.Near least) (kind : TokenKind) :
    outlook.Shows (fun view => view.isNameBefore kind) := by
  apply near.shows_next (near.shows_isAt .ident)
  intro name
  rw [View.kind_of_isAt name]
  decide

end Outlook

namespace Production

open Outlook

variable {horizon : Horizon} {setting : Setting} {least : Nat} {α β : Type}
  {outlook : Outlook horizon}

/-- A local production that consumes a token and stays before the semicolon. -/
def Stays (setting : Setting) (least : Nat) (production : Production α)
    (outlook : Outlook horizon) : Prop :=
  production.Local horizon setting (fun _ reached => reached.Within least) outlook

/-! ### Sequences -/

theorem stays_pure (within : outlook.Within least) (value : α) :
    (Pure.pure value : Production α).Stays setting least outlook :=
  within

theorem stays_pure_bind {next : α → Production β} {value : α}
    (further : (next value).Stays setting least outlook) :
    (Pure.pure value >>= next).Stays setting least outlook :=
  further

/-- What follows a production that stays runs from where that one ends. -/
theorem Stays.andThen {first : Production α} {next : α → Production β}
    {after : β → Outlook horizon → Prop} (front : first.Stays setting least outlook)
    (back : ∀ value later, later.Within least →
      (next value).Local horizon setting after later) :
    (first >>= next).Local horizon setting after outlook :=
  (local_bind first next).mpr (front.weaken back)

theorem stays_bind {first : Production α} {next : α → Production β}
    (front : first.Stays setting least outlook)
    (back : ∀ value (later : Outlook horizon), later.Within least →
      (next value).Stays setting least later) :
    (first >>= next).Stays setting least outlook :=
  front.andThen back

theorem stays_look_bind {read : View → α} {next : α → Production β}
    (shows : outlook.Shows read) (further : (next (read outlook.view)).Stays setting least outlook) :
    (look read >>= next).Stays setting least outlook :=
  (local_look_bind read next).mpr ⟨shows, further⟩

theorem stays_refuse (near : outlook.Near least) (expectation : Expectation) :
    (refuse (.expected expectation) : Production α).Stays setting least outlook :=
  ⟨near.notPast, nofun⟩

theorem stays_refuse_bind {next : α → Production β} (near : outlook.Near least)
    (expectation : Expectation) :
    (refuse (.expected expectation) >>= next).Stays setting least outlook :=
  ⟨near.notPast, nofun⟩

theorem stays_discard {production : Production α}
    (stays : production.Stays setting least outlook) :
    (discard production).Stays setting least outlook :=
  stays_bind stays (fun _ _ within => stays_pure within ())

/-! ### Moves -/

theorem stays_bump (near : outlook.Near least) (solid : outlook.view.kind.isSolid = true) :
    bump.Stays setting least outlook :=
  ⟨near.notPast, fun _ bumps => bumps.within near solid⟩

theorem stays_bumpKeyword (near : outlook.Near least)
    (solid : outlook.view.kind.isSolid = true) : bumpKeyword.Stays setting least outlook :=
  ⟨near.notPast, fun _ bumps => bumps.within near solid⟩

theorem stays_bumpKeyword_bind {next : Unit → Production β} (near : outlook.Near least)
    (solid : outlook.view.kind.isSolid = true)
    (further : ∀ later : Outlook horizon, later.Within least →
      (∀ distance, later.view.kindAt distance = outlook.view.kindAt (distance + 1)) →
      (next ()).Stays setting least later) :
    (bumpKeyword >>= next).Stays setting least outlook :=
  ⟨near.notPast, fun later bumps => further later (bumps.within near solid) bumps.kindAt⟩

/-- A production after a token, with the tokens that follow it. -/
theorem stays_bump_bind {next : Unit → Production β} (near : outlook.Near least)
    (solid : outlook.view.kind.isSolid = true)
    (further : ∀ later : Outlook horizon, later.Within least →
      (∀ distance, later.view.kindAt distance = outlook.view.kindAt (distance + 1)) →
      (next ()).Stays setting least later) :
    (bump >>= next).Stays setting least outlook :=
  ⟨near.notPast, fun later bumps => further later (bumps.within near solid) bumps.kindAt⟩

theorem stays_tag (within : outlook.Within least) (field : Field) :
    (tag field).Stays setting least outlook :=
  within

/-- A field moves nothing. -/
theorem stays_tag_bind {field : Field} {next : Unit → Production β}
    (further : (next ()).Stays setting least outlook) :
    (tag field >>= next).Stays setting least outlook :=
  further

theorem stays_bumpTagged (near : outlook.Near least)
    (solid : outlook.view.kind.isSolid = true) (field : Field) :
    (bumpTagged field).Stays setting least outlook :=
  stays_bind (stays_bump near solid) (fun _ _ within => stays_tag within field)

theorem stays_bumpTagged_bind {field : Field} {next : Unit → Production β}
    (near : outlook.Near least) (solid : outlook.view.kind.isSolid = true)
    (further : ∀ later : Outlook horizon, later.Within least →
      (∀ distance, later.view.kindAt distance = outlook.view.kindAt (distance + 1)) →
      (next ()).Stays setting least later) :
    (bumpTagged field >>= next).Stays setting least outlook :=
  ⟨near.notPast, fun later bumps => further later (bumps.within near solid) bumps.kindAt⟩

/-- Some tokens, each consumed like a single one. -/
theorem stays_times (body : Production Unit)
    (moves : ∀ (after : Unit → Outlook horizon → Prop) (place : Outlook horizon),
      bump.Local horizon setting after place → body.Local horizon setting after place)
    (count : Nat) (within : outlook.Within least)
    (solid : ∀ distance, distance < count → (outlook.view.kindAt distance).isSolid = true) :
    (times count body).Stays setting least outlook := by
  induction count generalizing outlook with
  | zero => exact within
  | succ count ih =>
      refine moves _ outlook ⟨within.notPast, fun later bumps => ?_⟩
      apply ih (bumps.within within.near (solid 0 (Nat.succ_pos count)))
      intro distance before
      rw [bumps.kindAt]
      exact solid (distance + 1) (Nat.succ_lt_succ before)

/-- The first of some tokens need not be known to have one before it. -/
theorem stays_times_succ (count : Nat) (near : outlook.Near least)
    (solid : ∀ distance, distance ≤ count → (outlook.view.kindAt distance).isSolid = true) :
    (times (count + 1) bump).Stays setting least outlook := by
  refine stays_bump_bind near (solid 0 (Nat.zero_le count)) (fun later within follows => ?_)
  apply stays_times bump (fun _ _ => id) count within
  intro distance before
  rw [follows]
  exact solid (distance + 1) before

/-! ### Nodes and marks -/

theorem stays_node {kind : NodeKind} {body : Production α} (near : outlook.Near least)
    (ordinary : kind ≠ .deprecatedDirective)
    (inner : body.Stays setting.inside least (outlook.withLast none true)) :
    (node kind body).Stays setting least outlook :=
  ⟨near.notPast, ordinary, inner.weaken (fun _ _ within => within.withLast _)⟩

theorem stays_marked {body : Production α} (near : outlook.Near least)
    (inner : body.Stays { setting with marked := true } least outlook) :
    (Production.marked body).Stays setting least outlook :=
  ⟨near.notPast, inner⟩

theorem stays_wrap {kind : NodeKind} {body : Production α} (marked : setting.marked = true)
    (ordinary : kind ≠ .deprecatedDirective)
    (inner : ∀ last, body.Stays setting.inside least (outlook.withLast last true)) :
    (wrap kind body).Stays setting least outlook :=
  ⟨marked, ordinary, fun last => (inner last).weaken (fun _ _ within => within.withLast _)⟩

theorem stays_opened {body : Production α} (near : outlook.Near least)
    (inner : body.Stays { setting with braced := true } least outlook) :
    (opened body).Stays setting least outlook :=
  ⟨near.notPast, inner⟩

theorem stays_within {change : Context → Context} {body : Production α}
    (inner : body.Stays setting least (outlook.withContext (change outlook.view.context))) :
    (Production.within change body).Stays setting least outlook :=
  inner.weaken (fun _ _ within => within.withContext _)

/-! ### Tokens -/

/-- A token is consumed if it is there. -/
theorem local_eat_bind {kind : TokenKind} {next : Bool → Production β}
    {after : β → Outlook horizon → Prop} (near : outlook.Near least)
    (solid : kind.isSolid = true)
    (taken : ∀ later : Outlook horizon, later.Within least →
      (next true).Local horizon setting after later)
    (other : outlook.view.isAt kind = false → (next false).Local horizon setting after outlook) :
    (eat kind >>= next).Local horizon setting after outlook := by
  refine (local_bind _ next).mpr ((local_look_bind _ _).mpr ⟨near.shows_isAt kind, ?_⟩)
  split
  · next found =>
      have consumed : bump.Stays setting least outlook :=
        stays_bump near (View.solid_of_isAt found solid)
      exact consumed.andThen (fun _ later within => taken later within)
  · next absent => exact other (Bool.eq_false_iff.mpr absent)

theorem stays_eat_bind {kind : TokenKind} {next : Bool → Production β}
    (near : outlook.Near least) (solid : kind.isSolid = true)
    (taken : ∀ later : Outlook horizon, later.Within least →
      (next true).Stays setting least later)
    (other : (next false).Stays setting least outlook) :
    (eat kind >>= next).Stays setting least outlook :=
  local_eat_bind near solid taken (fun _ => other)

theorem stays_eat {kind : TokenKind} (within : outlook.Within least) (solid : kind.isSolid = true) :
    (eat kind).Stays setting least outlook := by
  refine stays_look_bind (within.near.shows_isAt kind) ?_
  split
  · next found =>
      exact stays_bind (stays_bump within.near (View.solid_of_isAt found solid))
        (fun _ _ later => stays_pure later true)
  · exact stays_pure within false

theorem stays_eatWord {word : String} (within : outlook.Within least) :
    (eatWord word).Stays setting least outlook := by
  refine stays_look_bind (within.near.shows_isWordIn [word]) ?_
  split
  · next found =>
      have solid := View.solid_of_kind (View.kind_of_isWordIn found) rfl
      exact stays_bind (stays_bumpKeyword within.near solid) (fun _ _ later => stays_pure later true)
  · exact stays_pure within false

theorem stays_eatWord_bind {word : String} {next : Bool → Production β}
    (within : outlook.Within least)
    (taken : ∀ later : Outlook horizon, later.Within least →
      (next true).Stays setting least later)
    (other : (next false).Stays setting least outlook) :
    (eatWord word >>= next).Stays setting least outlook := by
  refine (local_bind _ next).mpr
    ((local_look_bind _ _).mpr ⟨within.near.shows_isWordIn [word], ?_⟩)
  split
  · next found =>
      have solid := View.solid_of_kind (View.kind_of_isWordIn found) rfl
      exact (stays_bumpKeyword within.near solid).andThen (fun _ later => taken later)
  · exact other

theorem stays_expect {kind : TokenKind} (near : outlook.Near least)
    (solid : kind.isSolid = true) : (expect kind).Stays setting least outlook :=
  stays_eat_bind near solid (fun _ within => stays_pure within ()) (stays_refuse near _)

theorem stays_expectName (near : outlook.Near least) (field : Field) :
    (expectName field).Stays setting least outlook := by
  refine stays_look_bind (near.shows_isAt .ident) ?_
  split
  · next found => exact stays_bumpTagged near (View.solid_of_isAt found rfl) field
  · exact stays_refuse near _

/-! ### Conditions and loops -/

theorem stays_onlyIf {condition : View → Bool} {body : Production Unit}
    (within : outlook.Within least) (shows : outlook.Shows condition)
    (inner : condition outlook.view = true → body.Stays setting least outlook) :
    (onlyIf condition body).Stays setting least outlook := by
  refine stays_look_bind shows ?_
  split
  · next holds => exact inner holds
  · exact stays_pure within ()

/-- A round of a loop that stays. If another one follows, it consumes a token. -/
def Rounds (setting : Setting) (least : Nat) (body : Production Bool)
    (outlook : Outlook horizon) : Prop :=
  body.Local horizon setting
    (fun goesOn later => if goesOn then later.Within outlook.taken else later.Within least) outlook

theorem stays_repeatedly {body : Production Bool} (within : outlook.Within least)
    (inner : ∀ round : Outlook horizon, round.Within least → body.Rounds setting least round) :
    (repeatedly body).Stays setting least outlook := by
  refine ⟨fun round => round.Within least, within, fun round held => ⟨held.notPast, ?_⟩⟩
  apply (inner round held).weaken
  intro goesOn later ended
  cases goesOn with
  | false => exact ended
  | true => exact ⟨ended.more, ended.trans held⟩

/-- A round that consumes a token, whether another one follows or not. -/
theorem Stays.round {body : Production Bool} (stays : body.Stays setting outlook.taken outlook)
    (within : outlook.Within least) : body.Rounds setting least outlook := by
  apply stays.weaken
  intro goesOn later further
  cases goesOn with
  | false => exact further.trans within
  | true => exact further

theorem stays_asLongAs {condition : View → Bool} {body : Production Unit}
    (within : outlook.Within least)
    (shows : ∀ round : Outlook horizon, round.Within least → round.Shows condition)
    (inner : ∀ round : Outlook horizon, round.Within least → condition round.view = true →
      body.Stays setting round.taken round) :
    (asLongAs condition body).Stays setting least outlook := by
  apply stays_repeatedly within
  intro round held
  refine (local_look_bind _ _).mpr ⟨shows round held, ?_⟩
  split
  · next holds => exact (inner round held holds).andThen (fun _ _ later => later)
  · exact held

theorem stays_upTo {close : TokenKind} {body : Production Unit} (within : outlook.Within least)
    (inner : ∀ round : Outlook horizon, round.Within least → round.view.endsAt close = false →
      body.Stays setting round.taken round) :
    (upTo close body).Stays setting least outlook := by
  apply stays_asLongAs within
  · exact fun _ held => Outlook.shows_not (held.near.shows_endsAt close)
  · intro round held further
    exact inner round held (by simpa using further)

theorem stays_upToSkipping {close separator : TokenKind} {body : Production Unit}
    (within : outlook.Within least) (solid : separator.isSolid = true)
    (inner : ∀ round : Outlook horizon, round.Within least → body.Stays setting round.taken round) :
    (upToSkipping close separator body).Stays setting least outlook :=
  stays_upTo within (fun round held _ =>
    stays_eat_bind held.again solid (fun _ later => stays_pure later ()) (inner round held))

theorem stays_commaSeparated {item : Production Unit} (first : item.Stays setting least outlook)
    (further : ∀ (reached : Outlook horizon) (least : Nat), reached.Within least →
      item.Stays setting least reached) :
    (commaSeparated item).Stays setting least outlook := by
  refine stays_bind first (fun _ _ within => stays_repeatedly within (fun round held => ?_))
  apply local_eat_bind held.again rfl
  · intro later after
    exact (further later _ after).andThen (fun _ _ reached => reached)
  · exact fun _ => held

theorem stays_commaBefore (close : TokenKind) (within : outlook.Within least) :
    (commaBefore close).Stays setting least outlook :=
  stays_onlyIf within (Outlook.shows_not (within.near.shows_isAt close))
    (fun _ => stays_expect within.near rfl)

/-! ### Contexts and entries -/

theorem stays_fresh {body : Production α}
    (inner : body.Stays setting least (outlook.withContext .none)) :
    (fresh body).Stays setting least outlook :=
  stays_within inner

theorem stays_amongArguments {body : Production α}
    (inner : body.Stays setting least (outlook.withContext .arguments)) :
    (amongArguments body).Stays setting least outlook :=
  stays_within inner

/-- An entry that is no statement stays before the semicolon. -/
theorem stays_enter {entry : Entry} (near : outlook.Near least)
    (ranked : 0 < outlook.taken ∨ entry.rank < setting.limit) (notStatement : entry ≠ .statement) :
    (enter entry).Stays setting least outlook := by
  refine ⟨near.notPast, ranked, fun later taken settled past _ => ?_⟩
  refine ⟨⟨Nat.lt_of_le_of_lt near.least taken, settled⟩, ?_⟩
  cases after : later.past with
  | false => rfl
  | true => exact absurd (past after) notStatement

theorem stays_operand (least' : Prec) (near : outlook.Near least)
    (ranked : 0 < outlook.taken ∨ 1 < setting.limit) :
    (operand least').Stays setting least outlook :=
  stays_enter near ranked nofun

theorem stays_expression (near : outlook.Near least)
    (ranked : 0 < outlook.taken ∨ 1 < setting.limit) :
    expression.Stays setting least outlook :=
  stays_within (stays_operand _ (near.withContext _) ranked)

theorem stays_type (near : outlook.Near least)
    (ranked : 0 < outlook.taken ∨ 0 < setting.limit) : type.Stays setting least outlook :=
  stays_within (stays_enter (near.withContext _) ranked nofun)

theorem stays_expressionAs (field : Field) (near : outlook.Near least)
    (ranked : 0 < outlook.taken ∨ 1 < setting.limit) :
    (expressionAs field).Stays setting least outlook :=
  stays_bind (stays_expression near ranked) (fun _ _ within => stays_tag within field)

theorem stays_typeAs (field : Field) (near : outlook.Near least)
    (ranked : 0 < outlook.taken ∨ 0 < setting.limit) :
    (typeAs field).Stays setting least outlook :=
  stays_bind (stays_type near ranked) (fun _ _ within => stays_tag within field)

theorem stays_expressionsAs (field : Field) (within : outlook.Within least) :
    (expressionsAs field).Stays setting least outlook :=
  stays_commaSeparated (stays_expressionAs field within.near (Or.inl within.some))
    (fun _ _ reached => stays_expressionAs field reached.near (Or.inl reached.some))

/-! ### Small nodes -/

theorem stays_leafNode {kind : NodeKind} (near : outlook.Near least)
    (ordinary : kind ≠ .deprecatedDirective) (solid : outlook.view.kind.isSolid = true) :
    (leafNode kind).Stays setting least outlook :=
  stays_node near ordinary (stays_bump near.inside solid)

/-- A production after a node of a single token, with the tokens that follow it. -/
theorem stays_leafNode_bind {kind : NodeKind} {next : Unit → Production β}
    (near : outlook.Near least) (ordinary : kind ≠ .deprecatedDirective)
    (solid : outlook.view.kind.isSolid = true)
    (further : ∀ later : Outlook horizon, later.Within least →
      (∀ distance, later.view.kindAt distance = outlook.view.kindAt (distance + 1)) →
      (next ()).Stays setting least later) :
    (leafNode kind >>= next).Stays setting least outlook := by
  refine ⟨near.notPast, ordinary, near.notPast, fun later bumps => ?_⟩
  exact further _ ((bumps.within near.inside solid).withLast _) bumps.kindAt

theorem stays_keywordNode {kind : NodeKind} (near : outlook.Near least)
    (ordinary : kind ≠ .deprecatedDirective) (solid : outlook.view.kind.isSolid = true) :
    (keywordNode kind).Stays setting least outlook :=
  stays_node near ordinary (stays_bumpKeyword near.inside solid)

theorem stays_identifierNode (near : outlook.Near least)
    (solid : outlook.view.kind.isSolid = true) : identifierNode.Stays setting least outlook :=
  stays_leafNode near nofun solid

/-! ### Brackets -/

/-- A bracket stands in no statement without brackets. -/
theorem file_of_bracket (near : outlook.Near least) (solid : outlook.view.kind.isSolid = true)
    (bracket : outlook.view.kind.isFlat = false) : horizon = .file := by
  cases horizon with
  | file => rfl
  | statement =>
      have fits := outlook.fits
      rw [near.notPast] at fits
      have flat := View.Flat.isFlat fits (TokenKind.isSolid_iff.mp solid).1
      rw [bracket] at flat
      cases flat

theorem notPast_of_file (file : horizon = .file) (outlook : Outlook horizon) :
    outlook.past = false := by
  subst file
  exact outlook.fits

/-- Where all of the rest is shared, so is what is read off the tokens. -/
theorem shows_of_file (file : horizon = .file)
    (read : (Nat → TokenKind) → (Nat → String) → α) :
    outlook.Shows (fun view => read view.kindAt view.textAt) := by
  intro other agrees
  obtain ⟨kinds, texts⟩ := agrees.whole file
  simp only [kinds, texts]

theorem within_of_file (file : horizon = .file) (behind : outlook.Behind least) :
    outlook.Within least :=
  ⟨behind, notPast_of_file file outlook⟩

/-- What follows an opening bracket is not in a statement without brackets. -/
theorem stays_expect_bracket_bind {kind : TokenKind} {next : Unit → Production β}
    (near : outlook.Near least) (solid : kind.isSolid = true) (bracket : kind.isFlat = false)
    (further : horizon = .file → ∀ later : Outlook horizon, later.Within least →
      (next ()).Stays setting least later) :
    (expect kind >>= next).Stays setting least outlook := by
  refine (local_bind _ next).mpr ((local_bind _ _).mpr
    ((local_look_bind _ _).mpr ⟨near.shows_isAt kind, ?_⟩))
  split
  · next found =>
      have same := View.kind_of_isAt found
      have file := file_of_bracket near (View.solid_of_kind same solid) (by rw [same, bracket])
      exact (stays_bump near (View.solid_of_kind same solid)).andThen
        (fun _ later within => further file later within)
  · exact ⟨near.notPast, nofun⟩

theorem stays_closeBrace (file : horizon = .file) (braced : setting.braced = true)
    (within : outlook.Within least) : closeBrace.Stays setting least outlook :=
  stays_eat_bind within.near rfl (fun _ later => stays_pure later ())
    ⟨within.notPast, fun _ => ⟨braced, file⟩, within⟩

/-! ### Semicolons -/

/-- Behind a semicolon nothing is known but that it was consumed. -/
theorem local_eat_semicolon_bind {next : Bool → Production β}
    {after : β → Outlook horizon → Prop} (near : outlook.Near least)
    (taken : ∀ later : Outlook horizon, later.Behind least →
      (next true).Local horizon setting after later)
    (other : outlook.view.kind ≠ .semicolon → (next false).Local horizon setting after outlook) :
    (eat .semicolon >>= next).Local horizon setting after outlook := by
  refine (local_bind _ next).mpr
    ((local_look_bind _ _).mpr ⟨near.shows_isAt .semicolon, ?_⟩)
  split
  · next found =>
      have same := View.kind_of_isAt found
      refine ⟨near.notPast, fun later bumps => taken later ⟨?_, bumps.settled ?_⟩⟩
      · have moved := bumps.taken
        have before := near.least
        rw [same, if_neg (by decide)] at moved
        omega
      · rw [same]
        decide
  · next absent =>
      refine other (fun same => absent ?_)
      exact beq_iff_eq.mpr same

/-- The semicolon of a statement, unless the statement went past one and needs none. -/
theorem local_terminator {kind : NodeKind} (behind : outlook.Behind least)
    (needed : outlook.past = true → terminatorOf kind = .selfTerminated) :
    (terminator kind).Local horizon setting (fun _ later => later.Behind least) outlook := by
  unfold terminator
  cases class_ : terminatorOf kind with
  | selfTerminated => exact behind
  | semicolon =>
      have notPast : outlook.past = false := by
        cases past : outlook.past with
        | false => rfl
        | true =>
            rw [needed past] at class_
            cases class_
      have near : outlook.Near least := ⟨notPast, Nat.le_of_lt behind.more⟩
      apply local_eat_semicolon_bind near
      · exact fun later reached => reached
      · intro _
        refine (local_look_bind _ _).mpr ⟨?_, ?_⟩
        · intro other agrees
          simp only [agrees.previous (Nat.zero_lt_of_lt behind.more)]
        · split
          · exact ⟨notPast, nofun, behind⟩
          · exact behind

/-- A statement inside another construct. It may end with the semicolon. -/
theorem local_substatement (field : Option Field) (near : outlook.Near least)
    (ranked : 0 < outlook.taken ∨ 2 < setting.limit) :
    (substatement field).Local horizon setting (fun _ later => later.Behind least) outlook := by
  apply local_eat_semicolon_bind near
  · exact fun later behind => behind
  · intro _
    refine (local_bind (enter .statement) _).mpr ((local_enter .statement).mpr
      ⟨near.notPast, ranked, fun later taken settled _ ended => ?_⟩)
    have behind : later.Behind least := ⟨Nat.lt_of_le_of_lt near.least taken, settled⟩
    refine (local_look_bind _ _).mpr ⟨fun other agrees => agrees.lastNode settled, ?_⟩
    cases found : later.view.lastNode with
    | none => cases field <;> exact behind
    | some kind =>
        have needed : later.past = true → terminatorOf kind = .selfTerminated := by
          intro past
          obtain ⟨last, same, selfTerminated⟩ := ended past
          rw [found] at same
          cases same
          exact selfTerminated
        cases field with
        | none => exact local_terminator behind needed
        | some role => exact local_terminator behind needed

/-- A statement in a list moves on, whether it fails or not. -/
theorem local_listedStatement (near : outlook.Near least) (notEnd : outlook.view.kind ≠ .eof)
    (ranked : 0 < outlook.taken ∨ 2 < setting.limit) :
    listedStatement.Local horizon setting (fun _ later => later.Behind least) outlook := by
  apply local_eat_semicolon_bind near
  · exact fun later behind => behind
  · intro notSemicolon
    have start : outlook.Near outlook.taken := ⟨near.notPast, Nat.le_refl _⟩
    have inner : (substatement none).Local horizon setting.inside
        (fun _ later => later.Behind outlook.taken) outlook := local_substatement none start ranked
    refine ⟨near.notPast, ?_, fun later _ moved settled => ⟨?_, settled⟩⟩
    · exact inner.weaken (fun _ _ behind => ⟨behind.more, behind.settled⟩)
    · exact Nat.lt_of_le_of_lt near.least
        (moved (TokenKind.isSolid_iff.mpr ⟨notSemicolon, notEnd⟩))

/-! ### Bodies in braces -/

/-- What is guarded in a list moves on. -/
theorem stays_guarded {body : Production Unit} (file : horizon = .file) (near : outlook.Near least)
    (solid : outlook.view.kind.isSolid = true)
    (inner : body.Local horizon setting.inside (fun _ later => later.Behind outlook.taken)
      outlook) :
    (guarded body).Stays setting least outlook := by
  refine ⟨near.notPast, inner.weaken (fun _ _ behind => ⟨behind.more, behind.settled⟩), ?_⟩
  intro later _ moved settled
  exact within_of_file file ⟨Nat.lt_of_le_of_lt near.least (moved solid), settled⟩

/-- A list in braces whose items may have semicolons between them. -/
theorem stays_upToSkipping_semicolon {close : TokenKind} {body : Production Unit}
    (file : horizon = .file) (within : outlook.Within least)
    (inner : ∀ round : Outlook horizon, round.Within least → round.view.kind.isSolid = true →
      body.Stays setting round.taken round) :
    (upToSkipping close .semicolon body).Stays setting least outlook := by
  refine stays_upTo within (fun round held further => ?_)
  apply local_eat_semicolon_bind held.again
  · exact fun later behind => within_of_file file behind
  · intro notSemicolon
    refine inner round held (TokenKind.isSolid_iff.mpr ⟨notSemicolon, fun ended => ?_⟩)
    simp [View.endsAt, View.isAtEnd, View.isAt, ended] at further

theorem stays_listedStatement (file : horizon = .file) (near : outlook.Near least)
    (notEnd : outlook.view.kind ≠ .eof) (some : 0 < outlook.taken) :
    listedStatement.Stays setting least outlook :=
  (local_listedStatement near notEnd (Or.inl some)).weaken
    (fun _ _ behind => within_of_file file behind)

theorem stays_statementList (file : horizon = .file) (within : outlook.Within least) :
    statementList.Stays setting least outlook := by
  refine stays_upTo within (fun round held further => ?_)
  refine stays_listedStatement file held.again (fun ended => ?_) held.some
  simp [View.endsAt, View.isAtEnd, View.isAt, ended] at further

/-- Statements in braces that were opened last. -/
theorem stays_braced {body : Production Unit} (braced : setting.braced = true)
    (near : outlook.Near least)
    (inner : horizon = .file → ∀ later : Outlook horizon, later.Within least →
      body.Stays setting least later) :
    (do
      expect .lBrace
      fresh body
      closeBrace : Production Unit).Stays setting least outlook :=
  stays_expect_bracket_bind near rfl rfl (fun file _ within =>
    stays_bind (stays_fresh (inner file _ (within.withContext _)))
      (fun _ _ after => stays_closeBrace file braced after))

theorem stays_block (near : outlook.Near least) : block.Stays setting least outlook :=
  stays_node near nofun (stays_opened near.inside
    (stays_braced rfl near.inside
      (fun file _ within => stays_statementList file within)))

theorem stays_bodyBlock (near : outlook.Near least) : bodyBlock.Stays setting least outlook :=
  stays_bind (stays_block near) (fun _ _ within => stays_tag within _)

end Production

end JaiSyntax
