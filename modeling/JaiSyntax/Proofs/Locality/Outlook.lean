import JaiSyntax.Parser.Recovery
import JaiSyntax.Production.Block
import JaiSyntax.Proofs.Production.Orderly
/-!
Local productions. Two sources that start alike are parsed alike as long as nothing is looked at beyond
what they share. They share either all that is left of the file, or a statement without brackets up to
and with its semicolon; what follows the semicolon is free, but it does not start with `else`.

A production is local at an outlook if what it looks at lies within what is shared, if it enters no
entry at the token where that entry was entered, and if every round of a loop consumes a token before
the next one. The predicate runs backwards through the production, from what has to hold after it.
-/

set_option autoImplicit false

namespace JaiSyntax

/-- How much two sources share of what is left of them. -/
inductive Horizon where
  /-- All of it. -/
  | file
  /-- A statement without brackets, up to its semicolon. -/
  | statement
  deriving DecidableEq

/-- Whether a token of a kind is neither a semicolon nor the end of the file. -/
def TokenKind.isSolid (kind : TokenKind) : Bool := kind != .semicolon && kind != .eof

theorem TokenKind.isSolid_iff {kind : TokenKind} :
    kind.isSolid = true ↔ kind ≠ .semicolon ∧ kind ≠ .eof := by
  simp [TokenKind.isSolid]

/-- Whether a token of a kind can stand inside a statement without brackets. -/
def TokenKind.isFlat (kind : TokenKind) : Bool :=
  !openDelimiters.contains kind && !closeDelimiters.contains kind && kind.isSolid

namespace View

/-- Whether no bracket stands before the first semicolon. -/
def Flat (view : View) : Prop :=
  ∃ distance, view.kindAt distance = .semicolon ∧
    ∀ nearer, nearer < distance → (view.kindAt nearer).isFlat = true

variable {view : View}

theorem Flat.isFlat (flat : view.Flat) (more : view.kind ≠ .semicolon) :
    view.kind.isFlat = true := by
  obtain ⟨distance, ends, before⟩ := flat
  cases distance with
  | zero => exact absurd ends more
  | succ distance => exact before 0 (Nat.succ_pos distance)

end View

namespace Horizon

/-- What a horizon says of the view of the shorter source, with `past` set beyond the semicolon. -/
def Fits (horizon : Horizon) (past : Bool) (view : View) : Prop :=
  match horizon, past with
  | .file, past => past = false
  | .statement, false => view.Flat
  | .statement, true => view.kind = .eof

end Horizon

/-- What is known at a place inside an entry that two sources share: the view of the shorter one, how
many tokens the entry consumed, whether its semicolon is behind, and whether the last node is shared as
well. -/
structure Outlook (horizon : Horizon) where
  view : View
  taken : Nat
  past : Bool
  settled : Bool
  fits : horizon.Fits past view

/-- What holds around a production: only entries of a rank below `limit` may start where the entry
around it starts, and whether a mark and a brace of its own were set. -/
structure Setting where
  limit : Nat
  marked : Bool
  braced : Bool

def Setting.inside (setting : Setting) : Setting := { setting with marked := false }

/-- Entries enter each other at one token in the order of their ranks only. -/
def Entry.rank : Entry → Nat
  | .type => 0
  | .expression _ => 1
  | .statement => 2

namespace Outlook

variable {horizon : Horizon}

def withLast (outlook : Outlook horizon) (last : Option NodeKind) (settled : Bool) :
    Outlook horizon :=
  { outlook with view := outlook.view.withLast last, settled := settled, fits := outlook.fits }

def withContext (outlook : Outlook horizon) (context : Context) : Outlook horizon :=
  { outlook with view := outlook.view.withContext context, fits := outlook.fits }

structure Agrees (outlook : Outlook horizon) (other : View) : Prop where
  context : other.context = outlook.view.context
  previous : 0 < outlook.taken → other.previous = outlook.view.previous
  lastNode : outlook.settled = true → other.lastNode = outlook.view.lastNode
  ahead : outlook.past = false → ∀ distance,
    (∀ nearer, nearer < distance → outlook.view.kindAt nearer ≠ .semicolon) →
      other.kindAt distance = outlook.view.kindAt distance ∧
        other.textAt distance = outlook.view.textAt distance
  beyond : outlook.past = true → other.isWordAt 0 "else" = false
  whole : horizon = .file →
    other.kindAt = outlook.view.kindAt ∧ other.textAt = outlook.view.textAt

/-- Whether what is read off the view is the same in both sources. -/
def Shows {α : Type} (outlook : Outlook horizon) (read : View → α) : Prop :=
  ∀ other, outlook.Agrees other → read other = read outlook.view

structure Bumps (outlook later : Outlook horizon) : Prop where
  view : ∃ previous last, later.view = outlook.view.next previous last
  taken : later.taken = if outlook.view.kind = .eof then outlook.taken else outlook.taken + 1
  past : later.past = (horizon == .statement && outlook.view.kind == .semicolon)
  settled : outlook.view.kind ≠ .eof → later.settled = true

/-- An outlook before another one: as long as no token is consumed, the current one is the same. -/
structure Precedes (outlook later : Outlook horizon) : Prop where
  taken : outlook.taken ≤ later.taken
  kind : later.taken = outlook.taken → later.view.kind = outlook.view.kind

/-- Whether a statement that went past its semicolon needs no other one. -/
def Ended (outlook : Outlook horizon) : Prop :=
  outlook.past = true →
    ∃ kind, outlook.view.lastNode = some kind ∧ terminatorOf kind = .selfTerminated

end Outlook

namespace Outlook

variable {horizon : Horizon} {first second third : Outlook horizon}

theorem Precedes.refl (outlook : Outlook horizon) : outlook.Precedes outlook :=
  ⟨Nat.le_refl _, fun _ => rfl⟩

theorem Precedes.trans (earlier : first.Precedes second) (later : second.Precedes third) :
    first.Precedes third := by
  have front := earlier.taken
  have back := later.taken
  refine ⟨Nat.le_trans front back, fun same => ?_⟩
  exact (later.kind (by omega)).trans (earlier.kind (by omega))

theorem Precedes.of_lt (moved : first.taken < second.taken) : first.Precedes second :=
  ⟨Nat.le_of_lt moved, fun same => absurd same (Nat.ne_of_gt moved)⟩

end Outlook

/-- Whether a complaint is shared: the brace that it is about has to be. -/
def Setting.Allows (setting : Setting) (horizon : Horizon) (complaint : Complaint) : Prop :=
  complaint = .unclosedBrace → setting.braced = true ∧ horizon = .file

def Outlook.Permits {horizon : Horizon} (outlook : Outlook horizon) (setting : Setting)
    (after : Outlook horizon → Prop) : Move → Prop
  | .bump | .bumpKeyword => outlook.past = false ∧ ∀ later, outlook.Bumps later → after later
  | .tag _ => after outlook
  | .reinterpretLast | .spliceParameters => ∀ last, after (outlook.withLast last false)
  | .report complaint =>
      outlook.past = false ∧ setting.Allows horizon complaint ∧ after outlook

namespace Production

/-- Whether a production is local at an outlook and ends where `after` holds. -/
def Local (horizon : Horizon) (setting : Setting) {α : Type} (production : Production α)
    (after : α → Outlook horizon → Prop) (outlook : Outlook horizon) : Prop :=
  match production with
  | .pure value => after value outlook
  | .bind first next =>
      Local horizon setting first
        (fun value reached => Local horizon setting (next value) after reached) outlook
  | .look read => outlook.Shows read ∧ after (read outlook.view) outlook
  | .act move => outlook.Permits setting (after ()) move
  | .refuse complaint => outlook.past = false ∧ setting.Allows horizon complaint
  | .within change body =>
      Local horizon setting body
        (fun value reached => after value (reached.withContext outlook.view.context))
        (outlook.withContext (change outlook.view.context))
  | .node kind body =>
      outlook.past = false ∧ kind ≠ .deprecatedDirective ∧
        Local horizon setting.inside body
          (fun value reached => after value (reached.withLast (some kind) true))
          (outlook.withLast none true)
  | .marked body =>
      outlook.past = false ∧ Local horizon { setting with marked := true } body after outlook
  | .wrap kind body =>
      setting.marked = true ∧ kind ≠ .deprecatedDirective ∧
        ∀ last,
          Local horizon setting.inside body
            (fun value reached => after value (reached.withLast (some kind) true))
            (outlook.withLast last true)
  | .opened body =>
      outlook.past = false ∧ Local horizon { setting with braced := true } body after outlook
  | .guarded body =>
      outlook.past = false ∧
        Local horizon setting.inside body
          (fun _ reached => outlook.taken < reached.taken ∧ reached.settled = true) outlook ∧
        ∀ later : Outlook horizon, outlook.taken ≤ later.taken →
          (outlook.view.kind.isSolid = true → outlook.taken < later.taken) →
          later.settled = true → after () later
  | .repeatedly body =>
      ∃ holds : Outlook horizon → Prop, holds outlook ∧
        ∀ start, holds start → start.past = false ∧
          Local horizon setting body
            (fun goesOn reached =>
              if goesOn then start.taken < reached.taken ∧ holds reached else after () reached)
            start
  | .enter entry =>
      outlook.past = false ∧ (0 < outlook.taken ∨ entry.rank < setting.limit) ∧
        ∀ later : Outlook horizon, outlook.taken < later.taken → later.settled = true →
          (later.past = true → entry = .statement) → later.Ended → after () later
termination_by structural production

section Rules

variable {horizon : Horizon} {setting : Setting} {α β : Type} {outlook : Outlook horizon}

/-! ### One rule for each part -/

theorem local_pure {after : α → Outlook horizon → Prop} (value : α) :
    (Pure.pure value : Production α).Local horizon setting after outlook ↔ after value outlook :=
  Iff.rfl

theorem local_bind {after : β → Outlook horizon → Prop} (first : Production α)
    (next : α → Production β) :
    (first >>= next).Local horizon setting after outlook ↔
      first.Local horizon setting
        (fun value reached => (next value).Local horizon setting after reached) outlook :=
  Iff.rfl

theorem local_look_bind {after : β → Outlook horizon → Prop} (read : View → α)
    (next : α → Production β) :
    (look read >>= next).Local horizon setting after outlook ↔
      outlook.Shows read ∧ (next (read outlook.view)).Local horizon setting after outlook :=
  Iff.rfl

theorem local_enter {after : Unit → Outlook horizon → Prop} (entry : Entry) :
    (enter entry).Local horizon setting after outlook ↔
      outlook.past = false ∧ (0 < outlook.taken ∨ entry.rank < setting.limit) ∧
        ∀ later : Outlook horizon, outlook.taken < later.taken → later.settled = true →
          (later.past = true → entry = .statement) → later.Ended → after () later :=
  Iff.rfl

end Rules

/-- What holds after a local production may be weakened. -/
theorem Local.weaken {horizon : Horizon} {α : Type} {production : Production α} {setting : Setting}
    {after later : α → Outlook horizon → Prop} {outlook : Outlook horizon}
    (isLocal : production.Local horizon setting after outlook)
    (weaker : ∀ value reached, after value reached → later value reached) :
    production.Local horizon setting later outlook := by
  induction production generalizing setting outlook with
  | pure value => exact weaker value outlook isLocal
  | bind first next ihFirst ihNext =>
      rw [Local] at isLocal ⊢
      exact ihFirst isLocal (fun value reached further => ihNext value further weaker)
  | look read =>
      rw [Local] at isLocal ⊢
      exact ⟨isLocal.1, weaker _ _ isLocal.2⟩
  | act move =>
      rw [Local] at isLocal ⊢
      cases move with
      | bump => exact ⟨isLocal.1, fun next bumps => weaker _ _ (isLocal.2 next bumps)⟩
      | bumpKeyword => exact ⟨isLocal.1, fun next bumps => weaker _ _ (isLocal.2 next bumps)⟩
      | tag field => exact weaker _ _ isLocal
      | reinterpretLast => exact fun last => weaker _ _ (isLocal last)
      | spliceParameters => exact fun last => weaker _ _ (isLocal last)
      | report complaint => exact ⟨isLocal.1, isLocal.2.1, weaker _ _ isLocal.2.2⟩
  | refuse complaint => exact isLocal
  | within change body ih =>
      rw [Local] at isLocal ⊢
      exact ih isLocal (fun value reached => weaker value _)
  | node kind body ih =>
      rw [Local] at isLocal ⊢
      exact ⟨isLocal.1, isLocal.2.1, ih isLocal.2.2 (fun value reached => weaker value _)⟩
  | marked body ih =>
      rw [Local] at isLocal ⊢
      exact ⟨isLocal.1, ih isLocal.2 weaker⟩
  | wrap kind body ih =>
      rw [Local] at isLocal ⊢
      exact ⟨isLocal.1, isLocal.2.1, fun last =>
        ih (isLocal.2.2 last) (fun value reached => weaker value _)⟩
  | opened body ih =>
      rw [Local] at isLocal ⊢
      exact ⟨isLocal.1, ih isLocal.2 weaker⟩
  | guarded body ih =>
      rw [Local] at isLocal ⊢
      exact ⟨isLocal.1, isLocal.2.1, fun next taken moved settled =>
        weaker _ _ (isLocal.2.2 next taken moved settled)⟩
  | repeatedly body ih =>
      rw [Local] at isLocal ⊢
      obtain ⟨holds, start, rounds⟩ := isLocal
      refine ⟨holds, start, fun next held => ⟨(rounds next held).1, ih (rounds next held).2 ?_⟩⟩
      intro goesOn reached ended
      cases goesOn with
      | false => exact weaker _ _ ended
      | true => exact ended
  | enter entry =>
      rw [Local] at isLocal ⊢
      exact ⟨isLocal.1, isLocal.2.1, fun next taken settled past ended =>
        weaker _ _ (isLocal.2.2 next taken settled past ended)⟩

end Production

end JaiSyntax
