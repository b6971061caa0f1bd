import JaiSyntax.Proofs.Brackets.Depth
import JaiSyntax.Proofs.Reading.Keeping
/-!
What a production passes. A run that reports nothing consumes tokens of certain kinds, which depend on
the kinds of the tokens ahead and on what the entries pass.
-/

set_option autoImplicit false

namespace JaiSyntax

/-- What the rounds of a loop pass, one after the other. -/
inductive PassedRounds (round : (Nat → TokenKind) → List TokenKind → (Nat → TokenKind) → Prop)
    (kindAt : Nat → TokenKind) : List TokenKind → (Nat → TokenKind) → Prop where
  | none : PassedRounds round kindAt [] kindAt
  | more {front back : List TokenKind} {middle later : Nat → TokenKind}
      (earlier : PassedRounds round kindAt front middle) (last : round middle back later) :
      PassedRounds round kindAt (front ++ back) later

namespace Production

/-- Whether a production may yield a value and pass tokens of some kinds without a report, where tokens
of the kinds `kindAt` are ahead before and those of the kinds `later` after it. -/
def Passes {α : Type} (production : Production α) (value : α) (kindAt : Nat → TokenKind)
    (kinds : List TokenKind) (later : Nat → TokenKind) : Prop :=
  match production with
  | .pure result => value = result ∧ kinds = [] ∧ later = kindAt
  | .bind first next =>
      ∃ result middle front back, first.Passes result kindAt front middle ∧
        (next result).Passes value middle back later ∧ kinds = front ++ back
  | .look read => ∃ view : View, view.kindAt = kindAt ∧ value = read view ∧ kinds = [] ∧ later = kindAt
  | .act .bump | .act .bumpKeyword =>
      kinds = [kindAt 0] ∧ later = fun distance => kindAt (distance + 1)
  | .act (.report _) | .refuse _ => False
  | .act (.tag _) | .act .reinterpretLast | .act .spliceParameters => kinds = [] ∧ later = kindAt
  | .within _ body | .node _ body | .marked body | .wrap _ body | .opened body | .guarded body =>
      body.Passes value kindAt kinds later
  | .repeatedly body =>
      PassedRounds (fun kindAt kinds later => ∃ goesOn, body.Passes goesOn kindAt kinds later)
        kindAt kinds later
  | .enter _ => Balanced kinds ∧ kindAt = kindsBefore kinds later
termination_by structural production

/-- What is passed stood in front of the tokens that are ahead later. -/
theorem Passes.kindAt_eq {α : Type} {production : Production α} {value : α}
    {kindAt later : Nat → TokenKind} {kinds : List TokenKind}
    (passes : production.Passes value kindAt kinds later) : kindAt = kindsBefore kinds later := by
  induction production generalizing kindAt later kinds with
  | pure =>
      obtain ⟨-, rfl, rfl⟩ := passes
      rfl
  | look =>
      obtain ⟨-, -, -, rfl, rfl⟩ := passes
      rfl
  | bind first next ihFirst ihNext =>
      obtain ⟨result, middle, front, back, before, behind, rfl⟩ := passes
      rw [kindsBefore_append, ← ihNext result behind, ← ihFirst before]
  | act move =>
      cases move with
      | bump | bumpKeyword =>
          obtain ⟨rfl, rfl⟩ := passes
          funext distance
          cases distance <;> rfl
      | tag | reinterpretLast | spliceParameters =>
          obtain ⟨rfl, rfl⟩ := passes
          rfl
      | report => exact passes.elim
  | refuse => exact passes.elim
  | within _ _ ih | node _ _ ih | marked _ ih | wrap _ _ ih | opened _ ih | guarded _ ih =>
      exact ih passes
  | repeatedly body ih =>
      have rounds : PassedRounds _ kindAt kinds later := passes
      clear passes
      induction rounds with
      | none => rfl
      | more earlier last before =>
          obtain ⟨goesOn, last⟩ := last
          rw [kindsBefore_append, ← ih last, before]
  | enter entry => exact passes.2

end Production

namespace Segment

def kindAt (segment : Segment) (distance : Nat) : TokenKind := (segment.cursor.peek distance).kind

/-- Whether something holds of a segment that was read, if nothing was reported up to there. -/
def Silently (earlier later : Segment) (holds : Prop) : Prop :=
  later.cursor.Proper ∧ (later.reported = [] → earlier.reported = [] ∧ holds)

theorem Silently.trans {earlier middle later : Segment} {holds further both : Prop}
    (front : earlier.Silently middle holds) (back : middle.Silently later further)
    (implies : holds → further → both) : earlier.Silently later both := by
  refine ⟨back.1, fun none => ?_⟩
  obtain ⟨before, further⟩ := back.2 none
  obtain ⟨start, holds⟩ := front.2 before
  exact ⟨start, implies holds further⟩

theorem kindAt_bumpAs {segment : Segment} (proper : segment.cursor.Proper) (change : Token → Token) :
    (segment.bumpAs change).kindAt = fun distance => segment.kindAt (distance + 1) := by
  funext distance
  exact congrArg Token.kind (peek_bumpAs proper change distance)

end Segment

/-- What entries are relied on for: where they report nothing, they pass balanced tokens. -/
def EntriesBalance (enter : Entry → Surroundings → Segment → Reading Unit) : Prop :=
  ∀ entry around segment, segment.cursor.Proper →
    (enter entry around segment).Satisfies
      (fun _ later => segment.Silently later
        (∃ kinds, Balanced kinds ∧ segment.kindAt = kindsBefore kinds later.kindAt))
      (fun later => later.cursor.Proper)

namespace Production

variable {resync : Bool} {enter : Entry → Surroundings → Segment → Reading Unit} {α : Type}

/-- A move that reports nothing passes the token that it consumes. -/
theorem passes_apply (around : Surroundings) {segment : Segment} (proper : segment.cursor.Proper)
    (move : Move) :
    segment.Silently (segment.apply around move)
      (∃ kinds, (act move).Passes () segment.kindAt kinds (segment.apply around move).kindAt) := by
  refine ⟨Segment.apply_proper proper around move, fun none => ?_⟩
  have consumed (change : Token → Token) (none : (segment.bumpAs change).reported = []) :
      segment.reported = [] ∧ ∃ kinds, bump.Passes () segment.kindAt kinds
        (segment.bumpAs change).kindAt :=
    ⟨(Segment.reported_bumpAs segment change).symm.trans none, _, rfl,
      Segment.kindAt_bumpAs proper change⟩
  cases move with
  | bump => exact consumed id none
  | bumpKeyword => exact consumed (fun token => token.retag .keyword) none
  | tag | reinterpretLast | spliceParameters => exact ⟨none, [], rfl, rfl⟩
  | report => cases none

/-- What a production reads without a report, it passes. -/
theorem read_passes (entries : EntriesBalance enter) (production : Production α)
    (around : Surroundings) {segment : Segment} (proper : segment.cursor.Proper) :
    (production.read resync enter around segment).Satisfies
      (fun value later => segment.Silently later
        (∃ kinds, production.Passes value segment.kindAt kinds later.kindAt))
      (fun later => later.cursor.Proper) := by
  induction production generalizing around segment with
  | pure => exact ⟨proper, fun none => ⟨none, [], rfl, rfl, rfl⟩⟩
  | look => exact ⟨proper, fun none => ⟨none, [], segment.view around, rfl, rfl, rfl, rfl⟩⟩
  | refuse => exact proper
  | act move => exact passes_apply around proper move
  | bind first next ihFirst ihNext =>
      rw [read]
      refine (ihFirst around proper).andThen (fun value reached front => ?_)
      refine (ihNext value around front.1).weaken (fun result later back => ?_) (fun _ => id)
      refine front.trans back ?_
      rintro ⟨before, passed⟩ ⟨behind, further⟩
      exact ⟨before ++ behind, value, _, before, behind, passed, further, rfl⟩
  | within change body ih | opened body ih =>
      rw [read]
      exact ih _ proper
  | node kind body ih =>
      rw [read]
      exact Reading.satisfies_after.mpr
        (Reading.satisfies_enclosed.mpr (ih around.first (proper_emptied proper)))
  | marked body ih =>
      rw [read]
      exact Reading.satisfies_after.mpr (ih (segment.flush.atMark around) (proper_emptied proper))
  | wrap kind body ih =>
      rw [read]
      exact Reading.satisfies_enclosed.mpr (ih around.first proper)
  | guarded body ih =>
      rw [read]
      have tried := ih (segment.flush.following around) (proper_emptied proper)
      split
      · next inner same =>
          rw [same] at tried
          exact tried
      · next error inner same =>
          rw [same] at tried
          refine ⟨Keeping.recover_proper tried (segment.flush.atMark around) _ error, fun none => ?_⟩
          exact absurd none (Segment.reported_recover inner resync _ _ error)
  | repeatedly body ih =>
      rw [read]
      let passed (later : Segment) : Prop := segment.Silently later
        (∃ kinds, (Production.repeatedly body).Passes () segment.kindAt kinds later.kindAt)
      have start : passed segment := ⟨proper, fun none => ⟨none, [], .none⟩⟩
      refine Reading.satisfies_iterate_of_kept start (fun later before => ?_) _
      refine (ih around before.1).weaken (fun goesOn last round => ?_) (fun _ => id)
      refine before.trans round ?_
      rintro ⟨front, rounds⟩ ⟨back, last⟩
      exact ⟨front ++ back, .more rounds ⟨goesOn, last⟩⟩
  | enter entry =>
      rw [read]
      exact entries entry around segment proper

end Production

end JaiSyntax
