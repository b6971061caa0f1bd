import JaiSyntax.Proofs.Progress.Termination
/-!
The first token of a production. Up to there the tokens ahead say what a production does: whether it
consumes one, or fails before it has consumed any.
-/

set_option autoImplicit false

namespace JaiSyntax

namespace Production

/-- What a production does at the tokens that `view` shows, until it consumes one of them: `consumed` is
asked where it does, `refused` where it fails before, and `entered` of what it enters before; if it comes
to its end before, then with a value that `after` holds of. It has no guard and no loop before. -/
def Initially (consumed refused : Prop) (entered : Entry → Prop) {α : Type}
    (production : Production α) (view : View) (after : α → Prop) : Prop :=
  match production with
  | .pure value => after value
  | .bind first next =>
      first.Initially consumed refused entered view
        (fun value => (next value).Initially consumed refused entered view after)
  | .look read => ∀ context last, after (read (view.around context last))
  | .act move =>
      (move.consumes = true → view.kind ≠ .eof ∧ consumed) ∧ (move.consumes = false → after ())
  | .refuse _ => refused
  | .within _ body | .node _ body | .marked body | .wrap _ body | .opened body =>
      body.Initially consumed refused entered view after
  | .guarded _ | .repeatedly _ => False
  | .enter entry => entered entry
termination_by structural production

/-- Whether a production consumes a token, whether or not it fails later; that it does in the entries it
enters first is known of those that `entered` holds of. -/
abbrev Consumes (entered : Entry → Prop) {α : Type} (production : Production α) (view : View) : Prop :=
  production.Initially True False entered view (fun _ => False)

abbrev Declines {α : Type} (production : Production α) (view : View) : Prop :=
  production.Initially False True (fun _ => False) view (fun _ => False)

section Rules

variable {consumed refused : Prop} {entered : Entry → Prop} {view : View} {α β : Type}

theorem Initially.weaken {production : Production α} {after later : α → Prop}
    (initially : production.Initially consumed refused entered view after)
    (weaker : ∀ value, after value → later value) :
    production.Initially consumed refused entered view later := by
  induction production with
  | pure value => exact weaker value initially
  | bind first next ihFirst ihNext =>
      exact ihFirst initially (fun value further => ihNext value further weaker)
  | look read => exact fun context last => weaker _ (initially context last)
  | act move => exact ⟨initially.1, fun stays => weaker () (initially.2 stays)⟩
  | refuse | enter => exact initially
  | within _ _ ih | node _ _ ih | marked _ ih | wrap _ _ ih | opened _ ih =>
      exact ih initially weaker
  | guarded | repeatedly => exact initially.elim

@[simp] theorem initially_bind {after : β → Prop} (first : Production α)
    (next : α → Production β) :
    (first >>= next).Initially consumed refused entered view after ↔
      first.Initially consumed refused entered view
        (fun value => (next value).Initially consumed refused entered view after) := Iff.rfl

@[simp] theorem initially_look {after : α → Prop} (read : View → α) :
    (look read).Initially consumed refused entered view after ↔
      ∀ context last, after (read (view.around context last)) := Iff.rfl

@[simp] theorem initially_act {after : Unit → Prop} (move : Move) :
    (act move).Initially consumed refused entered view after ↔
      (move.consumes = true → view.kind ≠ .eof ∧ consumed) ∧
        (move.consumes = false → after ()) := Iff.rfl

@[simp] theorem initially_node {after : α → Prop} (kind : NodeKind) (body : Production α) :
    (node kind body).Initially consumed refused entered view after ↔
      body.Initially consumed refused entered view after := Iff.rfl

@[simp] theorem initially_marked {after : α → Prop} (body : Production α) :
    (marked body).Initially consumed refused entered view after ↔
      body.Initially consumed refused entered view after := Iff.rfl

@[simp] theorem initially_ite {after : α → Prop} (condition : Prop) [Decidable condition]
    (first second : Production α) :
    (if condition then first else second).Initially consumed refused entered view after ↔
      (condition → first.Initially consumed refused entered view after) ∧
        (¬ condition → second.Initially consumed refused entered view after) := by
  split <;> simp_all

@[simp] theorem initially_check {after : Bool → Prop} (kind : TokenKind) :
    (check kind).Initially consumed refused entered view after ↔ after (view.isAt kind) := by
  simp [check]

@[simp] theorem initially_checkWord {after : Bool → Prop} (words : List String) :
    (checkWord words).Initially consumed refused entered view after ↔
      after (view.isWordIn words) := by
  simp [checkWord]

@[simp] theorem initially_checkDirective {after : Bool → Prop} (names : List String) :
    (checkDirective names).Initially consumed refused entered view after ↔
      after (view.isDirectiveIn names) := by
  simp [checkDirective]

/-- What follows a part that is sure to consume a token is not reached. -/
theorem consumes_andThen {first : Production α} {next : α → Production β}
    (consumes : first.Consumes entered view) : (first >>= next).Consumes entered view :=
  (initially_bind first next).mpr (consumes.weaken (fun _ => False.elim))

/-- What follows a part that is sure to fail is not reached. -/
theorem declines_andThen {first : Production α} {next : α → Production β}
    (declines : first.Declines view) : (first >>= next).Declines view :=
  (initially_bind first next).mpr (declines.weaken (fun _ => False.elim))

theorem consumes_bump (more : view.kind ≠ .eof) : bump.Consumes entered view := by
  simp [bump, Move.consumes, more]

theorem consumes_bumpKeyword (more : view.kind ≠ .eof) : bumpKeyword.Consumes entered view := by
  simp [bumpKeyword, Move.consumes, more]

theorem consumes_bumpTagged (field : Field) (more : view.kind ≠ .eof) :
    (bumpTagged field).Consumes entered view :=
  consumes_andThen (consumes_bump more)

/-- A token that is asked for and there is consumed. -/
theorem consumes_expect {kind : TokenKind} (here : view.kind = kind) (more : kind ≠ .eof) :
    (expect kind).Consumes entered view := by
  have found : view.isAt kind = true := beq_iff_eq.mpr here
  have bumped : bump.Consumes entered view := consumes_bump (here ▸ more)
  simp only [expect, eat, initially_bind, initially_check, found, initially_ite]
  exact ⟨fun _ => bumped.weaken (fun _ => False.elim), fun absurd => (absurd trivial).elim⟩

end Rules

end Production

/-! ### Evaluations -/

variable {resync : Bool} {α : Type}

/-- How an outcome compares with the place where it began, with `ahead` tokens ahead: some token was
consumed, or none, and then what a production says of its end or its failure holds. -/
inductive Outcome.Began (ahead : Nat) (consumed refused : Prop) (after : α → Prop) :
    Outcome α → Prop where
  | moved {outcome : Outcome α} (further : outcome.state.cursor.ahead.length ≠ ahead)
      (holds : consumed) : Outcome.Began ahead consumed refused after outcome
  | ended {value : α} {state : ParserState} (same : state.cursor.ahead.length = ahead)
      (holds : after value) : Outcome.Began ahead consumed refused after (.done value state)
  | failed {error : SyntaxError} {state : ParserState} (same : state.cursor.ahead.length = ahead)
      (holds : refused) : Outcome.Began ahead consumed refused after (.failed error state)

theorem Outcome.Began.closeNode {ahead : Nat} {consumed refused : Prop} {after : α → Prop}
    {outcome : Outcome α} (began : outcome.Began ahead consumed refused after) :
    outcome.closeNode.Began ahead consumed refused after := by
  cases began with
  | moved further holds => exact .moved (by rwa [Outcome.cursor_closeNode]) holds
  | ended same holds => exact .ended same holds
  | failed same holds => exact .failed same holds

theorem Outcome.Began.moves {ahead : Nat} {outcome : Outcome α}
    (began : outcome.Began ahead True False (fun _ => False)) :
    outcome.state.cursor.ahead.length ≠ ahead := by
  cases began with
  | moved further _ => exact further
  | ended _ absurd => exact absurd.elim
  | failed _ absurd => exact absurd.elim

/-- An evaluation begins as its production says of the tokens ahead, if what is said of entries is
so. -/
theorem Evaluates.began {production : Production α} {scope : Scope} {state : ParserState}
    {outcome : Outcome α} (evaluates : Evaluates resync production scope state outcome)
    (proper : state.cursor.Proper) {consumed refused : Prop} {entered : Entry → Prop} {view : View}
    (here : state.cursor.view = view) {after : α → Prop}
    (entries : ∀ entry scope (state : ParserState) outcome, entered entry → state.cursor.Proper →
      state.cursor.view = view → Evaluates resync (.enter entry) scope state outcome →
        outcome.state.cursor.ahead.length ≠ state.cursor.ahead.length ∧ consumed)
    (initially : production.Initially consumed refused entered view after) :
    outcome.Began state.cursor.ahead.length consumed refused after := by
  induction evaluates with
  | pure value => exact .ended rfl initially
  | look read scope state =>
      refine .ended rfl ?_
      have read_here := initially scope.context state.builder.lastNodeKind?
      rwa [← here] at read_here
  | act move scope state =>
      cases consumes : move.consumes with
      | false =>
          refine .ended ?_ (initially.2 consumes)
          cases move with
          | bump | bumpKeyword => cases consumes
          | tag | reinterpretLast | spliceParameters | report => rfl
      | true =>
          obtain ⟨more, holds⟩ := initially.1 consumes
          have open_end : state.isAtEnd = false := by
            rw [← here] at more
            exact beq_eq_false_iff_ne.mpr more
          refine .moved ?_ holds
          cases move with
          | bump => exact Nat.ne_of_lt (ParserState.shorter_bumpAs proper open_end id)
          | bumpKeyword => exact Nat.ne_of_lt (ParserState.shorter_bumpAs proper open_end
              (fun token => token.retag .keyword))
          | tag | reinterpretLast | spliceParameters | report => cases consumes
  | refuse => exact .failed rfl initially
  | @bind α β first next scope state reached value outcome front back ihFirst ihNext =>
      have before := front.precedes proper
      have behind := back.precedes before.proper
      cases ihFirst proper here initially with
      | moved further holds =>
          exact .moved (fun same => further (before.length_eq behind same)) holds
      | ended same holds =>
          cases ihNext before.proper ((before.view same).trans here) holds with
          | moved further holds => exact .moved (fun all => further (all.trans same.symm)) holds
          | ended last holds => exact .ended (last.trans same) holds
          | failed last holds => exact .failed (last.trans same) holds
  | bindFailed _ ih =>
      cases ih proper here initially with
      | moved further holds => exact .moved further holds
      | failed same holds => exact .failed same holds
  | within _ ih | opened _ ih => exact ih proper here initially
  | wrap _ ih => exact (ih proper here initially).closeNode
  | node _ ih => exact (ih proper.withoutGap here initially).closeNode
  | marked _ ih => exact ih proper.withoutGap here initially
  | guarded | recovered | roundFailed | lastRound | round => exact initially.elim
  | enter inner _ =>
      obtain ⟨further, holds⟩ := entries _ _ _ _ initially proper here (.enter inner)
      exact .moved further holds

/-- What is sure to consume a token does, even if it fails. -/
theorem Evaluates.consumes {production : Production α} {scope : Scope} {state : ParserState}
    {outcome : Outcome α} (evaluates : Evaluates resync production scope state outcome)
    (proper : state.cursor.Proper) {entered : Entry → Prop}
    (entries : ∀ entry, entered entry →
      (Production.ofEntry entry).Consumes (fun _ => False) state.cursor.view)
    (consumes : production.Consumes entered state.cursor.view) :
    state.cursor.position < outcome.state.cursor.position := by
  refine (evaluates.precedes proper).position_lt (evaluates.began proper rfl ?_ consumes).moves
  intro entry scope later outcome known proper here evaluates
  cases evaluates with
  | enter inner =>
      exact ⟨(inner.began proper here (fun _ _ _ _ none => none.elim) (entries entry known)).moves,
        trivial⟩

/-- What is sure to fail before it has consumed a token fails where it starts. -/
theorem Evaluates.declines {production : Production α} {scope : Scope} {state : ParserState}
    {outcome : Outcome α} (evaluates : Evaluates resync production scope state outcome)
    (proper : state.cursor.Proper) (declines : production.Declines state.cursor.view) :
    ∃ error last, outcome = .failed error last ∧ last.cursor.position = state.cursor.position := by
  cases evaluates.began proper rfl (fun _ _ _ _ none => none.elim) declines with
  | moved _ absurd => exact absurd.elim
  | ended _ absurd => exact absurd.elim
  | @failed error last same =>
      exact ⟨error, last, rfl, (evaluates.precedes proper).length_eq_iff.mp same⟩

end JaiSyntax
