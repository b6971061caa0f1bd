import JaiSyntax.Production.Statement
import JaiSyntax.Proofs.Locality.Outlook
import JaiSyntax.Proofs.Production.Coverage
/-!
Where productions start. Until a production consumes its first token, what it can do depends on the
tokens ahead: which entries it enters there, and whether it comes to its end. A production is steady if
no round of a loop in it goes on without having consumed a token.
-/

set_option autoImplicit false

namespace JaiSyntax

def Move.consumes : Move → Bool
  | .bump | .bumpKeyword => true
  | .tag _ | .reinterpretLast | .spliceParameters | .report _ => false

theorem Entry.rank_lt (entry : Entry) : entry.rank < 3 := by
  cases entry with
  | expression => exact Nat.lt_succ_of_lt Nat.one_lt_two
  | type => exact Nat.zero_lt_succ 2
  | statement => exact Nat.lt_succ_self 2

namespace View

def around (view : View) (context : Context) (last : Option NodeKind) : View :=
  (view.withContext context).withLast last

section Tokens

variable (view : View) (context : Context) (last : Option NodeKind)

@[simp] theorem kind_around : (view.around context last).kind = view.kind := rfl

@[simp] theorem isAt_around (kind : TokenKind) :
    (view.around context last).isAt kind = view.isAt kind := rfl

@[simp] theorem isWordIn_around (words : List String) :
    (view.around context last).isWordIn words = view.isWordIn words := rfl

@[simp] theorem isDirectiveIn_around (names : List String) :
    (view.around context last).isDirectiveIn names = view.isDirectiveIn names := rfl

@[simp] theorem endsAt_around (close : TokenKind) :
    (view.around context last).endsAt close = view.endsAt close := rfl

end Tokens

variable {view : View}

theorem not_end_of_kind {kind : TokenKind} (here : view.kind = kind) (token : kind ≠ .eof) :
    view.kind ≠ .eof := by
  rw [here]
  exact token

theorem not_end_of_isAtEnd (more : view.isAtEnd = false) : view.kind ≠ .eof := by
  intro ended
  rw [isAtEnd, isAt, ended] at more
  exact absurd more (by decide)

theorem not_end_of_endsAt {close : TokenKind} (more : view.endsAt close = false) :
    view.kind ≠ .eof := by
  rw [endsAt, Bool.or_eq_false_iff] at more
  exact not_end_of_isAtEnd more.2

end View

namespace Production

/-- What a production does as long as it has consumed no token of those that `view` shows: it comes to
its end only with values that `after` holds of, and it enters only entries of a rank below `bound`. The
context and the last node may be any. -/
def Starts (bound : Nat) {α : Type} (production : Production α) (view : View) (after : α → Prop) :
    Prop :=
  match production with
  | .pure value => after value
  | .bind first next =>
      first.Starts bound view (fun value => (next value).Starts bound view after)
  | .look read => ∀ context last, after (read (view.around context last))
  | .act move => (move.consumes = true → view.kind = .eof) → after ()
  | .refuse _ => True
  | .within _ body | .node _ body | .marked body | .wrap _ body | .opened body =>
      body.Starts bound view after
  | .guarded body => body.Starts bound view (fun _ => after ()) ∧ (view.kind = .eof → after ())
  | .repeatedly body => body.Starts bound view (fun goesOn => goesOn = false ∧ after ())
  | .enter entry => entry.rank < bound
termination_by structural production

/-- Whether a production consumes a token or fails, and first enters entries of a rank below `bound`
only. -/
abbrev Advances (bound : Nat) {α : Type} (production : Production α) (view : View) : Prop :=
  production.Starts bound view (fun _ => False)

/-- Whether a production consumes a token or fails, unless it only looks at tokens and ends with a value
that `after` holds of. -/
def Idles {α : Type} (production : Production α) (view : View) (after : α → Prop) : Prop :=
  match production with
  | .pure value => after value
  | .look read => ∀ context last, after (read (view.around context last))
  | .bind first next =>
      first.Idles view (fun value => (next value).Idles view after) ∨
        (Production.bind first next).Advances 3 view
  | other => other.Advances 3 view
termination_by structural production

/-- Whether every round of a loop consumes a token or ends the loop without doing anything. -/
def Steady {α : Type} (production : Production α) : Prop :=
  match production with
  | .pure _ | .look _ | .act _ | .refuse _ | .enter _ => True
  | .bind first next => first.Steady ∧ ∀ value, (next value).Steady
  | .within _ body | .node _ body | .marked body | .wrap _ body | .opened body | .guarded body =>
      body.Steady
  | .repeatedly body => body.Steady ∧ ∀ view, body.Idles view (fun goesOn => goesOn = false)
termination_by structural production

theorem Starts.weaken {bound wider : Nat} {α : Type} {production : Production α} {view : View}
    {after later : α → Prop} (starts : production.Starts bound view after) (le : bound ≤ wider)
    (weaker : ∀ value, after value → later value) : production.Starts wider view later := by
  induction production with
  | pure value => exact weaker value starts
  | bind first next ihFirst ihNext =>
      exact ihFirst starts (fun value further => ihNext value further weaker)
  | look read => exact fun context last => weaker _ (starts context last)
  | act move => exact fun stays => weaker () (starts stays)
  | refuse complaint => trivial
  | within change body ih => exact ih starts weaker
  | node kind body ih => exact ih starts weaker
  | marked body ih => exact ih starts weaker
  | wrap kind body ih => exact ih starts weaker
  | opened body ih => exact ih starts weaker
  | guarded body ih =>
      exact ⟨ih starts.1 (fun _ => weaker ()), fun ended => weaker () (starts.2 ended)⟩
  | repeatedly body ih => exact ih starts (fun _ ended => ⟨ended.1, weaker () ended.2⟩)
  | enter entry => exact Nat.lt_of_lt_of_le starts le

/-- What consumes a token does not come to its end where it starts. -/
theorem starts_of_advances {bound : Nat} {α : Type} {production : Production α} {view : View}
    {after : α → Prop} (advances : production.Advances bound view) :
    production.Starts bound view after :=
  advances.weaken (Nat.le_refl bound) (fun _ => False.elim)

theorem Idles.starts {α : Type} {production : Production α} {view : View} {after : α → Prop}
    (idles : production.Idles view after) : production.Starts 3 view after := by
  induction production with
  | pure value => exact idles
  | look read => exact idles
  | bind first next ihFirst ihNext =>
      rcases idles with looks | advances
      · exact (ihFirst looks).weaken (Nat.le_refl 3) (fun value further => ihNext value further)
      · exact starts_of_advances advances
  | act | refuse | within | node | marked | wrap | opened | guarded | repeatedly | enter =>
      exact starts_of_advances idles

/-- Anything may be the end of a steady production. -/
theorem Steady.starts {α : Type} {production : Production α} (steady : production.Steady)
    (view : View) : production.Starts 3 view (fun _ => True) := by
  induction production with
  | pure | refuse => trivial
  | look => exact fun _ _ => trivial
  | act => exact fun _ => trivial
  | bind first next ihFirst ihNext =>
      exact (ihFirst steady.1).weaken (Nat.le_refl 3) (fun value _ => ihNext value (steady.2 value))
  | within change body ih => exact ih steady
  | node kind body ih => exact ih steady
  | marked body ih => exact ih steady
  | wrap kind body ih => exact ih steady
  | opened body ih => exact ih steady
  | guarded body ih => exact ⟨ih steady, fun _ => trivial⟩
  | repeatedly body ih =>
      exact (steady.2 view).starts.weaken (Nat.le_refl 3) (fun _ ended => ⟨ended, trivial⟩)
  | enter entry => exact entry.rank_lt

/-- The context and the last node have no say in where a production starts. -/
@[simp] theorem starts_around {bound : Nat} {α : Type} (production : Production α) (view : View)
    (context : Context) (last : Option NodeKind) {after : α → Prop} :
    production.Starts bound (view.around context last) after ↔
      production.Starts bound view after := by
  induction production with
  | pure | look | act | refuse | enter => exact Iff.rfl
  | bind first next ihFirst ihNext =>
      refine ihFirst.trans (iff_of_eq (congrArg _ (funext fun value => ?_)))
      exact propext (ihNext value)
  | within change body ih => exact ih
  | node kind body ih => exact ih
  | marked body ih => exact ih
  | wrap kind body ih => exact ih
  | opened body ih => exact ih
  | guarded body ih => exact and_congr ih Iff.rfl
  | repeatedly body ih => exact ih

section Rules

variable {bound : Nat} {view : View} {α β : Type}

/-! ### One rule for each part -/

@[simp] theorem starts_pure {after : α → Prop} (value : α) :
    (Pure.pure value : Production α).Starts bound view after ↔ after value := Iff.rfl

@[simp] theorem starts_value {after : α → Prop} (value : α) :
    (Production.pure value).Starts bound view after ↔ after value := Iff.rfl

@[simp] theorem starts_bind {after : β → Prop} (first : Production α) (next : α → Production β) :
    (first >>= next).Starts bound view after ↔
      first.Starts bound view (fun value => (next value).Starts bound view after) := Iff.rfl

@[simp] theorem starts_look {after : α → Prop} (read : View → α) :
    (look read).Starts bound view after ↔
      ∀ context last, after (read (view.around context last)) := Iff.rfl

@[simp] theorem starts_act {after : Unit → Prop} (move : Move) :
    (act move).Starts bound view after ↔
      ((move.consumes = true → view.kind = .eof) → after ()) := Iff.rfl

theorem starts_look_bind {after : β → Prop} {read : View → α} {next : α → Production β}
    (further : ∀ context last, (next (read (view.around context last))).Starts bound view after) :
    (look read >>= next).Starts bound view after := further

@[simp] theorem starts_refuse {after : α → Prop} (complaint : Complaint) :
    (refuse complaint : Production α).Starts bound view after := trivial

@[simp] theorem starts_node {after : α → Prop} (kind : NodeKind) (body : Production α) :
    (node kind body).Starts bound view after ↔ body.Starts bound view after := Iff.rfl

@[simp] theorem starts_marked {after : α → Prop} (body : Production α) :
    (marked body).Starts bound view after ↔ body.Starts bound view after := Iff.rfl

@[simp] theorem starts_wrap {after : α → Prop} (kind : NodeKind) (body : Production α) :
    (wrap kind body).Starts bound view after ↔ body.Starts bound view after := Iff.rfl

@[simp] theorem starts_guarded {after : Unit → Prop} (body : Production Unit) :
    (guarded body).Starts bound view after ↔
      body.Starts bound view (fun _ => after ()) ∧ (view.kind = .eof → after ()) := Iff.rfl

@[simp] theorem starts_repeatedly {after : Unit → Prop} (body : Production Bool) :
    (repeatedly body).Starts bound view after ↔
      body.Starts bound view (fun goesOn => goesOn = false ∧ after ()) := Iff.rfl

@[simp] theorem starts_ite {after : α → Prop} (condition : Prop) [Decidable condition]
    (first second : Production α) :
    (if condition then first else second).Starts bound view after ↔
      (condition → first.Starts bound view after) ∧
        (¬ condition → second.Starts bound view after) := by
  split <;> simp_all

/-- What follows a part that consumes a token is not reached where the part starts. -/
theorem starts_andThen {first : Production α} {next : α → Production β} {after : β → Prop}
    (advances : first.Advances bound view) : (first >>= next).Starts bound view after :=
  (starts_bind first next).mpr (starts_of_advances advances)

theorem idles_bind {first : Production α} {next : α → Production β} {after : β → Prop}
    (idles : first.Idles view (fun value => (next value).Idles view after)) :
    (first >>= next).Idles view after := Or.inl idles

theorem idles_look_bind {read : View → α} {next : α → Production β} {after : β → Prop}
    (further : ∀ context last, (next (read (view.around context last))).Idles view after) :
    (look read >>= next).Idles view after := Or.inl further

theorem idles_andThen {first : Production α} {next : α → Production β} {after : β → Prop}
    (advances : first.Advances 3 view) : (first >>= next).Idles view after :=
  Or.inr (starts_andThen advances)

@[simp] theorem steady_pure (value : α) : (Pure.pure value : Production α).Steady := trivial

@[simp] theorem steady_value (value : α) : (Production.pure value).Steady := trivial

@[simp] theorem steady_bind (first : Production α) (next : α → Production β) :
    (first >>= next).Steady ↔ first.Steady ∧ ∀ value, (next value).Steady := Iff.rfl

@[simp] theorem steady_look (read : View → α) : (look read).Steady := trivial

theorem steady_look_bind {read : View → α} {next : α → Production β}
    (further : ∀ value, (next value).Steady) : (look read >>= next).Steady :=
  ⟨steady_look read, further⟩

@[simp] theorem steady_act (move : Move) : (act move).Steady := trivial

@[simp] theorem steady_refuse (complaint : Complaint) :
    (refuse complaint : Production α).Steady := trivial

@[simp] theorem steady_within (change : Context → Context) (body : Production α) :
    (within change body).Steady ↔ body.Steady := Iff.rfl

@[simp] theorem steady_node (kind : NodeKind) (body : Production α) :
    (node kind body).Steady ↔ body.Steady := Iff.rfl

@[simp] theorem steady_marked (body : Production α) : (marked body).Steady ↔ body.Steady := Iff.rfl

@[simp] theorem steady_wrap (kind : NodeKind) (body : Production α) :
    (wrap kind body).Steady ↔ body.Steady := Iff.rfl

@[simp] theorem steady_opened (body : Production α) : (opened body).Steady ↔ body.Steady := Iff.rfl

@[simp] theorem steady_guarded (body : Production Unit) :
    (guarded body).Steady ↔ body.Steady := Iff.rfl

@[simp] theorem steady_enter (entry : Entry) : (enter entry).Steady := trivial

@[simp] theorem steady_ite (condition : Prop) [Decidable condition] (first second : Production α) :
    (if condition then first else second).Steady ↔
      (condition → first.Steady) ∧ (¬ condition → second.Steady) := by
  split <;> simp_all

/-! ### Tokens -/

@[simp] theorem starts_bump {after : Unit → Prop} :
    bump.Starts bound view after ↔ (view.kind = .eof → after ()) := by
  simp [bump, Move.consumes]

@[simp] theorem starts_bumpKeyword {after : Unit → Prop} :
    bumpKeyword.Starts bound view after ↔ (view.kind = .eof → after ()) := by
  simp [bumpKeyword, Move.consumes]

@[simp] theorem starts_tag {after : Unit → Prop} (field : Field) :
    (tag field).Starts bound view after ↔ after () := by
  simp [tag, Move.consumes]

@[simp] theorem starts_bumpTagged {after : Unit → Prop} (field : Field) :
    (bumpTagged field).Starts bound view after ↔ (view.kind = .eof → after ()) := by
  simp [bumpTagged]

@[simp] theorem starts_check {after : Bool → Prop} (kind : TokenKind) :
    (check kind).Starts bound view after ↔ after (view.isAt kind) := by
  simp [check]

@[simp] theorem starts_checkWord {after : Bool → Prop} (words : List String) :
    (checkWord words).Starts bound view after ↔ after (view.isWordIn words) := by
  simp [checkWord]

@[simp] theorem starts_checkDirective {after : Bool → Prop} (names : List String) :
    (checkDirective names).Starts bound view after ↔ after (view.isDirectiveIn names) := by
  simp [checkDirective]

/-- A token that is there is consumed. -/
theorem starts_eat {after : Bool → Prop} {kind : TokenKind} (token : kind ≠ .eof)
    (missing : view.isAt kind = false → after false) : (eat kind).Starts bound view after := by
  simp only [eat, starts_bind, starts_check, starts_ite, starts_bump, starts_value]
  refine ⟨fun here ended => ?_, fun other => missing (eq_false_of_ne_true other)⟩
  exact absurd ended (View.not_end_of_isAt here token)

theorem idles_eat {after : Bool → Prop} {kind : TokenKind} (token : kind ≠ .eof)
    (missing : after false) : (eat kind).Idles view after := by
  refine idles_look_bind (fun context last => ?_)
  rw [View.isAt_around]
  cases here : view.isAt kind with
  | true => exact idles_andThen (starts_bump.mpr (View.not_end_of_isAt here token))
  | false => exact missing

theorem advances_expect {kind : TokenKind} (token : kind ≠ .eof) :
    (expect kind).Advances bound view :=
  starts_eat token (fun _ => starts_refuse _)

@[simp] theorem steady_bump : bump.Steady := trivial

@[simp] theorem steady_bumpKeyword : bumpKeyword.Steady := trivial

@[simp] theorem steady_tag (field : Field) : (tag field).Steady := trivial

@[simp] theorem steady_check (kind : TokenKind) : (check kind).Steady := trivial

@[simp] theorem steady_checkWord (words : List String) : (checkWord words).Steady := trivial

@[simp] theorem steady_checkDirective (names : List String) : (checkDirective names).Steady := trivial

@[simp] theorem steady_bumpTagged (field : Field) : (bumpTagged field).Steady := by
  simp [bumpTagged]

@[simp] theorem steady_eat (kind : TokenKind) : (eat kind).Steady := by
  simp [eat]

@[simp] theorem steady_eatWord (word : String) : (eatWord word).Steady := by
  simp [eatWord]

@[simp] theorem steady_expect (kind : TokenKind) : (expect kind).Steady := by
  simp [expect]

@[simp] theorem steady_expectName (field : Field) : (expectName field).Steady := by
  simp [expectName]

@[simp] theorem steady_closeBrace : closeBrace.Steady := by
  simp [closeBrace]

/-! ### Control -/

/-- A loop whose body consumes a token wherever its condition holds. -/
theorem starts_asLongAs {after : Unit → Prop} {condition : View → Bool} {body : Production Unit}
    (advances : ∀ context last, condition (view.around context last) = true →
      body.Advances bound view) (further : after ()) :
    (asLongAs condition body).Starts bound view after := by
  simp only [asLongAs, starts_repeatedly, starts_bind, starts_look, starts_ite, starts_value]
  intro context last
  exact ⟨fun holds => starts_of_advances (advances context last holds), fun _ => ⟨trivial, further⟩⟩

theorem starts_onlyIf {after : Unit → Prop} {condition : View → Bool} {body : Production Unit}
    (inner : ∀ context last, condition (view.around context last) = true →
      body.Starts bound view after) (further : after ()) :
    (onlyIf condition body).Starts bound view after := by
  simp only [onlyIf, starts_bind, starts_look, starts_ite, starts_pure]
  exact fun context last => ⟨inner context last, fun _ => further⟩

@[simp] theorem steady_onlyIf (condition : View → Bool) {body : Production Unit}
    (inner : body.Steady) : (onlyIf condition body).Steady := by
  simp [onlyIf, inner]

theorem steady_repeatedly {body : Production Bool} (inner : body.Steady)
    (rounds : ∀ view, body.Idles view (fun goesOn => goesOn = false)) :
    (repeatedly body).Steady :=
  ⟨inner, rounds⟩

theorem steady_asLongAs {condition : View → Bool} {body : Production Unit} (inner : body.Steady)
    (advances : ∀ view, condition view = true → body.Advances 3 view) :
    (asLongAs condition body).Steady := by
  refine steady_repeatedly (by simp [inner]) (fun view => idles_look_bind (fun context last => ?_))
  split
  · next holds =>
      exact idles_andThen ((starts_around body view context last).mp (advances _ holds))
  · exact rfl

theorem steady_upTo {close : TokenKind} {body : Production Unit} (inner : body.Steady)
    (advances : ∀ view : View, view.kind ≠ .eof → body.Advances 3 view) :
    (upTo close body).Steady := by
  refine steady_asLongAs inner (fun view more => advances view ?_)
  exact View.not_end_of_endsAt (Bool.not_eq_true' _ ▸ more)

theorem steady_upToSkipping {close separator : TokenKind} {body : Production Unit}
    (inner : body.Steady) (token : separator ≠ .eof)
    (advances : ∀ view : View, view.kind ≠ .eof → body.Advances 3 view) :
    (upToSkipping close separator body).Steady := by
  refine steady_upTo (by simp [inner]) (fun view more => ?_)
  exact starts_eat token (fun _ => advances view more)

/-- A loop that goes on after a comma. -/
@[simp] theorem steady_commaSeparated {item : Production Unit} (inner : item.Steady) :
    (commaSeparated item).Steady := by
  refine ⟨inner, fun _ => steady_repeatedly (by simp [inner]) (fun view => ?_)⟩
  exact idles_bind (idles_eat (by decide) rfl)

@[simp] theorem steady_commaBefore (close : TokenKind) : (commaBefore close).Steady := by
  simp [commaBefore]

@[simp] theorem steady_times (count : Nat) {body : Production Unit} (inner : body.Steady) :
    (times count body).Steady := by
  induction count with
  | zero => trivial
  | succ count ih => exact ⟨inner, fun _ => ih⟩

@[simp] theorem steady_discard {body : Production α} (inner : body.Steady) :
    (discard body).Steady :=
  ⟨inner, fun _ => trivial⟩

@[simp] theorem steady_fresh (body : Production α) : (fresh body).Steady ↔ body.Steady := Iff.rfl

@[simp] theorem steady_amongArguments (body : Production α) :
    (amongArguments body).Steady ↔ body.Steady := Iff.rfl

end Rules

end Production

end JaiSyntax
