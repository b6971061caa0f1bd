import JaiSyntax.Production.Statement
import JaiSyntax.Proofs.Brackets.Passing
/-!
Level productions. A production is level if it consumes no bracket but in parts that close the brackets
that they open, and so passes balanced tokens.
-/

set_option autoImplicit false

namespace JaiSyntax

namespace Production

variable {α β : Type} {kindAt : Nat → TokenKind}

/-- Whether all that a production can pass is balanced. -/
def Balances (production : Production α) (kindAt : Nat → TokenKind) : Prop :=
  ∀ value kinds later, production.Passes value kindAt kinds later → Balanced kinds

/-- Whether something holds of the values that a production can yield and of the tokens that are ahead
then. -/
def Reaches (production : Production α) (kindAt : Nat → TokenKind)
    (holds : α → (Nat → TokenKind) → Prop) : Prop :=
  ∀ value kinds later, production.Passes value kindAt kinds later → holds value later

/-- Whether a production consumes brackets in balanced parts only. The rounds of a loop keep something
that holds of the tokens ahead. -/
def Level {α : Type} (production : Production α) (kindAt : Nat → TokenKind) : Prop :=
  match production with
  | .pure _ | .look _ | .refuse _ | .enter _ => True
  | .act .bump | .act .bumpKeyword => (kindAt 0).isBracket = false
  | .act _ => True
  | .bind first next =>
      (first.Level kindAt ∧ first.Reaches kindAt (fun value later => (next value).Level later)) ∨
        (Production.bind first next).Balances kindAt
  | .within _ body | .node _ body | .marked body | .wrap _ body | .opened body | .guarded body =>
      body.Level kindAt
  | .repeatedly body =>
      ∃ keeps : (Nat → TokenKind) → Prop, keeps kindAt ∧
        ∀ start, keeps start → body.Level start ∧ body.Reaches start (fun _ later => keeps later)
termination_by structural production

theorem Level.balances {production : Production α} (level : production.Level kindAt) :
    production.Balances kindAt := by
  induction production generalizing kindAt with
  | pure =>
      rintro value kinds later ⟨-, rfl, -⟩
      exact balanced_nil
  | look =>
      rintro value kinds later ⟨-, -, -, rfl, -⟩
      exact balanced_nil
  | refuse => exact fun _ _ _ => False.elim
  | act move =>
      rintro value kinds later passes
      cases move with
      | bump | bumpKeyword => exact passes.1 ▸ balanced_single level
      | tag | reinterpretLast | spliceParameters => exact passes.1 ▸ balanced_nil
      | report => exact passes.elim
  | bind first next ihFirst ihNext =>
      rcases level with ⟨front, further⟩ | whole
      · rintro value kinds later ⟨result, middle, before, behind, passed, onward, rfl⟩
        exact (ihFirst front _ _ _ passed).append
          (ihNext result (further _ _ _ passed) _ _ _ onward)
      · exact whole
  | within _ _ ih | node _ _ ih | marked _ ih | wrap _ _ ih | opened _ ih | guarded _ ih =>
      exact ih level
  | repeatedly body ih =>
      obtain ⟨keeps, start, round⟩ := level
      intro value kinds later passes
      have passed : PassedRounds _ kindAt kinds later := passes
      suffices Balanced kinds ∧ keeps later from this.1
      clear passes
      induction passed with
      | none => exact ⟨balanced_nil, start⟩
      | more earlier last before =>
          obtain ⟨goesOn, last⟩ := last
          obtain ⟨inner, kept⟩ := round _ before.2
          exact ⟨before.1.append (ih inner _ _ _ last), kept _ _ _ last⟩
  | enter => exact fun _ _ _ passes => passes.1

/-! ### What is reached -/

section Reaches

variable {holds : α → (Nat → TokenKind) → Prop}

theorem Reaches.of_all {production : Production α} (all : ∀ value later, holds value later) :
    production.Reaches kindAt holds :=
  fun value _ later _ => all value later

@[simp] theorem reaches_true (production : Production α) :
    production.Reaches kindAt (fun _ _ => True) :=
  .of_all (fun _ _ => trivial)

@[simp] theorem reaches_pure (value : α) :
    (Pure.pure value : Production α).Reaches kindAt holds ↔ holds value kindAt :=
  ⟨fun reaches => reaches value [] kindAt ⟨rfl, rfl, rfl⟩, by
    rintro held _ _ _ ⟨rfl, -, rfl⟩
    exact held⟩

@[simp] theorem reaches_value (value : α) :
    (Production.pure value).Reaches kindAt holds ↔ holds value kindAt :=
  reaches_pure value

@[simp] theorem reaches_bind {holds : β → (Nat → TokenKind) → Prop} (first : Production α)
    (next : α → Production β) :
    (first >>= next).Reaches kindAt holds ↔
      first.Reaches kindAt (fun value later => (next value).Reaches later holds) := by
  constructor
  · intro reaches value front middle passed result back later further
    exact reaches result _ later ⟨value, middle, front, back, passed, further, rfl⟩
  · rintro reaches result kinds later ⟨value, middle, front, back, passed, further, -⟩
    exact reaches value front middle passed result back later further

@[simp] theorem reaches_look (read : View → α) :
    (look read).Reaches kindAt holds ↔
      ∀ view : View, view.kindAt = kindAt → holds (read view) kindAt := by
  constructor
  · exact fun reaches view same => reaches _ [] kindAt ⟨view, same, rfl, rfl, rfl⟩
  · rintro reaches _ _ _ ⟨view, same, rfl, -, rfl⟩
    exact reaches view same

theorem reaches_bumps {holds : Unit → (Nat → TokenKind) → Prop} {production : Production Unit}
    (bumps : ∀ kinds later, production.Passes () kindAt kinds later ↔
      kinds = [kindAt 0] ∧ later = fun distance => kindAt (distance + 1)) :
    production.Reaches kindAt holds ↔ holds () (fun distance => kindAt (distance + 1)) := by
  constructor
  · exact fun reaches => reaches () _ _ ((bumps _ _).mpr ⟨rfl, rfl⟩)
  · intro held value kinds later passes
    obtain ⟨-, rfl⟩ := (bumps _ _).mp passes
    exact held

@[simp] theorem reaches_bump {holds : Unit → (Nat → TokenKind) → Prop} :
    bump.Reaches kindAt holds ↔ holds () (fun distance => kindAt (distance + 1)) :=
  reaches_bumps (fun _ _ => Iff.rfl)

@[simp] theorem reaches_bumpKeyword {holds : Unit → (Nat → TokenKind) → Prop} :
    bumpKeyword.Reaches kindAt holds ↔ holds () (fun distance => kindAt (distance + 1)) :=
  reaches_bumps (fun _ _ => Iff.rfl)

@[simp] theorem reaches_tag {holds : Unit → (Nat → TokenKind) → Prop} (field : Field) :
    (tag field).Reaches kindAt holds ↔ holds () kindAt :=
  ⟨fun reaches => reaches () [] kindAt ⟨rfl, rfl⟩, by rintro held _ _ _ ⟨-, rfl⟩; exact held⟩

@[simp] theorem reaches_reinterpretLast {holds : Unit → (Nat → TokenKind) → Prop} :
    (act .reinterpretLast).Reaches kindAt holds ↔ holds () kindAt :=
  ⟨fun reaches => reaches () [] kindAt ⟨rfl, rfl⟩, by rintro held _ _ _ ⟨-, rfl⟩; exact held⟩

@[simp] theorem reaches_spliceParameters {holds : Unit → (Nat → TokenKind) → Prop} :
    (act .spliceParameters).Reaches kindAt holds ↔ holds () kindAt :=
  ⟨fun reaches => reaches () [] kindAt ⟨rfl, rfl⟩, by rintro held _ _ _ ⟨-, rfl⟩; exact held⟩

/-- What each round of a loop keeps holds behind it. -/
theorem reaches_repeatedly {body : Production Bool} {keeps : (Nat → TokenKind) → Prop}
    (start : keeps kindAt)
    (round : ∀ start, keeps start → body.Reaches start (fun _ later => keeps later)) :
    (repeatedly body).Reaches kindAt (fun _ later => keeps later) := by
  intro value kinds later passes
  have passed : PassedRounds _ kindAt kinds later := passes
  clear passes
  induction passed with
  | none => exact start
  | more earlier last before =>
      obtain ⟨goesOn, last⟩ := last
      exact round _ before _ _ _ last

@[simp] theorem reaches_ite (condition : Prop) [Decidable condition] (first second : Production α) :
    (if condition then first else second).Reaches kindAt holds ↔
      (condition → first.Reaches kindAt holds) ∧ (¬ condition → second.Reaches kindAt holds) := by
  split <;> simp_all

@[simp] theorem reaches_bumpTagged {holds : Unit → (Nat → TokenKind) → Prop} (field : Field) :
    (bumpTagged field).Reaches kindAt holds ↔ holds () (fun distance => kindAt (distance + 1)) := by
  simp [bumpTagged]

theorem reaches_onlyIf {holds : Unit → (Nat → TokenKind) → Prop} (condition : View → Bool)
    (body : Production Unit) :
    (onlyIf condition body).Reaches kindAt holds ↔
      ∀ view : View, view.kindAt = kindAt →
        (condition view = true → body.Reaches kindAt holds) ∧
          (condition view = false → holds () kindAt) := by
  simp [onlyIf]

@[simp] theorem reaches_check {holds : Bool → (Nat → TokenKind) → Prop} (kind : TokenKind) :
    (check kind).Reaches kindAt holds ↔ holds (kindAt 0 == kind) kindAt := by
  rw [check, reaches_look]
  constructor
  · exact fun reaches => reaches ⟨kindAt, fun _ => "", .eof, .none, none⟩ rfl
  · rintro held view rfl
    exact held

@[simp] theorem reaches_eat {holds : Bool → (Nat → TokenKind) → Prop} (kind : TokenKind) :
    (eat kind).Reaches kindAt holds ↔
      (kindAt 0 = kind → holds true (fun distance => kindAt (distance + 1))) ∧
        (kindAt 0 ≠ kind → holds false kindAt) := by
  simp [eat]

end Reaches

/-! ### Level parts -/

section Rules

@[simp] theorem level_pure (value : α) : (Pure.pure value : Production α).Level kindAt := trivial

@[simp] theorem level_value (value : α) : (Production.pure value).Level kindAt := trivial

@[simp] theorem level_look (read : View → α) : (look read).Level kindAt := trivial

@[simp] theorem level_refuse (complaint : Complaint) :
    (refuse complaint : Production α).Level kindAt := trivial

@[simp] theorem level_enter (entry : Entry) : (enter entry).Level kindAt := trivial

@[simp] theorem level_bump : bump.Level kindAt ↔ (kindAt 0).isBracket = false := Iff.rfl

@[simp] theorem level_bumpKeyword : bumpKeyword.Level kindAt ↔ (kindAt 0).isBracket = false := Iff.rfl

@[simp] theorem level_tag (field : Field) : (tag field).Level kindAt := trivial

@[simp] theorem level_reinterpretLast : (act .reinterpretLast).Level kindAt := trivial

@[simp] theorem level_spliceParameters : (act .spliceParameters).Level kindAt := trivial

@[simp] theorem level_report (complaint : Complaint) : (act (.report complaint)).Level kindAt := trivial

@[simp] theorem level_bind (first : Production α) (next : α → Production β) :
    (first >>= next).Level kindAt ↔
      (first.Level kindAt ∧ first.Reaches kindAt (fun value later => (next value).Level later)) ∨
        (first >>= next).Balances kindAt := Iff.rfl

@[simp] theorem level_within (change : Context → Context) (body : Production α) :
    (within change body).Level kindAt ↔ body.Level kindAt := Iff.rfl

@[simp] theorem level_node (kind : NodeKind) (body : Production α) :
    (node kind body).Level kindAt ↔ body.Level kindAt := Iff.rfl

@[simp] theorem level_wrap (kind : NodeKind) (body : Production α) :
    (wrap kind body).Level kindAt ↔ body.Level kindAt := Iff.rfl

@[simp] theorem level_guarded (body : Production Unit) :
    (guarded body).Level kindAt ↔ body.Level kindAt := Iff.rfl

@[simp] theorem level_repeatedly {body : Production Bool} (round : ∀ start, body.Level start) :
    (repeatedly body).Level kindAt :=
  ⟨fun _ => True, trivial, fun start _ => ⟨round start, reaches_true body⟩⟩

@[simp] theorem level_ite (condition : Prop) [Decidable condition] (first second : Production α) :
    (if condition then first else second).Level kindAt ↔
      (condition → first.Level kindAt) ∧ (¬ condition → second.Level kindAt) := by
  split <;> simp_all

/-- What follows is level whatever the first part passes. -/
theorem level_andThen {first : Production α} {next : α → Production β} (front : first.Level kindAt)
    (further : ∀ value later, (next value).Level later) : (first >>= next).Level kindAt :=
  Or.inl ⟨front, .of_all further⟩

theorem level_look_bind {read : View → α} {next : α → Production β}
    (further : ∀ view : View, view.kindAt = kindAt → (next (read view)).Level kindAt) :
    (look read >>= next).Level kindAt :=
  Or.inl ⟨trivial, (reaches_look read).mpr further⟩

/-- A choice by a look. -/
theorem level_choice {condition : View → Bool} {first second : Production α}
    (found : ∀ view : View, view.kindAt = kindAt → condition view = true → first.Level kindAt)
    (other : second.Level kindAt) :
    (do if ← look condition then first else second).Level kindAt := by
  refine level_look_bind (fun view same => ?_)
  split
  · next holds => exact found view same holds
  · exact other

@[simp] theorem level_check (kind : TokenKind) : (check kind).Level kindAt := trivial

end Rules

/-! ### Brackets around a part -/

def Opens (production : Production α) (kindAt : Nat → TokenKind) : Prop :=
  ∀ value kinds later, production.Passes value kindAt kinds later → openAfter 0 kinds = some 1

/-- Whether a production passes one bracket that closes, and balanced tokens before and behind it. -/
def Closes (production : Production α) (kindAt : Nat → TokenKind) : Prop :=
  ∀ value kinds later, production.Passes value kindAt kinds later → openAfter 1 kinds = some 0

section Brackets

variable {first : Production α} {next : α → Production β}

theorem level_bracketed (opens : first.Opens kindAt)
    (closes : first.Reaches kindAt (fun value later => (next value).Closes later)) :
    (first >>= next).Level kindAt := by
  refine Or.inr ?_
  rintro value kinds later ⟨result, middle, front, back, passed, further, rfl⟩
  rw [Balanced, openAfter_append, opens _ _ _ passed]
  exact closes _ _ _ passed _ _ _ further

theorem closes_behind (front : first.Level kindAt)
    (closes : first.Reaches kindAt (fun value later => (next value).Closes later)) :
    (first >>= next).Closes kindAt := by
  rintro value kinds later ⟨result, middle, before, behind, passed, further, rfl⟩
  rw [openAfter_append, (front.balances _ _ _ passed).openAfter_eq]
  exact closes _ _ _ passed _ _ _ further

/-- A level part between a bracket that opens and one that closes. -/
theorem level_between {body : Production Unit} {last : Production β} (opens : first.Opens kindAt)
    (inner : ∀ start, body.Level start) (closes : ∀ start, last.Closes start) :
    (first >>= fun _ => body >>= fun _ => last).Level kindAt :=
  level_bracketed opens (.of_all (fun _ _ => closes_behind (inner _) (.of_all (fun _ => closes))))

theorem closes_andThen (closes : first.Closes kindAt)
    (further : first.Reaches kindAt (fun value later => (next value).Level later)) :
    (first >>= next).Closes kindAt := by
  rintro value kinds later ⟨result, middle, before, behind, passed, onward, rfl⟩
  rw [openAfter_append, closes _ _ _ passed]
  exact (further _ _ _ passed).balances _ _ _ onward

theorem opens_bump (opens : (kindAt 0).opens = true) : bump.Opens kindAt := by
  rintro value kinds later ⟨rfl, -⟩
  simp [openAfter_cons, bracketStep, opens]

/-- A token that is taken if it is there. -/
theorem passes_eat {kind : TokenKind} {taken : Bool} {kinds : List TokenKind}
    {later : Nat → TokenKind} (passes : (eat kind).Passes taken kindAt kinds later) :
    kinds = if taken then [kind] else [] := by
  obtain ⟨found, _, _, _, ⟨view, rfl, rfl, rfl, rfl⟩, passes, rfl⟩ := passes
  dsimp only at passes
  split at passes
  · next here =>
      obtain ⟨_, _, _, _, ⟨rfl, rfl⟩, ⟨rfl, rfl, rfl⟩, rfl⟩ := passes
      have same : view.kindAt 0 = kind := eq_of_beq here
      simp [same]
  · obtain ⟨rfl, rfl, rfl⟩ := passes
    rfl

theorem passes_expect {kind : TokenKind} {value : Unit} {kinds : List TokenKind}
    {later : Nat → TokenKind} (passes : (expect kind).Passes value kindAt kinds later) :
    kinds = [kind] := by
  obtain ⟨taken, _, _, _, eaten, passes, rfl⟩ := passes
  rw [passes_eat eaten]
  cases taken with
  | true =>
      obtain ⟨-, rfl, -⟩ := passes
      rfl
  | false => exact passes.elim

theorem opens_expect {kind : TokenKind} (opens : kind.opens = true) : (expect kind).Opens kindAt := by
  intro value kinds later passes
  rw [passes_expect passes]
  simp [openAfter_cons, bracketStep, opens]

theorem closes_expect {kind : TokenKind} (other : kind.opens = false) (closes : kind.closes = true) :
    (expect kind).Closes kindAt := by
  intro value kinds later passes
  rw [passes_expect passes]
  simp [openAfter_cons, bracketStep, other, closes]

/-- A brace that is missing is reported. -/
theorem closes_closeBrace : closeBrace.Closes kindAt := by
  rintro value kinds later ⟨taken, _, _, _, eaten, passes, rfl⟩
  rw [passes_eat eaten]
  cases taken with
  | true =>
      obtain ⟨-, rfl, -⟩ := passes
      rfl
  | false => exact passes.elim

end Brackets

section Grammar

/-! ### Tokens and control -/

theorem level_bumpTagged (field : Field) (plain : (kindAt 0).isBracket = false) :
    (bumpTagged field).Level kindAt :=
  level_andThen plain (fun _ _ => level_tag field)

theorem level_eat {kind : TokenKind} (plain : kind.isBracket = false) : (eat kind).Level kindAt := by
  refine Or.inr (fun taken kinds later passes => ?_)
  rw [passes_eat passes]
  cases taken with
  | true => exact balanced_single plain
  | false => exact balanced_nil

theorem level_expect {kind : TokenKind} (plain : kind.isBracket = false) :
    (expect kind).Level kindAt :=
  level_andThen (level_eat plain) (fun taken _ => by cases taken <;> trivial)

@[simp] theorem level_eatWord (word : String) : (eatWord word).Level kindAt := by
  simp +contextual +decide [eatWord, checkWord, View.isWordIn, View.isAt, View.kind]

@[simp] theorem level_expectName (field : Field) : (expectName field).Level kindAt := by
  simp +contextual +decide [expectName, level_bumpTagged]

theorem level_discard {body : Production α} (inner : body.Level kindAt) :
    (discard body).Level kindAt :=
  level_andThen inner (fun _ _ => trivial)

theorem level_onlyIf {condition : View → Bool} {body : Production Unit}
    (inner : ∀ view : View, view.kindAt = kindAt → condition view = true → body.Level kindAt) :
    (onlyIf condition body).Level kindAt := by
  refine level_look_bind (fun view same => ?_)
  split
  · next found => exact inner view same found
  · trivial

theorem level_asLongAs {condition : View → Bool} {body : Production Unit}
    (inner : ∀ view : View, condition view = true → body.Level view.kindAt) :
    (asLongAs condition body).Level kindAt := by
  refine level_repeatedly (fun start => level_look_bind (fun view same => ?_))
  split
  · next found =>
      rw [← same]
      exact level_andThen (inner view found) (fun _ _ => trivial)
  · trivial

/-- A loop whose rounds keep something. -/
theorem level_asLongAs_of_kept {condition : View → Bool} {body : Production Unit}
    {keeps : (Nat → TokenKind) → Prop} (start : keeps kindAt)
    (round : ∀ view : View, keeps view.kindAt → condition view = true →
      body.Level view.kindAt ∧ body.Reaches view.kindAt (fun _ later => keeps later)) :
    (asLongAs condition body).Level kindAt ∧
      (asLongAs condition body).Reaches kindAt (fun _ later => keeps later) := by
  have rounds (ahead : Nat → TokenKind) (kept : keeps ahead) :
      (do
        if ← look condition then
          body
          pure true
        else pure false : Production Bool).Level ahead ∧
      (do
        if ← look condition then
          body
          pure true
        else pure false : Production Bool).Reaches ahead (fun _ later => keeps later) := by
    constructor
    · refine level_look_bind (fun view same => ?_)
      split
      · next found =>
          subst same
          exact level_andThen (round view kept found).1 (fun _ _ => trivial)
      · trivial
    · rw [reaches_bind, reaches_look]
      intro view same
      subst same
      split
      · next found => simpa using (round view kept found).2
      · simpa using kept
  exact ⟨⟨keeps, start, rounds⟩, reaches_repeatedly start (fun ahead kept => (rounds ahead kept).2)⟩

@[simp] theorem level_upTo (close : TokenKind) {body : Production Unit}
    (inner : ∀ start, body.Level start) : (upTo close body).Level kindAt :=
  level_asLongAs (fun _ _ => inner _)

@[simp] theorem level_upToSkipping {close separator : TokenKind} (plain : separator.isBracket = false)
    {body : Production Unit} (inner : ∀ start, body.Level start) :
    (upToSkipping close separator body).Level kindAt :=
  level_upTo close (fun _ => by simp [level_eat plain, inner])

@[simp] theorem level_commaSeparated {item : Production Unit} (inner : ∀ start, item.Level start) :
    (commaSeparated item).Level kindAt := by
  refine level_andThen (inner _) (fun _ _ => level_repeatedly (fun start => ?_))
  simp +decide [level_eat, inner]

@[simp] theorem level_commaBefore (close : TokenKind) : (commaBefore close).Level kindAt :=
  level_onlyIf (fun _ _ _ => level_expect rfl)

@[simp] theorem level_fresh (body : Production α) : (fresh body).Level kindAt ↔ body.Level kindAt :=
  Iff.rfl

/-! ### Entries and small nodes -/

@[simp] theorem level_operand (least : Prec) : (operand least).Level kindAt := trivial

@[simp] theorem level_expression : expression.Level kindAt := trivial

@[simp] theorem level_type : type.Level kindAt := trivial

@[simp] theorem level_expressionAs (field : Field) : (expressionAs field).Level kindAt :=
  level_andThen level_expression (fun _ _ => level_tag field)

@[simp] theorem level_typeAs (field : Field) : (typeAs field).Level kindAt :=
  level_andThen level_type (fun _ _ => level_tag field)

@[simp] theorem level_expressionsAs (field : Field) : (expressionsAs field).Level kindAt :=
  level_commaSeparated (fun _ => level_expressionAs field)

theorem level_leafNode {kind : NodeKind} (plain : (kindAt 0).isBracket = false) :
    (leafNode kind).Level kindAt := plain

theorem level_keywordNode {kind : NodeKind} (plain : (kindAt 0).isBracket = false) :
    (keywordNode kind).Level kindAt := plain

theorem level_identifierNode (plain : (kindAt 0).isBracket = false) :
    identifierNode.Level kindAt := plain

@[simp] theorem reaches_identifierNode {holds : Unit → (Nat → TokenKind) → Prop} :
    identifierNode.Reaches kindAt holds ↔ holds () (fun distance => kindAt (distance + 1)) :=
  reaches_bump

/-! ### Literals and arguments -/

/-- A token of a kind that is no bracket. -/
theorem plain_of_kind {view : View} {kind : TokenKind} (here : view.kind = kind)
    (plain : kind.isBracket = false) : (view.kindAt 0).isBracket = false :=
  (congrArg TokenKind.isBracket here).trans plain

theorem plain_of_isAt {view : View} {kind : TokenKind} (found : view.isAt kind = true)
    (plain : kind.isBracket = false) : (view.kindAt 0).isBracket = false :=
  plain_of_kind (eq_of_beq found) plain

theorem plain_of_isWordIn {view : View} {words : List String} (found : view.isWordIn words = true) :
    (view.kindAt 0).isBracket = false :=
  plain_of_isAt (Bool.and_eq_true_iff.mp found).1 rfl

theorem plain_of_isDirectiveIn {view : View} {names : List String}
    (found : view.isDirectiveIn names = true) : (view.kindAt 0).isBracket = false :=
  plain_of_isAt (Bool.and_eq_true_iff.mp found).1 rfl

@[simp] theorem level_stringBody : stringBody.Level kindAt := by
  have pieces (start : Nat → TokenKind) :
      (asLongAs (fun view => view.isAt .stringContent || view.isAt .escapeSequence) bump).Level
        start := by
    refine level_asLongAs (fun view found => ?_)
    rcases Bool.or_eq_true_iff.mp found with content | escape
    · exact plain_of_isAt content rfl
    · exact plain_of_isAt escape rfl
  simp +contextual +decide [stringBody, pieces, level_expect]

theorem level_characterLiteral (plain : (kindAt 0).isBracket = false) :
    characterLiteral.Level kindAt :=
  level_andThen (level_bumpTagged _ plain) (fun _ _ => level_stringBody)

@[simp] theorem level_stringLiteral : stringLiteral.Level kindAt := by
  refine level_look_bind (fun view same => ?_)
  split
  · next found => exact level_characterLiteral (same ▸ plain_of_isDirectiveIn found)
  · exact level_stringBody

theorem level_heredoc (plain : (kindAt 0).isBracket = false) : heredoc.Level kindAt := by
  simp +decide [heredoc, plain, level_eat, level_discard]

theorem level_argument {positional : Production Unit} (inner : ∀ start, positional.Level start) :
    (argument positional).Level kindAt := by
  refine level_look_bind (fun view same => ?_)
  simp +contextual +decide [← same, View.isNameBefore, View.isAt, View.kind, level_bumpTagged, inner]

theorem level_argumentList {positional : Production Unit} (inner : ∀ start, positional.Level start) :
    (argumentList positional).Level kindAt := by
  refine level_between (opens_expect rfl) (fun _ => level_upToSkipping rfl (fun _ => ?_))
    (fun _ => closes_expect rfl rfl)
  simp [level_argument inner]

@[simp] theorem level_callArguments : callArguments.Level kindAt :=
  level_argumentList (fun _ => level_expression)

@[simp] theorem level_literalEntry : literalEntry.Level kindAt := by
  refine level_look_bind (fun view same => ?_)
  simp +contextual +decide [← same, View.isNameBefore, View.isAt, View.kind, level_bumpTagged,
    level_identifierNode]

@[simp] theorem level_literalEntries (close : TokenKind) : (literalEntries close).Level kindAt := by
  refine level_repeatedly (fun start => level_look_bind (fun view same => ?_))
  simp +decide [level_eat]

/-- The entries of a struct literal behind a token that is no bracket. -/
theorem level_structEntries (plain : (kindAt 0).isBracket = false) (opens : kindAt 1 = .lBrace) :
    structEntries.Level kindAt :=
  Or.inl ⟨plain, reaches_bump.mpr (level_between (opens_bump (by rw [opens]; rfl))
    (fun _ => level_literalEntries _) (fun _ => closes_closeBrace))⟩

theorem level_arrayEntries (plain : (kindAt 0).isBracket = false) (opens : kindAt 1 = .lBracket) :
    arrayEntries.Level kindAt :=
  Or.inl ⟨plain, reaches_bump.mpr (level_between (opens_bump (by rw [opens]; rfl))
    (fun _ => level_literalEntries _) (fun _ => closes_expect rfl rfl))⟩

/-! ### Statements where they stand -/

@[simp] theorem level_terminator (kind : NodeKind) : (terminator kind).Level kindAt := by
  unfold terminator
  split
  · trivial
  · refine level_andThen (level_eat rfl) (fun taken _ => ?_)
    cases taken with
    | true => trivial
    | false => exact level_onlyIf (fun _ _ _ => level_report _)

@[simp] theorem level_substatement (field : Option Field) : (substatement field).Level kindAt := by
  refine level_andThen (level_eat rfl) (fun taken _ => ?_)
  cases taken with
  | true => trivial
  | false =>
      refine level_andThen (level_enter _) (fun _ _ => level_look_bind (fun view same => ?_))
      cases field <;> cases view.lastNode <;> simp

@[simp] theorem level_listedStatement : listedStatement.Level kindAt := by
  simp +decide [listedStatement, level_eat]

@[simp] theorem level_statementList : statementList.Level kindAt :=
  level_upTo _ (fun _ => level_listedStatement)

/-- Statements, or what else is listed, in braces. -/
theorem level_braces {body : Production Unit} (inner : ∀ start, body.Level start) :
    (opened (do
      expect .lBrace
      body
      closeBrace)).Level kindAt :=
  level_between (opens_expect rfl) inner (fun _ => closes_closeBrace)

@[simp] theorem level_block : block.Level kindAt :=
  level_braces (fun _ => level_statementList)

@[simp] theorem level_bodyBlock : bodyBlock.Level kindAt :=
  level_andThen level_block (fun _ _ => level_tag _)

end Grammar

end Production

end JaiSyntax
