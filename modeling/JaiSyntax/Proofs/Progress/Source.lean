import Mathlib.Logic.Relation
import Mathlib.Order.WellFounded
import JaiSyntax.Proofs.Progress.Termination
import JaiSyntax.Proofs.Reading.Source
/-!
The calls that parsing a source makes. No production is called again at the token where it was called:
at one token a call is made to a part of what makes it, or to an entry of a lower rank.
-/

set_option autoImplicit false

namespace JaiSyntax

variable {resync : Bool} {α : Type}

/-! ### Calls where nothing is consumed -/

inductive Production.Part : (Σ α : Type, Production α) → (Σ α : Type, Production α) → Prop
  | first {α β : Type} (first : Production α) (next : α → Production β) :
      Part ⟨α, first⟩ ⟨β, .bind first next⟩
  | next {α β : Type} (first : Production α) (next : α → Production β) (value : α) :
      Part ⟨β, next value⟩ ⟨β, .bind first next⟩
  | within {α : Type} (change : Context → Context) (body : Production α) :
      Part ⟨α, body⟩ ⟨α, .within change body⟩
  | node {α : Type} (kind : NodeKind) (body : Production α) : Part ⟨α, body⟩ ⟨α, .node kind body⟩
  | marked {α : Type} (body : Production α) : Part ⟨α, body⟩ ⟨α, .marked body⟩
  | wrap {α : Type} (kind : NodeKind) (body : Production α) : Part ⟨α, body⟩ ⟨α, .wrap kind body⟩
  | opened {α : Type} (body : Production α) : Part ⟨α, body⟩ ⟨α, .opened body⟩
  | guarded (body : Production Unit) : Part ⟨Unit, body⟩ ⟨Unit, .guarded body⟩
  | repeatedly (body : Production Bool) : Part ⟨Bool, body⟩ ⟨Unit, .repeatedly body⟩

theorem Production.part_wellFounded : WellFounded Production.Part := by
  refine ⟨fun ⟨α, production⟩ => ?_⟩
  induction production with
  | pure | look | act | refuse | enter => exact ⟨_, fun part inside => by cases inside⟩
  | bind first next ihFirst ihNext =>
      refine ⟨_, fun part inside => ?_⟩
      cases inside with
      | first => exact ihFirst
      | next _ _ value => exact ihNext value
  | within _ _ ih | node _ _ ih | marked _ ih | wrap _ _ ih | opened _ ih | guarded _ ih
  | repeatedly _ ih =>
      refine ⟨_, fun part inside => ?_⟩
      cases inside
      exact ih

namespace Call

def EntersBelow (bound : Nat) (call : Call) : Prop :=
  call.production.Starts bound call.state.cursor.view (fun _ => True)

end Call

namespace Calls

variable {caller callee : Call}

/-- A call is made by entering an entry, or it calls a part of what makes it. -/
theorem part_or_enter (calls : Calls resync caller callee) :
    Production.Part ⟨callee.Value, callee.production⟩ ⟨caller.Value, caller.production⟩ ∨
      ∃ entry scope state, caller = ⟨.enter entry, scope, state⟩ ∧
        callee = ⟨.ofEntry entry, scope, state⟩ := by
  cases calls with
  | first first next => exact Or.inl (.first first next)
  | next => exact Or.inl (.next _ _ _)
  | within change body => exact Or.inl (.within change body)
  | node kind body => exact Or.inl (.node kind body)
  | marked body => exact Or.inl (.marked body)
  | wrap kind body => exact Or.inl (.wrap kind body)
  | opened body => exact Or.inl (.opened body)
  | guarded body => exact Or.inl (.guarded body)
  | round => exact Or.inl (.repeatedly _)
  | enter entry scope state => exact Or.inr ⟨entry, scope, state, rfl, rfl⟩

theorem steady (calls : Calls resync caller callee) (steady : caller.production.Steady) :
    callee.production.Steady := by
  cases calls with
  | first => exact steady.1
  | next => exact steady.2 _
  | within | node | marked | wrap | opened | guarded => exact steady
  | round => exact steady.1
  | enter entry => exact Production.steady_ofEntry entry

/-- What is called before a token is consumed first enters no entries that its caller does not. -/
theorem entersBelow (calls : Calls resync caller callee) (proper : caller.state.cursor.Proper)
    (same : callee.state.cursor.ahead.length = caller.state.cursor.ahead.length) {bound : Nat}
    (below : caller.EntersBelow bound) : callee.EntersBelow bound := by
  have view := (calls.precedes proper).view same
  unfold Call.EntersBelow at below ⊢
  rw [view]
  cases calls with
  | first first next scope state =>
      have starts : first.Starts bound state.cursor.view
          (fun value => (next value).Starts bound state.cursor.view (fun _ => True)) := below
      exact starts.weaken (Nat.le_refl bound) (fun _ _ => trivial)
  | next evaluates => exact evaluates.stays proper below same
  | within | node | marked | wrap | opened => exact below
  | guarded => exact below.1
  | @round body scope state reached rounds =>
      have starts : body.Starts bound state.cursor.view (fun goesOn => goesOn = false ∧ True) := below
      exact starts.weaken (Nat.le_refl bound) (fun _ _ => trivial)
  | enter entry scope state =>
      have ranked : entry.rank < bound := below
      exact (Production.advances_ofEntry entry state.cursor.view).weaken (Nat.le_of_lt ranked)
        (fun _ => False.elim)

/-- A part is called, or a production that first enters only entries of a rank that is lower than what
its caller enters. -/
theorem part_or_lower (calls : Calls resync caller callee) :
    Production.Part ⟨callee.Value, callee.production⟩ ⟨caller.Value, caller.production⟩ ∨
      ∃ rank, callee.EntersBelow rank ∧ ¬ caller.EntersBelow rank := by
  rcases calls.part_or_enter with part | ⟨entry, scope, state, rfl, rfl⟩
  · exact Or.inl part
  · refine Or.inr ⟨entry.rank, ?_, Nat.lt_irrefl entry.rank⟩
    exact (Production.advances_ofEntry entry state.cursor.view).weaken (Nat.le_refl entry.rank)
      (fun _ => False.elim)

end Calls

/-! ### Chains of calls -/

def Call.LeadsTo (resync : Bool) : Call → Call → Prop := Relation.TransGen (Calls resync)

namespace Call.LeadsTo

variable {caller callee : Call}

theorem precedes (leads : caller.LeadsTo resync callee) (proper : caller.state.cursor.Proper) :
    caller.state.cursor.Precedes callee.state.cursor := by
  induction leads with
  | single calls => exact calls.precedes proper
  | tail _ calls ih => exact ih.trans (calls.precedes ih.proper)

theorem entersBelow (leads : caller.LeadsTo resync callee) (proper : caller.state.cursor.Proper)
    (same : callee.state.cursor.ahead.length = caller.state.cursor.ahead.length) {bound : Nat}
    (below : caller.EntersBelow bound) : callee.EntersBelow bound := by
  induction leads with
  | single calls => exact calls.entersBelow proper same below
  | tail further calls ih =>
      have front := LeadsTo.precedes further proper
      have here := front.length_eq (calls.precedes front.proper) same
      exact calls.entersBelow front.proper (same.trans here.symm) (ih here)

/-- At one token a chain of calls goes on to smaller parts, or below the rank of an entry. -/
theorem part_or_lower (leads : caller.LeadsTo resync callee) (proper : caller.state.cursor.Proper)
    (same : callee.state.cursor.ahead.length = caller.state.cursor.ahead.length) :
    Relation.TransGen Production.Part ⟨callee.Value, callee.production⟩
        ⟨caller.Value, caller.production⟩ ∨
      ∃ rank, callee.EntersBelow rank ∧ ¬ caller.EntersBelow rank := by
  induction leads with
  | single calls => exact calls.part_or_lower.imp_left .single
  | tail further calls ih =>
      have front := LeadsTo.precedes further proper
      have here := front.length_eq (calls.precedes front.proper) same
      rcases ih here with parts | ⟨rank, below, above⟩
      · rcases calls.part_or_lower with part | ⟨rank, below, above⟩
        · exact Or.inl (.head part parts)
        · refine Or.inr ⟨rank, below, fun first => above ?_⟩
          exact LeadsTo.entersBelow further proper here first
      · exact Or.inr ⟨rank, calls.entersBelow front.proper (same.trans here.symm) below, above⟩

/-- No production is called again, in whatever scope, at the token where it was called. -/
theorem position_lt {production : Production α} {scope other : Scope} {state later : ParserState}
    (leads : Call.LeadsTo resync ⟨production, scope, state⟩ ⟨production, other, later⟩)
    (proper : state.cursor.Proper) : state.cursor.position < later.cursor.position := by
  have precedes : state.cursor.Precedes later.cursor := LeadsTo.precedes leads proper
  refine precedes.position_lt (fun same => ?_)
  rcases leads.part_or_lower proper same with parts | ⟨rank, below, above⟩
  · exact Production.part_wellFounded.transGen.irrefl.irrefl _ parts
  · have starts : production.Starts rank later.cursor.view (fun _ => True) := below
    rw [precedes.view same] at starts
    exact above starts

/-- Entries enter each other at one token in the order of their ranks. -/
theorem rank_lt {entry inner : Entry} {scope other : Scope} {state later : ParserState}
    (leads : Call.LeadsTo resync ⟨.enter entry, scope, state⟩ ⟨.enter inner, other, later⟩)
    (proper : state.cursor.Proper) (same : later.cursor.position = state.cursor.position) :
    inner.rank < entry.rank := by
  have precedes : state.cursor.Precedes later.cursor := LeadsTo.precedes leads proper
  have here : later.cursor.ahead.length = state.cursor.ahead.length :=
    precedes.length_eq_iff.mpr same
  obtain ⟨callee, calls, further⟩ := Relation.TransGen.head'_iff.mp leads
  cases calls with
  | enter =>
      have below : Call.EntersBelow entry.rank ⟨.ofEntry entry, scope, state⟩ :=
        (Production.advances_ofEntry entry state.cursor.view).weaken (Nat.le_refl _)
          (fun _ => False.elim)
      rcases Relation.reflTransGen_iff_eq_or_transGen.mp further with equal | further
      · rw [← equal] at below
        exact below
      · exact LeadsTo.entersBelow further proper here below

end Call.LeadsTo

/-! ### Sources -/

def ParserState.Makes (start : ParserState) (resync : Bool) : Call → Prop :=
  Relation.ReflTransGen (Calls resync) ⟨Production.sourceFile, .outermost, start⟩

/-- Parsing a source makes progress and comes to its end. -/
structure ParserState.Progresses (start : ParserState) (resync : Bool) : Prop where
  /-- The grammar comes to one end, which is the end of the run within its bounds. -/
  ends : ∃ last, start.parsed resync = last.flush ∧ ∀ outcome,
    Evaluates resync Production.sourceFile .outermost start outcome ↔ outcome = .done () last
  /-- Every call comes to an end. -/
  calls : ∀ call, start.Makes resync call →
    ∃ outcome, Evaluates resync call.production call.scope call.state outcome
  /-- A statement in a list comes to its end, and it consumes a token if there is one. -/
  statements : ∀ scope state, start.Makes resync ⟨.listedStatement, scope, state⟩ →
    state.isAtEnd = false → ∃ later,
      Evaluates resync .listedStatement scope state (.done () later) ∧
        state.cursor.position < later.cursor.position
  /-- An entry that does not fail consumes a token. -/
  entries : ∀ entry scope state later, start.Makes resync ⟨.enter entry, scope, state⟩ →
    Evaluates resync (.enter entry) scope state (.done () later) →
      state.cursor.position < later.cursor.position
  /-- A round of a loop consumes a token, unless it fails or ends the loop without doing anything. -/
  rounds : ∀ body scope first state goesOn later,
    start.Makes resync ⟨.repeatedly body, scope, first⟩ → Rounds resync body scope first state →
      Evaluates resync body scope state (.done goesOn later) →
        state.cursor.position < later.cursor.position ∨ goesOn = false ∧ later = state
  /-- No production is called again at the token where it was called. -/
  reentries : ∀ {α : Type} (production : Production α) scope other state later,
    start.Makes resync ⟨production, scope, state⟩ →
      Call.LeadsTo resync ⟨production, scope, state⟩ ⟨production, other, later⟩ →
        state.cursor.position < later.cursor.position
  /-- Entries enter each other at one token in the order of their ranks. -/
  ranks : ∀ entry inner scope other state later, start.Makes resync ⟨.enter entry, scope, state⟩ →
    Call.LeadsTo resync ⟨.enter entry, scope, state⟩ ⟨.enter inner, other, later⟩ →
      later.cursor.position = state.cursor.position → inner.rank < entry.rank

namespace ParserState.Makes

variable {start : ParserState} {scope : Scope} {state later : ParserState}

theorem proper {call : Call} (makes : start.Makes resync call) (proper : start.cursor.Proper) :
    call.state.cursor.Proper := by
  induction makes with
  | refl => exact proper
  | tail _ calls ih => exact (calls.precedes ih).proper

theorem steady {call : Call} (makes : start.Makes resync call) : call.production.Steady := by
  induction makes with
  | refl => exact Production.steady_sourceFile
  | tail _ calls ih => exact calls.steady ih

theorem statement_moves (makes : start.Makes resync ⟨.listedStatement, scope, state⟩)
    (proper : start.cursor.Proper) (more : state.isAtEnd = false) :
    ∃ later, Evaluates resync .listedStatement scope state (.done () later) ∧
      state.cursor.position < later.cursor.position := by
  have here : state.cursor.Proper := makes.proper proper
  have evaluates := Production.steady_listedStatement.evaluates resync scope state here
  obtain ⟨value, later, same⟩ := evaluates.done Production.succeeds_listedStatement
  rw [same] at evaluates
  have advances : Production.listedStatement.Advances 3 state.cursor.view :=
    Production.advances_listedStatement (beq_eq_false_iff_ne.mp more) (by decide)
  exact ⟨later, evaluates, evaluates.moves here advances⟩

theorem entry_moves {entry : Entry} (makes : start.Makes resync ⟨.enter entry, scope, state⟩)
    (proper : start.cursor.Proper)
    (evaluates : Evaluates resync (.enter entry) scope state (.done () later)) :
    state.cursor.position < later.cursor.position := by
  cases evaluates with
  | enter inner =>
      exact inner.moves (makes.proper proper) (Production.advances_ofEntry entry state.cursor.view)

theorem round_moves {body : Production Bool} {first : ParserState} {goesOn : Bool}
    (makes : start.Makes resync ⟨.repeatedly body, scope, first⟩) (proper : start.cursor.Proper)
    (rounds : Rounds resync body scope first state)
    (evaluates : Evaluates resync body scope state (.done goesOn later)) :
    state.cursor.position < later.cursor.position ∨ goesOn = false ∧ later = state := by
  have here : state.cursor.Proper := (rounds.precedes (makes.proper proper)).proper
  have steady : (Production.repeatedly body).Steady := makes.steady
  exact evaluates.idles here (steady.2 state.cursor.view)

end ParserState.Makes

/-- Parsing any tokens makes progress and comes to its end. -/
theorem parse_progresses (options : ParseOptions) (size : Nat) (tokens : List Token) :
    (ParserState.initial size tokens).Progresses options.resyncOnDeclaration := by
  have proper : (ParserState.initial size tokens).cursor.Proper :=
    TokenCursor.ofTokens_proper size tokens
  have run := Production.steady_sourceFile.evaluates options.resyncOnDeclaration .outermost
    (ParserState.initial size tokens) proper
  obtain ⟨value, last, ended⟩ := run.done Production.succeeds_sourceFile
  have parsed : (ParserState.initial size tokens).parsed options.resyncOnDeclaration = last.flush := by
    unfold ParserState.parsed
    rw [ended]
  rw [ended] at run
  exact
    { ends := ⟨last, parsed, fun _ => ⟨fun other => other.unique run, fun same => same ▸ run⟩⟩
      calls := fun call makes =>
        ⟨_, makes.steady.evaluates _ call.scope call.state (makes.proper proper)⟩
      statements := fun _ _ makes more => makes.statement_moves proper more
      entries := fun _ _ _ _ makes evaluates => makes.entry_moves proper evaluates
      rounds := fun _ _ _ _ _ _ makes rounds evaluates => makes.round_moves proper rounds evaluates
      reentries := fun _ _ _ _ _ makes leads => leads.position_lt (makes.proper proper)
      ranks := fun _ _ _ _ _ _ makes leads same => leads.rank_lt (makes.proper proper) same }

end JaiSyntax
