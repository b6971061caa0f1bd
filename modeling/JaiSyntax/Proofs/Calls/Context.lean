import JaiSyntax.Proofs.Reading.Run
/-!
The context as a part of the state. A run can keep the context in its state: it sets the context before
a part that reads in another one, and puts it back after that part, whether the part failed or not. Such
a run ends in the context in which it started, and has the outcome of a run inside that context.
-/

set_option autoImplicit false

namespace JaiSyntax

/-- The outcome of a run that keeps the context in its state, and the context it ends in. -/
structure Ending (α : Type) where
  outcome : Outcome α
  context : Context

/-- What a part of the grammar holds on its own: the checkpoint of the innermost mark, and the span of
the brace that was opened last. -/
structure Locals where
  mark : Checkpoint
  opener : Span

def Locals.scope (locals : Locals) (context : Context) : Scope :=
  ⟨context, locals.mark, locals.opener⟩

namespace Ending

variable {α β : Type}

def andThen (ending : Ending α) (next : α → Context → ParserState → Ending β) : Ending β :=
  match ending.outcome with
  | .done value state => next value ending.context state
  | .failed error state => ⟨.failed error state, ending.context⟩

/-- Put a saved context back, whether the run failed or not. -/
def restoring (saved : Context) (ending : Ending α) : Ending α := { ending with context := saved }

def closeNode (ending : Ending α) : Ending α := { ending with outcome := ending.outcome.closeNode }

/-- Turn what a run left into an error node if it failed, and go on. -/
def recover (resync : Bool) (checkpoint : Checkpoint) (position : Nat) (ending : Ending Unit) :
    Ending Unit :=
  match ending.outcome with
  | .done _ state => ⟨.done () state, ending.context⟩
  | .failed error state =>
      ⟨.done () (state.recover resync checkpoint position error), ending.context⟩

def iterate (step : Context → ParserState → Ending Bool) :
    List Stop → Context → ParserState → Ending Unit
  | bound, context, state =>
      (step context state).andThen (fun goesOn later next =>
        if goesOn then
          match bound with
          | [] => ⟨.done () next, later⟩
          | _ :: rest => iterate step rest later next
        else ⟨.done () next, later⟩)

/-- A run that leaves the context alone, and then another one. -/
theorem andThen_eq {context : Context} {next : α → Context → ParserState → Ending β}
    {nextRun : α → ParserState → Outcome β}
    (further : ∀ value state, next value context state = ⟨nextRun value state, context⟩)
    (outcome : Outcome α) :
    (Ending.mk outcome context).andThen next = ⟨outcome.andThen nextRun, context⟩ := by
  cases outcome with
  | done value state => exact further value state
  | failed error state => rfl

/-- A loop whose rounds leave the context alone leaves it alone. -/
theorem iterate_eq {step : Context → ParserState → Ending Bool}
    {stepRun : ParserState → Outcome Bool} {context : Context}
    (round : ∀ state, step context state = ⟨stepRun state, context⟩) (bound : List Stop)
    (state : ParserState) :
    iterate step bound context state = ⟨JaiSyntax.iterate stepRun bound state, context⟩ := by
  induction bound generalizing state with
  | nil =>
      rw [iterate, JaiSyntax.iterate_eq, round]
      refine andThen_eq (fun goesOn next => ?_) _
      cases goesOn <;> rfl
  | cons stop rest ih =>
      rw [iterate, JaiSyntax.iterate_eq, round]
      refine andThen_eq (fun goesOn next => ?_) _
      cases goesOn with
      | false => rfl
      | true => exact ih next

end Ending

/-- Run a production with the context in the state. Only `within` sets the context, and puts it back. -/
def Production.execute (resync : Bool)
    (enter : Entry → Locals → Context → ParserState → Ending Unit) {α : Type}
    (production : Production α) (locals : Locals) (context : Context) (state : ParserState) :
    Ending α :=
  match production with
  | .pure value => ⟨.done value state, context⟩
  | .bind first next =>
      (execute resync enter first locals context state).andThen
        (fun value later reached => execute resync enter (next value) locals later reached)
  | .look read => ⟨.done (read (state.view (locals.scope context))) state, context⟩
  | .act move => ⟨.done () (state.apply (locals.scope context) move), context⟩
  | .refuse complaint =>
      ⟨.failed (state.errorOf (locals.scope context) complaint) state, context⟩
  | .within change body =>
      (execute resync enter body locals (change context) state).restoring context
  | .node kind body =>
      (execute resync enter body locals context (state.openNode kind)).closeNode
  | .marked body =>
      let (checkpoint, flushed) := state.mark
      execute resync enter body { locals with mark := checkpoint } context flushed
  | .wrap kind body =>
      (execute resync enter body locals context (state.openNodeAt locals.mark kind)).closeNode
  | .opened body =>
      execute resync enter body { locals with opener := state.current.span } context state
  | .guarded body =>
      let (checkpoint, flushed) := state.mark
      (execute resync enter body locals context flushed).recover resync checkpoint
        flushed.cursor.position
  | .repeatedly body =>
      Ending.iterate (execute resync enter body locals) state.cursor.ahead context state
  | .enter entry => enter entry locals context state
termination_by structural production

def executeEntry (resync : Bool) : Nat → Entry → Locals → Context → ParserState → Ending Unit
  | 0, entry, locals, context, state =>
      ⟨.failed (state.errorOf (locals.scope context) (.expected entry.expectation)) state, context⟩
  | depth + 1, entry, locals, context, state =>
      (Production.ofEntry entry).execute resync (executeEntry resync depth) locals context state

/-- What entries are relied on for: each ends in the context it started in, with its outcome there. -/
def EntriesRestore (run : Entry → Scope → ParserState → Outcome Unit)
    (enter : Entry → Locals → Context → ParserState → Ending Unit) : Prop :=
  ∀ entry locals context state,
    enter entry locals context state = ⟨run entry (locals.scope context) state, context⟩

/-- Every production ends in the context it started in, whether it failed or not. -/
theorem Production.execute_eq {run : Entry → Scope → ParserState → Outcome Unit}
    {enter : Entry → Locals → Context → ParserState → Ending Unit}
    (restore : EntriesRestore run enter) (resync : Bool) {α : Type} (production : Production α)
    (locals : Locals) (context : Context) (state : ParserState) :
    production.execute resync enter locals context state =
      ⟨production.run resync run (locals.scope context) state, context⟩ := by
  induction production generalizing locals context state with
  | pure value => rfl
  | bind first next ihFirst ihNext =>
      rw [execute, Production.run, ihFirst]
      exact Ending.andThen_eq (fun value reached => ihNext value locals context reached) _
  | look read => rfl
  | act move => rfl
  | refuse complaint => rfl
  | within change body ih =>
      -- The body ends in the changed context, which is not the one that is put back.
      rw [execute, Production.run, ih]
      rfl
  | node kind body ih =>
      rw [execute, Production.run, ih]
      rfl
  | marked body ih =>
      rw [execute, Production.run]
      exact ih { locals with mark := state.mark.1 } context state.mark.2
  | wrap kind body ih =>
      rw [execute, Production.run, ih]
      rfl
  | opened body ih =>
      rw [execute, Production.run]
      exact ih { locals with opener := state.current.span } context state
  | guarded body ih =>
      rw [execute, Production.run]
      simp only [ih, Ending.recover]
      cases body.run resync run (locals.scope context) state.mark.2 <;> rfl
  | repeatedly body ih =>
      rw [execute, Production.run]
      exact Ending.iterate_eq (ih locals context) _ state
  | enter entry => exact restore entry locals context state

theorem executeEntry_restores (resync : Bool) (depth : Nat) :
    EntriesRestore (runEntry resync depth) (executeEntry resync depth) := by
  induction depth with
  | zero => exact fun _ _ _ _ => rfl
  | succ depth ih =>
      exact fun entry locals context state =>
        (Production.ofEntry entry).execute_eq ih resync locals context state

end JaiSyntax
