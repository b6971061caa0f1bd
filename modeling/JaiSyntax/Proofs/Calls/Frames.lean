import JaiSyntax.Proofs.Calls.Context
import JaiSyntax.Proofs.Statement.Semicolons
/-!
What a call of a part of the grammar leaves of the open nodes. A statement, an expression or a type puts
extras and a single node at the end of the innermost open node and changes nothing else, so that the
caller may record that node under a field or open another one around it. A call that fails may leave nodes
open, and those stand above everything that was there before.
-/

set_option autoImplicit false

namespace JaiSyntax

/-! ### Open nodes -/

/-- An open node with children put at its end, which are given in source order. -/
def Frame.append (frame : Frame) (children : List Child) : Frame :=
  { frame with latest := children.reverse ++ frame.latest }

namespace TreeBuilder

def outer (builder : TreeBuilder) : List Frame := builder.frames.tail

theorem frames_eq (builder : TreeBuilder) : builder.frames = builder.top :: builder.outer := by
  rcases builder with ⟨root, _ | ⟨frame, rest⟩⟩ <;> rfl

theorem length_frames (builder : TreeBuilder) : builder.frames.length = builder.depth + 1 :=
  List.length_append

theorem top_mapTop (builder : TreeBuilder) (latest : List Child) :
    (builder.mapTop (latest ++ ·)).top = builder.top.append latest.reverse := by
  rcases builder with ⟨root, _ | ⟨frame, rest⟩⟩ <;> simp [mapTop, top, Frame.append]

@[simp] theorem outer_mapTop (builder : TreeBuilder) (change : List Child → List Child) :
    (builder.mapTop change).outer = builder.outer := by
  rcases builder with ⟨root, _ | ⟨frame, rest⟩⟩ <;> rfl

/-- A builder after a call that succeeded: as many nodes are open, those around the innermost one are as
they were, and the innermost one has extras and a single node at its end. -/
structure Completed (before after : TreeBuilder) : Prop where
  depth : after.depth = before.depth
  outer : after.outer = before.outer
  top : ∃ extras node, (∀ extra ∈ extras, extra.isSignificant = false) ∧
    (Child.ofNode none node).isSignificant = true ∧
    after.top = before.top.append (extras ++ [.ofNode none node])

/-- A builder after a call that failed: at least as many nodes are open, and those that were open are as
they were, but for children at the end of the one that was the innermost. -/
structure Abandoned (before after : TreeBuilder) : Prop where
  depth : before.depth ≤ after.depth
  frames : ∃ opened children,
    after.frames = opened ++ before.top.append children :: before.outer

theorem Abandoned.of_frames {before after : TreeBuilder} {opened : List Frame}
    {latest : List Child}
    (frames : after.frames = opened ++ (before.mapTop (latest ++ ·)).frames) :
    before.Abandoned after := by
  constructor
  · have lengths := congrArg List.length frames
    rw [List.length_append, length_frames, length_frames, depth_mapTop] at lengths
    omega
  · refine ⟨opened, latest.reverse, ?_⟩
    rw [frames, frames_eq (before.mapTop _), top_mapTop, outer_mapTop]

end TreeBuilder

def Outcome.succeeds {α : Type} : Outcome α → Bool
  | .done _ _ => true
  | .failed _ _ => false

/-- What a call leaves of the open nodes, whether it succeeded or not. -/
def Outcome.KeepsFrames {α : Type} (before : TreeBuilder) : Outcome α → Prop
  | .done _ later => before.Completed later.builder
  | .failed _ later => before.Abandoned later.builder

/-! ### Single nodes at the end -/

namespace Segment

variable {segment : Segment}

/-- A segment whose only significant child is a node, which is its last child. -/
theorem latest_of_yields {holds : Node → Prop} (tight : segment.Tight)
    (yields : segment.Yields holds []) :
    ∃ node extras, segment.latest = .ofNode none node :: extras ∧
      (∀ extra ∈ extras, extra.isSignificant = false) ∧
      (Child.ofNode none node).isSignificant = true := by
  obtain ⟨last, extras, latest, significant⟩ := tight
  obtain ⟨node, same, -⟩ := yields
  rw [Segment.significant, latest, List.filter_cons_of_pos significant] at same
  obtain ⟨rfl, rest⟩ := List.cons.inj same
  refine ⟨node, extras, latest, fun extra member => ?_, significant⟩
  exact Bool.eq_false_iff.mpr (List.filter_eq_nil_iff.mp rest extra member)

theorem completed_onto {holds : Node → Prop} (tight : segment.Tight)
    (yields : segment.Yields holds []) (base : TreeBuilder) :
    base.Completed (segment.onto base).builder := by
  obtain ⟨node, extras, latest, visible, significant⟩ := latest_of_yields tight yields
  refine ⟨TreeBuilder.depth_mapTop base _, TreeBuilder.outer_mapTop base _, extras.reverse, node,
    fun extra member => visible extra (List.mem_reverse.mp member), significant, ?_⟩
  rw [onto, latest, TreeBuilder.top_mapTop, List.reverse_cons]

end Segment

/-- Every entry reads a single node. -/
theorem readEntry_yields (resync : Bool) (depth : Nat) (entry : Entry) (around : Surroundings)
    {segment : Segment} (proper : segment.cursor.Proper) :
    (readEntry resync depth entry around segment).Satisfies
      (fun _ later => later.Yields (fun _ => True) segment.significant) (fun _ => True) := by
  have nests := readEntry_nests resync depth
  cases entry with
  | expression least =>
      exact (nests.climb least around segment proper).weaken
        (fun _ _ yields => yields.weaken (fun _ _ => trivial)) (fun _ => id)
  | type =>
      exact (nests.types around segment proper).weaken
        (fun _ _ yields => yields.weaken (fun _ _ => trivial)) (fun _ => id)
  | statement => exact readEntry_statements resync depth around segment proper

/-! ### Calls -/

/-- An entry at the end of any open nodes. What is read is a segment of its own, which dissolves into the
innermost node where it failed. -/
theorem runEntry_keepsFrames (resync : Bool) (depth : Nat) (entry : Entry) (scope : Scope)
    {state : ParserState} (proper : state.cursor.Proper) :
    (runEntry resync depth entry scope state).KeepsFrames state.builder := by
  let start : Segment := ⟨state.cursor, [], state.reported⟩
  have here : start.onto state.builder = state := by simp [start, Segment.onto]
  have isRead := runEntry_is resync depth entry scope state.builder start proper
  have reads := (readEntry_covers resync depth entry (scope.around state.builder) start proper).and
    (readEntry_yields resync depth entry (scope.around state.builder) proper)
  rw [here] at isRead
  generalize runEntry resync depth entry scope state = outcome at isRead
  generalize readEntry resync depth entry (scope.around state.builder) start = reading
    at isRead reads
  cases outcome with
  | done value later =>
      cases reading with
      | done other read =>
          obtain ⟨-, rfl⟩ := isRead
          obtain ⟨⟨-, attains⟩, yields⟩ := reads
          exact Segment.completed_onto (attains.tight rfl) yields state.builder
      | failed error read => cases isRead
  | failed error later =>
      cases reading with
      | done other read => cases isRead
      | failed other read =>
          obtain ⟨opened, latest, frames⟩ := isRead.2.frames
          exact .of_frames frames

inductive Phrase where
  | statement | expression | type
  deriving DecidableEq

namespace Phrase

def production : Phrase → Production Unit
  | .statement => .enter .statement
  | .expression => .expression
  | .type => .type

/-- A call with the context in the state, and with entries nested `depth` deep at most. -/
def call (phrase : Phrase) (resync : Bool) (depth : Nat) (locals : Locals) (context : Context)
    (state : ParserState) : Ending Unit :=
  phrase.production.execute resync (executeEntry resync depth) locals context state

theorem run_keepsFrames (phrase : Phrase) (resync : Bool) (depth : Nat) (scope : Scope)
    {state : ParserState} (proper : state.cursor.Proper) :
    (phrase.production.run resync (runEntry resync depth) scope state).KeepsFrames
      state.builder := by
  cases phrase with
  | statement => exact runEntry_keepsFrames resync depth .statement scope proper
  | expression =>
      exact runEntry_keepsFrames resync depth (.expression Prec.assignment)
        { scope with context := scope.context.excluding .type } proper
  | type =>
      exact runEntry_keepsFrames resync depth .type
        { scope with context := scope.context.including .type } proper

/-- A call ends in the context it started in. If it succeeds, it has put extras and then a single node at
the end of the innermost open node, and has left everything else as it was; if it fails, the nodes that it
left open stand above those that were there, which it has only added to. -/
theorem call_keepsFrames (phrase : Phrase) (resync : Bool) (depth : Nat) (locals : Locals)
    (context : Context) (state : ParserState) (proper : state.cursor.Proper) :
    (phrase.call resync depth locals context state).context = context ∧
      (phrase.call resync depth locals context state).outcome =
        phrase.production.run resync (runEntry resync depth) (locals.scope context) state ∧
      (phrase.call resync depth locals context state).outcome.KeepsFrames state.builder := by
  have same : phrase.call resync depth locals context state =
      ⟨phrase.production.run resync (runEntry resync depth) (locals.scope context) state,
        context⟩ :=
    phrase.production.execute_eq (executeEntry_restores resync depth) resync locals context state
  rw [same]
  exact ⟨rfl, rfl, phrase.run_keepsFrames resync depth (locals.scope context) proper⟩

/-- The call of an expression that succeeds. -/
theorem call_keepsFrames_of_sum :
    (ParserState.initial 5 (lex "a + b".toList).tokens).cursor.Proper ∧
      ∃ later, (expression.call true 6 ⟨⟨0, 0, 0⟩, .point 0⟩ .none
          (.initial 5 (lex "a + b".toList).tokens)).outcome = .done () later ∧
        (ParserState.initial 5 (lex "a + b".toList).tokens).builder.Completed later.builder := by
  have proper := TokenCursor.ofTokens_proper 5 (lex "a + b".toList).tokens
  have kept := call_keepsFrames expression true 6 ⟨⟨0, 0, 0⟩, .point 0⟩ .none
    (.initial 5 (lex "a + b".toList).tokens) proper
  have succeeds : (expression.call true 6 ⟨⟨0, 0, 0⟩, .point 0⟩ .none
      (.initial 5 (lex "a + b".toList).tokens)).outcome.succeeds = true := by decide +kernel
  refine ⟨proper, ?_⟩
  generalize (expression.call true 6 ⟨⟨0, 0, 0⟩, .point 0⟩ .none
    (.initial 5 (lex "a + b".toList).tokens)).outcome = outcome at kept succeeds ⊢
  cases outcome with
  | done value later => exact ⟨later, rfl, kept.2.2⟩
  | failed error later => cases succeeds

end Phrase

end JaiSyntax
