import JaiSyntax.Production.Run
/-!
Reading a production on its own. A parse keeps one stack of open nodes, and a mark is an index into
the innermost of them. A reading keeps only the segment since the innermost node was opened or the
innermost mark was set: a node is read into a segment of its own and then put after what was read
before it, and a part that fails hands back what it read without the nodes it opened.
-/

set_option autoImplicit false

namespace JaiSyntax

/-- The tokens still to be read, the children of a segment with the latest first, and the errors. -/
structure Segment where
  cursor : TokenCursor
  latest : List Child
  reported : List SyntaxError

/-- What holds around a segment: the context, the span of the brace that was opened last, the position
of a node around a segment without children, and the kind of the last node before the segment. -/
structure Surroundings where
  context : Context
  opener : Span
  position : Nat
  before : Option NodeKind

namespace Surroundings

def first (around : Surroundings) : Surroundings := { around with before := none }

end Surroundings

def Extra.child : Extra → Child
  | .token single => .leaf none single
  | .deprecated group => .ofNode none (noticeNode group)

/-- The kind of the last significant child, if that is a node; without such a child, the kind before
the children. -/
def lastKindAfter (before : Option NodeKind) (latest : List Child) : Option NodeKind :=
  match latest.find? Child.isSignificant with
  | none => before
  | some child => child.node?.map Node.kind

namespace Segment

def onto (segment : Segment) (base : TreeBuilder) : ParserState :=
  ⟨segment.cursor, base.mapTop (segment.latest ++ ·), segment.reported⟩

def ofRoot (state : ParserState) : Segment :=
  ⟨state.cursor, state.builder.root.latest, state.reported⟩

def alone (segment : Segment) : ParserState := segment.onto (.new .sourceFile)

def view (segment : Segment) (around : Surroundings) : View where
  kindAt distance := (segment.cursor.peek distance).kind
  textAt distance := (segment.cursor.peek distance).text
  previous := segment.cursor.previous.kind
  context := around.context
  lastNode := lastKindAfter around.before segment.latest

def flush (segment : Segment) : Segment :=
  { segment with
    cursor := { segment.cursor with gap := [] }
    latest := (segment.cursor.gap.map Extra.child).reverse ++ segment.latest }

def bumpAs (change : Token → Token) (segment : Segment) : Segment :=
  let flushed := segment.flush
  if flushed.cursor.isAtEnd then flushed
  else
    let (token, cursor) := flushed.cursor.advance
    { flushed with cursor := cursor, latest := .leaf none (change token) :: flushed.latest }

def bump (segment : Segment) : Segment := segment.bumpAs id

def bumps : Nat → Segment → Segment
  | 0, segment => segment
  | count + 1, segment => bumps count segment.bump

def errorOf (segment : Segment) (around : Surroundings) (complaint : Complaint) : SyntaxError :=
  complaint.toError segment.cursor.current segment.cursor.previous around.opener

def mapLatest (segment : Segment) (change : List Child → List Child) : Segment :=
  { segment with latest := change segment.latest }

def apply (around : Surroundings) (segment : Segment) : Move → Segment
  | .bump => segment.bump
  | .bumpKeyword => segment.bumpAs (fun token => token.retag .keyword)
  | .tag field =>
      segment.mapLatest (replaceLastSignificant (fun child => [child.withField (some field)]))
  | .reinterpretLast =>
      segment.mapLatest (replaceLastSignificant (fun child =>
        match child.node? with
        | some node => [.ofNode child.field? node.reinterpretAsType]
        | none => [child]))
  | .spliceParameters =>
      segment.mapLatest (replaceLastSignificant (fun child =>
        match child.node? with
        | some node => node.asParameterList
        | none => [child]))
  | .report complaint =>
      { segment with reported := segment.errorOf around complaint :: segment.reported }

def emptied (segment : Segment) : Segment := { segment with latest := [] }

def after (segment earlier : Segment) : Segment :=
  { segment with latest := segment.latest ++ earlier.latest }

def enclosed (segment : Segment) (kind : NodeKind) (position : Nat) : Segment :=
  { segment with latest := [.ofNode none (.build kind segment.latest.reverse position)] }

def start (segment : Segment) (around : Surroundings) : Nat :=
  match segment.latest.getLast? with
  | some first => first.span.start
  | none => around.position

def following (segment : Segment) (around : Surroundings) : Surroundings :=
  { around with before := lastKindAfter around.before segment.latest }

def atMark (segment : Segment) (around : Surroundings) : Surroundings :=
  { segment.following around with position := segment.cursor.current.span.start }

/-- Make an error node of a segment that failed, which started at the `position`-th token, and skip to
a synchronization point. -/
def recover (resync : Bool) (around : Surroundings) (position : Nat) (error : SyntaxError)
    (segment : Segment) : Segment :=
  ofRoot (segment.alone.recover resync ⟨0, 0, around.position⟩ position error)

end Segment

/-- A production yields a value and what it read, or it fails with an error and what it read. -/
inductive Reading (α : Type) where
  | done (value : α) (segment : Segment)
  | failed (error : SyntaxError) (segment : Segment)

namespace Reading

def andThen {α β : Type} (reading : Reading α) (next : α → Segment → Reading β) : Reading β :=
  match reading with
  | .done value segment => next value segment
  | .failed error segment => .failed error segment

def after {α : Type} (earlier : Segment) : Reading α → Reading α
  | .done value segment => .done value (segment.after earlier)
  | .failed error segment => .failed error (segment.after earlier)

/-- Make a node of what was read, unless it failed. -/
def enclosed {α : Type} (kind : NodeKind) (position : Nat) : Reading α → Reading α
  | .done value segment => .done value (segment.enclosed kind position)
  | .failed error segment => .failed error segment

def iterate (step : Segment → Reading Bool) : List Stop → Segment → Reading Unit
  | bound, segment =>
      match step segment with
      | .failed error next => .failed error next
      | .done false next => .done () next
      | .done true next =>
          match bound with
          | [] => .done () next
          | _ :: rest => iterate step rest next

end Reading

namespace Production

def read (resync : Bool) (enter : Entry → Surroundings → Segment → Reading Unit) {α : Type}
    (production : Production α) (around : Surroundings) (segment : Segment) : Reading α :=
  match production with
  | .pure value => .done value segment
  | .bind first next =>
      (read resync enter first around segment).andThen
        (fun value reached => read resync enter (next value) around reached)
  | .look seen => .done (seen (segment.view around)) segment
  | .act move => .done () (segment.apply around move)
  | .refuse complaint => .failed (segment.errorOf around complaint) segment
  | .within change body =>
      read resync enter body { around with context := change around.context } segment
  | .node kind body =>
      let flushed := segment.flush
      ((read resync enter body around.first flushed.emptied).enclosed kind
        flushed.cursor.current.span.start).after flushed
  | .marked body =>
      let flushed := segment.flush
      (read resync enter body (flushed.atMark around) flushed.emptied).after flushed
  | .wrap kind body =>
      (read resync enter body around.first segment).enclosed kind (segment.start around)
  | .opened body =>
      read resync enter body { around with opener := segment.cursor.current.span } segment
  | .guarded body =>
      let flushed := segment.flush
      match read resync enter body (flushed.following around) flushed.emptied with
      | .done _ inner => .done () (inner.after flushed)
      | .failed error inner =>
          .done ()
            ((inner.recover resync (flushed.atMark around) flushed.cursor.position error).after
              flushed)
  | .repeatedly body =>
      Reading.iterate (read resync enter body around) segment.cursor.ahead segment
  | .enter entry => enter entry around segment
termination_by structural production

variable {α β : Type} (resync : Bool) (enter : Entry → Surroundings → Segment → Reading Unit)

@[simp] theorem read_pure (value : α) (around : Surroundings) (segment : Segment) :
    (Pure.pure value : Production α).read resync enter around segment = .done value segment :=
  rfl

@[simp] theorem read_bind (first : Production α) (next : α → Production β)
    (around : Surroundings) (segment : Segment) :
    (first >>= next).read resync enter around segment =
      (first.read resync enter around segment).andThen
        (fun value reached => (next value).read resync enter around reached) :=
  rfl

@[simp] theorem read_look (seen : View → α) (around : Surroundings) (segment : Segment) :
    (look seen).read resync enter around segment = .done (seen (segment.view around)) segment :=
  rfl

@[simp] theorem read_act (move : Move) (around : Surroundings) (segment : Segment) :
    (act move).read resync enter around segment = .done () (segment.apply around move) :=
  rfl

@[simp] theorem read_refuse (complaint : Complaint) (around : Surroundings) (segment : Segment) :
    (refuse complaint : Production α).read resync enter around segment =
      .failed (segment.errorOf around complaint) segment :=
  rfl

theorem read_within (change : Context → Context) (body : Production α) (around : Surroundings)
    (segment : Segment) :
    (within change body).read resync enter around segment =
      body.read resync enter { around with context := change around.context } segment :=
  rfl

theorem read_node (kind : NodeKind) (body : Production α) (around : Surroundings)
    (segment : Segment) :
    (node kind body).read resync enter around segment =
      ((body.read resync enter around.first segment.flush.emptied).enclosed kind
        segment.flush.cursor.current.span.start).after segment.flush :=
  rfl

theorem read_marked (body : Production α) (around : Surroundings) (segment : Segment) :
    (marked body).read resync enter around segment =
      (body.read resync enter (segment.flush.atMark around) segment.flush.emptied).after
        segment.flush :=
  rfl

theorem read_wrap (kind : NodeKind) (body : Production α) (around : Surroundings)
    (segment : Segment) :
    (wrap kind body).read resync enter around segment =
      (body.read resync enter around.first segment).enclosed kind (segment.start around) :=
  rfl

theorem read_guarded (body : Production Unit) (around : Surroundings) (segment : Segment) :
    (guarded body).read resync enter around segment =
      match body.read resync enter (segment.flush.following around) segment.flush.emptied with
      | .done _ inner => .done () (inner.after segment.flush)
      | .failed error inner =>
          .done () ((inner.recover resync (segment.flush.atMark around)
            segment.flush.cursor.position error).after segment.flush) :=
  rfl

theorem read_repeatedly (body : Production Bool) (around : Surroundings) (segment : Segment) :
    (repeatedly body).read resync enter around segment =
      Reading.iterate (body.read resync enter around) segment.cursor.ahead segment :=
  rfl

theorem read_enter (entry : Entry) (around : Surroundings) (segment : Segment) :
    (Production.enter entry).read resync enter around segment = enter entry around segment :=
  rfl

end Production

end JaiSyntax
