import JaiSyntax.Proofs.Reading.Conservation
import JaiSyntax.Proofs.Reading.Moves
/-!
Conservation of leaves by the tree builder. The children of the open nodes, from the root inwards,
spell what was pushed so far. An operation that moves children from one open node to another, or
that puts a finished node in their place, keeps that text; only a push makes it longer, at its end.
-/

set_option autoImplicit false

namespace JaiSyntax

/-! ### The leaves of a builder -/

namespace TreeBuilder

/-- The tokens below the open nodes. A node stands after the children that its parent has so far, so
the root comes first and the innermost node last. -/
def leaves (builder : TreeBuilder) : List Token :=
  builder.frames.reverse.flatMap (fun frame => Child.leavesOfList frame.children)

def outerLeaves : TreeBuilder → List Token
  | ⟨_, []⟩ => []
  | ⟨root, _ :: rest⟩ => (TreeBuilder.mk root rest).leaves

theorem leaves_nil (root : Frame) :
    (TreeBuilder.mk root []).leaves = Child.leavesOfList root.children := by
  simp [leaves, frames]

theorem leaves_cons (root frame : Frame) (rest : List Frame) :
    (TreeBuilder.mk root (frame :: rest)).leaves =
      (TreeBuilder.mk root rest).leaves ++ Child.leavesOfList frame.children := by
  simp [leaves, frames, List.flatMap_append]

@[simp] theorem leaves_new (kind : NodeKind) : (TreeBuilder.new kind).leaves = [] := by
  rw [TreeBuilder.new, leaves_nil]
  rfl

theorem leaves_mapTop (builder : TreeBuilder) (change : List Child → List Child) :
    (builder.mapTop change).leaves =
      builder.outerLeaves ++ Child.leavesOfList (change builder.top.latest).reverse := by
  rcases builder with ⟨root, _ | ⟨frame, rest⟩⟩
  · exact leaves_nil _
  · exact leaves_cons root _ rest

theorem leaves_eq_outerLeaves (builder : TreeBuilder) :
    builder.leaves = builder.outerLeaves ++ Child.leavesOfList builder.top.latest.reverse := by
  rw [← leaves_mapTop builder (fun latest => latest), mapTop_id]

/-- A change of the innermost children that keeps their leaves keeps the leaves of the builder. -/
theorem leaves_mapTop_of_kept (builder : TreeBuilder) {change : List Child → List Child}
    (kept : ∀ latest,
      Child.leavesOfList (change latest).reverse = Child.leavesOfList latest.reverse) :
    (builder.mapTop change).leaves = builder.leaves := by
  rw [leaves_mapTop, kept, ← leaves_eq_outerLeaves]

/-! ### Operations -/

theorem leaves_push (builder : TreeBuilder) (child : Child) :
    (builder.push child).leaves = builder.leaves ++ child.leaves := by
  rw [push, leaves_mapTop, leaves_eq_outerLeaves, List.reverse_cons, Child.leavesOfList_append,
    List.append_assoc]
  simp [Child.leavesOfList]

@[simp] theorem leaves_pushToken (builder : TreeBuilder) (token : Token) :
    (builder.pushToken token).leaves = builder.leaves ++ [token] :=
  leaves_push builder _

@[simp] theorem leaves_pushNode (builder : TreeBuilder) (node : Node) :
    (builder.pushNode node).leaves = builder.leaves ++ node.leaves :=
  leaves_push builder _

@[simp] theorem leaves_start (builder : TreeBuilder) (kind : NodeKind) (position : Nat) :
    (builder.start kind position).leaves = builder.leaves := by
  rw [start, leaves_cons]
  exact List.append_nil _

@[simp] theorem leaves_finish (builder : TreeBuilder) :
    builder.finish.leaves = builder.leaves := by
  rcases builder with ⟨root, _ | ⟨frame, rest⟩⟩
  · rfl
  · rw [finish, leaves_pushNode, leaves_cons, Frame.toNode, Node.leaves_build]

/-- The innermost children are split in two, and the later part goes to the node that opens. -/
@[simp] theorem leaves_startAt (builder : TreeBuilder) (checkpoint : Checkpoint)
    (kind : NodeKind) : (builder.startAt checkpoint kind).leaves = builder.leaves := by
  rw [startAt, leaves_cons]
  change (builder.mapTop _).leaves ++ _ = _
  rw [leaves_mapTop, leaves_eq_outerLeaves, Frame.children, List.append_assoc,
    ← Child.leavesOfList_append, ← List.reverse_append, List.take_append_drop]

@[simp] theorem leaves_tagLast (builder : TreeBuilder) (field : Field) :
    (builder.tagLast field).leaves = builder.leaves :=
  leaves_mapTop_of_kept builder
    (leaves_replaceLastSignificant (fun child => by simp [Child.leavesOfList]))

theorem leavesOfList_clearFields (children : List Child) :
    Child.leavesOfList (children.map (Child.withField none)) = Child.leavesOfList children := by
  induction children with
  | nil => rfl
  | cons child rest ih =>
      rw [List.map_cons, Child.leavesOfList, Child.leavesOfList, Child.leaves_withField, ih]

@[simp] theorem leaves_clearFields (builder : TreeBuilder) :
    builder.clearFields.leaves = builder.leaves :=
  leaves_mapTop_of_kept builder (fun latest => by
    rw [← List.map_reverse, leavesOfList_clearFields])

theorem leaves_mapLastNode (builder : TreeBuilder) {change : Node → Node}
    (kept : ∀ node, (change node).leaves = node.leaves) :
    (builder.mapLastNode change).leaves = builder.leaves := by
  refine leaves_mapTop_of_kept builder (leaves_replaceLastSignificant (fun child => ?_))
  cases child with
  | leaf field token => rfl
  | branch field kind span children =>
      simp only [Child.node?, Child.leavesOfList, Child.leaves_ofNode, kept, List.append_nil]
      rfl

theorem leaves_spliceLastNode (builder : TreeBuilder) {parts : Node → List Child}
    (kept : ∀ node, Child.leavesOfList (parts node) = node.leaves) :
    (builder.spliceLastNode parts).leaves = builder.leaves := by
  refine leaves_mapTop_of_kept builder (leaves_replaceLastSignificant (fun child => ?_))
  cases child with
  | leaf field token => rfl
  | branch field kind span children => exact kept _

theorem leaves_dissolve (count : Nat) (builder : TreeBuilder) :
    (dissolve count builder).leaves = builder.leaves := by
  induction count generalizing builder with
  | zero => rfl
  | succ count ih =>
      rcases builder with ⟨root, _ | ⟨frame, rest⟩⟩
      · rfl
      · rw [dissolve, ih, leaves_mapTop, leaves_cons, leaves_eq_outerLeaves, List.reverse_append,
          Child.leavesOfList_append, List.append_assoc, Frame.children]

@[simp] theorem leaves_dissolveTo (builder : TreeBuilder) (depth : Nat) :
    (builder.dissolveTo depth).leaves = builder.leaves :=
  leaves_dissolve _ builder

/-- Nothing is left open above the root of a finished tree. -/
theorem leaves_finishRoot (builder : TreeBuilder) :
    builder.finishRoot.leaves = builder.leaves := by
  have closed : (builder.dissolveTo 0).stack = [] := by
    refine List.length_eq_zero_iff.mp ?_
    exact (depth_dissolve _ builder).trans (Nat.sub_self _)
  calc builder.finishRoot.leaves
      = (TreeBuilder.mk (builder.dissolveTo 0).root []).leaves := (leaves_nil _).symm
    _ = (builder.dissolveTo 0).leaves := by rw [← closed]
    _ = builder.leaves := leaves_dissolveTo builder 0

end TreeBuilder

/-! ### Sequences of operations -/

/-- An operation of a tree builder. A function that changes a finished node keeps its leaves. A
checkpoint may come from anywhere: it is clamped to the children that are there. -/
inductive BuilderOperation where
  | start (kind : NodeKind) (position : Nat)
  | finish
  | pushToken (token : Token)
  | pushNode (node : Node)
  | checkpoint (position : Nat)
  | startAt (place : Checkpoint) (kind : NodeKind)
  | tagLast (field : Field)
  | clearFields
  | mapLastNode (change : Node → Node) (kept : ∀ node, (change node).leaves = node.leaves)
  | spliceLastNode (parts : Node → List Child)
      (kept : ∀ node, Child.leavesOfList (parts node) = node.leaves)
  | dissolveTo (depth : Nat)

namespace BuilderOperation

/-- The builder after an operation. A checkpoint is only read off it. -/
def apply : BuilderOperation → TreeBuilder → TreeBuilder
  | .start kind position, builder => builder.start kind position
  | .finish, builder => builder.finish
  | .pushToken token, builder => builder.pushToken token
  | .pushNode node, builder => builder.pushNode node
  | .checkpoint _, builder => builder
  | .startAt place kind, builder => builder.startAt place kind
  | .tagLast field, builder => builder.tagLast field
  | .clearFields, builder => builder.clearFields
  | .mapLastNode change _, builder => builder.mapLastNode change
  | .spliceLastNode parts _, builder => builder.spliceLastNode parts
  | .dissolveTo depth, builder => builder.dissolveTo depth

def pushed : BuilderOperation → List Token
  | .pushToken token => [token]
  | .pushNode node => node.leaves
  | _ => []

/-- One operation keeps the leaves in their order and puts what it adds behind them. -/
theorem leaves_apply (operation : BuilderOperation) (builder : TreeBuilder) :
    (operation.apply builder).leaves = builder.leaves ++ operation.pushed := by
  cases operation with
  | pushToken token => exact builder.leaves_pushToken token
  | pushNode node => exact builder.leaves_pushNode node
  | mapLastNode change kept =>
      simpa [apply, pushed] using builder.leaves_mapLastNode kept
  | spliceLastNode parts kept =>
      simpa [apply, pushed] using builder.leaves_spliceLastNode kept
  | start | finish | checkpoint | startAt | tagLast | clearFields | dissolveTo =>
      simp [apply, pushed]

end BuilderOperation

namespace TreeBuilder

def perform (operations : List BuilderOperation) (builder : TreeBuilder) : TreeBuilder :=
  operations.foldl (fun current operation => operation.apply current) builder

theorem leaves_perform (operations : List BuilderOperation) (builder : TreeBuilder) :
    (builder.perform operations).leaves =
      builder.leaves ++ operations.flatMap BuilderOperation.pushed := by
  induction operations generalizing builder with
  | nil => exact (List.append_nil _).symm
  | cons operation rest ih =>
      change ((operation.apply builder).perform rest).leaves = _
      rw [ih, operation.leaves_apply, List.flatMap_cons, List.append_assoc]

/-- Whatever operations build a tree, in whatever order and however unbalanced, its leaves are what
was pushed, in the order it was pushed. -/
theorem finishRoot_perform_leaves (kind : NodeKind) (operations : List BuilderOperation) :
    ((TreeBuilder.new kind).perform operations).finishRoot.leaves =
      operations.flatMap BuilderOperation.pushed := by
  rw [leaves_finishRoot, leaves_perform, leaves_new, List.nil_append]

end TreeBuilder

end JaiSyntax
