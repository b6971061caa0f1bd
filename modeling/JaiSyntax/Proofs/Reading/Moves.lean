import JaiSyntax.Proofs.Reading.Basic
/-!
Moves on a segment. A move on a segment that ends the innermost node of a builder is the move on the
segment alone, and so is opening and closing a node after it or around it.
-/

set_option autoImplicit false

namespace JaiSyntax

/-! ### The innermost node -/

namespace TreeBuilder

@[simp] theorem mapTop_mapTop (builder : TreeBuilder) (first second : List Child → List Child) :
    (builder.mapTop first).mapTop second =
      builder.mapTop (fun latest => second (first latest)) := by
  rcases builder with ⟨root, _ | ⟨frame, rest⟩⟩ <;> rfl

@[simp] theorem top_mapTop_latest (builder : TreeBuilder) (change : List Child → List Child) :
    (builder.mapTop change).top.latest = change builder.top.latest := by
  rcases builder with ⟨root, _ | ⟨frame, rest⟩⟩ <;> rfl

@[simp] theorem depth_mapTop (builder : TreeBuilder) (change : List Child → List Child) :
    (builder.mapTop change).depth = builder.depth := by
  rcases builder with ⟨root, _ | ⟨frame, rest⟩⟩ <;> rfl

theorem depth_dissolve (count : Nat) (builder : TreeBuilder) :
    (dissolve count builder).depth = builder.depth - count := by
  induction count generalizing builder with
  | zero => rfl
  | succ count ih =>
      rcases builder with ⟨root, _ | ⟨frame, rest⟩⟩
      · exact (Nat.zero_sub _).symm
      · rw [dissolve, ih, depth_mapTop]
        exact (Nat.add_sub_add_right rest.length 1 count).symm

@[simp] theorem mapTop_id (builder : TreeBuilder) :
    builder.mapTop (fun latest => latest) = builder := by
  rcases builder with ⟨root, _ | ⟨frame, rest⟩⟩ <;> rfl

@[simp] theorem mapTop_top (builder : TreeBuilder) :
    (builder.mapTop fun _ => builder.top.latest) = builder := by
  rcases builder with ⟨root, _ | ⟨frame, rest⟩⟩ <;> rfl

/-- The open nodes with the innermost first; the root is the last one. -/
def frames (builder : TreeBuilder) : List Frame := builder.stack ++ [builder.root]

theorem pushExtra_eq (builder : TreeBuilder) (extra : Extra) :
    builder.pushExtra extra = builder.push extra.child := by
  cases extra <;> rfl

theorem foldl_pushExtra (extras : List Extra) (builder : TreeBuilder) :
    extras.foldl pushExtra builder =
      builder.mapTop ((extras.map Extra.child).reverse ++ ·) := by
  induction extras generalizing builder with
  | nil => exact (mapTop_id builder).symm
  | cons extra rest ih =>
      rw [List.foldl_cons, ih, pushExtra_eq, push, mapTop_mapTop]
      simp

end TreeBuilder

/-! ### Single moves -/

namespace Segment

variable (segment : Segment) (base : TreeBuilder)

@[simp] theorem cursor_onto : (segment.onto base).cursor = segment.cursor := rfl

@[simp] theorem current_onto : (segment.onto base).current = segment.cursor.current := rfl

theorem flush_onto : (segment.onto base).flush = segment.flush.onto base := by
  change ParserState.mk { segment.cursor with gap := [] }
    (segment.cursor.gap.foldl TreeBuilder.pushExtra (base.mapTop (segment.latest ++ ·)))
    segment.reported = _
  rw [TreeBuilder.foldl_pushExtra, TreeBuilder.mapTop_mapTop]
  simp [onto, flush]

theorem bumpAs_onto (change : Token → Token) :
    (segment.onto base).bumpAs change = (segment.bumpAs change).onto base := by
  unfold ParserState.bumpAs bumpAs
  rw [flush_onto]
  change (if segment.flush.cursor.isAtEnd then _ else _) = _
  split
  · next ended => simp only [if_pos ended]
  · next more => simp [onto, TreeBuilder.pushToken, TreeBuilder.push, more]

theorem bump_onto : (segment.onto base).bump = segment.bump.onto base :=
  bumpAs_onto segment base id

theorem onto_emptied : (segment.emptied).onto (segment.onto base).builder = segment.onto base := by
  simp [onto, emptied]

theorem onto_after (earlier : Segment) :
    (segment.after earlier).onto base = segment.onto (earlier.onto base).builder := by
  simp [onto, after, List.append_assoc]

@[simp] theorem ofRoot_onto_new (kind : NodeKind) :
    ofRoot (segment.onto (.new kind)) = segment := by
  simp [ofRoot, onto, TreeBuilder.new, Frame.new, TreeBuilder.mapTop]

/-! ### Nodes -/

theorem view_onto (around : Surroundings) (scope : Scope) (same : scope.context = around.context)
    (last : around.before = base.lastNodeKind?) :
    (segment.onto base).view scope = segment.view around := by
  have kinds : (segment.onto base).builder.lastNodeKind? =
      lastKindAfter around.before segment.latest := by
    unfold TreeBuilder.lastNodeKind? lastKindAfter
    rw [last, onto, TreeBuilder.top_mapTop_latest, List.find?_append]
    cases segment.latest.find? Child.isSignificant with
    | none => rfl
    | some child => rfl
  unfold ParserState.view view
  rw [kinds, same]
  rfl

theorem openNode_onto (kind : NodeKind) :
    (segment.onto base).openNode kind =
      segment.flush.emptied.onto
        ((segment.flush.onto base).builder.start kind segment.flush.cursor.current.span.start) := by
  unfold ParserState.openNode
  rw [flush_onto]
  rfl

theorem closeNode_onto (kind : NodeKind) (position : Nat) :
    (segment.onto (base.start kind position)).closeNode =
      (segment.enclosed kind position).onto base := by
  rcases base with ⟨root, _ | ⟨frame, rest⟩⟩
  all_goals
    simp [onto, enclosed, ParserState.closeNode, TreeBuilder.start, TreeBuilder.mapTop,
      TreeBuilder.finish, Frame.new, Frame.toNode, Frame.children, TreeBuilder.pushNode,
      TreeBuilder.push]

/-- A node opened at the mark before a segment is opened around the segment. -/
theorem openNodeAt_onto (around : Surroundings) (checkpoint : Checkpoint) (kind : NodeKind)
    (index : checkpoint.index = base.top.latest.length)
    (position : checkpoint.position = around.position) :
    (segment.onto base).openNodeAt checkpoint kind =
      segment.onto (base.start kind (segment.start around)) := by
  unfold ParserState.openNodeAt TreeBuilder.startAt onto
  simp only [TreeBuilder.top_mapTop_latest, TreeBuilder.mapTop_mapTop, index, position,
    List.length_append, Nat.add_sub_cancel, List.take_left', List.drop_left']
  rw [TreeBuilder.mapTop_top]
  cases last : segment.latest.getLast? <;>
    simp only [TreeBuilder.start, TreeBuilder.mapTop, Frame.new, start, last, List.append_nil]

end Segment

end JaiSyntax
