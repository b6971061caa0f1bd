import JaiSyntax.Tree.Basic
/-!
Tree construction. Nodes are built on a stack of open frames. A checkpoint remembers a place in the
innermost frame, so that a node can be opened around children that were already pushed: that is how
a left operand ends up inside the expression that follows it.
-/

set_option autoImplicit false

namespace JaiSyntax

/-- An open node: its kind, the position it has while it has no children, and its children with the
latest first. -/
structure Frame where
  kind : NodeKind
  position : Nat
  latest : List Child
  deriving Inhabited

namespace Frame

def new (kind : NodeKind) (position : Nat) : Frame := ⟨kind, position, []⟩

def children (frame : Frame) : List Child := frame.latest.reverse

def toNode (frame : Frame) : Node := .build frame.kind frame.children frame.position

end Frame

/-- A place in the innermost open node: how many nodes are open, how many children that node has, and
the position of a node that is opened there without children. -/
structure Checkpoint where
  depth : Nat
  index : Nat
  position : Nat
  deriving DecidableEq, Inhabited

/-- The frame of the root and the frames open above it, the innermost first. -/
structure TreeBuilder where
  root : Frame
  stack : List Frame
  deriving Inhabited

/-- Replace the last significant child by some children; the list has the latest child first. -/
def replaceLastSignificant (change : Child → List Child) : List Child → List Child
  | [] => []
  | child :: earlier =>
      if child.isSignificant then (change child).reverse ++ earlier
      else child :: replaceLastSignificant change earlier

namespace TreeBuilder

def new (kind : NodeKind) : TreeBuilder := ⟨.new kind 0, []⟩

def depth (builder : TreeBuilder) : Nat := builder.stack.length

def top (builder : TreeBuilder) : Frame := builder.stack.headD builder.root

def mapTop (change : List Child → List Child) : TreeBuilder → TreeBuilder
  | ⟨root, []⟩ => ⟨{ root with latest := change root.latest }, []⟩
  | ⟨root, frame :: rest⟩ => ⟨root, { frame with latest := change frame.latest } :: rest⟩

def push (builder : TreeBuilder) (child : Child) : TreeBuilder :=
  builder.mapTop (child :: ·)

def pushToken (builder : TreeBuilder) (token : Token) : TreeBuilder :=
  builder.push (.leaf none token)

def pushNode (builder : TreeBuilder) (node : Node) : TreeBuilder :=
  builder.push (.ofNode none node)

def start (builder : TreeBuilder) (kind : NodeKind) (position : Nat) : TreeBuilder :=
  { builder with stack := .new kind position :: builder.stack }

/-- Close the innermost node and attach it to its parent. The root stays open. -/
def finish : TreeBuilder → TreeBuilder
  | ⟨root, []⟩ => ⟨root, []⟩
  | ⟨root, frame :: rest⟩ => (TreeBuilder.mk root rest).pushNode frame.toNode

def checkpoint (builder : TreeBuilder) (position : Nat) : Checkpoint :=
  ⟨builder.depth, builder.top.latest.length, position⟩

/-- Open a node around everything pushed to the innermost node since a checkpoint. -/
def startAt (builder : TreeBuilder) (checkpoint : Checkpoint) (kind : NodeKind) : TreeBuilder :=
  let latest := builder.top.latest
  let count := latest.length - checkpoint.index
  let inner := latest.take count
  let position :=
    match inner.getLast? with
    | some first => first.span.start
    | none => checkpoint.position
  let rest := builder.mapTop (fun _ => latest.drop count)
  { rest with stack := ⟨kind, position, inner⟩ :: rest.stack }

def tagLast (builder : TreeBuilder) (field : Field) : TreeBuilder :=
  builder.mapTop (replaceLastSignificant (fun child => [child.withField (some field)]))

def clearFields (builder : TreeBuilder) : TreeBuilder :=
  builder.mapTop (List.map (Child.withField none))

/-- The kind of the last significant child of the innermost node, if that is a node. -/
def lastNodeKind? (builder : TreeBuilder) : Option NodeKind :=
  ((builder.top.latest.find? Child.isSignificant).bind Child.node?).map Node.kind

/-- Change the last significant child, if it is a node. -/
def mapLastNode (builder : TreeBuilder) (change : Node → Node) : TreeBuilder :=
  builder.mapTop (replaceLastSignificant (fun child =>
    match child.node? with
    | some node => [.ofNode child.field? (change node)]
    | none => [child]))

def spliceLastNode (builder : TreeBuilder) (parts : Node → List Child) : TreeBuilder :=
  builder.mapTop (replaceLastSignificant (fun child =>
    match child.node? with
    | some node => parts node
    | none => [child]))

/-- Close the innermost `count` nodes without keeping them: their children move up. -/
def dissolve : Nat → TreeBuilder → TreeBuilder
  | 0, builder => builder
  | _ + 1, ⟨root, []⟩ => ⟨root, []⟩
  | count + 1, ⟨root, frame :: rest⟩ =>
      dissolve count ((TreeBuilder.mk root rest).mapTop (frame.latest ++ ·))

def dissolveTo (builder : TreeBuilder) (depth : Nat) : TreeBuilder :=
  dissolve (builder.depth - depth) builder

/-- The finished tree; nodes that are still open are dissolved into the root. -/
def finishRoot (builder : TreeBuilder) : Node := (builder.dissolveTo 0).root.toNode

end TreeBuilder

end JaiSyntax
