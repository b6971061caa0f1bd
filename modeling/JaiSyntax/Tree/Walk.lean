import JaiSyntax.Tree.Basic
/-!
Walks over a tree: the leaf tokens in source order, the nodes in pre-order, and an outline of both
with depths. Nodes are visited with an explicit stack, so a deep tree needs no deep recursion;
`preorder` is the same order said recursively.
-/

set_option autoImplicit false

namespace JaiSyntax

mutual

def Child.leaves : Child → List Token
  | .leaf _ token => [token]
  | .branch _ _ _ children => Child.leavesOfList children

def Child.leavesOfList : List Child → List Token
  | [] => []
  | child :: rest => child.leaves ++ Child.leavesOfList rest

end

mutual

def Child.nodeCount : Child → Nat
  | .leaf _ _ => 0
  | .branch _ _ _ children => Child.nodeCountOfList children + 1

def Child.nodeCountOfList : List Child → Nat
  | [] => 0
  | child :: rest => child.nodeCount + Child.nodeCountOfList rest

end

mutual

def Child.preorder : Child → List Node
  | .leaf _ _ => []
  | .branch _ kind span children => ⟨kind, span, children⟩ :: Child.preorderOfList children

def Child.preorderOfList : List Child → List Node
  | [] => []
  | child :: rest => child.preorder ++ Child.preorderOfList rest

end

/-- One line of an outline: how deep a node or token stands, its field, its kind and its span. -/
structure OutlineEntry where
  depth : Nat
  field : Option Field
  kind : NodeKind ⊕ TokenKind
  span : Span

mutual

def Child.outline (depth : Nat) : Child → List OutlineEntry
  | .leaf field token => [⟨depth, field, .inr token.kind, token.span⟩]
  | .branch field kind span children =>
      ⟨depth, field, .inl kind, span⟩ :: Child.outlineOfList (depth + 1) children

def Child.outlineOfList (depth : Nat) : List Child → List OutlineEntry
  | [] => []
  | child :: rest => child.outline depth ++ Child.outlineOfList depth rest

end

namespace Node

def leaves (node : Node) : List Token := Child.leavesOfList node.children

def text (node : Node) : String := textOfTokens node.leaves

def nodeCount (node : Node) : Nat := Child.nodeCountOfList node.children + 1

def preorder (node : Node) : List Node := node :: Child.preorderOfList node.children

/-- Visit the nodes on a stack, `budget` of them at most: the top node first, then its child nodes
from left to right, then the rest of the stack. -/
def visit : Nat → List Node → List Node
  | 0, _ => []
  | _ + 1, [] => []
  | budget + 1, node :: stack => node :: visit budget (node.childNodes ++ stack)

def descendants (node : Node) : List Node := visit node.nodeCount [node]

def find? (node : Node) (kind : NodeKind) : Option Node :=
  node.descendants.find? (fun inner => inner.kind == kind)

/-- Whether a node is an error itself or holds an error token directly. -/
def isErroneous (node : Node) : Bool :=
  node.kind == .error || node.childTokens.any (fun token => token.kind == .error)

def hasError (node : Node) : Bool := node.descendants.any isErroneous

def outline (node : Node) : List OutlineEntry := (Child.ofNode none node).outline 0

end Node

end JaiSyntax
