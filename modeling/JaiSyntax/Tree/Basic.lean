import JaiSyntax.Token.Basic
import JaiSyntax.Tree.Kind
import JaiSyntax.Tree.Field
/-!
Concrete syntax trees. A child is a token or a node, together with the field it is recorded under.
A node built from children covers them from the first to the last.
-/

set_option autoImplicit false

namespace JaiSyntax

inductive Child where
  | leaf (field : Option Field) (token : Token)
  | branch (field : Option Field) (kind : NodeKind) (span : Span) (children : List Child)
  deriving Inhabited

structure Node where
  kind : NodeKind
  span : Span
  children : List Child
  deriving Inhabited

namespace Child

def ofNode (field : Option Field) (node : Node) : Child :=
  .branch field node.kind node.span node.children

def node? : Child → Option Node
  | .leaf _ _ => none
  | .branch _ kind span children => some ⟨kind, span, children⟩

def token? : Child → Option Token
  | .leaf _ token => some token
  | .branch _ _ _ _ => none

def field? : Child → Option Field
  | .leaf field _ => field
  | .branch field _ _ _ => field

def withField (field : Option Field) : Child → Child
  | .leaf _ token => .leaf field token
  | .branch _ kind span children => .branch field kind span children

def span : Child → Span
  | .leaf _ token => token.span
  | .branch _ _ span _ => span

/-- Layout, comments, notes and deprecation notices may stand anywhere; every other child is
significant. -/
def isSignificant : Child → Bool
  | .leaf _ token => !token.kind.isExtra
  | .branch _ kind _ _ => kind != .deprecatedDirective

@[simp] theorem node?_ofNode (field : Option Field) (node : Node) :
    (ofNode field node).node? = some node := rfl

@[simp] theorem field?_ofNode (field : Option Field) (node : Node) :
    (ofNode field node).field? = field := rfl

@[simp] theorem field?_withField (field : Option Field) (child : Child) :
    (child.withField field).field? = field := by
  cases child <;> rfl

end Child

namespace Node

/-- The span of a node from its children: from the first to the last, or the point `position`
when there are none. -/
def spanOf (children : List Child) (position : Nat) : Span :=
  match children.head?, children.getLast? with
  | some first, some last => first.span.merge last.span
  | _, _ => .point position

/-- The node of `kind` over `children`; `position` places a node without any. -/
def build (kind : NodeKind) (children : List Child) (position : Nat) : Node :=
  ⟨kind, spanOf children position, children⟩

def relabel (node : Node) (kind : NodeKind) : Node := { node with kind := kind }

def childNodes (node : Node) : List Node := node.children.filterMap Child.node?

def childTokens (node : Node) : List Token := node.children.filterMap Child.token?

def childrenUnder (node : Node) (field : Field) : List Child :=
  node.children.filter (fun child => child.field? == some field)

def childUnder? (node : Node) (field : Field) : Option Child := (node.childrenUnder field).head?

def nodeUnder? (node : Node) (field : Field) : Option Node :=
  (node.childrenUnder field).findSome? Child.node?

end Node

end JaiSyntax
