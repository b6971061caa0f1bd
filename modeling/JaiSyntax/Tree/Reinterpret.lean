import JaiSyntax.Tree.Basic
/-!
The type reading of an expression. An expression that turns out to name a type keeps its tokens, but
a call becomes a type with arguments, a member access a qualified type, and an address a pointer
type; so do the operands that name types in turn.
-/

set_option autoImplicit false

namespace JaiSyntax

/-- How an expression reads as a type: the kind of the type, and for each field of the expression
the field under which a child node is reinterpreted, if it is. -/
structure TypeReading where
  kind : NodeKind
  select : Option Field → Option (Option Field)

def typeReading? : NodeKind → Option TypeReading
  | .callExpression =>
      some ⟨.parameterizedStructType,
        fun field => if field == some .function then some (some .type) else none⟩
  | .memberExpression =>
      some ⟨.qualifiedType, fun field => if field == some .object then some field else none⟩
  | .address => some ⟨.pointerType, some⟩
  | _ => none

def reinterpretChildren (select : Option Field → Option (Option Field)) : List Child → List Child
  | [] => []
  | .leaf field token :: rest => .leaf field token :: reinterpretChildren select rest
  | .branch field kind span children :: rest =>
      let child :=
        match select field with
        | none => .branch field kind span children
        | some newField =>
            match typeReading? kind with
            | none => .branch newField kind span children
            | some reading =>
                let inner := reinterpretChildren reading.select children
                .branch newField reading.kind (Node.spanOf inner span.start) inner
      child :: reinterpretChildren select rest

namespace Node

/-- The type reading of a node; a node without one stays as it is. -/
def reinterpretAsType (node : Node) : Node :=
  match typeReading? node.kind with
  | none => node
  | some reading =>
      .build reading.kind (reinterpretChildren reading.select node.children) node.span.start

/-- The children of a parenthesized expression as the parameter list of a procedure type: each child
node is read as a type and recorded as a parameter. -/
def asParameterList (node : Node) : List Child :=
  node.children.map (fun child =>
    match child.node? with
    | some inner => .ofNode (some .parameters) inner.reinterpretAsType
    | none => child)

end Node

end JaiSyntax
