import JaiSyntax.Text.Json
import JaiSyntax.Tree.Basic
/-!
Tokens and trees as JSON documents.
-/

set_option autoImplicit false

namespace JaiSyntax

namespace Span

def json (span : Span) : Json :=
  .record [("start", .number span.start), ("end", .number span.stop)]

end Span

namespace TokenValue

/-- The value of a literal under the name of its sort. -/
def json : TokenValue → Json
  | .none => .ofString "None"
  | .int value base =>
      .record [("Int", .record [("value", .number value), ("base", .ofString base.name)])]
  | .float bits base =>
      .record [("Float", .record [("bits", .number bits), ("base", .ofString base.name)])]
  | .char scalar => .record [("Char", .text [scalar])]

end TokenValue

namespace Token

def json (token : Token) : Json :=
  .record [("kind", .ofString token.kind.name), ("span", token.span.json),
    ("value", token.value.json)]

end Token

def nodeMembers (kind : NodeKind) (span : Span) (children : List Json) : Json :=
  .record [("kind", .ofString kind.serialName), ("span", span.json), ("children", .list children)]

def childMembers (field : Option Field) (sort : String) (element : Json) : Json :=
  .record [("field", (field.map (fun found => Json.ofString found.key)).getD .null),
    ("element", .record [(sort, element)])]

mutual

def Child.json : Child → Json
  | .leaf field token => childMembers field "Token" token.json
  | .branch field kind span children =>
      childMembers field "Node" (nodeMembers kind span (Child.jsonOfList children))

def Child.jsonOfList : List Child → List Json
  | [] => []
  | child :: rest => child.json :: Child.jsonOfList rest

end

def Node.json (node : Node) : Json :=
  nodeMembers node.kind node.span (Child.jsonOfList node.children)

end JaiSyntax
