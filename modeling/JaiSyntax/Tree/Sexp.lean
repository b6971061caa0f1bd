import JaiSyntax.Tree.Basic
/-!
Symbolic expressions. A node is written as its name and its named children in parentheses, each after
the field it is recorded under. Punctuation, keywords and layout have no leaf name and are left out,
and so is the name inside an identifier or a builtin type.
-/

set_option autoImplicit false

namespace JaiSyntax

def sexpLead : Option Field → String
  | none => " "
  | some field => " " ++ field.key ++ ": "

mutual

/-- A child of a node of `parent` kind: nothing for a token without a leaf name. -/
def Child.sexp (parent : NodeKind) : Child → String
  | .leaf field token =>
      if parent.isNameLeaf then ""
      else
        match token.kind.leafName? with
        | none => ""
        | some name => sexpLead field ++ "(" ++ name ++ ")"
  | .branch field kind _ children =>
      sexpLead field ++ "(" ++ kind.name ++ Child.sexpOfList kind children ++ ")"

def Child.sexpOfList (parent : NodeKind) : List Child → String
  | [] => ""
  | child :: rest => child.sexp parent ++ Child.sexpOfList parent rest

end

def Node.sexp (node : Node) : String :=
  "(" ++ node.kind.name ++ Child.sexpOfList node.kind node.children ++ ")"

end JaiSyntax
