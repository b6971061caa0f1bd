/-!
The fields under which a node records its children.
-/

set_option autoImplicit false

namespace JaiSyntax

inductive Field where
  | name | type | value | condition | consequence | alternative | body | left | right
  | operator | argument | function | object | member | index | parameters | result | modifier
  | keyword | defaultValue | path | rangeFrom | rangeTo | element | size | label | mnemonic
  | operand | register | message | directive
  deriving DecidableEq, Inhabited

namespace Field

def all : List Field :=
  [.name, .type, .value, .condition, .consequence, .alternative, .body, .left, .right, .operator,
   .argument, .function, .object, .member, .index, .parameters, .result, .modifier, .keyword,
   .defaultValue, .path, .rangeFrom, .rangeTo, .element, .size, .label, .mnemonic, .operand,
   .register, .message, .directive]

def key : Field → String
  | .name => "name"
  | .type => "type"
  | .value => "value"
  | .condition => "condition"
  | .consequence => "consequence"
  | .alternative => "alternative"
  | .body => "body"
  | .left => "left"
  | .right => "right"
  | .operator => "operator"
  | .argument => "argument"
  | .function => "function"
  | .object => "object"
  | .member => "member"
  | .index => "index"
  | .parameters => "parameters"
  | .result => "result"
  | .modifier => "modifier"
  | .keyword => "keyword"
  | .defaultValue => "default_value"
  | .path => "path"
  | .rangeFrom => "range_from"
  | .rangeTo => "range_to"
  | .element => "element"
  | .size => "size"
  | .label => "label"
  | .mnemonic => "mnemonic"
  | .operand => "operand"
  | .register => "register"
  | .message => "message"
  | .directive => "directive"

def ofKey? (key : String) : Option Field := all.find? (fun field => field.key == key)

end Field

end JaiSyntax
