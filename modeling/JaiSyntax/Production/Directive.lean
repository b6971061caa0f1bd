import JaiSyntax.Production.Argument
import JaiSyntax.Production.Block
import JaiSyntax.Production.Literal
/-!
Directives by name, their options, and the directives that modify a declaration.
-/

set_option autoImplicit false

namespace JaiSyntax

def expressionDirectives : List String :=
  ["#char", "#string", "#run", "#insert", "#type", "#library", "#system_library", "#ifx", "#code",
   "#bake_arguments", "#bake_constants", "#procedure_of_call", "#caller_location", "#caller_code",
   "#location", "#file", "#line", "#filepath", "#procedure_name", "#this", "#compile_time",
   "#exists", "#is_constant"]

/-- The directives that may follow the parameters and results of a procedure. -/
def procedureDirectives : List String :=
  ["#expand", "#c_call", "#foreign", "#compiler", "#must", "#elsewhere", "#modify", "#no_context",
   "#intrinsic", "#runtime_support", "#symmetric", "#no_debug", "#cpp_method",
   "#cpp_return_type_is_non_pod", "#no_aoc", "#dump", "#type_info_none",
   "#type_info_procedures_are_void_pointers"]

/-- The directives that mark the statement after them. -/
def markingDirectives : List String := ["#as", "#no_reset", "#place", "#placeholder"]

/-- The directives that take the name of a library and an optional symbol. -/
def linkageDirectives : List String :=
  ["#foreign", "#elsewhere", "#intrinsic", "#runtime_support"]

namespace Production

/-- Options after a directive: names after commas, each with optional arguments. -/
def directiveOptions : Production Unit :=
  asLongAs (fun view => view.isAt .comma && view.kindAt 1 == .ident) (do
    bump
    bumpTagged .modifier
    onlyIf (·.isAt .lParen) callArguments)

def modifierArguments (name : String) : Production Unit := do
  if linkageDirectives.contains name then
    onlyIf (·.isAt .ident) (do
      identifierNode
      tag .argument)
    onlyIf (·.isAt .quote) (do
      stringLiteral
      tag .name)
  else if name == "#align" then
    operand Prec.unary
    tag .argument

def directiveModifier : Production Unit := do
  let name ← look (·.text)
  if name == "#modify" then
    node .modifyDirective (do
      bump
      bodyBlock)
  else
    node .compilerDirective (do
      bump
      modifierArguments name)

/-- Modifying directives as long as `accepts` holds; yields whether there are any. -/
def directiveModifiers (accepts : View → Bool) : Production Bool := do
  let present ← look accepts
  asLongAs accepts (do
    directiveModifier
    tag .modifier)
  pure present

end Production

end JaiSyntax
