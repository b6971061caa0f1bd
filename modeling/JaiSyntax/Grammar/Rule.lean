import JaiSyntax.Token.Kind
import JaiSyntax.Tree.Kind
/-!
Grammar rules as data: precedence levels, the binary operators, what is known of each rule, and the
declared conflicts between rules that can match the same text. A conflict is settled by static
precedence first and dynamic precedence second; candidates without a declared conflict between them,
or that tie on both, stay unresolved.
-/

set_option autoImplicit false

namespace JaiSyntax

/-- The binding power of a rule or an operator. Higher binds tighter. -/
abbrev Prec := Int

namespace Prec

def parentheses : Prec := -1
def none : Prec := 0
def assignment : Prec := 1
def range : Prec := 2
def logicalOr : Prec := 4
def logicalAnd : Prec := 5
def bitwiseOr : Prec := 6
def bitwiseXor : Prec := 7
def bitwiseAnd : Prec := 8
def equality : Prec := 10
def compare : Prec := 11
def shift : Prec := 12
def add : Prec := 13
def multiply : Prec := 14
def cast : Prec := 15
def unary : Prec := 17
def call : Prec := 18
def member : Prec := 19

/-- The next level up: the least power of the right operand of a left-associative operator. -/
def tighter (prec : Prec) : Prec := prec + 1

end Prec

inductive Associativity where
  | left | right | none
  deriving DecidableEq

namespace Associativity

def name : Associativity → String
  | .left => "Left"
  | .right => "Right"
  | .none => "None"

end Associativity

/-- Where a statement ends: at a semicolon, or with its own brace or nested statement. -/
inductive Terminator where
  | semicolon | selfTerminated
  deriving DecidableEq

namespace Terminator

def name : Terminator → String
  | .semicolon => "Semicolon"
  | .selfTerminated => "SelfTerminated"

end Terminator

/-! ### Binary operators -/

structure BinaryOperator where
  token : TokenKind
  prec : Prec
  assoc : Associativity
  deriving DecidableEq

def leftOperator (token : TokenKind) (prec : Prec) : BinaryOperator := ⟨token, prec, .left⟩

/-- Every binary operator. Both `^` and `~` are exclusive or. -/
def binaryOperators : List BinaryOperator :=
  [leftOperator .orOr Prec.logicalOr,
   leftOperator .andAnd Prec.logicalAnd,
   leftOperator .pipe Prec.bitwiseOr,
   leftOperator .caret Prec.bitwiseXor,
   leftOperator .tilde Prec.bitwiseXor,
   leftOperator .amp Prec.bitwiseAnd,
   leftOperator .ampTilde Prec.bitwiseAnd,
   leftOperator .eqEq Prec.equality,
   leftOperator .notEq Prec.equality,
   leftOperator .lt Prec.compare,
   leftOperator .gt Prec.compare,
   leftOperator .ltEq Prec.compare,
   leftOperator .gtEq Prec.compare,
   leftOperator .shl Prec.shift,
   leftOperator .shr Prec.shift,
   leftOperator .rotL Prec.shift,
   leftOperator .rotR Prec.shift,
   leftOperator .plus Prec.add,
   leftOperator .minus Prec.add,
   leftOperator .star Prec.multiply,
   leftOperator .slash Prec.multiply,
   leftOperator .percent Prec.multiply]

def binaryOperator? (kind : TokenKind) : Option BinaryOperator :=
  binaryOperators.find? (fun operator => operator.token == kind)

/-! ### Rules -/

/-- What is known of a grammar rule. The dynamic precedence breaks ties of the static one. -/
structure Rule where
  name : String
  prec : Prec
  assoc : Associativity
  dynamic : Int
  terminator : Terminator
  deriving DecidableEq

/-- Every rule. The last two stand for the statements allowed before a comma in a statement list and
for those that must stand alone. -/
def rules : List Rule :=
  [⟨NodeKind.name .procedureDeclaration, Prec.none, .none, 0, .selfTerminated⟩,
   ⟨NodeKind.name .structDeclaration, Prec.none, .none, 0, .selfTerminated⟩,
   ⟨NodeKind.name .enumDeclaration, 1, .none, 0, .selfTerminated⟩,
   ⟨NodeKind.name .constDeclaration, Prec.none, .none, 0, .semicolon⟩,
   ⟨NodeKind.name .variableDeclaration, Prec.none, .none, 0, .semicolon⟩,
   ⟨NodeKind.name .importDirective, Prec.none, .none, 0, .semicolon⟩,
   ⟨NodeKind.name .loadDirective, Prec.none, .none, 0, .semicolon⟩,
   ⟨NodeKind.name .runStatement, Prec.none, .none, 0, .selfTerminated⟩,
   ⟨NodeKind.name .insertStatement, Prec.none, .none, 0, .selfTerminated⟩,
   ⟨NodeKind.name .assertDirective, Prec.none, .none, 0, .semicolon⟩,
   ⟨NodeKind.name .addContextDirective, Prec.none, .none, 0, .selfTerminated⟩,
   ⟨NodeKind.name .moduleParametersDirective, Prec.none, .none, 0, .semicolon⟩,
   ⟨NodeKind.name .compilerDirective, Prec.none, .none, 0, .selfTerminated⟩,
   ⟨NodeKind.name .usingStatement, Prec.none, .none, 0, .selfTerminated⟩,
   ⟨NodeKind.name .block, 2, .none, 0, .selfTerminated⟩,
   ⟨NodeKind.name .assignmentStatement, Prec.assignment, .left, 0, .semicolon⟩,
   ⟨NodeKind.name .updateStatement, Prec.assignment, .left, 0, .semicolon⟩,
   ⟨NodeKind.name .ifStatement, Prec.none, .right, 0, .selfTerminated⟩,
   ⟨NodeKind.name .ifCaseStatement, Prec.none, .none, 0, .selfTerminated⟩,
   ⟨NodeKind.name .throughStatement, Prec.none, .none, 0, .semicolon⟩,
   ⟨NodeKind.name .whileStatement, Prec.none, .none, 0, .selfTerminated⟩,
   ⟨NodeKind.name .forStatement, 3, .right, 0, .selfTerminated⟩,
   ⟨NodeKind.name .deferStatement, Prec.none, .none, 0, .selfTerminated⟩,
   ⟨NodeKind.name .returnStatement, Prec.none, .none, 0, .semicolon⟩,
   ⟨NodeKind.name .breakStatement, Prec.none, .none, 0, .semicolon⟩,
   ⟨NodeKind.name .continueStatement, Prec.none, .none, 0, .semicolon⟩,
   ⟨NodeKind.name .removeStatement, Prec.none, .none, 0, .semicolon⟩,
   ⟨NodeKind.name .pushContextStatement, Prec.none, .none, 0, .selfTerminated⟩,
   ⟨NodeKind.name .asmStatement, Prec.none, .right, 0, .selfTerminated⟩,
   ⟨NodeKind.name .error, Prec.none, .none, 0, .selfTerminated⟩,
   ⟨NodeKind.name .parenthesizedExpression, Prec.parentheses, .none, 0, .semicolon⟩,
   ⟨NodeKind.name .unaryExpression, Prec.unary, .left, 0, .semicolon⟩,
   ⟨NodeKind.name .binaryExpression, Prec.none, .left, 0, .semicolon⟩,
   ⟨NodeKind.name .address, Prec.cast, .left, 0, .semicolon⟩,
   ⟨NodeKind.name .pointerExpression, Prec.unary, .left, 0, .semicolon⟩,
   ⟨NodeKind.name .dereferenceExpression, Prec.member, .left, 0, .semicolon⟩,
   ⟨NodeKind.name .castExpression, Prec.cast, .left, 0, .semicolon⟩,
   ⟨NodeKind.name .callExpression, Prec.call, .right, 1, .semicolon⟩,
   ⟨NodeKind.name .memberExpression, Prec.member, .left, 0, .semicolon⟩,
   ⟨NodeKind.name .indexExpression, Prec.member, .left, 0, .semicolon⟩,
   ⟨NodeKind.name .range, Prec.range, .none, 0, .semicolon⟩,
   ⟨NodeKind.name .ifExpression, Prec.none, .right, 0, .semicolon⟩,
   ⟨NodeKind.name .quickProcedure, Prec.none, .right, 0, .semicolon⟩,
   ⟨NodeKind.name .procedure, Prec.none, .right, 0, .semicolon⟩,
   ⟨NodeKind.name .runExpression, 20, .none, 0, .semicolon⟩,
   ⟨NodeKind.name .parameterizedStructType, 17, .none, 0, .semicolon⟩,
   ⟨NodeKind.name .pointerType, Prec.cast, .left, 0, .semicolon⟩,
   ⟨NodeKind.name .qualifiedType, Prec.member, .left, 0, .semicolon⟩,
   ⟨NodeKind.name .arrayType, Prec.none, .left, 0, .semicolon⟩,
   ⟨NodeKind.name .procedureType, Prec.none, .left, 0, .semicolon⟩,
   ⟨NodeKind.name .anonymousStructType, Prec.parentheses, .none, 0, .semicolon⟩,
   ⟨NodeKind.name .anonymousEnumType, Prec.parentheses, .none, 0, .semicolon⟩,
   ⟨NodeKind.name .namedReturn, 1, .right, 0, .semicolon⟩,
   ⟨"all_statements", Prec.none, .none, 0, .semicolon⟩,
   ⟨"no_comma_statements", Prec.none, .none, 0, .selfTerminated⟩]

def rule? (name : String) : Option Rule := rules.find? (fun rule => rule.name == name)

/-- How a statement of a kind ends; a kind without a rule needs a semicolon. -/
def terminatorOf (kind : NodeKind) : Terminator :=
  match rule? kind.name with
  | some rule => rule.terminator
  | none => .semicolon

/-! ### Conflicts -/

inductive ConflictStrategy where
  /-- The position says whether a type or an expression is expected. -/
  | position
  /-- A bounded look at the tokens that follow picks the rule. -/
  | followToken
  /-- The rule with the higher static precedence wins. -/
  | staticPrecedence
  /-- Of equal static precedence, the higher dynamic precedence wins. -/
  | dynamicPrecedence
  /-- The class of the statement decides whether a semicolon is required. -/
  | terminatorClass
  deriving DecidableEq

namespace ConflictStrategy

def name : ConflictStrategy → String
  | .position => "Position"
  | .followToken => "FollowToken"
  | .staticPrecedence => "StaticPrecedence"
  | .dynamicPrecedence => "DynamicPrecedence"
  | .terminatorClass => "TerminatorClass"

end ConflictStrategy

structure Conflict where
  rules : List String
  strategy : ConflictStrategy
  note : String
  deriving DecidableEq

def conflicts : List Conflict :=
  [⟨["call_expression", "parameterized_struct_type"], .staticPrecedence,
      "`Name(args)` is a call unless a type is expected or `.\x7b`/`.[` follows"⟩,
   ⟨["address", "pointer_type"], .position,
      "prefix `*` builds a pointer type in type positions and takes an address elsewhere"⟩,
   ⟨["member_expression", "qualified_type"], .position,
      "`A.B` is a qualified type in type positions"⟩,
   ⟨["dereference_expression", "binary_expression"], .followToken,
      "postfix `*` dereferences when no operand can follow it"⟩,
   ⟨["procedure", "procedure_type"], .followToken,
      "a parameter list followed by a body or directives is a procedure"⟩,
   ⟨["procedure_type", "run_expression"], .followToken,
      "`#run -> T \x7b\x7d` runs a block; `->` after `#run` never starts a type"⟩,
   ⟨["parenthesized_expression", "procedure_type", "quick_procedure"], .followToken,
      "`(x)` followed by `=>` is a quick procedure, by `->` a procedure type"⟩,
   ⟨["if_statement", "if_case_statement"], .followToken,
      "`if x == \x7b` opens an if-case"⟩,
   ⟨["enum_declaration", "const_declaration"], .staticPrecedence,
      "`Name :: enum` declares an enum"⟩,
   ⟨["struct_declaration", "anonymous_struct_type"], .position,
      "`Name :: struct` declares a struct; elsewhere `struct \x7b\x7d` is a type"⟩,
   ⟨["all_statements", "no_comma_statements"], .terminatorClass,
      "self-terminated statements need no `;`"⟩]

/-- The declared conflict that covers all of at least two candidates. -/
def conflictFor? (candidates : List String) : Option Conflict :=
  if candidates.length < 2 then none
  else
    conflicts.find? (fun conflict =>
      candidates.all (fun candidate => conflict.rules.contains candidate))

/-- The outcome of settling a conflict. An unresolved one names the candidate to fall back on. -/
inductive Resolution where
  | chosen (rule : Rule)
  | unresolved (fallback : Option Rule)
  deriving DecidableEq

/-- The better of two rules where the later one must have the greater dynamic precedence to win. -/
def betterFallback (best rule : Rule) : Rule := if best.dynamic < rule.dynamic then rule else best

/-- The first rule of the greatest dynamic precedence. -/
def fallbackOf? : List Rule → Option Rule
  | [] => none
  | rule :: rest => some (rest.foldl betterFallback rule)

/-- Whether a rule yields to another by static precedence, or by dynamic precedence where the static
ones are equal. -/
def Rule.yieldsTo (rule other : Rule) : Bool :=
  decide (rule.prec < other.prec)
    || (decide (rule.prec = other.prec) && decide (rule.dynamic < other.dynamic))

/-- The one rule to which all the others yield, if there is one. -/
def strongest? (candidates : List Rule) : Option Rule :=
  match candidates.filter (fun rule => !candidates.any (fun other => rule.yieldsTo other)) with
  | [rule] => some rule
  | _ => none

def resolve (candidates : List String) : Resolution :=
  let known := candidates.filterMap rule?
  if known.length == candidates.length && (conflictFor? candidates).isSome then
    match strongest? known with
    | some rule => .chosen rule
    | none => .unresolved (fallbackOf? known)
  else .unresolved (fallbackOf? known)

end JaiSyntax
