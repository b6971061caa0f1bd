/-!
The kinds of nodes in a syntax tree, the name each is known by, and the categories a kind belongs to.
The names are a public contract: queries over trees match on them.
-/

set_option autoImplicit false

namespace JaiSyntax

inductive NodeKind where
  -- The whole source, and what could not be read.
  | sourceFile | error
  -- Declarations and directives.
  | procedureDeclaration | structDeclaration | enumDeclaration | enumMember | constDeclaration
  | variableDeclaration | importDirective | loadDirective | runStatement | insertStatement
  | assertDirective | addContextDirective | moduleParametersDirective | compilerDirective
  | modifyDirective | deprecatedDirective | specifiedDirective | usingStatement
  -- Statements.
  | block | assignmentStatement | updateStatement | ifStatement | ifCaseStatement | switchCase
  | throughStatement | whileStatement | forStatement | deferStatement | returnStatement
  | breakStatement | continueStatement | removeStatement | pushContextStatement | asmStatement
  | asmInstruction | asmDeclaration | asmMemoryOperand
  -- Expressions and their parts.
  | identifier | parenthesizedExpression | unaryExpression | binaryExpression | address
  | pointerExpression | dereferenceExpression | castExpression | callExpression | namedArgument
  | spreadArgument | memberExpression | indexExpression | range | ifExpression
  | ifExpressionBlock | typeOfExpression | runExpression | insertExpression | libraryDirective
  | directiveExpression | quickProcedure | procedure | parameter | namedReturn
  -- Literals.
  | integer | float | string | heredocString | structLiteral | arrayLiteral | boolean | null
  | uninitialized
  -- Types.
  | builtinType | qualifiedType | pointerType | parameterizedStructType | anonymousStructType
  | anonymousEnumType | arrayType | procedureType | typeLiteral | polymorphicType
  | variadicType
  deriving DecidableEq, Inhabited

/-- Version of the node names; it changes when one is renamed or removed. -/
def taxonomyVersion : Nat := 1

inductive NodeCategory where
  | declaration | statement | expression | type | literal
  deriving DecidableEq

namespace NodeCategory

def name : NodeCategory → String
  | .declaration => "Declaration"
  | .statement => "Statement"
  | .expression => "Expression"
  | .type => "Type"
  | .literal => "Literal"

end NodeCategory

namespace NodeKind

def all : List NodeKind :=
  [.sourceFile, .error, .procedureDeclaration, .structDeclaration, .enumDeclaration, .enumMember,
   .constDeclaration, .variableDeclaration, .importDirective, .loadDirective, .runStatement,
   .insertStatement, .assertDirective, .addContextDirective, .moduleParametersDirective,
   .compilerDirective, .modifyDirective, .deprecatedDirective, .specifiedDirective,
   .usingStatement, .block, .assignmentStatement, .updateStatement, .ifStatement,
   .ifCaseStatement, .switchCase, .throughStatement, .whileStatement, .forStatement,
   .deferStatement, .returnStatement, .breakStatement, .continueStatement, .removeStatement,
   .pushContextStatement, .asmStatement, .asmInstruction, .asmDeclaration, .asmMemoryOperand,
   .identifier, .parenthesizedExpression, .unaryExpression, .binaryExpression, .address,
   .pointerExpression, .dereferenceExpression, .castExpression, .callExpression, .namedArgument,
   .spreadArgument, .memberExpression, .indexExpression, .range, .ifExpression,
   .ifExpressionBlock, .typeOfExpression, .runExpression, .insertExpression, .libraryDirective,
   .directiveExpression, .quickProcedure, .procedure, .parameter, .namedReturn, .integer, .float,
   .string, .heredocString, .structLiteral, .arrayLiteral, .boolean, .null, .uninitialized,
   .builtinType, .qualifiedType, .pointerType, .parameterizedStructType, .anonymousStructType,
   .anonymousEnumType, .arrayType, .procedureType, .typeLiteral, .polymorphicType, .variadicType]

def name : NodeKind → String
  | .sourceFile => "source_file"
  | .error => "ERROR"
  | .procedureDeclaration => "procedure_declaration"
  | .structDeclaration => "struct_declaration"
  | .enumDeclaration => "enum_declaration"
  | .enumMember => "enum_member"
  | .constDeclaration => "const_declaration"
  | .variableDeclaration => "variable_declaration"
  | .importDirective => "import"
  | .loadDirective => "load"
  | .runStatement => "run_statement"
  | .insertStatement => "insert_statement"
  | .assertDirective => "assert_directive"
  | .addContextDirective => "add_context_directive"
  | .moduleParametersDirective => "module_parameters_directive"
  | .compilerDirective => "compiler_directive"
  | .modifyDirective => "modify_directive"
  | .deprecatedDirective => "deprecated_directive"
  | .specifiedDirective => "specified_directive"
  | .usingStatement => "using_statement"
  | .block => "block"
  | .assignmentStatement => "assignment_statement"
  | .updateStatement => "update_statement"
  | .ifStatement => "if_statement"
  | .ifCaseStatement => "if_case_statement"
  | .switchCase => "switch_case"
  | .throughStatement => "through_statement"
  | .whileStatement => "while_statement"
  | .forStatement => "for_statement"
  | .deferStatement => "defer_statement"
  | .returnStatement => "return_statement"
  | .breakStatement => "break_statement"
  | .continueStatement => "continue_statement"
  | .removeStatement => "remove_statement"
  | .pushContextStatement => "push_context_statement"
  | .asmStatement => "asm_statement"
  | .asmInstruction => "asm_instruction"
  | .asmDeclaration => "asm_declaration"
  | .asmMemoryOperand => "asm_memory_operand"
  | .identifier => "identifier"
  | .parenthesizedExpression => "parenthesized_expression"
  | .unaryExpression => "unary_expression"
  | .binaryExpression => "binary_expression"
  | .address => "address"
  | .pointerExpression => "pointer_expression"
  | .dereferenceExpression => "dereference_expression"
  | .castExpression => "cast_expression"
  | .callExpression => "call_expression"
  | .namedArgument => "named_argument"
  | .spreadArgument => "spread_argument"
  | .memberExpression => "member_expression"
  | .indexExpression => "index_expression"
  | .range => "range"
  | .ifExpression => "if_expression"
  | .ifExpressionBlock => "if_expression_block"
  | .typeOfExpression => "type_of_expression"
  | .runExpression => "run_expression"
  | .insertExpression => "insert_expression"
  | .libraryDirective => "library_directive"
  | .directiveExpression => "directive_expression"
  | .quickProcedure => "quick_procedure"
  | .procedure => "procedure"
  | .parameter => "parameter"
  | .namedReturn => "named_return"
  | .integer => "integer"
  | .float => "float"
  | .string => "string"
  | .heredocString => "heredoc_string"
  | .structLiteral => "struct_literal"
  | .arrayLiteral => "array_literal"
  | .boolean => "boolean"
  | .null => "null"
  | .uninitialized => "uninitialized"
  | .builtinType => "builtin_type"
  | .qualifiedType => "qualified_type"
  | .pointerType => "pointer_type"
  | .parameterizedStructType => "parameterized_struct_type"
  | .anonymousStructType => "anonymous_struct_type"
  | .anonymousEnumType => "anonymous_enum_type"
  | .arrayType => "array_type"
  | .procedureType => "procedure_type"
  | .typeLiteral => "type_literal"
  | .polymorphicType => "polymorphic_type"
  | .variadicType => "variadic_type"

/-- The name of a kind in serialised trees, which is lower case throughout. -/
def serialName (kind : NodeKind) : String :=
  match kind with
  | .error => "error"
  | other => other.name

def ofName? (name : String) : Option NodeKind := all.find? (fun kind => kind.name == name)

/-- The categories of a kind, the widest first. -/
def categories : NodeKind → List NodeCategory
  | .procedureDeclaration | .structDeclaration | .enumDeclaration | .constDeclaration
  | .variableDeclaration | .importDirective | .loadDirective | .runStatement | .insertStatement
  | .assertDirective | .addContextDirective | .moduleParametersDirective | .compilerDirective
  | .usingStatement | .ifStatement | .ifCaseStatement =>
      [.declaration, .statement]
  | .block | .assignmentStatement | .updateStatement | .throughStatement | .whileStatement
  | .forStatement | .deferStatement | .returnStatement | .breakStatement | .continueStatement
  | .removeStatement | .pushContextStatement | .asmStatement =>
      [.statement]
  | .identifier | .typeOfExpression =>
      [.expression, .type]
  | .parenthesizedExpression | .unaryExpression | .binaryExpression | .address
  | .pointerExpression | .dereferenceExpression | .castExpression | .callExpression
  | .memberExpression | .indexExpression | .range | .ifExpression | .runExpression
  | .insertExpression | .libraryDirective | .directiveExpression | .quickProcedure | .procedure =>
      [.expression]
  | .integer | .float | .string | .heredocString | .structLiteral | .arrayLiteral | .boolean
  | .null | .uninitialized =>
      [.expression, .literal]
  | .builtinType | .qualifiedType | .pointerType | .parameterizedStructType
  | .anonymousStructType | .anonymousEnumType | .arrayType | .procedureType | .typeLiteral
  | .polymorphicType | .variadicType =>
      [.type]
  | _ => []

def isOf (kind : NodeKind) (category : NodeCategory) : Bool := kind.categories.contains category

/-- Nodes that only wrap the name they are spelled by. -/
def isNameLeaf : NodeKind → Bool
  | .identifier | .builtinType => true
  | _ => false

end NodeKind

end JaiSyntax
