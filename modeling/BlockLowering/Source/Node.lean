import BlockLowering.Source.Tree

/-!
# Nodes and their kinds

A node is any part of a source tree that has a kind of its own. Kinds name the constructs of the
language; their descriptions stand in diagnostics.
-/

namespace BlockLowering.Source

/-- The kinds of nodes. -/
inductive Kind where
  | module
  | variableDecl | functionDecl | parameter | typeParameter | namespaceDecl | classDecl | fieldDecl
  | typeAlias | importDecl | exportDecl
  | expressionStatement | ifElse | switch | switchCase | whileLoop | doWhile | forLoop | forOf
  | breakTo | continueTo | returnValue | throwValue | tryCatch | catchClause | block | empty
  | int | float | string | template | boolean | null | this | super | identifier
  | array | object | property | unary | binary | logical | assignment | conditional | call | member
  | index | new | functionExpression | parenthesized | comma | instanceOf | typeCast
  | ascription | typeReference | typeName | functionType | arrayType | unionType
  | arrayPattern | objectPattern
deriving DecidableEq, Repr

/-- The words for a kind. -/
def Kind.description : Kind → String
  | module => "module"
  | variableDecl => "variable declaration"
  | functionDecl => "function declaration"
  | parameter => "parameter"
  | typeParameter => "type parameter"
  | namespaceDecl => "namespace declaration"
  | classDecl => "class declaration"
  | fieldDecl => "field declaration"
  | typeAlias => "type alias"
  | importDecl => "import declaration"
  | exportDecl => "export declaration"
  | expressionStatement => "expression statement"
  | ifElse => "if statement"
  | switch => "switch statement"
  | switchCase => "switch case"
  | whileLoop => "while statement"
  | doWhile => "do-while statement"
  | forLoop => "for statement"
  | forOf => "for-of statement"
  | breakTo => "break statement"
  | continueTo => "continue statement"
  | returnValue => "return statement"
  | throwValue => "throw statement"
  | tryCatch => "try statement"
  | catchClause => "catch clause"
  | block => "block"
  | empty => "empty statement"
  | int => "integer literal"
  | float => "float literal"
  | string => "string literal"
  | template => "template literal"
  | boolean => "boolean literal"
  | null => "null literal"
  | this => "this expression"
  | super => "super expression"
  | identifier => "identifier"
  | array => "array literal"
  | object => "object literal"
  | property => "object property"
  | unary => "unary expression"
  | binary => "binary expression"
  | logical => "logical expression"
  | assignment => "assignment"
  | conditional => "conditional expression"
  | call => "call expression"
  | member => "member access"
  | index => "index access"
  | new => "new expression"
  | functionExpression => "function expression"
  | parenthesized => "parenthesized expression"
  | comma => "comma expression"
  | instanceOf => "instanceof expression"
  | typeCast => "type cast"
  | ascription => "type annotation"
  | typeReference => "type reference"
  | typeName => "type name"
  | functionType => "function type"
  | arrayType => "array type"
  | unionType => "union type"
  | arrayPattern => "array pattern"
  | objectPattern => "object pattern"

/-- A kind in a word. -/
def Kind.name : Kind → String
  | module => "Module"
  | variableDecl => "VariableDecl"
  | functionDecl => "FunctionDecl"
  | parameter => "Parameter"
  | typeParameter => "TypeParameter"
  | namespaceDecl => "NamespaceDecl"
  | classDecl => "ClassDecl"
  | fieldDecl => "FieldDecl"
  | typeAlias => "TypeAliasDecl"
  | importDecl => "ImportDecl"
  | exportDecl => "ExportDecl"
  | expressionStatement => "ExpressionStatement"
  | ifElse => "If"
  | switch => "Switch"
  | switchCase => "SwitchCase"
  | whileLoop => "While"
  | doWhile => "DoWhile"
  | forLoop => "For"
  | forOf => "ForOf"
  | breakTo => "Break"
  | continueTo => "Continue"
  | returnValue => "Return"
  | throwValue => "Throw"
  | tryCatch => "Try"
  | catchClause => "CatchClause"
  | block => "Block"
  | empty => "Empty"
  | int => "IntLiteral"
  | float => "FloatLiteral"
  | string => "StringLiteral"
  | template => "TemplateLiteral"
  | boolean => "BooleanLiteral"
  | null => "NullLiteral"
  | this => "This"
  | super => "Super"
  | identifier => "Identifier"
  | array => "Array"
  | object => "Object"
  | property => "Property"
  | unary => "Unary"
  | binary => "Binary"
  | logical => "Logical"
  | assignment => "Assignment"
  | conditional => "Conditional"
  | call => "Call"
  | member => "Member"
  | index => "Index"
  | new => "New"
  | functionExpression => "FunctionExpression"
  | parenthesized => "Parenthesized"
  | comma => "Comma"
  | instanceOf => "InstanceOf"
  | typeCast => "TypeCast"
  | ascription => "TypeAnnotation"
  | typeReference => "TypeReference"
  | typeName => "TypeName"
  | functionType => "FunctionType"
  | arrayType => "ArrayType"
  | unionType => "UnionType"
  | arrayPattern => "ArrayPattern"
  | objectPattern => "ObjectPattern"

def Statement.kind : Statement → Kind
  | variableDecl .. => .variableDecl
  | functionDecl .. => .functionDecl
  | namespaceDecl .. => .namespaceDecl
  | classDecl .. => .classDecl
  | typeAlias .. => .typeAlias
  | importDecl .. => .importDecl
  | exportDecl .. => .exportDecl
  | expression .. => .expressionStatement
  | ifElse .. => .ifElse
  | switch .. => .switch
  | whileLoop .. => .whileLoop
  | doWhile .. => .doWhile
  | forLoop .. => .forLoop
  | forOf .. => .forOf
  | breakTo .. => .breakTo
  | continueTo .. => .continueTo
  | returnValue .. => .returnValue
  | throwValue .. => .throwValue
  | tryCatch .. => .tryCatch
  | block .. => .block
  | empty .. => .empty

def Expression.kind : Expression → Kind
  | int .. => .int
  | float .. => .float
  | string .. => .string
  | template .. => .template
  | boolean .. => .boolean
  | null .. => .null
  | this .. => .this
  | super .. => .super
  | identifier .. => .identifier
  | array .. => .array
  | object .. => .object
  | unary .. => .unary
  | binary .. => .binary
  | logical .. => .logical
  | assignment .. => .assignment
  | conditional .. => .conditional
  | call .. => .call
  | member .. => .member
  | index .. => .index
  | new .. => .new
  | function .. => .functionExpression
  | parenthesized .. => .parenthesized
  | comma .. => .comma
  | instanceOf .. => .instanceOf
  | typeCast .. => .typeCast

def TypeExpr.kind : TypeExpr → Kind
  | reference .. => .typeReference
  | function .. => .functionType
  | array .. => .arrayType
  | union .. => .unionType

/-- A plain pattern is an identifier. -/
def Pattern.kind : Pattern → Kind
  | identifier .. => .identifier
  | array .. => .arrayPattern
  | object .. => .objectPattern

/-- Any node, by the class of tree it belongs to. -/
inductive Node where
  | module (tree : Module)
  | statement (tree : Statement)
  | expression (tree : Expression)
  | pattern (tree : Pattern)
  | ascription (tree : Ascription)
  | typeExpr (tree : TypeExpr)
  | typeName (tree : TypeName)
  | typeParameter (tree : TypeParameter)
  | parameter (tree : Parameter)
  | fieldDecl (tree : FieldDecl)
  | switchCase (tree : SwitchCase)
  | catchClause (tree : CatchClause)
  | property (tree : Property)

namespace Node

def kind : Node → Kind
  | module _ => .module
  | statement tree => tree.kind
  | expression tree => tree.kind
  | pattern tree => tree.kind
  | ascription _ => .ascription
  | typeExpr tree => tree.kind
  | typeName _ => .typeName
  | typeParameter _ => .typeParameter
  | parameter _ => .parameter
  | fieldDecl _ => .fieldDecl
  | switchCase _ => .switchCase
  | catchClause _ => .catchClause
  | property _ => .property

def span : Node → Span
  | module tree => tree.span
  | statement tree => tree.span
  | expression tree => tree.span
  | pattern tree => tree.span
  | ascription tree => tree.span
  | typeExpr tree => tree.span
  | typeName tree => tree.span
  | typeParameter tree => tree.span
  | parameter tree => tree.span
  | fieldDecl tree => tree.span
  | switchCase tree => tree.span
  | catchClause tree => tree.span
  | property tree => tree.span

/-- An identifier as a node. -/
def ident (id : Ident) : Node := expression (.identifier id)

/-- A brace group as a node. -/
def block (group : Block) : Node := statement (.block group)

end Node

end BlockLowering.Source
