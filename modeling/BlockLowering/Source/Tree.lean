import BlockLowering.Decimal.Double
import BlockLowering.Source.Operator
import BlockLowering.Source.Pattern
import BlockLowering.Source.TypeExpr

/-!
# Source trees

Expressions hold function bodies and statements hold expressions, so the two families of trees are
defined together. Every node carries the span of the text it came from. The trees cover more of the
language than lowering accepts: forms that it rejects are still visited and reported.
-/

namespace BlockLowering.Source

open Decimal (Double)

inductive VariableKind where
  | letBinding | constBinding | varBinding
deriving DecidableEq, Repr

inductive ParameterKind where
  | positional | optional | rest
deriving DecidableEq, Repr

/-- One imported name, with the name it is bound to here. -/
structure ImportSpecifier where
  name : Ident
  binding : Option Ident
deriving DecidableEq, Repr

mutual

/-- Expressions. -/
inductive Expression where
  | int (value : Int64) (span : Span)
  | float (value : Double) (span : Span)
  | string (literal : StringLiteral)
  | template (tag : Option Expression) (parts : List TemplatePart) (span : Span)
  | boolean (value : Bool) (span : Span)
  | null (span : Span)
  | this (span : Span)
  | super (span : Span)
  | identifier (id : Ident)
  | array (elements : List Expression) (span : Span)
  | object (properties : List Property) (span : Span)
  | unary (operator : UnaryOperator) (operand : Expression) (span : Span)
  | binary (operator : BinaryOperator) (left right : Expression) (span : Span)
  | logical (operator : LogicalOperator) (left right : Expression) (span : Span)
  | assignment (operator : AssignmentOperator) (left right : Expression) (span : Span)
  | conditional (test consequent alternate : Expression) (span : Span)
  | call (callee : Expression) (typeArgs : List Ascription) (args : List Expression)
      (span : Span)
  | member (object : Expression) (property : Ident) (span : Span)
  | index (object position : Expression) (span : Span)
  | new (callee : Expression) (typeArgs : List Ascription) (args : List Expression)
      (span : Span)
  | function (name : Option Ident) (typeParams : List TypeParameter) (params : List Parameter)
      (result : Option Ascription) (body : Block) (span : Span)
  | parenthesized (inner : Expression) (span : Span)
  | comma (items : List Expression) (span : Span)
  | instanceOf (object : Expression) (type : Ascription) (span : Span)
  | typeCast (object : Expression) (type : Ascription) (span : Span)

/-- A piece of a template: literal text or an embedded expression. -/
inductive TemplatePart where
  | text (value : Symbol)
  | expression (value : Expression)

/-- One property of an object literal. -/
structure Property where
  key : PropertyKey
  value : Expression
  span : Span

/-- How a property is named. -/
inductive PropertyKey where
  | identifier (id : Ident)
  | string (literal : StringLiteral)
  | computed (value : Expression)

/-- A parameter of a function. -/
structure Parameter where
  kind : ParameterKind
  pattern : Pattern
  type : Option Ascription
  initial : Option Expression
  span : Span

/-- A brace group. -/
structure Block where
  statements : List Statement
  span : Span

structure VariableDecl where
  kind : VariableKind
  pattern : Pattern
  type : Option Ascription
  initial : Option Expression
  span : Span

structure FunctionDecl where
  name : Ident
  typeParams : List TypeParameter
  params : List Parameter
  result : Option Ascription
  body : Block
  span : Span

structure FieldDecl where
  name : Ident
  type : Option Ascription
  initial : Option Expression
  span : Span

inductive ClassMember where
  | field (decl : FieldDecl)
  | method (decl : FunctionDecl)

/-- One case of a switch; the default case has no test. -/
structure SwitchCase where
  test : Option Expression
  consequent : List Statement
  span : Span

structure CatchClause where
  param : Option Pattern
  body : Block
  span : Span

/-- What starts a `for` loop. -/
inductive ForInit where
  | variableDecl (decl : VariableDecl)
  | expression (value : Expression)

/-- Statements. -/
inductive Statement where
  | variableDecl (decl : VariableDecl)
  | functionDecl (decl : FunctionDecl)
  | namespaceDecl (name : Ident) (members : List Statement) (span : Span)
  | classDecl (name : Ident) (typeParams : List TypeParameter) (base : Option Ascription)
      (members : List ClassMember) (span : Span)
  | typeAlias (name : Ident) (typeParams : List TypeParameter) (type : Ascription)
      (span : Span)
  | importDecl (specifiers : List ImportSpecifier) (source : StringLiteral) (span : Span)
  | exportDecl (declaration : Statement) (span : Span)
  | expression (value : Expression) (span : Span)
  | ifElse (condition : Expression) (thenBranch : Statement) (elseBranch : Option Statement)
      (span : Span)
  | switch (discriminant : Expression) (cases : List SwitchCase) (span : Span)
  | whileLoop (condition : Expression) (body : Statement) (span : Span)
  | doWhile (body : Statement) (condition : Expression) (span : Span)
  | forLoop (init : Option ForInit) (test update : Option Expression) (body : Statement)
      (span : Span)
  | forOf (binding : VariableDecl) (iterable : Expression) (body : Statement) (span : Span)
  | breakTo (label : Option Ident) (span : Span)
  | continueTo (label : Option Ident) (span : Span)
  | returnValue (value : Option Expression) (span : Span)
  | throwValue (value : Expression) (span : Span)
  | tryCatch (body : Block) (handler : Option CatchClause) (finalizer : Option Block)
      (span : Span)
  | block (group : Block)
  | empty (span : Span)

end

/-- A whole source file. -/
structure Module where
  statements : List Statement
  span : Span

namespace Expression

def span : Expression → Span
  | int _ s | float _ s | template _ _ s | boolean _ s | null s | this s | super s | array _ s
  | object _ s | unary _ _ s | binary _ _ _ s | logical _ _ _ s | assignment _ _ _ s
  | conditional _ _ _ s | call _ _ _ s | member _ _ s | index _ _ s | new _ _ _ s
  | function _ _ _ _ _ s | parenthesized _ s | comma _ s | instanceOf _ _ s | typeCast _ _ s => s
  | string literal => literal.span
  | identifier id => id.span

/-- A literal that is complete in itself; a template is not. -/
def isLiteral : Expression → Bool
  | int .. | float .. | string .. | boolean .. | null .. => true
  | _ => false

end Expression

namespace Statement

def span : Statement → Span
  | variableDecl decl => decl.span
  | functionDecl decl => decl.span
  | namespaceDecl _ _ s | classDecl _ _ _ _ s | typeAlias _ _ _ s | importDecl _ _ s
  | exportDecl _ s | expression _ s | ifElse _ _ _ s | switch _ _ s | whileLoop _ _ s
  | doWhile _ _ s | forLoop _ _ _ _ s | forOf _ _ _ s | breakTo _ s | continueTo _ s
  | returnValue _ s | throwValue _ s | tryCatch _ _ _ s | empty s => s
  | block group => group.span

/-- The statement introduces a name of its own. -/
def isDeclaration : Statement → Bool
  | variableDecl .. | functionDecl .. | namespaceDecl .. | classDecl .. | typeAlias .. => true
  | _ => false

end Statement

end BlockLowering.Source
