import BlockLowering.Source.Tree

/-!
# Drafting trees

A draft assembles source trees without a source text. It interns every name and gives every new
node the next one-byte span, so that no two spans overlap. Parts of a node get their spans in the
order in which they stand in the definitions below.
-/

namespace BlockLowering.Source

open Decimal (Double)

/-- The names seen and the next free offset. -/
structure Draft where
  names : SymbolTable
  offset : UInt64

namespace Draft

/-- Nothing is drafted yet, and `names` are known. -/
def start (names : SymbolTable) : Draft := ⟨names, 0⟩

/-- The next one-byte span. -/
def span : StateM Draft Span :=
  modifyGet fun d => (⟨d.offset, d.offset + 1⟩, { d with offset := d.offset + 1 })

def intern (text : String) : StateM Draft Symbol :=
  modifyGet fun d =>
    let (names, symbol) := d.names.intern text
    (symbol, { d with names })

def ident (name : String) : StateM Draft Ident := return ⟨← intern name, ← span⟩

def module (statements : List Statement) : StateM Draft Module := return ⟨statements, ← span⟩

/-! ## Declarations -/

def variableDecl (name : String) (type : Option Ascription) (initial : Option Expression) :
    StateM Draft Statement :=
  return .variableDecl ⟨.letBinding, .identifier (← ident name), type, initial, ← span⟩

/-- A declaration that takes an array apart. -/
def destructuringDecl (names : List String) (initial : Expression) : StateM Draft Statement := do
  let ids ← names.mapM ident
  let elements := ids.map fun id => some (Pattern.identifier id)
  return .variableDecl ⟨.letBinding, .array elements (← span), none, some initial, ← span⟩

def block (statements : List Statement) : StateM Draft Block := return ⟨statements, ← span⟩

def typeParameter (name : String) : StateM Draft TypeParameter :=
  return ⟨← ident name, none, none, ← span⟩

def functionDecl (name : String) (typeParams : List String) (params : List Parameter)
    (body : List Statement) : StateM Draft Statement := do
  let typeParams ← typeParams.mapM typeParameter
  return .functionDecl ⟨← ident name, typeParams, params, none, ← block body, ← span⟩

def parameter (kind : ParameterKind) (name : String) (type : Option Ascription)
    (initial : Option Expression) : StateM Draft Parameter :=
  return ⟨kind, .identifier (← ident name), type, initial, ← span⟩

def namespaceDecl (name : String) (members : List Statement) : StateM Draft Statement :=
  return .namespaceDecl (← ident name) members (← span)

def emptyClass (name : String) : StateM Draft Statement :=
  return .classDecl (← ident name) [] none [] (← span)

def exportDecl (declaration : Statement) : StateM Draft Statement :=
  return .exportDecl declaration (← span)

/-! ## Statements -/

def group (statements : List Statement) : StateM Draft Statement :=
  return .block (← block statements)

def expressionStatement (value : Expression) : StateM Draft Statement :=
  return .expression value (← span)

def ifElse (condition : Expression) (thenBranch : Statement) (elseBranch : Option Statement) :
    StateM Draft Statement :=
  return .ifElse condition thenBranch elseBranch (← span)

/-- Both branches are brace groups. -/
def ifElseGroups (condition : Expression) (thenBranch : List Statement)
    (elseBranch : Option (List Statement)) : StateM Draft Statement := do
  ifElse condition (← group thenBranch) (← elseBranch.mapM group)

def whileLoop (condition : Expression) (body : List Statement) : StateM Draft Statement :=
  return .whileLoop condition (← group body) (← span)

def doWhile (body : List Statement) (condition : Expression) : StateM Draft Statement :=
  return .doWhile (← group body) condition (← span)

def forLoop (init : Option ForInit) (test update : Option Expression) (body : List Statement) :
    StateM Draft Statement :=
  return .forLoop init test update (← group body) (← span)

def returnValue (value : Option Expression) : StateM Draft Statement :=
  return .returnValue value (← span)

def breakTo : StateM Draft Statement := return .breakTo none (← span)

def throwValue (value : Expression) : StateM Draft Statement := return .throwValue value (← span)

def empty : StateM Draft Statement := return .empty (← span)

/-! ## Expressions -/

def int (value : Int64) : StateM Draft Expression := return .int value (← span)

def float (value : Double) : StateM Draft Expression := return .float value (← span)

def string (text : String) : StateM Draft Expression := return .string ⟨← intern text, ← span⟩

def boolean (value : Bool) : StateM Draft Expression := return .boolean value (← span)

def null : StateM Draft Expression := return .null (← span)

def name (text : String) : StateM Draft Expression := return .identifier (← ident text)

def binary (operator : BinaryOperator) (left right : Expression) : StateM Draft Expression :=
  return .binary operator left right (← span)

def logical (operator : LogicalOperator) (left right : Expression) : StateM Draft Expression :=
  return .logical operator left right (← span)

def unary (operator : UnaryOperator) (operand : Expression) : StateM Draft Expression :=
  return .unary operator operand (← span)

def assignment (operator : AssignmentOperator) (left right : Expression) :
    StateM Draft Expression :=
  return .assignment operator left right (← span)

def call (callee : Expression) (args : List Expression) : StateM Draft Expression :=
  return .call callee [] args (← span)

def member (object : Expression) (property : String) : StateM Draft Expression :=
  return .member object (← ident property) (← span)

def index (object position : Expression) : StateM Draft Expression :=
  return .index object position (← span)

def array (elements : List Expression) : StateM Draft Expression := return .array elements (← span)

def conditional (test consequent alternate : Expression) : StateM Draft Expression :=
  return .conditional test consequent alternate (← span)

def parenthesized (inner : Expression) : StateM Draft Expression :=
  return .parenthesized inner (← span)

def function (params : List Parameter) (body : List Statement) : StateM Draft Expression :=
  return .function none [] params none (← block body) (← span)

/-! ## Types -/

/-- A plain type name; the annotation shares the span of the name. -/
def typeReference (name : String) : StateM Draft Ascription := do
  let id ← ident name
  return ⟨.reference (.simple id id.span) [] id.span, id.span⟩

/-- A type name from its segments; the last segment is drafted first. No segment at all is a
single empty one. -/
def typeName : List String → StateM Draft TypeName
  | [] => return simple (← ident "")
  | [segment] => return simple (← ident segment)
  | segment :: rest => do
    let rest ← typeName rest
    let head ← ident segment
    return .qualified head rest head.span
where
  simple (head : Ident) : TypeName := .simple head head.span

def qualifiedType (path : List String) : StateM Draft Ascription := do
  let name ← typeName path
  let span ← span
  return ⟨.reference name [] span, span⟩

/-- The span of a generic type precedes that of its name. -/
def genericType (name : String) (args : List Ascription) : StateM Draft Ascription := do
  let span ← span
  let id ← ident name
  return ⟨.reference (.simple id id.span) args span, span⟩

def arrayType (element : Ascription) : StateM Draft Ascription := do
  let span ← span
  return ⟨.array element span, span⟩

end Draft

end BlockLowering.Source
