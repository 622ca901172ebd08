import BlockLowering.Source.Node

/-!
# Traversal

A traversal visits the nodes of a tree from the outside inwards and from left to right, as a list
of visits. Statements, expressions and patterns are visited twice: first as members of their class,
then by kind. A predicate decides at each visit whether the nodes below it are visited too, so a
traversal can be cut at any node.
-/

namespace BlockLowering.Source

/-- The ways in which a traversal reaches a node. -/
inductive Hook where
  /-- Entered from outside as some node. -/
  | node
  | statement
  | expression
  | pattern
  | kind (kind : Kind)
deriving DecidableEq, Repr

/-- What a visit by kind is called. -/
def Kind.visitName : Kind → String
  | .module => "module"
  | .variableDecl => "variable_decl"
  | .functionDecl => "function_decl"
  | .parameter => "parameter"
  | .typeParameter => "type_parameter"
  | .namespaceDecl => "namespace_decl"
  | .classDecl => "class_decl"
  | .fieldDecl => "field_decl"
  | .typeAlias => "type_alias_decl"
  | .importDecl => "import_decl"
  | .exportDecl => "export_decl"
  | .expressionStatement => "expression_statement"
  | .ifElse => "if_statement"
  | .switch => "switch_statement"
  | .switchCase => "switch_case"
  | .whileLoop => "while_statement"
  | .doWhile => "do_while_statement"
  | .forLoop => "for_statement"
  | .forOf => "for_of_statement"
  | .breakTo => "break_statement"
  | .continueTo => "continue_statement"
  | .returnValue => "return_statement"
  | .throwValue => "throw_statement"
  | .tryCatch => "try_statement"
  | .catchClause => "catch_clause"
  | .block => "block_statement"
  | .empty => "empty_statement"
  | .int => "int_literal"
  | .float => "float_literal"
  | .string => "string_literal"
  | .template => "template_literal"
  | .boolean => "boolean_literal"
  | .null => "null_literal"
  | .this => "this"
  | .super => "super"
  | .identifier => "identifier"
  | .array => "array_expression"
  | .object => "object_expression"
  | .property => "property"
  | .unary => "unary_expression"
  | .binary => "binary_expression"
  | .logical => "logical_expression"
  | .assignment => "assignment_expression"
  | .conditional => "conditional_expression"
  | .call => "call_expression"
  | .member => "member_expression"
  | .index => "index_expression"
  | .new => "new_expression"
  | .functionExpression => "function_expression"
  | .parenthesized => "parenthesized_expression"
  | .comma => "comma_expression"
  | .instanceOf => "instanceof_expression"
  | .typeCast => "type_cast_expression"
  | .ascription => "type_annotation"
  | .typeReference => "type_reference"
  | .typeName => "type_name"
  | .functionType => "function_type"
  | .arrayType => "array_type"
  | .unionType => "union_type"
  | .arrayPattern => "array_pattern"
  | .objectPattern => "object_pattern"

/-- What a visit is called. -/
def Hook.name : Hook → String
  | node => "node"
  | statement => "statement"
  | expression => "expression"
  | pattern => "pattern"
  | kind k => k.visitName

/-- One stop of a traversal. -/
structure Visit where
  hook : Hook
  subject : Node

namespace Visit

/-- A node reached by its kind. -/
def byKind (n : Node) : Visit := ⟨.kind n.kind, n⟩

end Visit

section

variable (descend : Visit → Bool)

/-- The visit, then what lies below it, unless the traversal is cut here. -/
def enter (v : Visit) (below : List Visit) : List Visit :=
  v :: if descend v then below else []

/-- A node reached by its kind. -/
def enterKind (n : Node) (below : List Visit) : List Visit :=
  enter descend (.byKind n) below

def enterStatement (s : Statement) (below : List Visit) : List Visit :=
  enter descend ⟨.statement, .statement s⟩ (enterKind descend (.statement s) below)

def enterExpression (e : Expression) (below : List Visit) : List Visit :=
  enter descend ⟨.expression, .expression e⟩ (enterKind descend (.expression e) below)

def enterPattern (p : Pattern) (below : List Visit) : List Visit :=
  enter descend ⟨.pattern, .pattern p⟩ (enterKind descend (.pattern p) below)

/-- An identifier is a leaf. -/
def visitIdent (id : Ident) : List Visit := enterKind descend (.ident id) []

/-- A string literal is a leaf. -/
def visitString (literal : StringLiteral) : List Visit :=
  enterKind descend (.expression (.string literal)) []

/-! ## Names, types and patterns -/

/-- The visits below a type name. -/
def TypeName.inner : TypeName → List Visit
  | .simple head _ => visitIdent descend head
  | .qualified head rest _ =>
    visitIdent descend head ++ enterKind descend (.typeName rest) rest.inner

mutual

/-- The visits below a type annotation. -/
def Ascription.inner : Ascription → List Visit
  | ⟨type, _⟩ => enterKind descend (.typeExpr type) type.inner

/-- The visits below a type. -/
def TypeExpr.inner : TypeExpr → List Visit
  | .reference name args _ =>
    enterKind descend (.typeName name) (name.inner descend) ++ innerAscriptions args
  | .function params result _ =>
    innerTypeParams params ++ enterKind descend (.ascription result) result.inner
  | .array element _ => enterKind descend (.ascription element) element.inner
  | .union members _ => innerAscriptions members

def innerAscriptions : List Ascription → List Visit
  | [] => []
  | a :: rest => enterKind descend (.ascription a) a.inner ++ innerAscriptions rest

def innerTypeParams : List FunctionTypeParam → List Visit
  | [] => []
  | ⟨name, type⟩ :: rest =>
    (name.toList.flatMap (visitIdent descend)) ++
      enterKind descend (.ascription type) type.inner ++ innerTypeParams rest

end

def visitAscription (a : Ascription) : List Visit :=
  enterKind descend (.ascription a) (a.inner descend)

/-- The visits below a type parameter. -/
def TypeParameter.inner (p : TypeParameter) : List Visit :=
  visitIdent descend p.name ++ p.bound.toList.flatMap (visitAscription descend) ++
    p.initial.toList.flatMap (visitAscription descend)

def visitTypeParameter (p : TypeParameter) : List Visit :=
  enterKind descend (.typeParameter p) (p.inner descend)

mutual

/-- The visits below a pattern; an identifier has none. -/
def Pattern.inner : Pattern → List Visit
  | .identifier _ => []
  | .array elements _ => innerElements elements
  | .object properties _ => innerProperties properties

/-- Holes are passed over. -/
def innerElements : List (Option Pattern) → List Visit
  | [] => []
  | none :: rest => innerElements rest
  | some p :: rest => enterPattern descend p p.inner ++ innerElements rest

def innerProperties : List PropertyPattern → List Visit
  | [] => []
  | ⟨key, value, _⟩ :: rest =>
    visitIdent descend key ++ enterPattern descend value value.inner ++ innerProperties rest

end

def visitPattern (p : Pattern) : List Visit := enterPattern descend p (p.inner descend)

/-! ## Expressions and statements -/

mutual

/-- The visits below an expression. -/
def Expression.inner : Expression → List Visit
  | .int .. | .float .. | .string .. | .boolean .. | .null .. | .this .. | .super ..
  | .identifier .. => []
  | .template tag parts _ =>
    innerExpression? tag ++ innerParts parts
  | .array elements _ => innerExpressions elements
  | .object properties _ => innerObject properties
  | .unary _ operand _ => enterExpression descend operand operand.inner
  | .binary _ left right _ | .logical _ left right _ | .assignment _ left right _ =>
    enterExpression descend left left.inner ++ enterExpression descend right right.inner
  | .conditional test consequent alternate _ =>
    enterExpression descend test test.inner ++
      enterExpression descend consequent consequent.inner ++
      enterExpression descend alternate alternate.inner
  | .call callee typeArgs args _ | .new callee typeArgs args _ =>
    enterExpression descend callee callee.inner ++
      typeArgs.flatMap (visitAscription descend) ++ innerExpressions args
  | .member object property _ =>
    enterExpression descend object object.inner ++ visitIdent descend property
  | .index object position _ =>
    enterExpression descend object object.inner ++ enterExpression descend position position.inner
  | .function name typeParams params result body _ =>
    name.toList.flatMap (visitIdent descend) ++ typeParams.flatMap (visitTypeParameter descend) ++
      innerParams params ++ result.toList.flatMap (visitAscription descend) ++
      enterKind descend (.block body) body.inner
  | .parenthesized e _ => enterExpression descend e e.inner
  | .comma items _ => innerExpressions items
  | .instanceOf object type _ | .typeCast object type _ =>
    enterExpression descend object object.inner ++ visitAscription descend type

def innerExpressions : List Expression → List Visit
  | [] => []
  | e :: rest => enterExpression descend e e.inner ++ innerExpressions rest

def innerExpression? : Option Expression → List Visit
  | none => []
  | some e => enterExpression descend e e.inner

/-- Only the embedded expressions of a template are visited. -/
def innerParts : List TemplatePart → List Visit
  | [] => []
  | .text _ :: rest => innerParts rest
  | .expression e :: rest => enterExpression descend e e.inner ++ innerParts rest

def innerObject : List Property → List Visit
  | [] => []
  | p :: rest => enterKind descend (.property p) p.inner ++ innerObject rest

/-- The visits below a property: its key, then its value. -/
def Property.inner : Property → List Visit
  | ⟨key, value, _⟩ => key.inner ++ enterExpression descend value value.inner

def PropertyKey.inner : PropertyKey → List Visit
  | .identifier id => visitIdent descend id
  | .string literal => visitString descend literal
  | .computed e => enterExpression descend e e.inner

/-- The visits below a parameter. -/
def Parameter.inner : Parameter → List Visit
  | ⟨_, pattern, type, initial, _⟩ =>
    visitPattern descend pattern ++ type.toList.flatMap (visitAscription descend) ++
      innerExpression? initial

def innerParams : List Parameter → List Visit
  | [] => []
  | p :: rest => enterKind descend (.parameter p) p.inner ++ innerParams rest

/-- The visits below a brace group. -/
def Block.inner : Block → List Visit
  | ⟨statements, _⟩ => innerStatements statements

def innerBlock? : Option Block → List Visit
  | none => []
  | some group => enterKind descend (.block group) group.inner

/-- The visits below a variable declaration. -/
def VariableDecl.inner : VariableDecl → List Visit
  | ⟨_, pattern, type, initial, _⟩ =>
    visitPattern descend pattern ++ type.toList.flatMap (visitAscription descend) ++
      innerExpression? initial

/-- The visits below a function declaration. -/
def FunctionDecl.inner : FunctionDecl → List Visit
  | ⟨name, typeParams, params, result, body, _⟩ =>
    visitIdent descend name ++ typeParams.flatMap (visitTypeParameter descend) ++
      innerParams params ++ result.toList.flatMap (visitAscription descend) ++
      enterKind descend (.block body) body.inner

/-- The visits below a field. -/
def FieldDecl.inner : FieldDecl → List Visit
  | ⟨name, type, initial, _⟩ =>
    visitIdent descend name ++ type.toList.flatMap (visitAscription descend) ++
      innerExpression? initial

def innerMembers : List ClassMember → List Visit
  | [] => []
  | .field decl :: rest => enterKind descend (.fieldDecl decl) decl.inner ++ innerMembers rest
  | .method decl :: rest =>
    enterKind descend (.statement (.functionDecl decl)) decl.inner ++ innerMembers rest

/-- The visits below a case: its test, then its statements. -/
def SwitchCase.inner : SwitchCase → List Visit
  | ⟨test, consequent, _⟩ => innerExpression? test ++ innerStatements consequent

def innerCases : List SwitchCase → List Visit
  | [] => []
  | c :: rest => enterKind descend (.switchCase c) c.inner ++ innerCases rest

/-- The visits below a catch clause. -/
def CatchClause.inner : CatchClause → List Visit
  | ⟨param, body, _⟩ =>
    param.toList.flatMap (visitPattern descend) ++ enterKind descend (.block body) body.inner

def innerHandler? : Option CatchClause → List Visit
  | none => []
  | some handler => enterKind descend (.catchClause handler) handler.inner

def innerInit? : Option ForInit → List Visit
  | none => []
  | some (.variableDecl decl) => enterKind descend (.statement (.variableDecl decl)) decl.inner
  | some (.expression e) => enterExpression descend e e.inner

/-- The visits below a statement. -/
def Statement.inner : Statement → List Visit
  | .variableDecl decl => decl.inner
  | .functionDecl decl => decl.inner
  | .namespaceDecl name members _ => visitIdent descend name ++ innerStatements members
  | .classDecl name typeParams base members _ =>
    visitIdent descend name ++ typeParams.flatMap (visitTypeParameter descend) ++
      base.toList.flatMap (visitAscription descend) ++ innerMembers members
  | .typeAlias name typeParams type _ =>
    visitIdent descend name ++ typeParams.flatMap (visitTypeParameter descend) ++
      visitAscription descend type
  | .importDecl specifiers source _ =>
    specifiers.flatMap (fun s =>
      visitIdent descend s.name ++ s.binding.toList.flatMap (visitIdent descend)) ++
      visitString descend source
  | .exportDecl declaration _ => enterStatement descend declaration declaration.inner
  | .expression e _ => enterExpression descend e e.inner
  | .ifElse condition thenBranch elseBranch _ =>
    enterExpression descend condition condition.inner ++
      enterStatement descend thenBranch thenBranch.inner ++ innerStatement? elseBranch
  | .switch discriminant cases _ =>
    enterExpression descend discriminant discriminant.inner ++ innerCases cases
  | .whileLoop condition body _ =>
    enterExpression descend condition condition.inner ++ enterStatement descend body body.inner
  | .doWhile body condition _ =>
    enterStatement descend body body.inner ++ enterExpression descend condition condition.inner
  | .forLoop init test update body _ =>
    innerInit? init ++ innerExpression? test ++ innerExpression? update ++
      enterStatement descend body body.inner
  | .forOf binding iterable body _ =>
    enterKind descend (.statement (.variableDecl binding)) binding.inner ++
      enterExpression descend iterable iterable.inner ++ enterStatement descend body body.inner
  | .breakTo label _ | .continueTo label _ => label.toList.flatMap (visitIdent descend)
  | .returnValue value _ => innerExpression? value
  | .throwValue value _ => enterExpression descend value value.inner
  | .tryCatch body handler finalizer _ =>
    enterKind descend (.block body) body.inner ++ innerHandler? handler ++ innerBlock? finalizer
  | .block group => group.inner
  | .empty _ => []

def innerStatements : List Statement → List Visit
  | [] => []
  | s :: rest => enterStatement descend s s.inner ++ innerStatements rest

def innerStatement? : Option Statement → List Visit
  | none => []
  | some s => enterStatement descend s s.inner

end

/-! ## Entry points -/

/-- The visits below a node. -/
def Node.inner : Node → List Visit
  | .module tree => innerStatements descend tree.statements
  | .statement tree => tree.inner descend
  | .expression tree => tree.inner descend
  | .pattern tree => tree.inner descend
  | .ascription tree => tree.inner descend
  | .typeExpr tree => tree.inner descend
  | .typeName tree => tree.inner descend
  | .typeParameter tree => tree.inner descend
  | .parameter tree => tree.inner descend
  | .fieldDecl tree => tree.inner descend
  | .switchCase tree => tree.inner descend
  | .catchClause tree => tree.inner descend
  | .property tree => tree.inner descend

/-- The traversal of a statement as a member of its class. -/
def Statement.visits (s : Statement) : List Visit := enterStatement descend s (s.inner descend)

/-- The traversal of an expression as a member of its class. -/
def Expression.visits (e : Expression) : List Visit := enterExpression descend e (e.inner descend)

/-- The traversal of a node entered from outside. -/
def Node.visits (n : Node) : List Visit :=
  enter descend ⟨.node, n⟩ (enterKind descend n (n.inner descend))

end

/-- The identifier that a visit stops at. -/
def Visit.ident? : Visit → Option Ident
  | ⟨.kind _, .expression (.identifier id)⟩ => some id
  | ⟨.kind _, .pattern (.identifier id)⟩ => some id
  | _ => none

/-- All identifiers of a node, in order. -/
def Node.identifiers (n : Node) : List Ident := (n.visits fun _ => true).filterMap Visit.ident?

end BlockLowering.Source
