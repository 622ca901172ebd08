import BlockLowering.Session.Run

/-!
# Well-formed modules

Rules, on source trees alone, for the modules that lowering accepts. They carry the names in force:
every function body, namespace, brace group and branch has a scope of its own, a name enters its
scope before its initial value or its body is checked, and the functions of a module are known
around its body from the start. A form without a rule is not accepted.
-/

namespace BlockLowering.Source

/-! ## Names in force -/

/-- The types that are known, and the declared names by scope, innermost first. -/
structure Env where
  types : List String
  scopes : List (List String)

namespace Env

/-- Some scope has the name. -/
def Has (env : Env) (name : String) : Prop := ∃ scope ∈ env.scopes, name ∈ scope

/-- Inside a new scope. -/
def enter (env : Env) : Env := { env with scopes := [] :: env.scopes }

/-- The name enters the innermost scope. -/
def declare (env : Env) (name : String) : Env :=
  match env.scopes with
  | [] => { env with scopes := [[name]] }
  | scope :: outer => { env with scopes := (scope ++ [name]) :: outer }

def declareAll (env : Env) (names : List String) : Env := names.foldl declare env

end Env

/-! ## Parts of the rules -/

/-- The operators that may join two operands. -/
def acceptedOperators : List BinaryOperator :=
  [.add, .subtract, .multiply, .divide, .equal, .strictEqual]

/-- What may be assigned: an identifier or an assignment, perhaps in parentheses. -/
def Expression.isTarget : Expression → Bool
  | .identifier _ | .assignment .. => true
  | .parenthesized inner _ => inner.isTarget
  | _ => false

/-- The name of a plain parameter. -/
def Parameter.name? : Parameter → Option Ident
  | ⟨.positional, .identifier id, _, none, _⟩ => some id
  | _ => none

/-- The statements that a branch of an `if` or the body of a loop runs in its scope. -/
def Statement.branch : Statement → List Statement
  | .block braces => braces.statements
  | other => [other]

section

variable (names : SymbolTable)

def Parameter.declared (p : Parameter) : List String :=
  p.name?.toList.map fun id => names.resolve id.name

/-- The names that a statement brings into the scope it stands in. -/
def Statement.declared : Statement → List String
  | .variableDecl ⟨_, .identifier id, _, _, _⟩ => [names.resolve id.name]
  | .functionDecl decl => [names.resolve decl.name.name]
  | _ => []

/-- An annotation is the plain name of a known type. -/
inductive Ascription.Known (types : List String) : Ascription → Prop
  | name {head : Ident} {nameSpan span place : Span} (known : names.resolve head.name ∈ types) :
      Known types ⟨.reference (.simple head nameSpan) [] span, place⟩

/-- A parameter is plain, with a known type if it has an annotation. -/
structure Parameter.WellFormed (types : List String) (p : Parameter) : Prop where
  plain : p.name?.isSome = true
  type : ∀ a ∈ p.type, a.Known names types

/-! ## Rules -/

mutual

/-- The expression is accepted where the names of `env` are in force. -/
inductive Expression.WellFormed : Env → Expression → Prop
  | int {env value span} : Expression.WellFormed env (.int value span)
  | float {env value span} : Expression.WellFormed env (.float value span)
  | identifier {env id} (known : env.Has (names.resolve id.name)) :
      Expression.WellFormed env (.identifier id)
  | binary {env operator left right span} (accepted : operator ∈ acceptedOperators)
      (left_ok : Expression.WellFormed env left) (right_ok : Expression.WellFormed env right) :
      Expression.WellFormed env (.binary operator left right span)
  | assignment {env left right span} (target : left.isTarget = true)
      (right_ok : Expression.WellFormed env right) (left_ok : Expression.WellFormed env left) :
      Expression.WellFormed env (.assignment .assign left right span)
  | call {env callee args span} (callee_ok : Expression.WellFormed env callee)
      (args_ok : ∀ e ∈ args, Expression.WellFormed env e) :
      Expression.WellFormed env (.call callee [] args span)
  /-- The name of a function expression and its result type do not matter. -/
  | function {env name params result body span}
      (params_ok : ∀ p ∈ params, p.WellFormed names env.types)
      (body_ok : StatementsWellFormed
        (env.enter.declareAll (params.flatMap (Parameter.declared names))) body.statements) :
      Expression.WellFormed env (.function name [] params result body span)
  | parenthesized {env inner span} (inner_ok : Expression.WellFormed env inner) :
      Expression.WellFormed env (.parenthesized inner span)

/-- The statement is accepted where the names of `env` are in force. -/
inductive Statement.WellFormed : Env → Statement → Prop
  | variableDecl {env kind id type initial span} (type_ok : ∀ a ∈ type, a.Known names env.types)
      (initial_ok : ∀ e ∈ initial,
        Expression.WellFormed (env.declare (names.resolve id.name)) e) :
      Statement.WellFormed env (.variableDecl ⟨kind, .identifier id, type, initial, span⟩)
  | functionDecl {env id params result body span}
      (params_ok : ∀ p ∈ params, p.WellFormed names env.types)
      (body_ok : StatementsWellFormed ((env.declare (names.resolve id.name)).enter.declareAll
        (params.flatMap (Parameter.declared names))) body.statements) :
      Statement.WellFormed env (.functionDecl ⟨id, [], params, result, body, span⟩)
  | namespaceDecl {env name members span} (members_ok : StatementsWellFormed env.enter members) :
      Statement.WellFormed env (.namespaceDecl name members span)
  | expression {env value span} (value_ok : Expression.WellFormed env value) :
      Statement.WellFormed env (.expression value span)
  | ifElse {env condition thenBranch elseBranch span}
      (condition_ok : Expression.WellFormed env condition)
      (then_ok : StatementsWellFormed env.enter thenBranch.branch)
      (else_ok : ∀ s ∈ elseBranch, StatementsWellFormed env.enter s.branch) :
      Statement.WellFormed env (.ifElse condition thenBranch elseBranch span)
  | whileLoop {env condition body span} (condition_ok : Expression.WellFormed env condition)
      (body_ok : StatementsWellFormed env.enter body.branch) :
      Statement.WellFormed env (.whileLoop condition body span)
  | block {env braces} (statements_ok : StatementsWellFormed env.enter braces.statements) :
      Statement.WellFormed env (.block braces)
  | empty {env span} : Statement.WellFormed env (.empty span)

/-- The statements are accepted one after another, each with the names of those before it. -/
inductive StatementsWellFormed : Env → List Statement → Prop
  | nil {env} : StatementsWellFormed env []
  | cons {env s rest} (first_ok : Statement.WellFormed env s)
      (rest_ok : StatementsWellFormed (env.declareAll (s.declared names)) rest) :
      StatementsWellFormed env (s :: rest)

end

/-- The names that are known around the body of a module: its functions, if they are hoisted. -/
def Module.hoisted (options : Options) (m : Module) : List String :=
  if options.hoisting then m.functionNames.map fun id => names.resolve id.name else []

/-- The module is accepted. -/
def Module.WellFormed (options : Options) (m : Module) : Prop :=
  StatementsWellFormed names ⟨options.builtinTypes, [[], m.hoisted names options]⟩ m.statements

end

/-! ## The rules read backwards -/

variable {names : SymbolTable} {env : Env} {span : Span}

theorem Expression.wellFormed_binary {operator : BinaryOperator} {left right : Expression} :
    (Expression.binary operator left right span).WellFormed names env ↔
      operator ∈ acceptedOperators ∧ left.WellFormed names env ∧ right.WellFormed names env := by
  constructor
  · rintro ⟨⟩
    exact ⟨‹_›, ‹_›, ‹_›⟩
  · rintro ⟨accepted, left_ok, right_ok⟩
    exact .binary accepted left_ok right_ok

theorem Expression.wellFormed_assignment {left right : Expression} :
    (Expression.assignment .assign left right span).WellFormed names env ↔
      (right.WellFormed names env ∧ left.WellFormed names env) ∧ left.isTarget = true := by
  constructor
  · rintro ⟨⟩
    exact ⟨⟨‹_›, ‹_›⟩, ‹_›⟩
  · rintro ⟨⟨right_ok, left_ok⟩, target⟩
    exact .assignment target right_ok left_ok

theorem Expression.wellFormed_call {callee : Expression} {typeArgs : List Ascription}
    {args : List Expression} : (Expression.call callee typeArgs args span).WellFormed names env ↔
      typeArgs = [] ∧ callee.WellFormed names env ∧ ∀ e ∈ args, e.WellFormed names env := by
  constructor
  · rintro ⟨⟩
    exact ⟨rfl, ‹_›, ‹_›⟩
  · rintro ⟨rfl, callee_ok, args_ok⟩
    exact .call callee_ok args_ok

theorem Expression.wellFormed_function {name : Option Ident} {typeParams : List TypeParameter}
    {params : List Parameter} {result : Option Ascription} {body : Block} :
    (Expression.function name typeParams params result body span).WellFormed names env ↔
      typeParams = [] ∧ (∀ p ∈ params, p.WellFormed names env.types) ∧
        StatementsWellFormed names (env.enter.declareAll (params.flatMap (Parameter.declared names)))
          body.statements := by
  constructor
  · rintro ⟨⟩
    exact ⟨rfl, ‹_›, ‹_›⟩
  · rintro ⟨rfl, params_ok, body_ok⟩
    exact .function params_ok body_ok

theorem Statement.wellFormed_functionDecl {id : Ident} {typeParams : List TypeParameter}
    {params : List Parameter} {result : Option Ascription} {body : Block} :
    (Statement.functionDecl ⟨id, typeParams, params, result, body, span⟩).WellFormed names env ↔
      typeParams = [] ∧ (∀ p ∈ params, p.WellFormed names env.types) ∧
        StatementsWellFormed names ((env.declare (names.resolve id.name)).enter.declareAll
          (params.flatMap (Parameter.declared names))) body.statements := by
  constructor
  · rintro ⟨⟩
    exact ⟨rfl, ‹_›, ‹_›⟩
  · rintro ⟨rfl, params_ok, body_ok⟩
    exact .functionDecl params_ok body_ok

theorem Statement.wellFormed_variableDecl {kind : VariableKind} {id : Ident}
    {type : Option Ascription} {initial : Option Expression} :
    (Statement.variableDecl ⟨kind, .identifier id, type, initial, span⟩).WellFormed names env ↔
      (∀ a ∈ type, a.Known names env.types) ∧
        ∀ e ∈ initial, e.WellFormed names (env.declare (names.resolve id.name)) := by
  constructor
  · rintro ⟨⟩
    exact ⟨‹_›, ‹_›⟩
  · rintro ⟨type_ok, initial_ok⟩
    exact .variableDecl type_ok initial_ok

theorem Statement.wellFormed_ifElse {condition : Expression} {thenBranch : Statement}
    {elseBranch : Option Statement} :
    (Statement.ifElse condition thenBranch elseBranch span).WellFormed names env ↔
      condition.WellFormed names env ∧ StatementsWellFormed names env.enter thenBranch.branch ∧
        ∀ s ∈ elseBranch, StatementsWellFormed names env.enter s.branch := by
  constructor
  · rintro ⟨⟩
    exact ⟨‹_›, ‹_›, ‹_›⟩
  · rintro ⟨condition_ok, then_ok, else_ok⟩
    exact .ifElse condition_ok then_ok else_ok

theorem Statement.wellFormed_whileLoop {condition : Expression} {body : Statement} :
    (Statement.whileLoop condition body span).WellFormed names env ↔
      condition.WellFormed names env ∧ StatementsWellFormed names env.enter body.branch := by
  constructor
  · rintro ⟨⟩
    exact ⟨‹_›, ‹_›⟩
  · rintro ⟨condition_ok, body_ok⟩
    exact .whileLoop condition_ok body_ok

theorem statementsWellFormed_cons {s : Statement} {rest : List Statement} :
    StatementsWellFormed names env (s :: rest) ↔
      s.WellFormed names env ∧
        StatementsWellFormed names (env.declareAll (s.declared names)) rest := by
  constructor
  · rintro ⟨⟩
    exact ⟨‹_›, ‹_›⟩
  · rintro ⟨first_ok, rest_ok⟩
    exact .cons first_ok rest_ok

end BlockLowering.Source
