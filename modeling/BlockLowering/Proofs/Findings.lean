import BlockLowering.Proofs.WellFormed

/-!
# Findings

What there is to report about a module, read off its tree alone. A finding is a whole statement of a
form that is not supported, or a problem inside a statement. An expression ends at its first problem,
so what is found in its later parts depends on whether the earlier parts can be lowered; a function
expression always can, whatever is found in its body.
-/

namespace BlockLowering.Source

open Diagnostic

namespace Env

/-- Some scope has the name. -/
def has (env : Env) (name : String) : Bool := env.scopes.any fun scope => scope.contains name

theorem has_eq_true_iff (env : Env) (name : String) : env.has name = true ↔ env.Has name := by
  unfold has Has
  simp

end Env

/-! ## Statements that are not supported -/

/-- The statement as a whole is of a form that lowering does not take. -/
def Statement.isUnsupported : Statement → Bool
  | .variableDecl decl => decl.pattern.identifier?.isNone
  | .classDecl .. | .typeAlias .. | .importDecl .. | .exportDecl .. | .switch .. | .doWhile ..
  | .forLoop .. | .forOf .. | .breakTo .. | .continueTo .. | .returnValue .. | .throwValue ..
  | .tryCatch .. => true
  | _ => false

/-- The problem with such a statement; a declaration that takes a value apart is reported by its
pattern. -/
def Statement.rejection : Statement → Problem
  | .variableDecl decl => .unsupported decl.pattern.kind.description decl.pattern.span
  | other => .unsupported other.kind.description other.span

/-- One thing to report. -/
inductive Finding where
  /-- A statement that is not supported. -/
  | whole (statement : Statement)
  /-- A problem inside a statement. -/
  | part (problem : Problem)

namespace Finding

def record : Finding → Record
  | whole statement => statement.rejection.record
  | part problem => problem.record

/-- The finding is about a statement as a whole. -/
def isWhole : Finding → Bool
  | whole _ => true
  | part _ => false

/-- A construct inside a statement that is not supported. -/
abbrev unsupported (construct : String) (span : Span) : Finding := part (.unsupported construct span)

end Finding

section

variable (names : SymbolTable)

/-! ## Annotations and parameters -/

/-- What is wrong with an annotation. -/
def Ascription.problem? (types : List String) : Ascription → Option Problem
  | ⟨.reference name args span, _⟩ =>
    if name.isQualified then some (.unsupported "qualified type name" name.span)
    else if !args.isEmpty then some (.unsupported "type arguments" span)
    else if types.contains (names.resolve name.head.name) then none
    else some (.nameNotFound (names.resolve name.head.name) name.span)
  | ⟨type, place⟩ => some (.unsupported type.kind.description place)

def ascriptionFindings (types : List String) (written : Option Ascription) : List Finding :=
  (written.bind (Ascription.problem? names types)).toList.map .part

def Parameter.findings (types : List String) (p : Parameter) : List Finding :=
  match p.kind with
  | .optional => [.unsupported "optional parameter" p.span]
  | .rest => [.unsupported "rest parameter" p.span]
  | .positional =>
    if p.initial.isSome then [.unsupported "default parameter value" p.span]
    else
      match p.pattern with
      | .identifier _ => ascriptionFindings names types p.type
      | pattern => [.unsupported pattern.kind.description pattern.span]

/-- Type parameters are one finding. -/
def typeParamFindings (params : List TypeParameter) : List Finding :=
  (typeParamsSpan? params).toList.map (.unsupported Kind.typeParameter.description)

/-! ## Expressions and statements -/

mutual

/-- The expression has a value where the names of `env` are in force. -/
def Expression.lowers (env : Env) : Expression → Bool
  | .int .. | .float .. | .function .. => true
  | .identifier id => env.has (names.resolve id.name)
  | .binary operator left right _ =>
    operator.toIR?.isSome && left.lowers env && right.lowers env
  | .assignment operator left right _ =>
    match operator with
    | .assign => right.lowers env && left.lowers env && left.isTarget
    | _ => false
  | .call callee typeArgs args _ =>
    (ascriptionsSpan? typeArgs).isNone && callee.lowers env && lowersAll env args
  | .parenthesized inner _ => inner.lowers env
  | _ => false

def lowersAll (env : Env) : List Expression → Bool
  | [] => true
  | e :: rest => e.lowers env && lowersAll env rest

end

mutual

/-- What is found in an expression, in the order of evaluation and up to the first failure. -/
def Expression.findings (env : Env) : Expression → List Finding
  | .int .. | .float .. => []
  | .identifier id =>
    if env.has (names.resolve id.name) then []
    else [.part (.nameNotFound (names.resolve id.name) id.span)]
  | .binary operator left right span =>
    match operator.toIR? with
    | none => [.unsupported ("'" ++ operator.text ++ "' operator") span]
    | some _ => left.findings env ++ if left.lowers names env then right.findings env else []
  | .assignment operator left right span =>
    match operator with
    | .assign =>
      right.findings env ++
        if right.lowers names env then
          left.findings env ++
            if left.lowers names env && !left.isTarget then
              [.unsupported ("assignment to " ++ left.kind.description) left.span]
            else []
        else []
    | operator => [.unsupported ("'" ++ operator.text ++ "' assignment") span]
  | .call callee typeArgs args _ =>
    match ascriptionsSpan? typeArgs with
    | some place => [.unsupported "explicit type arguments" place]
    | none =>
      callee.findings env ++ if callee.lowers names env then expressionsFindings env args else []
  | .function _ typeParams params _ body _ =>
    typeParamFindings typeParams ++ params.flatMap (Parameter.findings names env.types) ++
      body.findings (env.enter.declareAll (params.flatMap (Parameter.declared names)))
  | .parenthesized inner _ => inner.findings env
  | other => [.unsupported other.kind.description other.span]

def expressionsFindings (env : Env) : List Expression → List Finding
  | [] => []
  | e :: rest => e.findings env ++ if e.lowers names env then expressionsFindings env rest else []

def initialFindings (env : Env) : Option Expression → List Finding
  | none => []
  | some e => e.findings env

def VariableDecl.findings (env : Env) : VariableDecl → List Finding
  | ⟨kind, pattern, type, initial, span⟩ =>
    match pattern with
    | .identifier id =>
      ascriptionFindings names env.types type ++
        initialFindings (env.declare (names.resolve id.name)) initial
    | pattern => [.whole (.variableDecl ⟨kind, pattern, type, initial, span⟩)]

def FunctionDecl.findings (env : Env) : FunctionDecl → List Finding
  | ⟨id, typeParams, params, _, body, _⟩ =>
    typeParamFindings typeParams ++ params.flatMap (Parameter.findings names env.types) ++
      body.findings ((env.declare (names.resolve id.name)).enter.declareAll
        (params.flatMap (Parameter.declared names)))

/-- What is found in a brace group whose scope is already entered. -/
def Block.findings (env : Env) : Block → List Finding
  | ⟨statements, _⟩ => statementsFindings env statements

/-- What is found in a statement. The scope of a `branch` is already entered. -/
def Statement.findings (branch : Bool) (env : Env) : Statement → List Finding
  | .variableDecl decl => decl.findings env
  | .functionDecl decl => decl.findings env
  | .namespaceDecl _ members _ => statementsFindings env.enter members
  | .expression value _ => value.findings env
  | .ifElse condition thenBranch elseBranch _ =>
    condition.findings env ++
      if condition.lowers names env then
        thenBranch.findings true env.enter ++ elseFindings env.enter elseBranch
      else []
  | .whileLoop condition body _ =>
    condition.findings env ++
      if condition.lowers names env then body.findings true env.enter else []
  | .block braces => braces.findings (if branch then env else env.enter)
  | .empty _ => []
  | other => [.whole other]

def elseFindings (env : Env) : Option Statement → List Finding
  | none => []
  | some branch => branch.findings true env

/-- What is found in statements, each with the names of those before it in force. -/
def statementsFindings (env : Env) : List Statement → List Finding
  | [] => []
  | s :: rest =>
    s.findings false env ++ statementsFindings (env.declareAll (s.declared names)) rest

end

/-- What is found in a module. -/
def Module.findings (options : Options) (m : Module) : List Finding :=
  statementsFindings names ⟨options.builtinTypes, [[], m.hoisted names options]⟩ m.statements

end

end BlockLowering.Source
