import BlockLowering.Session.Types

/-!
# Lowering statements and expressions

A problem is reported once, at the place where it is found; the construct around it is given up and
lowering goes on with the next statement. An expression that fails is `none`, and its problem is
already in the log. Declarations are visible in their own initial values and bodies.

The functions over the syntax are written for every monad that takes the steps of `Lower`, and the
resolution of names is a parameter: a session resolves them by `Lower.resolveName`.
-/

namespace BlockLowering

open IR Diagnostic Source

/-- The operators that the IR knows. -/
def Source.BinaryOperator.toIR? : BinaryOperator → Option BinaryOp
  | .add => some .add
  | .subtract => some .sub
  | .multiply => some .mul
  | .divide => some .div
  | .equal | .strictEqual => some .equal
  | _ => none

/-- The span of a list of annotations, if it is not empty. -/
def ascriptionsSpan? : List Ascription → Option Span
  | [] => none
  | a :: rest => some (Span.hull a.span (rest.map Ascription.span))

/-- The span of a list of type parameters, if it is not empty. -/
def typeParamsSpan? : List TypeParameter → Option Span
  | [] => none
  | p :: rest => some (Span.hull p.span (rest.map TypeParameter.span))

namespace Lower

/-- The first placeholder of `name` in the block around `block` that is still free. -/
def freePlaceholder (block : BlockId) (name : String) : Lower (Option DeclId) := do
  let some body ← readBlock block | return none
  let some unit := body.parent | return none
  let some unit ← readBlock unit | return none
  findDecl (Decl.isFree name) unit.decls

/-- Link a free placeholder of `name` in the unit block. Only a function declared directly in the
body of its module has one. -/
def linkHoisted (block : BlockId) (name : String) (decl : DeclId) : Lower Unit := do
  if (← get).unitBody = some block then
    let some placeholder ← freePlaceholder block name | return
    linkPlaceholder placeholder decl

variable (names : SymbolTable)

/-- The declaration that an identifier means here. -/
def resolveName (id : Ident) : Lower (Option DeclRef) := do
  let name := names.resolve id.name
  let block ← currentBlock
  match ← lookup block name with
  | some decl => return some ⟨decl, id.span⟩
  | none =>
    report (.nameNotFound name id.span)
    return none

/-- A parameter is declared in the body of its function. -/
def parameter (body : BlockId) (p : Parameter) : Lower Unit := do
  match p.kind with
  | .optional => reject "optional parameter" p.span
  | .rest => reject "rest parameter" p.span
  | .positional =>
    if p.initial.isSome then
      reject "default parameter value" p.span
    else
      match p.pattern with
      | .identifier id =>
        let type ← ascription? names p.type
        let _ ← addDecl body (names.resolve id.name) type .param p.span
      | pattern => reject pattern.kind.description pattern.span

def parameters (body : BlockId) : List Parameter → Lower Unit
  | [] => return
  | p :: rest => do
    parameter names body p
    parameters body rest

/-- Type parameters are reported together. -/
def typeParameters (params : List TypeParameter) : Lower Unit :=
  match typeParamsSpan? params with
  | some span => reject Kind.typeParameter.description span
  | none => return

/-- A block for the `else` branch, if there is one. -/
def elseBlock? (parent : BlockId) : Option Statement → Lower (Option BlockId)
  | none => return none
  | some branch => return some (← createChild parent branch.span)

/-- The body of a function: parameters, then statements. -/
def functionBody {m : Type → Type} [Monad m] [MonadLiftT Lower m] (body : BlockId)
    (typeParams : List TypeParameter) (params : List Parameter) (statements : m Unit) :
    m Unit := do
  typeParameters typeParams
  inBlock body do
    parameters names body params
    statements

end Lower

/-! ## Over the syntax -/

namespace Lowering

open Lower

variable {m : Type → Type} [Monad m] [MonadLiftT Lower m] (names : SymbolTable)
  (resolve : Ident → m (Option DeclRef))

mutual

/-- The value of an expression, after the statements that compute its parts. -/
def expression : Expression → m (Option Expr)
  | .int value span => return some (.int value span)
  | .float value span => return some (.float value span)
  | .identifier id => return (← resolve id).map Expr.ref
  | .binary operator left right span =>
    match operator.toIR? with
    | none => do
      reject ("'" ++ operator.text ++ "' operator") span
      return none
    | some op => do
      let some lhs ← expression left | return none
      let some rhs ← expression right | return none
      return some (.binary op lhs rhs span)
  | .assignment operator left right span =>
    match operator with
    | .assign => do
      let block ← currentBlock
      let temp ← freshTemp block span
      let some value ← expression right | return none
      addStmt block (.assign ⟨temp, span⟩ value span)
      match ← expression left with
      | none => return none
      | some (.ref target) =>
        addStmt block (.assign target (.ref ⟨temp, span⟩) span)
        return some (.ref ⟨temp, span⟩)
      | some _ =>
        reject ("assignment to " ++ left.kind.description) left.span
        return none
    | operator => do
      reject ("'" ++ operator.text ++ "' assignment") span
      return none
  | .call callee typeArgs args span =>
    match ascriptionsSpan? typeArgs with
    | some place => do
      reject "explicit type arguments" place
      return none
    | none => do
      let some callee ← expression callee | return none
      let some args ← expressions args | return none
      return some (.call callee args span)
  | .function _ typeParams params _ body span => do
    let parent ← currentBlock
    let block ← createChild parent body.span
    functionBody names block typeParams params (group body)
    return some (.func block span)
  | .parenthesized inner _ => expression inner
  | other => do
    reject other.kind.description other.span
    return none

/-- The values of expressions from left to right; the first failure ends them. -/
def expressions : List Expression → m (Option (List Expr))
  | [] => return some []
  | e :: rest => do
    let some value ← expression e | return none
    let some values ← expressions rest | return none
    return some (value :: values)

/-- Assign the initial value of a declaration, if it has one and that can be lowered. -/
def initialValue (block : BlockId) (target : DeclRef) (span : Span) : Option Expression → m Unit
  | none => return
  | some e => do
    let some value ← expression e | return
    addStmt block (.assign target value span)

/-- A variable is declared before its initial value is lowered. -/
def variableDecl : VariableDecl → m Unit
  | ⟨_, pattern, type, initial, span⟩ =>
    match pattern with
    | .identifier id => do
      let type ← ascription? names type
      let block ← currentBlock
      let decl ← addDecl block (names.resolve id.name) type .localVar span
      initialValue block ⟨decl, id.span⟩ span initial
    | pattern => reject pattern.kind.description pattern.span

/-- A function is declared and assigned before its body is lowered. -/
def functionDecl : FunctionDecl → m Unit
  | ⟨id, typeParams, params, _, body, span⟩ => do
    let block ← currentBlock
    let name := names.resolve id.name
    let decl ← addDecl block name none .function id.span
    linkHoisted block name decl
    let bodyBlock ← createChild block body.span
    addStmt block (.assign ⟨decl, id.span⟩ (.func bodyBlock span) span)
    functionBody names bodyBlock typeParams params (group body)

/-- The statements of a brace group, in the block that is open. -/
def group : Source.Block → m Unit
  | ⟨statements, _⟩ => statementList statements

/-- One statement, in the innermost open block. A brace group opens a block of its own, unless it
is a `branch`: the branch of an `if` or the body of a loop already has its block. -/
def statementAt (branch : Bool) : Statement → m Unit
  | .variableDecl decl => variableDecl decl
  | .functionDecl decl => functionDecl decl
  | .namespaceDecl _ members span => do
    let parent ← currentBlock
    let block ← createChild parent span
    inBlock block (statementList members)
  | .expression value span => do
    let some value ← expression value | return
    let block ← currentBlock
    addStmt block (.drop value span)
  | .ifElse condition thenBranch elseBranch span => do
    let some cond ← expression condition | return
    let block ← currentBlock
    let thenBlock ← createChild block thenBranch.span
    let elseBlock ← elseBlock? block elseBranch
    addStmt block (.ifElse cond thenBlock elseBlock span)
    inBlock thenBlock (statementAt true thenBranch)
    elseBody elseBlock elseBranch
  | .whileLoop condition body span => do
    let some cond ← expression condition | return
    let block ← currentBlock
    let bodyBlock ← createChild block body.span
    addStmt block (.whileLoop cond bodyBlock span)
    inBlock bodyBlock (statementAt true body)
  | .block braces =>
    if branch then
      group braces
    else do
      let parent ← currentBlock
      let block ← createChild parent braces.span
      inBlock block (group braces)
  | .empty _ => return
  | other => reject other.kind.description other.span

/-- The `else` branch in its block. -/
def elseBody : Option BlockId → Option Statement → m Unit
  | some block, some branch => inBlock block (statementAt true branch)
  | _, _ => return

/-- Statements in order. -/
def statementList : List Statement → m Unit
  | [] => return
  | s :: rest => do
    statementAt false s
    statementList rest

end

/-- Lower one statement into the innermost open block. -/
def statement : Statement → m Unit := statementAt names resolve false

end Lowering

/-! ## In a session -/

namespace Lower

variable (names : SymbolTable)

@[inherit_doc Lowering.expression]
abbrev expression : Expression → Lower (Option Expr) :=
  Lowering.expression names (resolveName names)

@[inherit_doc Lowering.expressions]
abbrev expressions : List Expression → Lower (Option (List Expr)) :=
  Lowering.expressions names (resolveName names)

@[inherit_doc Lowering.initialValue]
abbrev initialValue : BlockId → DeclRef → Span → Option Expression → Lower Unit :=
  Lowering.initialValue names (resolveName names)

@[inherit_doc Lowering.variableDecl]
abbrev variableDecl : VariableDecl → Lower Unit :=
  Lowering.variableDecl names (resolveName names)

@[inherit_doc Lowering.functionDecl]
abbrev functionDecl : FunctionDecl → Lower Unit :=
  Lowering.functionDecl names (resolveName names)

@[inherit_doc Lowering.group]
abbrev group : Source.Block → Lower Unit := Lowering.group names (resolveName names)

@[inherit_doc Lowering.statementAt]
abbrev statementAt : Bool → Statement → Lower Unit :=
  Lowering.statementAt names (resolveName names)

@[inherit_doc Lowering.elseBody]
abbrev elseBody : Option BlockId → Option Statement → Lower Unit :=
  Lowering.elseBody names (resolveName names)

@[inherit_doc Lowering.statementList]
abbrev statementList : List Statement → Lower Unit :=
  Lowering.statementList names (resolveName names)

@[inherit_doc Lowering.statement]
abbrev statement : Statement → Lower Unit := Lowering.statement names (resolveName names)

end Lower

end BlockLowering
