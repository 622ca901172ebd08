import BlockLowering.Session.Code
import BlockLowering.Source.Traversal

/-!
# Running a session

A module gets two blocks: the unit block, which holds a placeholder for every function that the
module declares directly, and inside it the body block. Other trees may be handed to a session as
well; what stands outside every module goes to an open root block of its own.
-/

namespace BlockLowering

open IR Diagnostic Source

/-- The names of the functions that a module declares directly, in order. -/
def Source.Module.functionNames (m : Module) : List Ident :=
  m.statements.filterMap fun
    | .functionDecl decl => some decl.name
    | _ => none

namespace Lower

/-- The first module of a session brings the builtin types into force. -/
def ensureTypeScope : Lower Unit :=
  modify fun s =>
    if s.typeScopes.isEmpty then
      let (arena, id) := s.arena.createTypeScope s.options.builtinTypes
      { s with arena, typeScopes := [id] }
    else
      s

variable (names : SymbolTable)

/-- A free placeholder in `unit` for each of the functions. -/
def hoist (unit : BlockId) : List Ident → Lower Unit
  | [] => return
  | id :: rest => do
    let _ ← addDecl unit (names.resolve id.name) none (.placeholder none) id.span
    hoist unit rest

/-- The placeholders of a unit block, if functions are hoisted. -/
def placeholders (unit : BlockId) (ids : List Ident) : Lower Unit := do
  if (← get).options.hoisting then
    hoist names unit ids

def setOptions (chosen : Options) : Lower Unit :=
  modify fun s => { s with options := chosen }

/-- The body block of the module that is being lowered from here on. -/
def setUnitBody (body : Option BlockId) : Lower Unit :=
  modify fun s => { s with unitBody := body }

/-! ## Other trees -/

/-- The kinds that lowering takes over when a traversal reaches them. -/
def handledKinds : List Kind :=
  [.module, .variableDecl, .functionDecl, .namespaceDecl, .expressionStatement, .ifElse, .whileLoop,
    .block, .empty]

/-- Lowering takes over at this visit, so the traversal goes no deeper. -/
def handles (v : Visit) : Bool :=
  match v.hook with
  | .statement => true
  | .kind kind => kind ∈ handledKinds
  | _ => false

end Lower

/-- What a session can be asked to do. -/
inductive Step where
  | options (chosen : Options)
  | module (tree : Module)
  | statement (tree : Statement)
  /-- Lower what a traversal of the expression reaches. -/
  | expression (tree : Expression)
  /-- Lower what a traversal of the node reaches. -/
  | node (tree : Node)

/-- The traversal stops wherever lowering takes over. -/
def Step.descend (v : Visit) : Bool := !Lower.handles v

namespace Lowering

open Lower

variable {m : Type → Type} [Monad m] [MonadLiftT Lower m] (names : SymbolTable)
  (resolve : Ident → m (Option DeclRef))

/-- The inside of a unit block: placeholders, then the body block. -/
def unitBlock (unit : BlockId) (tree : Module) : m Unit := do
  placeholders names unit tree.functionNames
  let body ← createChild unit tree.span
  let outer := (← (get : Lower Session)).unitBody
  setUnitBody (some body)
  inBlock body (statementList names resolve tree.statements)
  setUnitBody outer

/-- Lower a module; its unit block is the first new block. -/
def module (tree : Module) : m BlockId := do
  ensureTypeScope
  let unit ← createRoot tree.span
  inBlock unit (unitBlock names resolve unit tree)
  return unit

/-- What lowering does at a visit. -/
def visit (v : Visit) : m Unit :=
  if handles v then
    match v.subject with
    | .module tree => do let _ ← module names resolve tree
    | .statement s => statement names resolve s
    | _ => return
  else
    return

/-- What lowering does at each of the visits, in order. -/
def visitAll : List Visit → m Unit
  | [] => return
  | v :: rest => do
    visit names resolve v
    visitAll rest

/-- One step of a session. -/
def step : Step → m Unit
  | .options chosen => setOptions chosen
  | .module tree => do let _ ← module names resolve tree
  | .statement tree => statement names resolve tree
  | .expression tree => visitAll names resolve (tree.visits Step.descend)
  | .node tree => visitAll names resolve (tree.visits Step.descend)

end Lowering

namespace Lower

variable (names : SymbolTable)

@[inherit_doc Lowering.unitBlock]
abbrev unitBlock : BlockId → Module → Lower Unit :=
  Lowering.unitBlock names (resolveName names)

@[inherit_doc Lowering.module]
abbrev module : Module → Lower BlockId := Lowering.module names (resolveName names)

@[inherit_doc Lowering.visit]
abbrev visit : Visit → Lower Unit := Lowering.visit names (resolveName names)

@[inherit_doc Lowering.visitAll]
abbrev visitAll : List Visit → Lower Unit := Lowering.visitAll names (resolveName names)

end Lower

@[inherit_doc Lowering.step]
abbrev Step.lower (names : SymbolTable) : Step → Lower Unit :=
  Lowering.step names (Lower.resolveName names)

namespace Session

/-- The session after one more step. -/
def step (names : SymbolTable) (s : Session) (step : Step) : Session :=
  ((step.lower names).run s).2

/-- The session after all steps. -/
def run (names : SymbolTable) (steps : List Step) (s : Session) : Session :=
  steps.foldl (step names) s

/-- Lower one module by itself. -/
def lowerModule (names : SymbolTable) (m : Module) (options : Options) : Session :=
  run names [.options options, .module m] {}

end Session

/-- The arena and the diagnostics of one module under the default options. -/
def lower (m : Module) (names : SymbolTable) : Arena × Log :=
  let s := Session.lowerModule names m {}
  (s.arena, s.log)

end BlockLowering
