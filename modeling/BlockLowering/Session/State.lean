import BlockLowering.Diagnostic.Record
import BlockLowering.IR.Arena

/-!
# Lowering sessions

A session holds everything that lowering builds and remembers: the arena, the stack of open blocks,
the type scopes in force, the counter for temporaries and the log of diagnostics. Every declaration
and statement goes to the innermost open block. Lowering asks the arena for nothing that it could
refuse; should it ever do so, the session records the fault and goes on.
-/

namespace BlockLowering

open IR Diagnostic

/-- What can be set for a session. -/
structure Options where
  /-- The types known to every module, in the order of look-up. -/
  builtinTypes : List String := IR.builtinTypes
  /-- Temporaries are named by this text and their number. -/
  tempPrefix : String := "~tmp"
  /-- Functions of a module may be used before their declaration. -/
  hoisting : Bool := true
deriving DecidableEq, Repr

/-- What a session must never meet. -/
inductive Fault where
  | refused (reason : Refusal)
  /-- The innermost open block is not the one to be closed. -/
  | unbalanced (block : BlockId)
deriving DecidableEq, Repr

structure Session where
  options : Options := {}
  arena : Arena := .empty
  /-- The open blocks, innermost first. -/
  openBlocks : List BlockId := []
  /-- The type scopes in force, innermost first. -/
  typeScopes : List TypeScopeId := []
  nextTemp : Nat := 0
  /-- The body block of the module that is being lowered. -/
  unitBody : Option BlockId := none
  log : Log := .empty
  faults : List Fault := []

instance : Inhabited Session := ⟨{}⟩

/-- A step of lowering. -/
abbrev Lower := StateM Session

namespace Lower

def fault (f : Fault) : Lower Unit :=
  modify fun s => { s with faults := s.faults ++ [f] }

/-- Report a problem. -/
def report (p : Problem) : Lower Unit :=
  modify fun s => { s with log := s.log.push p.record }

/-- A construct that lowering does not handle. -/
def reject (construct : String) (span : Span) : Lower Unit :=
  report (.unsupported construct span)

/-! ## The arena of the session -/

def createRoot (span : Span) : Lower BlockId :=
  modifyGet fun s =>
    let (arena, id) := s.arena.createRoot span
    (id, { s with arena })

def createChild (parent : BlockId) (span : Span) : Lower BlockId := do
  let s ← get
  let (arena, result) := s.arena.createChild parent span
  set { s with arena }
  match result with
  | .ok id => return id
  | .error reason =>
    fault (.refused reason)
    return ⟨s.arena.blocks.length⟩

def addDecl (block : BlockId) (name : String) (type : Option TypeRef) (kind : DeclKind)
    (span : Span) : Lower DeclId := do
  let s ← get
  let (arena, result) := s.arena.addDecl block name type kind span
  set { s with arena }
  match result with
  | .ok id => return id
  | .error reason =>
    fault (.refused reason)
    return ⟨s.arena.decls.length⟩

def addStmt (block : BlockId) (stmt : Stmt) : Lower Unit := do
  let s ← get
  match s.arena.addStmt block stmt with
  | .ok arena => set { s with arena }
  | .error reason => fault (.refused reason)

def sealBlock (block : BlockId) : Lower Unit := do
  let s ← get
  match s.arena.sealBlock block with
  | .ok arena => set { s with arena }
  | .error reason => fault (.refused reason)

def linkPlaceholder (placeholder target : DeclId) : Lower Unit := do
  let s ← get
  match s.arena.linkPlaceholder placeholder target with
  | .ok (arena, _) => set { s with arena }
  | .error reason => fault (.refused reason)

def readBlock (block : BlockId) : Lower (Option Block) := do
  match (← get).arena.block block with
  | .ok b => return some b
  | .error reason =>
    fault (.refused reason)
    return none

/-- The first of the declarations that has `p`. -/
def findDecl (p : Decl → Bool) (ids : List DeclId) : Lower (Option DeclId) :=
  modifyGet fun s =>
    let (found, refused) := s.arena.search p ids
    (found, { s with faults := s.faults ++ refused.map .refused })

/-- The declaration that `name` means in `block`. -/
def lookup (block : BlockId) (name : String) : Lower (Option DeclId) := do
  findDecl (Decl.isCalled name) ((← get).arena.listedFrom block)

/-! ## Open blocks -/

/-- The innermost open block. With no block open, a new root is opened and stays open. -/
def currentBlock : Lower BlockId := do
  match (← get).openBlocks with
  | block :: _ => return block
  | [] =>
    let block ← createRoot .synthetic
    modify fun s => { s with openBlocks := [block] }
    return block

def openBlock (block : BlockId) : Lower Unit :=
  modify fun s => { s with openBlocks := block :: s.openBlocks }

/-- Leave the innermost open block, which is to be `block`, and seal it. -/
def closeBlock (block : BlockId) : Lower Unit := do
  let s ← get
  set { s with openBlocks := s.openBlocks.tail }
  if s.openBlocks.head? ≠ some block then
    fault (.unbalanced block)
  sealBlock block

/-- Run `body` inside `block`, which is complete afterwards. -/
def inBlock {m : Type → Type} [Monad m] [MonadLiftT Lower m] (block : BlockId) (body : m Unit) :
    m Unit := do
  openBlock block
  body
  closeBlock block

/-- A new temporary in `block`, numbered over the whole session. -/
def freshTemp (block : BlockId) (span : Span) : Lower DeclId := do
  let s ← get
  set { s with nextTemp := s.nextTemp + 1 }
  addDecl block (s.options.tempPrefix ++ toString s.nextTemp) none .temporary span

end Lower

end BlockLowering
