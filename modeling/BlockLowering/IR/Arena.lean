import BlockLowering.IR.Code
import BlockLowering.IR.TypeScope

/-!
# The arena

All blocks, declarations and type scopes of one run live in an arena and refer to each other by
number. The arena only grows. An operation on a number that the arena never gave out, or an
addition to a sealed block, is refused; the operations say what they leave behind in that case.
-/

namespace BlockLowering.IR

/-- What introduced a declaration. -/
inductive DeclKind where
  | localVar
  | param
  | function
  | temporary
  /-- Stands for a function of the module before its declaration is reached. -/
  | placeholder (target : Option DeclId)
deriving DecidableEq, Repr

structure Decl where
  name : String
  type : Option TypeRef
  kind : DeclKind
  owner : BlockId
  span : Span
deriving DecidableEq, Repr

namespace Decl

def isPlaceholder (d : Decl) : Bool :=
  match d.kind with
  | .placeholder _ => true
  | _ => false

def isTemporary (d : Decl) : Bool := d.kind == .temporary

/-- The declaration is found by `name`; temporaries have no name to be found by. -/
def isCalled (name : String) (d : Decl) : Bool := !d.isTemporary && d.name == name

/-- The declaration is a placeholder of this name that leads nowhere yet. -/
def isFree (name : String) (d : Decl) : Bool := d.name == name && d.kind == .placeholder none

/-- The function that a placeholder was linked to. -/
def target? (d : Decl) : Option DeclId :=
  match d.kind with
  | .placeholder target => target
  | _ => none

end Decl

/-- One lexical scope: what it declares, what runs in it and the scopes inside it. -/
structure Block where
  id : BlockId
  parent : Option BlockId
  decls : List DeclId
  children : List BlockId
  stmts : List Stmt
  span : Span
  isSealed : Bool

namespace Block

/-- A new open block. -/
def fresh (id : BlockId) (parent : Option BlockId) (span : Span) : Block :=
  ⟨id, parent, [], [], [], span, false⟩

def isRoot (b : Block) : Bool := b.parent.isNone

/-- The block declares nothing, runs nothing and has no scope inside it. -/
def isEmpty (b : Block) : Bool := b.decls.isEmpty && b.stmts.isEmpty && b.children.isEmpty

end Block

/-- Why an operation is refused. -/
inductive Refusal where
  | sealedToDecls (block : BlockId)
  | sealedToStmts (block : BlockId)
  /-- The arena holds only `size` entries. -/
  | unknown (size index : Nat)
  /-- A line cannot be indented so far. -/
  | tooDeep
deriving DecidableEq, Repr

/-- The words for a refusal. -/
def Refusal.message : Refusal → String
  | sealedToDecls block => String.join ["declaration added to sealed ", block.render]
  | sealedToStmts block => String.join ["statement added to sealed ", block.render]
  | unknown size index =>
    String.join
      ["index out of bounds: the len is ", toString size, " but the index is ", toString index]
  | tooDeep => "Formatting argument out of range"

/-- All blocks, declarations and type scopes of one run, by number. -/
structure Arena where
  blocks : List Block
  decls : List Decl
  typeScopes : List TypeScope

namespace Arena

def empty : Arena := ⟨[], [], []⟩

instance : Inhabited Arena := ⟨empty⟩

/-! ## Looking things up by number -/

def block? (a : Arena) (id : BlockId) : Option Block := a.blocks[id.index]?

def decl? (a : Arena) (id : DeclId) : Option Decl := a.decls[id.index]?

def typeScope? (a : Arena) (id : TypeScopeId) : Option TypeScope := a.typeScopes[id.index]?

def typeDecl? (a : Arena) (id : TypeDeclId) : Option TypeDecl :=
  (a.typeScope? id.scope).bind fun scope => scope.get? id.index

/-- The block with this number, or the refusal of an unknown number. -/
def block (a : Arena) (id : BlockId) : Except Refusal Block :=
  match a.block? id with
  | some b => .ok b
  | none => .error (.unknown a.blocks.length id.index)

/-- The declaration with this number, or the refusal of an unknown number. -/
def decl (a : Arena) (id : DeclId) : Except Refusal Decl :=
  match a.decl? id with
  | some d => .ok d
  | none => .error (.unknown a.decls.length id.index)

/-- The first block without a parent. -/
def root? (a : Arena) : Option BlockId := (a.blocks.find? Block.isRoot).map Block.id

/-- The arena with one block changed. -/
def updateBlock (a : Arena) (id : BlockId) (f : Block → Block) : Arena :=
  { a with blocks := a.blocks.modify id.index f }

/-! ## Growing -/

def allocBlock (a : Arena) (parent : Option BlockId) (span : Span) : Arena × BlockId :=
  let id : BlockId := ⟨a.blocks.length⟩
  ({ a with blocks := a.blocks ++ [Block.fresh id parent span] }, id)

/-- A new block without a parent. -/
def createRoot (a : Arena) (span : Span) : Arena × BlockId := a.allocBlock none span

/-- A new block inside `parent`. The block is there even if no such parent is. -/
def createChild (a : Arena) (parent : BlockId) (span : Span) : Arena × Except Refusal BlockId :=
  let (a, id) := a.allocBlock (some parent) span
  match a.block? parent with
  | some _ =>
    (a.updateBlock parent fun b => { b with children := b.children ++ [id] }, .ok id)
  | none => (a, .error (.unknown a.blocks.length parent.index))

/-- A new declaration in `block`, after the earlier ones. The declaration is in the arena even if
the block is sealed or unknown, but then no block lists it. -/
def addDecl (a : Arena) (block : BlockId) (name : String) (type : Option TypeRef)
    (kind : DeclKind) (span : Span) : Arena × Except Refusal DeclId :=
  let id : DeclId := ⟨a.decls.length⟩
  let a := { a with decls := a.decls ++ [Decl.mk name type kind block span] }
  match a.block? block with
  | none => (a, .error (.unknown a.blocks.length block.index))
  | some b =>
    if b.isSealed then (a, .error (.sealedToDecls b.id))
    else (a.updateBlock block fun b => { b with decls := b.decls ++ [id] }, .ok id)

/-- One more statement at the end of an open block. -/
def addStmt (a : Arena) (block : BlockId) (stmt : Stmt) : Except Refusal Arena :=
  match a.block? block with
  | none => .error (.unknown a.blocks.length block.index)
  | some b =>
    if b.isSealed then .error (.sealedToStmts b.id)
    else .ok (a.updateBlock block fun b => { b with stmts := b.stmts ++ [stmt] })

/-- Close a block to further declarations and statements. -/
def sealBlock (a : Arena) (block : BlockId) : Except Refusal Arena :=
  match a.block? block with
  | none => .error (.unknown a.blocks.length block.index)
  | some _ => .ok (a.updateBlock block fun b => { b with isSealed := true })

/-- A new type scope that holds `builtins`. -/
def createTypeScope (a : Arena) (builtins : List String) : Arena × TypeScopeId :=
  let id : TypeScopeId := ⟨a.typeScopes.length⟩
  ({ a with typeScopes := a.typeScopes ++ [TypeScope.ofBuiltins id builtins] }, id)

/-! ## Scope chains -/

/-- The first `n` blocks of the chain from `block` outwards. -/
def chain (a : Arena) : Nat → BlockId → List BlockId
  | 0, _ => []
  | n + 1, block =>
    block ::
      match (a.block? block).bind Block.parent with
      | none => []
      | some parent => a.chain n parent

/-- `block` and the blocks around it, innermost first. A chain without repetition has at most one
more member than the arena has blocks. -/
def ancestors (a : Arena) (block : BlockId) : List BlockId := a.chain (a.blocks.length + 1) block

/-- `ancestor` is `block` or a block around it. -/
def encloses (a : Arena) (ancestor block : BlockId) : Bool :=
  (a.ancestors block).any fun b => b == ancestor

/-! ## Names -/

/-- The declaration is found by `name`. -/
def declares (a : Arena) (name : String) (id : DeclId) : Bool :=
  match a.decl? id with
  | some d => d.isCalled name
  | none => false

/-- The first declaration of `name` directly in `block`. -/
def findInBlock? (a : Arena) (block : BlockId) (name : String) : Option DeclId :=
  (a.block? block).bind fun b => b.decls.find? (a.declares name)

/-- The declaration that `name` means in `block`: the innermost block that declares it wins, and
there the first declaration. -/
def lookup? (a : Arena) (block : BlockId) (name : String) : Option DeclId :=
  (a.ancestors block).findSome? fun b => a.findInBlock? b name

/-- Read declarations one after another up to the first that has `p`. The result is that one, and
the refusals of the unknown numbers on the way. -/
def search (a : Arena) (p : Decl → Bool) : List DeclId → Option DeclId × List Refusal
  | [] => (none, [])
  | id :: rest =>
    match a.decl id with
    | .ok d => if p d then (some id, []) else a.search p rest
    | .error reason =>
      let (found, refused) := a.search p rest
      (found, reason :: refused)

/-- The declarations that the blocks around `block` list, in the order of look-up. -/
def listedFrom (a : Arena) (block : BlockId) : List DeclId :=
  (a.ancestors block).flatMap fun b => ((a.block? b).map Block.decls).getD []

/-! ## Placeholders -/

/-- Point a placeholder at its function; tells whether it was a placeholder. -/
def linkPlaceholder (a : Arena) (id target : DeclId) : Except Refusal (Arena × Bool) :=
  match a.decl? id with
  | none => .error (.unknown a.decls.length id.index)
  | some d =>
    if d.isPlaceholder then
      let link (d : Decl) : Decl := { d with kind := .placeholder (some target) }
      .ok ({ a with decls := a.decls.modify id.index link }, true)
    else
      .ok (a, false)

/-- The function behind a declaration: a placeholder leads to its target, and any other declaration
to itself. -/
def resolveFunction? (a : Arena) (id : DeclId) : Option DeclId :=
  (a.decl? id).bind fun d => if d.isPlaceholder then d.target? else some id

end Arena

end BlockLowering.IR
