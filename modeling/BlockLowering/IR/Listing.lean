import BlockLowering.Decimal.Notation
import BlockLowering.IR.Arena

/-!
# Listings

A listing shows the tree of blocks line by line. Each block has a header, then its declarations,
its statements and the blocks inside it, two spaces further in. A line that would start with too
many spaces is refused, and with it the whole listing.
-/

namespace BlockLowering.IR

/-- `text` at depth `depth`. -/
def indented (depth : Nat) (text : String) : String :=
  String.ofList (List.replicate (2 * depth) ' ') ++ text

structure Line where
  depth : Nat
  text : String
deriving DecidableEq, Repr

namespace Line

def render (l : Line) : String := indented l.depth l.text

/-- Lines under one another. -/
def join (lines : List Line) : String := "\n".intercalate (lines.map render)

end Line

/-- A line starts with at most so many spaces. -/
def maxIndent : Nat := 65535

/-- Indent a line, unless it is too deep. -/
def indent (depth : Nat) : Except Refusal Unit :=
  if 2 * depth ≤ maxIndent then .ok () else .error .tooDeep

def lineAt (depth : Nat) (text : String) : Except Refusal Line := do
  indent depth
  return ⟨depth, text⟩

namespace Arena

/-- A use of a declaration, by name if there is such a declaration. -/
def renderRef (a : Arena) (r : DeclRef) : String :=
  match a.decl? r.decl with
  | some d => "ref(" ++ d.name ++ ")"
  | none => "ref(?" ++ toString r.decl.index ++ ")"

def renderType (a : Arena) (t : TypeRef) : String :=
  match a.typeDecl? t.decl with
  | some d => "type(" ++ d.name ++ ")"
  | none => "type(?)"

mutual

def renderExpr (a : Arena) : Expr → String
  | .ref target => a.renderRef target
  | .int value _ => toString value.toInt
  | .float value _ => value.render
  | .binary op lhs rhs _ =>
    "(" ++ op.text ++ " " ++ renderExpr a lhs ++ " " ++ renderExpr a rhs ++ ")"
  | .func body _ => "(FUNC " ++ body.render ++ ")"
  | .call callee args _ =>
    "(CALL " ++ renderExpr a callee ++ " (" ++ ", ".intercalate (renderExprs a args) ++ "))"

def renderExprs (a : Arena) : List Expr → List String
  | [] => []
  | e :: rest => renderExpr a e :: renderExprs a rest

end

def renderDecl (a : Arena) (d : Decl) : String :=
  if d.isPlaceholder then
    "GLOBAL FUNC REF " ++ d.name
  else
    "VAR DECL " ++ d.name ++
      match d.type with
      | some t => ":" ++ a.renderType t
      | none => ""

def declLine (a : Arena) (depth : Nat) (id : DeclId) : Except Refusal Line := do
  indent depth
  return ⟨depth, a.renderDecl (← a.decl id)⟩

/-- The lines of a statement at depth `depth`. -/
def stmtLines (a : Arena) (depth : Nat) : Stmt → List (Except Refusal Line)
  | .assign target value _ =>
    [lineAt depth (a.renderRef target ++ " <- " ++ a.renderExpr value)]
  | .drop value _ => [lineAt depth (a.renderExpr value)]
  | .ifElse cond thenBlock elseBlock _ =>
    [lineAt depth "IF:",
      lineAt (depth + 1) ("COND:" ++ a.renderExpr cond),
      lineAt (depth + 1) ("THEN: " ++ thenBlock.render)] ++
      elseBlock.toList.map fun b => lineAt (depth + 1) ("ELSE: " ++ b.render)
  | .whileLoop cond body _ =>
    [lineAt depth "WHILE:",
      lineAt (depth + 1) ("COND:" ++ a.renderExpr cond),
      lineAt (depth + 1) ("BODY: " ++ body.render)]

/-- The lines of a block that are its own: header, declarations and statements. -/
def ownLines (a : Arena) (depth : Nat) (b : Block) : List (Except Refusal Line) :=
  lineAt depth (b.id.render ++ ":") :: b.decls.map (a.declLine (depth + 1)) ++
    b.stmts.flatMap (a.stmtLines (depth + 1))

/-- The lines of a block and of the blocks inside it, up to the first that is refused; `levels` more
levels can be indented. -/
def blockLines (a : Arena) : (levels : Nat) → (depth : Nat) → Block → Except Refusal (List Line)
  | 0, _, _ => .error .tooDeep
  | levels + 1, depth, b => do
    let own ← (a.ownLines depth b).mapM id
    let inner ← b.children.mapM fun c => do a.blockLines levels (depth + 1) (← a.block c)
    return own ++ inner.flatten

def linesOf (a : Arena) (id : BlockId) : Except Refusal (List Line) :=
  match a.block? id with
  | none => .ok [⟨0, "<missing " ++ id.render ++ ">"⟩]
  | some b => a.blockLines (maxIndent / 2 + 1) 0 b

/-- The listing of one block. -/
def listBlock (a : Arena) (id : BlockId) : Except Refusal String :=
  (a.linesOf id).map Line.join

/-- The listing of all blocks, from each root in turn. -/
def list (a : Arena) : Except Refusal String := do
  let trees ← (a.blocks.filter Block.isRoot).mapM fun b => a.linesOf b.id
  return Line.join trees.flatten

end Arena

end BlockLowering.IR
