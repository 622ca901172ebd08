import BlockLowering.Decimal.Double
import BlockLowering.Span

/-!
# Statements and expressions of the block IR

Names are gone: an expression refers to a declaration or to a block by its number in the arena.
-/

namespace BlockLowering.IR

open Decimal (Double)

/-- The number of a block in its arena. -/
structure BlockId where
  index : Nat
deriving DecidableEq, Repr, Inhabited

/-- The number of a declaration in its arena. -/
structure DeclId where
  index : Nat
deriving DecidableEq, Repr, Inhabited

/-- A block as listings and refusals name it. -/
def BlockId.render (b : BlockId) : String := "BLOCK " ++ toString b.index

/-- A use of a declaration at a place. -/
structure DeclRef where
  decl : DeclId
  span : Span
deriving DecidableEq, Repr

/-- Loose and strict equality are one operator here. -/
inductive BinaryOp where
  | add | sub | mul | div | equal
deriving DecidableEq, Repr

def BinaryOp.text : BinaryOp → String
  | add => "add"
  | sub => "sub"
  | mul => "mul"
  | div => "div"
  | equal => "equal"

/-- Expressions. -/
inductive Expr where
  | ref (target : DeclRef)
  | int (value : Int64) (span : Span)
  | float (value : Double) (span : Span)
  | binary (op : BinaryOp) (lhs rhs : Expr) (span : Span)
  /-- A function value; its code is the block `body`. -/
  | func (body : BlockId) (span : Span)
  | call (callee : Expr) (args : List Expr) (span : Span)

namespace Expr

def span : Expr → Span
  | ref target => target.span
  | int _ s | float _ s | binary _ _ _ s | func _ s | call _ _ s => s

/-- The use that the expression consists of. -/
def ref? : Expr → Option DeclRef
  | ref target => some target
  | _ => none

mutual

/-- The same expression at the same places; floats are compared as numbers. -/
def same : Expr → Expr → Bool
  | .ref a, .ref b => a == b
  | .int a s, .int b t => a == b && s == t
  | .float a s, .float b t => a.sameNumber b && s == t
  | .binary o a₁ a₂ s, .binary p b₁ b₂ t => o == p && a₁.same b₁ && a₂.same b₂ && s == t
  | .func a s, .func b t => a == b && s == t
  | .call f as s, .call g bs t => f.same g && sameAll as bs && s == t
  | _, _ => false

def sameAll : List Expr → List Expr → Bool
  | [], [] => true
  | a :: as, b :: bs => a.same b && sameAll as bs
  | _, _ => false

end

end Expr

/-- Statements. -/
inductive Stmt where
  | assign (target : DeclRef) (value : Expr) (span : Span)
  /-- Evaluates the value for its effects. -/
  | drop (value : Expr) (span : Span)
  | ifElse (cond : Expr) (thenBlock : BlockId) (elseBlock : Option BlockId) (span : Span)
  | whileLoop (cond : Expr) (body : BlockId) (span : Span)

/-- The same statement at the same places; floats are compared as numbers. -/
def Stmt.same : Stmt → Stmt → Bool
  | .assign r a s, .assign q b t => r == q && a.same b && s == t
  | .drop a s, .drop b t => a.same b && s == t
  | .ifElse a x₁ x₂ s, .ifElse b y₁ y₂ t => a.same b && x₁ == y₁ && x₂ == y₂ && s == t
  | .whileLoop a x s, .whileLoop b y t => a.same b && x == y && s == t
  | _, _ => false

end BlockLowering.IR
