import BlockLowering.Span
import BlockLowering.SymbolTable

/-!
# Names in source trees

Trees hold symbols instead of texts; a symbol table turns them back into names.
-/

namespace BlockLowering.Source

/-- An identifier at a place. -/
structure Ident where
  name : Symbol
  span : Span
deriving DecidableEq, Repr, Inhabited

/-- A string literal; its text is interned like a name. -/
structure StringLiteral where
  value : Symbol
  span : Span
deriving DecidableEq, Repr, Inhabited

/-- A possibly qualified type name, from its first segment on. -/
inductive TypeName where
  | simple (head : Ident) (span : Span)
  | qualified (head : Ident) (rest : TypeName) (span : Span)
deriving DecidableEq, Repr

namespace TypeName

def head : TypeName → Ident
  | simple head _ | qualified head _ _ => head

def span : TypeName → Span
  | simple _ span | qualified _ _ span => span

def isQualified : TypeName → Bool
  | simple .. => false
  | qualified .. => true

end TypeName

end BlockLowering.Source
