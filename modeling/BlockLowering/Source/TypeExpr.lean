import BlockLowering.Source.Name

/-!
# Type annotations

An annotation is a type at a place. The place may be larger than the type itself, so both carry a
span.
-/

namespace BlockLowering.Source

mutual

/-- A type at a place. -/
structure Ascription where
  type : TypeExpr
  span : Span

/-- The forms a type can take. -/
inductive TypeExpr where
  | reference (name : TypeName) (args : List Ascription) (span : Span)
  | function (params : List FunctionTypeParam) (result : Ascription) (span : Span)
  | array (element : Ascription) (span : Span)
  | union (members : List Ascription) (span : Span)

/-- A parameter of a function type; its name is optional. -/
structure FunctionTypeParam where
  name : Option Ident
  type : Ascription

end

/-- A type parameter, with an optional bound and an optional default. -/
structure TypeParameter where
  name : Ident
  bound : Option Ascription
  initial : Option Ascription
  span : Span

namespace TypeExpr

def span : TypeExpr → Span
  | reference _ _ span | function _ _ span | array _ span | union _ span => span

def isFunction : TypeExpr → Bool
  | function .. => true
  | _ => false

end TypeExpr

end BlockLowering.Source
