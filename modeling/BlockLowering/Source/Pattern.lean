import BlockLowering.Source.Name

/-!
# Binding patterns

A declaration or a parameter binds one name or takes a value apart.
-/

namespace BlockLowering.Source

mutual

/-- What a declaration or parameter binds; an array pattern may have holes. -/
inductive Pattern where
  | identifier (id : Ident)
  | array (elements : List (Option Pattern)) (span : Span)
  | object (properties : List PropertyPattern) (span : Span)

/-- One property of an object pattern. -/
structure PropertyPattern where
  key : Ident
  value : Pattern
  span : Span

end

namespace Pattern

def span : Pattern → Span
  | identifier id => id.span
  | array _ span | object _ span => span

/-- The name that a plain pattern binds. -/
def identifier? : Pattern → Option Ident
  | identifier id => some id
  | _ => none

end Pattern

end BlockLowering.Source
