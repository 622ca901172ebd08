import BlockLowering.Span

/-!
# Type scopes

A type scope is an ordered list of named types. A type is addressed by its scope and its position
there; of several types with one name the first is found.
-/

namespace BlockLowering.IR

structure TypeScopeId where
  index : Nat
deriving DecidableEq, Repr, Inhabited

/-- The address of a type. -/
structure TypeDeclId where
  scope : TypeScopeId
  index : Nat
deriving DecidableEq, Repr

structure TypeDecl where
  name : String
  span : Span
deriving DecidableEq, Repr

/-- A use of a type at a place. -/
structure TypeRef where
  decl : TypeDeclId
  span : Span
deriving DecidableEq, Repr

structure TypeScope where
  id : TypeScopeId
  decls : List TypeDecl
deriving DecidableEq, Repr

namespace TypeScope

/-- Append a type; a repeated name is kept. -/
def register (s : TypeScope) (name : String) (span : Span) : TypeScope × TypeDeclId :=
  ({ s with decls := s.decls ++ [⟨name, span⟩] }, ⟨s.id, s.decls.length⟩)

/-- The scope that holds `names` in this order, without a place in any source. -/
def ofBuiltins (id : TypeScopeId) (names : List String) : TypeScope :=
  ⟨id, names.map fun name => ⟨name, Span.synthetic⟩⟩

/-- The first type with this name. -/
def find? (s : TypeScope) (name : String) : Option TypeDeclId :=
  (s.decls.findIdx? fun d => d.name == name).map fun index => ⟨s.id, index⟩

def get? (s : TypeScope) (index : Nat) : Option TypeDecl := s.decls[index]?

def size (s : TypeScope) : Nat := s.decls.length

end TypeScope

/-- The builtin types that are known unless options say otherwise. -/
def builtinTypes : List String := ["i32", "i64", "f32", "f64"]

end BlockLowering.IR
