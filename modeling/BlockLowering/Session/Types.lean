import BlockLowering.Session.State
import BlockLowering.Source.Node

/-!
# Annotations

Only plain names are resolved: an annotation is a single segment without arguments, looked up in the
type scopes in force, innermost first.
-/

namespace BlockLowering

open IR Diagnostic Source

namespace Session

/-- The type with this name in the innermost scope that has one. -/
def findType? (s : Session) (name : String) : Option TypeDeclId :=
  s.typeScopes.findSome? fun id => (s.arena.typeScope? id).bind fun scope => scope.find? name

/-- The type that an annotation means. -/
def resolveType (names : SymbolTable) (s : Session) : Ascription → Except Problem TypeRef
  | ⟨.reference name args span, place⟩ =>
    if name.isQualified then
      .error (.unsupported "qualified type name" name.span)
    else if !args.isEmpty then
      .error (.unsupported "type arguments" span)
    else
      let text := names.resolve name.head.name
      match s.findType? text with
      | some decl => .ok ⟨decl, place⟩
      | none => .error (.nameNotFound text name.span)
  | ⟨type, place⟩ => .error (.unsupported type.kind.description place)

end Session

namespace Lower

/-- The type of a declaration; an annotation that means nothing is reported and leaves the
declaration without a type. -/
def ascription? (names : SymbolTable) : Option Ascription → Lower (Option TypeRef)
  | none => return none
  | some a => do
    match (← get).resolveType names a with
    | .ok type => return some type
    | .error problem =>
      report problem
      return none

end Lower

end BlockLowering
