import BlockLowering.Source.Traversal

/-!
# Visitors

A visitor replaces what happens at the visits of some hooks. Where it replaces nothing, the visits
directly below are made, in order; an action of its own may have them made too, or not. The visits
directly below a visit are those of the traversal that is cut at once, and every traversal is put
together from them (`Visit.below_eq_flatMap`), so visitors come to an end.
-/

namespace BlockLowering.Source

/-- The traversal is cut at every visit. -/
def nowhere (_ : Visit) : Bool := false

namespace Visit

variable (descend : Visit → Bool)

/-- The visits below a visit. A node that was reached as a member of its class, or from outside, is
next reached by its kind. -/
def below : Visit → List Visit
  | ⟨.kind _, n⟩ => n.inner descend
  | ⟨_, n⟩ => enterKind descend n (n.inner descend)

/-- The traversal from a visit on. -/
def visits (v : Visit) : List Visit := enter descend v (v.below descend)

/-- The visits directly below a visit. -/
def calls (v : Visit) : List Visit := v.below nowhere

/-! ## Traversals are put together from direct visits -/

/-- The traversals from all of the visits. -/
def visitsAll (vs : List Visit) : List Visit := vs.flatMap (visits descend)

@[simp] theorem visitsAll_nil : visitsAll descend [] = [] := rfl

@[simp] theorem visitsAll_append (l r : List Visit) :
    visitsAll descend (l ++ r) = visitsAll descend l ++ visitsAll descend r := List.flatMap_append

/-- A traversal that is cut everywhere has one visit. -/
theorem visitsAll_enter (v : Visit) (below : List Visit) :
    visitsAll descend (enter nowhere v below) = v.visits descend := by
  unfold visitsAll enter nowhere
  simp

@[simp] theorem visitsAll_enterKind (n : Node) (below : List Visit) :
    visitsAll descend (enterKind nowhere n below) = enterKind descend n (n.inner descend) :=
  visitsAll_enter descend (.byKind n) below

@[simp] theorem visitsAll_enterStatement (s : Statement) (below : List Visit) :
    visitsAll descend (enterStatement nowhere s below) =
      enterStatement descend s (s.inner descend) :=
  visitsAll_enter descend ⟨.statement, .statement s⟩ _

@[simp] theorem visitsAll_enterExpression (e : Expression) (below : List Visit) :
    visitsAll descend (enterExpression nowhere e below) =
      enterExpression descend e (e.inner descend) :=
  visitsAll_enter descend ⟨.expression, .expression e⟩ _

@[simp] theorem visitsAll_enterPattern (p : Pattern) (below : List Visit) :
    visitsAll descend (enterPattern nowhere p below) = enterPattern descend p (p.inner descend) :=
  visitsAll_enter descend ⟨.pattern, .pattern p⟩ _

@[simp] theorem visitsAll_ident (id : Ident) :
    visitsAll descend (visitIdent nowhere id) = visitIdent descend id :=
  visitsAll_enterKind descend (.ident id) []

@[simp] theorem visitsAll_string (literal : StringLiteral) :
    visitsAll descend (visitString nowhere literal) = visitString descend literal :=
  visitsAll_enterKind descend (.expression (.string literal)) []

@[simp] theorem visitsAll_ascription (a : Ascription) :
    visitsAll descend (visitAscription nowhere a) = visitAscription descend a :=
  visitsAll_enterKind descend (.ascription a) _

@[simp] theorem visitsAll_typeParameter (p : TypeParameter) :
    visitsAll descend (visitTypeParameter nowhere p) = visitTypeParameter descend p :=
  visitsAll_enterKind descend (.typeParameter p) _

@[simp] theorem visitsAll_pattern (p : Pattern) :
    visitsAll descend (visitPattern nowhere p) = visitPattern descend p :=
  visitsAll_enterPattern descend p _

/-- What holds of each member holds of a list of them. -/
theorem visitsAll_flatMap {α : Type} (f : (Visit → Bool) → α → List Visit)
    (h : ∀ x, visitsAll descend (f nowhere x) = f descend x) (l : List α) :
    visitsAll descend (l.flatMap (f nowhere)) = l.flatMap (f descend) := by
  induction l with
  | nil => rfl
  | cons x rest ih => rw [List.flatMap_cons, List.flatMap_cons, visitsAll_append, h, ih]

@[simp] theorem visitsAll_idents (l : List Ident) :
    visitsAll descend (l.flatMap (visitIdent nowhere)) = l.flatMap (visitIdent descend) :=
  visitsAll_flatMap descend visitIdent (visitsAll_ident descend) l

@[simp] theorem visitsAll_ascriptions (l : List Ascription) :
    visitsAll descend (l.flatMap (visitAscription nowhere)) =
      l.flatMap (visitAscription descend) :=
  visitsAll_flatMap descend visitAscription (visitsAll_ascription descend) l

@[simp] theorem visitsAll_typeParameters (l : List TypeParameter) :
    visitsAll descend (l.flatMap (visitTypeParameter nowhere)) =
      l.flatMap (visitTypeParameter descend) :=
  visitsAll_flatMap descend visitTypeParameter (visitsAll_typeParameter descend) l

@[simp] theorem visitsAll_patterns (l : List Pattern) :
    visitsAll descend (l.flatMap (visitPattern nowhere)) = l.flatMap (visitPattern descend) :=
  visitsAll_flatMap descend visitPattern (visitsAll_pattern descend) l

@[simp] theorem visitsAll_specifiers (l : List ImportSpecifier) :
    visitsAll descend (l.flatMap fun s =>
        visitIdent nowhere s.name ++ s.binding.toList.flatMap (visitIdent nowhere)) =
      l.flatMap fun s =>
        visitIdent descend s.name ++ s.binding.toList.flatMap (visitIdent descend) :=
  visitsAll_flatMap descend
    (fun descend s => visitIdent descend s.name ++ s.binding.toList.flatMap (visitIdent descend))
    (fun s => by simp) l

@[simp] theorem visitsAll_innerAscriptions (l : List Ascription) :
    visitsAll descend (innerAscriptions nowhere l) = innerAscriptions descend l := by
  induction l with
  | nil => rfl
  | cons a rest ih => simp [innerAscriptions, Node.inner, ih]

@[simp] theorem visitsAll_innerTypeParams (l : List FunctionTypeParam) :
    visitsAll descend (innerTypeParams nowhere l) = innerTypeParams descend l := by
  induction l with
  | nil => rfl
  | cons p rest ih =>
    cases p
    simp [innerTypeParams, Node.inner, ih]

@[simp] theorem visitsAll_innerElements (l : List (Option Pattern)) :
    visitsAll descend (innerElements nowhere l) = innerElements descend l := by
  induction l with
  | nil => rfl
  | cons p rest ih => cases p <;> simp [innerElements, ih]

@[simp] theorem visitsAll_innerProperties (l : List PropertyPattern) :
    visitsAll descend (innerProperties nowhere l) = innerProperties descend l := by
  induction l with
  | nil => rfl
  | cons p rest ih =>
    cases p
    simp [innerProperties, ih]

@[simp] theorem visitsAll_innerExpressions (l : List Expression) :
    visitsAll descend (innerExpressions nowhere l) = innerExpressions descend l := by
  induction l with
  | nil => rfl
  | cons e rest ih => simp [innerExpressions, ih]

@[simp] theorem visitsAll_innerExpression? (e : Option Expression) :
    visitsAll descend (innerExpression? nowhere e) = innerExpression? descend e := by
  cases e <;> simp [innerExpression?]

@[simp] theorem visitsAll_innerParts (l : List TemplatePart) :
    visitsAll descend (innerParts nowhere l) = innerParts descend l := by
  induction l with
  | nil => rfl
  | cons p rest ih => cases p <;> simp [innerParts, ih]

@[simp] theorem visitsAll_innerObject (l : List Property) :
    visitsAll descend (innerObject nowhere l) = innerObject descend l := by
  induction l with
  | nil => rfl
  | cons p rest ih => simp [innerObject, Node.inner, ih]

@[simp] theorem visitsAll_innerParams (l : List Parameter) :
    visitsAll descend (innerParams nowhere l) = innerParams descend l := by
  induction l with
  | nil => rfl
  | cons p rest ih => simp [innerParams, Node.inner, ih]

@[simp] theorem visitsAll_innerBlock? (group : Option Block) :
    visitsAll descend (innerBlock? nowhere group) = innerBlock? descend group := by
  cases group <;> simp [innerBlock?, Node.block, Node.inner, Statement.inner]

@[simp] theorem visitsAll_innerMembers (l : List ClassMember) :
    visitsAll descend (innerMembers nowhere l) = innerMembers descend l := by
  induction l with
  | nil => rfl
  | cons m rest ih => cases m <;> simp [innerMembers, Node.inner, Statement.inner, ih]

@[simp] theorem visitsAll_innerCases (l : List SwitchCase) :
    visitsAll descend (innerCases nowhere l) = innerCases descend l := by
  induction l with
  | nil => rfl
  | cons c rest ih => simp [innerCases, Node.inner, ih]

@[simp] theorem visitsAll_innerHandler? (handler : Option CatchClause) :
    visitsAll descend (innerHandler? nowhere handler) = innerHandler? descend handler := by
  cases handler <;> simp [innerHandler?, Node.inner]

@[simp] theorem visitsAll_innerInit? (init : Option ForInit) :
    visitsAll descend (innerInit? nowhere init) = innerInit? descend init := by
  rcases init with _ | decl | e <;> simp [innerInit?, Node.inner, Statement.inner]

@[simp] theorem visitsAll_innerStatements (l : List Statement) :
    visitsAll descend (innerStatements nowhere l) = innerStatements descend l := by
  induction l with
  | nil => rfl
  | cons s rest ih => simp [innerStatements, ih]

@[simp] theorem visitsAll_innerStatement? (s : Option Statement) :
    visitsAll descend (innerStatement? nowhere s) = innerStatement? descend s := by
  cases s <;> simp [innerStatement?]

theorem visitsAll_typeExpr (t : TypeExpr) :
    visitsAll descend (t.inner nowhere) = t.inner descend := by
  cases t <;> simp [TypeExpr.inner, Node.inner]

theorem visitsAll_expression (e : Expression) :
    visitsAll descend (e.inner nowhere) = e.inner descend := by
  cases e <;> simp [Expression.inner, Node.block, Node.inner, Statement.inner]

@[simp] theorem visitsAll_variableDecl (d : VariableDecl) :
    visitsAll descend (d.inner nowhere) = d.inner descend := by
  cases d
  simp [VariableDecl.inner]

@[simp] theorem visitsAll_functionDecl (d : FunctionDecl) :
    visitsAll descend (d.inner nowhere) = d.inner descend := by
  cases d
  simp [FunctionDecl.inner, Node.block, Node.inner, Statement.inner]

@[simp] theorem visitsAll_group (group : Block) :
    visitsAll descend (group.inner nowhere) = group.inner descend := by
  cases group
  simp [Block.inner]

theorem visitsAll_statement (s : Statement) :
    visitsAll descend (s.inner nowhere) = s.inner descend := by
  cases s <;> simp [Statement.inner, Node.inner, Node.block]

/-- The visits below a node are those of the traversals from the visits directly below it. -/
theorem visitsAll_inner (n : Node) : visitsAll descend (n.inner nowhere) = n.inner descend := by
  cases n with
  | module m => simp [Node.inner]
  | statement s => exact visitsAll_statement descend s
  | expression e => exact visitsAll_expression descend e
  | pattern p => cases p <;> simp [Node.inner, Pattern.inner]
  | ascription a => cases a; simp [Node.inner, Ascription.inner]
  | typeExpr t => exact visitsAll_typeExpr descend t
  | typeName t => cases t <;> simp [Node.inner, TypeName.inner]
  | typeParameter p => simp [Node.inner, TypeParameter.inner]
  | parameter p => cases p; simp [Node.inner, Parameter.inner]
  | fieldDecl d => cases d; simp [Node.inner, FieldDecl.inner]
  | switchCase c => cases c; simp [Node.inner, SwitchCase.inner]
  | catchClause c => cases c; simp [Node.inner, CatchClause.inner, Node.block, Statement.inner]
  | property p =>
    obtain ⟨key, value, span⟩ := p
    cases key <;> simp [Node.inner, Property.inner, PropertyKey.inner]

theorem below_eq_flatMap (v : Visit) : v.below descend = v.calls.flatMap (visits descend) := by
  obtain ⟨hook, n⟩ := v
  cases hook with
  | kind k => exact (visitsAll_inner descend n).symm
  | node | statement | expression | pattern =>
    exact (visitsAll_enterKind descend n (n.inner nowhere)).symm

/-- The number of visits of the whole traversal from a visit on. -/
def size (v : Visit) : Nat := (v.visits fun _ => true).length

theorem size_lt_of_mem_calls {u v : Visit} (h : u ∈ v.calls) : u.size < v.size := by
  obtain ⟨l, r, hsplit⟩ := List.append_of_mem h
  have hbelow : v.size = (v.below fun _ => true).length + 1 := rfl
  rw [hbelow, below_eq_flatMap, hsplit, List.flatMap_append, List.flatMap_cons,
    List.length_append, List.length_append]
  show (u.visits _).length < _
  omega

end Visit

/-! ## Visitors -/

/-- What is done at the visits of a hook instead of making the visits directly below; the second
argument makes them. -/
structure Visitor (σ : Type) where
  override? : Hook → Option (Visit → (σ → σ) → σ → σ)

namespace Visitor

variable {σ : Type}

/-- The state after a visit. -/
def visit (V : Visitor σ) (v : Visit) (s : σ) : σ :=
  let walk (s : σ) : σ := v.calls.attach.foldl (fun s u => V.visit u.1 s) s
  match V.override? v.hook with
  | some act => act v walk s
  | none => walk s
termination_by v.size
decreasing_by exact Visit.size_lt_of_mem_calls u.2

/-- The state after the visits directly below a visit. -/
def walk (V : Visitor σ) (v : Visit) (s : σ) : σ := v.calls.foldl (fun s u => V.visit u s) s

theorem visit_eq (V : Visitor σ) (v : Visit) (s : σ) :
    V.visit v s =
      match V.override? v.hook with
      | some act => act v (V.walk v) s
      | none => V.walk v s := by
  have hwalk : ∀ s, v.calls.attach.foldl (fun s u => V.visit u.1 s) s = V.walk v s := by
    intro s
    unfold walk
    exact List.foldl_attach (f := fun s u => V.visit u s)
  rw [visit]
  cases V.override? v.hook with
  | some act => exact congrArg (fun walk => act v walk s) (funext hwalk)
  | none => exact hwalk s

/-- Overrides the hooks that are `logged`: a visit is written down, and the visits below it are made
unless the hook is one of the `cut`. -/
def logging (logged cut : Hook → Bool) : Visitor (List Visit) where
  override? hook :=
    if logged hook then
      some fun v walk log => if cut hook then log ++ [v] else walk (log ++ [v])
    else
      none

/-- What the visitor has written down after a node is entered from outside. -/
def log (logged cut : Hook → Bool) (n : Node) : List Visit :=
  (logging logged cut).visit ⟨.node, n⟩ []

end Visitor

end BlockLowering.Source
