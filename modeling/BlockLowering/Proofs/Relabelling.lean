import BlockLowering.Proofs.Blanking

/-!
# Relabelling

A relabelling gives the symbols of a tree other numbers, its nodes other places and the names of a
program other texts. It acts on source trees and on everything that a session holds. The numbers of
blocks and declarations stay, and so do the names of temporaries, which are no names of the program.
What lowering computes from a tree, the place of a list or the declaration that a name means, is
relabelled with the tree.
-/

namespace BlockLowering

open IR Diagnostic Source

/-- Other numbers for symbols and other places. -/
structure Labels where
  symbol : Symbol → Symbol
  span : Span → Span

/-- Other numbers for symbols, other places and other texts. Places are joined as before, and texts
that differ stay different. -/
structure Relabel extends Labels where
  text : String → String
  span_synthetic : span .synthetic = .synthetic
  span_merge : ∀ s t, span (s.merge t) = (span s).merge (span t)
  text_injective : Function.Injective text

instance : Coe Relabel Labels := ⟨Relabel.toLabels⟩

namespace Relabel

variable (f : Relabel)

@[simp] theorem text_beq (a b : String) : (f.text a == f.text b) = (a == b) := by
  rw [Bool.eq_iff_iff, beq_iff_eq, beq_iff_eq]
  exact ⟨fun h => f.text_injective h, congrArg f.text⟩

theorem span_hull (first : Span) (rest : List Span) :
    f.span (Span.hull first rest) = Span.hull (f.span first) (rest.map f.span) := by
  unfold Span.hull
  induction rest generalizing first with
  | nil => rfl
  | cons s rest ih =>
    rw [List.map_cons, List.foldl_cons, List.foldl_cons, ih, f.span_merge]

end Relabel

/-! ## Relabelled trees -/

namespace Source

variable (f : Labels)

def Ident.relabel (id : Ident) : Ident := ⟨f.symbol id.name, f.span id.span⟩

def StringLiteral.relabel (literal : StringLiteral) : StringLiteral :=
  ⟨f.symbol literal.value, f.span literal.span⟩

def TypeName.relabel : TypeName → TypeName
  | .simple head span => .simple (head.relabel f) (f.span span)
  | .qualified head rest span => .qualified (head.relabel f) rest.relabel (f.span span)

def ImportSpecifier.relabel (s : ImportSpecifier) : ImportSpecifier :=
  ⟨s.name.relabel f, s.binding.map (Ident.relabel f)⟩

mutual

def Ascription.relabel : Ascription → Ascription
  | ⟨type, span⟩ => ⟨type.relabel, f.span span⟩

def TypeExpr.relabel : TypeExpr → TypeExpr
  | .reference name args span => .reference (name.relabel f) (relabelAscriptions args) (f.span span)
  | .function params result span =>
    .function (relabelTypeParams params) result.relabel (f.span span)
  | .array element span => .array element.relabel (f.span span)
  | .union members span => .union (relabelAscriptions members) (f.span span)

def relabelAscriptions : List Ascription → List Ascription
  | [] => []
  | a :: rest => a.relabel :: relabelAscriptions rest

def relabelTypeParams : List FunctionTypeParam → List FunctionTypeParam
  | [] => []
  | ⟨name, type⟩ :: rest => ⟨name.map (Ident.relabel f), type.relabel⟩ :: relabelTypeParams rest

end

def TypeParameter.relabel (p : TypeParameter) : TypeParameter :=
  ⟨p.name.relabel f, p.bound.map (Ascription.relabel f), p.initial.map (Ascription.relabel f),
    f.span p.span⟩

mutual

def Pattern.relabel : Pattern → Pattern
  | .identifier id => .identifier (id.relabel f)
  | .array elements span => .array (relabelElements elements) (f.span span)
  | .object properties span => .object (relabelPropertyPatterns properties) (f.span span)

def relabelElements : List (Option Pattern) → List (Option Pattern)
  | [] => []
  | none :: rest => none :: relabelElements rest
  | some p :: rest => some p.relabel :: relabelElements rest

def relabelPropertyPatterns : List PropertyPattern → List PropertyPattern
  | [] => []
  | ⟨key, value, span⟩ :: rest =>
    ⟨key.relabel f, value.relabel, f.span span⟩ :: relabelPropertyPatterns rest

end

mutual

def Expression.relabel : Expression → Expression
  | .int value span => .int value (f.span span)
  | .float value span => .float value (f.span span)
  | .string literal => .string (literal.relabel f)
  | .template tag parts span =>
    .template (relabelExpression? tag) (relabelParts parts) (f.span span)
  | .boolean value span => .boolean value (f.span span)
  | .null span => .null (f.span span)
  | .this span => .this (f.span span)
  | .super span => .super (f.span span)
  | .identifier id => .identifier (id.relabel f)
  | .array elements span => .array (relabelExpressions elements) (f.span span)
  | .object properties span => .object (relabelObject properties) (f.span span)
  | .unary operator operand span => .unary operator operand.relabel (f.span span)
  | .binary operator left right span =>
    .binary operator left.relabel right.relabel (f.span span)
  | .logical operator left right span =>
    .logical operator left.relabel right.relabel (f.span span)
  | .assignment operator left right span =>
    .assignment operator left.relabel right.relabel (f.span span)
  | .conditional test consequent alternate span =>
    .conditional test.relabel consequent.relabel alternate.relabel (f.span span)
  | .call callee typeArgs args span =>
    .call callee.relabel (relabelAscriptions f typeArgs) (relabelExpressions args) (f.span span)
  | .member object property span => .member object.relabel (property.relabel f) (f.span span)
  | .index object position span => .index object.relabel position.relabel (f.span span)
  | .new callee typeArgs args span =>
    .new callee.relabel (relabelAscriptions f typeArgs) (relabelExpressions args) (f.span span)
  | .function name typeParams params result body span =>
    .function (name.map (Ident.relabel f)) (typeParams.map (TypeParameter.relabel f))
      (relabelParams params) (result.map (Ascription.relabel f)) body.relabel (f.span span)
  | .parenthesized inner span => .parenthesized inner.relabel (f.span span)
  | .comma items span => .comma (relabelExpressions items) (f.span span)
  | .instanceOf object type span => .instanceOf object.relabel (type.relabel f) (f.span span)
  | .typeCast object type span => .typeCast object.relabel (type.relabel f) (f.span span)

def relabelExpressions : List Expression → List Expression
  | [] => []
  | e :: rest => e.relabel :: relabelExpressions rest

def relabelExpression? : Option Expression → Option Expression
  | none => none
  | some e => some e.relabel

def relabelParts : List TemplatePart → List TemplatePart
  | [] => []
  | .text value :: rest => .text (f.symbol value) :: relabelParts rest
  | .expression e :: rest => .expression e.relabel :: relabelParts rest

def Property.relabel : Property → Property
  | ⟨key, value, span⟩ => ⟨key.relabel, value.relabel, f.span span⟩

def PropertyKey.relabel : PropertyKey → PropertyKey
  | .identifier id => .identifier (id.relabel f)
  | .string literal => .string (literal.relabel f)
  | .computed e => .computed e.relabel

def relabelObject : List Property → List Property
  | [] => []
  | p :: rest => p.relabel :: relabelObject rest

def Parameter.relabel : Parameter → Parameter
  | ⟨kind, pattern, type, initial, span⟩ =>
    ⟨kind, pattern.relabel f, type.map (Ascription.relabel f), relabelExpression? initial,
      f.span span⟩

def relabelParams : List Parameter → List Parameter
  | [] => []
  | p :: rest => p.relabel :: relabelParams rest

def Block.relabel : Block → Block
  | ⟨statements, span⟩ => ⟨relabelStatements statements, f.span span⟩

def relabelBlock? : Option Block → Option Block
  | none => none
  | some group => some group.relabel

def VariableDecl.relabel : VariableDecl → VariableDecl
  | ⟨kind, pattern, type, initial, span⟩ =>
    ⟨kind, pattern.relabel f, type.map (Ascription.relabel f), relabelExpression? initial,
      f.span span⟩

def FunctionDecl.relabel : FunctionDecl → FunctionDecl
  | ⟨name, typeParams, params, result, body, span⟩ =>
    ⟨name.relabel f, typeParams.map (TypeParameter.relabel f), relabelParams params,
      result.map (Ascription.relabel f), body.relabel, f.span span⟩

def FieldDecl.relabel : FieldDecl → FieldDecl
  | ⟨name, type, initial, span⟩ =>
    ⟨name.relabel f, type.map (Ascription.relabel f), relabelExpression? initial, f.span span⟩

def relabelMembers : List ClassMember → List ClassMember
  | [] => []
  | .field decl :: rest => .field decl.relabel :: relabelMembers rest
  | .method decl :: rest => .method decl.relabel :: relabelMembers rest

def SwitchCase.relabel : SwitchCase → SwitchCase
  | ⟨test, consequent, span⟩ =>
    ⟨relabelExpression? test, relabelStatements consequent, f.span span⟩

def relabelCases : List SwitchCase → List SwitchCase
  | [] => []
  | c :: rest => c.relabel :: relabelCases rest

def CatchClause.relabel : CatchClause → CatchClause
  | ⟨param, body, span⟩ => ⟨param.map (Pattern.relabel f), body.relabel, f.span span⟩

def relabelHandler? : Option CatchClause → Option CatchClause
  | none => none
  | some handler => some handler.relabel

def relabelInit? : Option ForInit → Option ForInit
  | none => none
  | some (.variableDecl decl) => some (.variableDecl decl.relabel)
  | some (.expression e) => some (.expression e.relabel)

def Statement.relabel : Statement → Statement
  | .variableDecl decl => .variableDecl decl.relabel
  | .functionDecl decl => .functionDecl decl.relabel
  | .namespaceDecl name members span =>
    .namespaceDecl (name.relabel f) (relabelStatements members) (f.span span)
  | .classDecl name typeParams base members span =>
    .classDecl (name.relabel f) (typeParams.map (TypeParameter.relabel f))
      (base.map (Ascription.relabel f)) (relabelMembers members) (f.span span)
  | .typeAlias name typeParams type span =>
    .typeAlias (name.relabel f) (typeParams.map (TypeParameter.relabel f)) (type.relabel f)
      (f.span span)
  | .importDecl specifiers source span =>
    .importDecl (specifiers.map (ImportSpecifier.relabel f)) (source.relabel f) (f.span span)
  | .exportDecl declaration span => .exportDecl declaration.relabel (f.span span)
  | .expression value span => .expression value.relabel (f.span span)
  | .ifElse condition thenBranch elseBranch span =>
    .ifElse condition.relabel thenBranch.relabel (relabelStatement? elseBranch) (f.span span)
  | .switch discriminant cases span =>
    .switch discriminant.relabel (relabelCases cases) (f.span span)
  | .whileLoop condition body span => .whileLoop condition.relabel body.relabel (f.span span)
  | .doWhile body condition span => .doWhile body.relabel condition.relabel (f.span span)
  | .forLoop init test update body span =>
    .forLoop (relabelInit? init) (relabelExpression? test) (relabelExpression? update) body.relabel
      (f.span span)
  | .forOf binding iterable body span =>
    .forOf binding.relabel iterable.relabel body.relabel (f.span span)
  | .breakTo label span => .breakTo (label.map (Ident.relabel f)) (f.span span)
  | .continueTo label span => .continueTo (label.map (Ident.relabel f)) (f.span span)
  | .returnValue value span => .returnValue (relabelExpression? value) (f.span span)
  | .throwValue value span => .throwValue value.relabel (f.span span)
  | .tryCatch body handler finalizer span =>
    .tryCatch body.relabel (relabelHandler? handler) (relabelBlock? finalizer) (f.span span)
  | .block group => .block group.relabel
  | .empty span => .empty (f.span span)

def relabelStatements : List Statement → List Statement
  | [] => []
  | s :: rest => s.relabel :: relabelStatements rest

def relabelStatement? : Option Statement → Option Statement
  | none => none
  | some s => some s.relabel

end

def Module.relabel (m : Module) : Module := ⟨relabelStatements f m.statements, f.span m.span⟩

/-! ## What lowering reads of a tree -/

variable {f}

@[simp] theorem TypeName.span_relabel (name : TypeName) :
    (name.relabel f).span = f.span name.span := by
  cases name <;> rfl

@[simp] theorem TypeName.head_relabel (name : TypeName) :
    (name.relabel f).head = name.head.relabel f := by
  cases name <;> rfl

@[simp] theorem TypeName.isQualified_relabel (name : TypeName) :
    (name.relabel f).isQualified = name.isQualified := by
  cases name <;> rfl

@[simp] theorem Ascription.span_relabel (a : Ascription) :
    (a.relabel f).span = f.span a.span := by
  obtain ⟨type, span⟩ := a
  simp only [Ascription.relabel]

theorem relabelAscriptions_eq (as : List Ascription) :
    relabelAscriptions f as = as.map (Ascription.relabel f) := by
  induction as with
  | nil => simp only [relabelAscriptions, List.map_nil]
  | cons a rest ih => simp only [relabelAscriptions, List.map_cons, ih]

@[simp] theorem Expression.span_relabel (e : Expression) :
    (e.relabel f).span = f.span e.span := by
  cases e <;> simp only [Expression.relabel, Expression.span, Ident.relabel, StringLiteral.relabel]

@[simp] theorem Expression.kind_relabel (e : Expression) : (e.relabel f).kind = e.kind := by
  cases e <;> simp only [Expression.relabel, Expression.kind]

@[simp] theorem Block.span_relabel (b : Block) : (b.relabel f).span = f.span b.span := by
  obtain ⟨statements, span⟩ := b
  simp only [Block.relabel]

@[simp] theorem Statement.span_relabel (s : Statement) : (s.relabel f).span = f.span s.span := by
  cases s with
  | variableDecl decl =>
    obtain ⟨kind, pattern, type, initial, span⟩ := decl
    simp only [Statement.relabel, VariableDecl.relabel, Statement.span]
  | functionDecl decl =>
    obtain ⟨name, typeParams, params, result, body, span⟩ := decl
    simp only [Statement.relabel, FunctionDecl.relabel, Statement.span]
  | block group => simp only [Statement.relabel, Statement.span, Block.span_relabel]
  | _ => simp only [Statement.relabel, Statement.span]

theorem Module.functionNames_relabel (m : Module) :
    (m.relabel f).functionNames = m.functionNames.map (Ident.relabel f) := by
  obtain ⟨statements, span⟩ := m
  unfold Module.functionNames Module.relabel
  dsimp only
  induction statements with
  | nil => simp only [relabelStatements, List.filterMap_nil, List.map_nil]
  | cons s rest ih =>
    cases s with
    | functionDecl decl =>
      obtain ⟨name, typeParams, params, result, body, span⟩ := decl
      simp only [relabelStatements, Statement.relabel, FunctionDecl.relabel, List.filterMap_cons,
        List.map_cons, ih]
    | _ => simp only [relabelStatements, Statement.relabel, List.filterMap_cons, ih]

theorem ascriptionsSpan?_relabel (f : Relabel) (as : List Ascription) :
    ascriptionsSpan? (relabelAscriptions f as) = (ascriptionsSpan? as).map f.span := by
  rw [relabelAscriptions_eq]
  cases as with
  | nil => rfl
  | cons a rest => simp [ascriptionsSpan?, f.span_hull, Function.comp_def]

theorem typeParamsSpan?_relabel (f : Relabel) (ps : List TypeParameter) :
    typeParamsSpan? (ps.map (TypeParameter.relabel f)) = (typeParamsSpan? ps).map f.span := by
  cases ps with
  | nil => rfl
  | cons p rest => simp [typeParamsSpan?, f.span_hull, Function.comp_def, TypeParameter.relabel]

end Source

/-! ## Relabelled sessions -/

namespace IR

variable (f : Relabel)

def DeclRef.relabel (r : DeclRef) : DeclRef := ⟨r.decl, f.span r.span⟩

mutual

def Expr.relabel : Expr → Expr
  | .ref target => .ref (target.relabel f)
  | .int value span => .int value (f.span span)
  | .float value span => .float value (f.span span)
  | .binary op lhs rhs span => .binary op lhs.relabel rhs.relabel (f.span span)
  | .func body span => .func body (f.span span)
  | .call callee args span => .call callee.relabel (relabelExprs args) (f.span span)

def relabelExprs : List Expr → List Expr
  | [] => []
  | e :: rest => e.relabel :: relabelExprs rest

end

def Stmt.relabel : Stmt → Stmt
  | .assign target value span => .assign (target.relabel f) (value.relabel f) (f.span span)
  | .drop value span => .drop (value.relabel f) (f.span span)
  | .ifElse cond thenBlock elseBlock span =>
    .ifElse (cond.relabel f) thenBlock elseBlock (f.span span)
  | .whileLoop cond body span => .whileLoop (cond.relabel f) body (f.span span)

def Block.relabel (b : Block) : Block :=
  { b with stmts := b.stmts.map (Stmt.relabel f), span := f.span b.span }

def TypeRef.relabel (t : TypeRef) : TypeRef := ⟨t.decl, f.span t.span⟩

def TypeDecl.relabel (t : TypeDecl) : TypeDecl := ⟨f.text t.name, f.span t.span⟩

def TypeScope.relabel (s : TypeScope) : TypeScope := ⟨s.id, s.decls.map (TypeDecl.relabel f)⟩

/-- A temporary keeps its name. -/
def Decl.relabel (d : Decl) : Decl :=
  { d with
    name := if d.isTemporary then d.name else f.text d.name
    type := d.type.map (TypeRef.relabel f)
    span := f.span d.span }

def Arena.relabel (a : Arena) : Arena :=
  ⟨a.blocks.map (Block.relabel f), a.decls.map (Decl.relabel f),
    a.typeScopes.map (TypeScope.relabel f)⟩

end IR

namespace Diagnostic

variable (f : Relabel)

/-- The argument of a name that was not found is a name of the program. -/
def Record.relabel (r : Record) : Record :=
  ⟨r.code, r.span.map f.span, if r.code = .nameNotFound then r.args.map f.text else r.args⟩

def Problem.relabel : Problem → Problem
  | .unsupported construct span => .unsupported construct (f.span span)
  | .nameNotFound name span => .nameNotFound (f.text name) (f.span span)

def Log.relabel (log : Log) : Log := ⟨log.records.map (Record.relabel f)⟩

@[simp] theorem Problem.record_relabel (p : Problem) :
    (p.relabel f).record = p.record.relabel f := by
  cases p <;> rfl

end Diagnostic

def Options.relabel (f : Relabel) (options : Options) : Options :=
  { options with builtinTypes := options.builtinTypes.map f.text }

def Session.relabel (f : Relabel) (s : Session) : Session :=
  { s with
    options := s.options.relabel f
    arena := s.arena.relabel f
    log := s.log.relabel f }

/-! ## What lowering reads of a session -/

/-- A member of a list is changed before or after all are mapped. -/
theorem map_modify {α β : Type} {r : α → β} {g : α → α} {g' : β → β} {l : List α} {i : Nat}
    (h : ∀ x, l[i]? = some x → r (g x) = g' (r x)) :
    (l.modify i g).map r = (l.map r).modify i g' := by
  apply List.ext_getElem?
  intro j
  rw [List.getElem?_map, List.getElem?_modify, List.getElem?_modify, List.getElem?_map]
  by_cases hij : i = j
  · subst hij
    cases hx : l[i]? with
    | none => rfl
    | some x => simp [h x hx]
  · simp [hij]

namespace IR

variable {f : Relabel}

theorem Decl.name_relabel {d : Decl} (h : d.isTemporary = false) :
    (d.relabel f).name = f.text d.name := by
  unfold Decl.relabel
  rw [h]
  rfl

/-- Temporaries are not found by their names, so it does not matter that they keep them. -/
theorem Decl.isCalled_relabel (name : String) (d : Decl) :
    Decl.isCalled (f.text name) (d.relabel f) = Decl.isCalled name d := by
  show (!d.isTemporary && (d.relabel f).name == f.text name) = (!d.isTemporary && d.name == name)
  cases hd : d.isTemporary with
  | true => rfl
  | false => rw [Decl.name_relabel hd, f.text_beq]

/-- A placeholder is no temporary, so its name is relabelled. -/
theorem Decl.isFree_relabel (name : String) (d : Decl) :
    Decl.isFree (f.text name) (d.relabel f) = Decl.isFree name d := by
  show ((d.relabel f).name == f.text name && d.kind == .placeholder none) =
    (d.name == name && d.kind == .placeholder none)
  cases hd : d.isTemporary with
  | false => rw [Decl.name_relabel hd, f.text_beq]
  | true =>
    have hkind : d.kind = .temporary := by simpa [Decl.isTemporary] using hd
    rw [hkind]
    show (_ && false) = (_ && false)
    rw [Bool.and_false, Bool.and_false]

theorem TypeScope.find?_relabel (s : TypeScope) (name : String) :
    (s.relabel f).find? (f.text name) = s.find? name := by
  unfold TypeScope.find? TypeScope.relabel
  simp only [List.findIdx?_map, Function.comp_def, TypeDecl.relabel, Relabel.text_beq]

theorem TypeScope.ofBuiltins_relabel (id : TypeScopeId) (names : List String) :
    (TypeScope.ofBuiltins id names).relabel f = .ofBuiltins id (names.map f.text) := by
  unfold TypeScope.ofBuiltins TypeScope.relabel
  simp [TypeDecl.relabel, Function.comp_def, f.span_synthetic]

namespace Arena

variable (a : Arena)

theorem block?_relabel (b : BlockId) :
    (a.relabel f).block? b = (a.block? b).map (Block.relabel f) := List.getElem?_map

theorem block?_relabel_some {a : Arena} {b : BlockId} {x : Block} (h : a.block? b = some x) :
    (a.relabel f).block? b = some (x.relabel f) := by
  rw [block?_relabel, h]
  rfl

theorem decl?_relabel (d : DeclId) : (a.relabel f).decl? d = (a.decl? d).map (Decl.relabel f) :=
  List.getElem?_map

theorem typeScope?_relabel (id : TypeScopeId) :
    (a.relabel f).typeScope? id = (a.typeScope? id).map (TypeScope.relabel f) := List.getElem?_map

theorem length_blocks_relabel : (a.relabel f).blocks.length = a.blocks.length := List.length_map _

theorem length_decls_relabel : (a.relabel f).decls.length = a.decls.length := List.length_map _

theorem parent?_relabel (b : BlockId) : (a.relabel f).parent? b = a.parent? b := by
  unfold Arena.parent?
  rw [block?_relabel]
  cases a.block? b <;> rfl

theorem block_relabel (b : BlockId) :
    (a.relabel f).block b = (a.block b).map (Block.relabel f) := by
  unfold Arena.block
  rw [block?_relabel, length_blocks_relabel]
  cases a.block? b <;> rfl

theorem decl_relabel (d : DeclId) : (a.relabel f).decl d = (a.decl d).map (Decl.relabel f) := by
  unfold Arena.decl
  rw [decl?_relabel, length_decls_relabel]
  cases a.decl? d <;> rfl

/-- The same is found, and the same is refused. -/
theorem search_relabel {p q : Decl → Bool} (h : ∀ d : Decl, q (d.relabel f) = p d)
    (ids : List DeclId) : (a.relabel f).search q ids = a.search p ids := by
  induction ids with
  | nil => rfl
  | cons id rest ih =>
    unfold Arena.search
    rw [decl_relabel, ih]
    cases a.decl id with
    | error reason => rfl
    | ok d =>
      show (if q (d.relabel f) = true then _ else _) = _
      rw [h]

theorem ancestors_relabel (b : BlockId) : (a.relabel f).ancestors b = a.ancestors b := by
  unfold Arena.ancestors
  rw [length_blocks_relabel]
  generalize a.blocks.length + 1 = n
  induction n generalizing b with
  | zero => rfl
  | succ n ih =>
    rw [Arena.chain_succ, Arena.chain_succ, parent?_relabel]
    cases a.parent? b with
    | none => rfl
    | some parent => exact congrArg (b :: ·) (ih parent)

theorem listedFrom_relabel (b : BlockId) : (a.relabel f).listedFrom b = a.listedFrom b := by
  have hdecls : (fun c => (((a.relabel f).block? c).map Block.decls).getD []) =
      fun c => ((a.block? c).map Block.decls).getD [] := by
    funext c
    rw [block?_relabel]
    cases a.block? c <;> rfl
  unfold Arena.listedFrom
  rw [ancestors_relabel, hdecls]

/-- A relabelled name is looked up with the same result and the same refusals. -/
theorem searchFrom_relabel (b : BlockId) (name : String) :
    (a.relabel f).search (Decl.isCalled (f.text name)) ((a.relabel f).listedFrom b) =
      a.search (Decl.isCalled name) (a.listedFrom b) := by
  rw [listedFrom_relabel]
  exact a.search_relabel (Decl.isCalled_relabel name) _

theorem isFree_relabel (name : String) : (a.relabel f).isFree (f.text name) = a.isFree name := by
  funext d
  unfold Arena.isFree
  rw [decl?_relabel]
  cases a.decl? d with
  | none => rfl
  | some x => exact x.isFree_relabel name

theorem declsAround_relabel (b : BlockId) : (a.relabel f).declsAround b = a.declsAround b := by
  unfold Arena.declsAround
  rw [parent?_relabel]
  cases a.parent? b with
  | none => rfl
  | some c =>
    simp only [Option.bind_some, block?_relabel]
    cases a.block? c <;> rfl

theorem refusedAround_relabel (b : BlockId) (name : String) :
    Lower.refusedAround (a.relabel f) b (f.text name) = Lower.refusedAround a b name := by
  unfold Lower.refusedAround
  rw [block_relabel]
  cases a.block b with
  | error reason => rfl
  | ok body =>
    obtain ⟨id, parent, decls, children, stmts, span, isSealed⟩ := body
    cases parent with
    | none => rfl
    | some unit =>
      simp only [Except.map, Block.relabel, Option.map_some, block_relabel]
      cases a.block unit with
      | error reason => rfl
      | ok around => exact congrArg Prod.snd (a.search_relabel (Decl.isFree_relabel name) _)

theorem relabel_updateBlock (b : BlockId) {g g' : Block → Block}
    (h : ∀ x, (g x).relabel f = g' (x.relabel f)) :
    (a.updateBlock b g).relabel f = (a.relabel f).updateBlock b g' :=
  congrArg (fun blocks => { a.relabel f with blocks }) (map_modify fun x _ => h x)

theorem relabel_withLink (p target : DeclId) {x : Decl} (hx : a.decl? p = some x)
    (hfree : x.kind = .placeholder none) :
    (a.withLink p target).relabel f = (a.relabel f).withLink p target := by
  refine congrArg (fun decls => { a.relabel f with decls }) (map_modify fun y hy => ?_)
  obtain rfl : x = y := Option.some.inj (hx.symm.trans hy)
  unfold Decl.relabel Decl.isTemporary
  rw [hfree]
  rfl

theorem relabel_allocBlock (parent : Option BlockId) (span : Span) :
    (a.relabel f).allocBlock parent (f.span span) =
      ((a.allocBlock parent span).1.relabel f, (a.allocBlock parent span).2) := by
  unfold Arena.allocBlock Arena.relabel
  simp [Block.fresh, Block.relabel]

theorem relabel_withStmt (b : BlockId) (stmt : Stmt) :
    (a.withStmt b stmt).relabel f = (a.relabel f).withStmt b (stmt.relabel f) :=
  relabel_updateBlock a b fun x => by simp [Block.relabel]

theorem relabel_withSealed (b : BlockId) :
    (a.withSealed b).relabel f = (a.relabel f).withSealed b :=
  relabel_updateBlock a b fun _ => rfl

/-- One more declaration, listed in no block. -/
theorem relabel_unlisted (d : Decl) :
    ({ a with decls := a.decls ++ [d] } : Arena).relabel f =
      { a.relabel f with decls := (a.relabel f).decls ++ [d.relabel f] } := by
  simp [Arena.relabel]

theorem relabel_withDecl (b : BlockId) (d : Decl) :
    (a.withDecl b d).relabel f = (a.relabel f).withDecl b (d.relabel f) := by
  unfold Arena.withDecl
  rw [length_decls_relabel, ← relabel_unlisted]
  exact relabel_updateBlock _ b fun _ => rfl

theorem relabel_createChild (b : BlockId) (span : Span) :
    (a.relabel f).createChild b (f.span span) =
      ((a.createChild b span).1.relabel f, (a.createChild b span).2) := by
  unfold Arena.createChild
  simp only [relabel_allocBlock, block?_relabel, length_blocks_relabel]
  cases (a.allocBlock (some b) span).1.block? b with
  | none => rfl
  | some x =>
    refine congrArg (·, Except.ok _) (relabel_updateBlock _ b ?_).symm
    intro y
    rfl

theorem relabel_addDecl (d : Decl) :
    (a.relabel f).addDecl d.owner (d.relabel f).name (d.relabel f).type d.kind (d.relabel f).span =
      ((a.addDecl d.owner d.name d.type d.kind d.span).1.relabel f,
        (a.addDecl d.owner d.name d.type d.kind d.span).2) := by
  cases hx : a.block? d.owner with
  | none =>
    have hx' : (a.relabel f).block? d.owner = none := by rw [block?_relabel, hx]; rfl
    rw [addDecl_unknown hx, addDecl_unknown hx', length_blocks_relabel]
    exact congrArg (·, Except.error _) (relabel_unlisted a d).symm
  | some x =>
    have hx' := block?_relabel_some (f := f) hx
    cases ho : x.isSealed with
    | true =>
      rw [addDecl_sealed hx ho, addDecl_sealed hx' ho]
      exact congrArg (·, Except.error _) (relabel_unlisted a d).symm
    | false =>
      rw [addDecl_eq hx ho, addDecl_eq hx' ho, length_decls_relabel]
      exact congrArg (·, Except.ok _) (relabel_withDecl a d.owner d).symm

theorem relabel_addStmt (b : BlockId) (stmt : Stmt) :
    (a.relabel f).addStmt b (stmt.relabel f) = (a.addStmt b stmt).map (Arena.relabel f) := by
  cases hx : a.block? b with
  | none =>
    unfold Arena.addStmt
    rw [block?_relabel, hx, length_blocks_relabel]
    rfl
  | some x =>
    have hx' := block?_relabel_some (f := f) hx
    cases ho : x.isSealed with
    | true =>
      unfold Arena.addStmt
      rw [hx, hx']
      simp [Block.relabel, ho, Except.map]
    | false =>
      rw [addStmt_eq hx ho, addStmt_eq hx' ho, ← relabel_withStmt]
      rfl

theorem relabel_sealBlock (b : BlockId) :
    (a.relabel f).sealBlock b = (a.sealBlock b).map (Arena.relabel f) := by
  cases hx : a.block? b with
  | none =>
    unfold Arena.sealBlock
    rw [block?_relabel, hx, length_blocks_relabel]
    rfl
  | some x =>
    have hx' := block?_relabel_some (f := f) hx
    rw [sealBlock_eq hx, sealBlock_eq hx', ← relabel_withSealed]
    rfl

theorem relabel_createTypeScope (builtins : List String) :
    (a.relabel f).createTypeScope (builtins.map f.text) =
      ((a.createTypeScope builtins).1.relabel f, (a.createTypeScope builtins).2) := by
  unfold Arena.createTypeScope Arena.relabel
  simp [TypeScope.ofBuiltins_relabel]

end Arena

end IR

namespace Session

variable {f : Relabel} (s : Session)

theorem findType?_relabel (name : String) :
    (s.relabel f).findType? (f.text name) = s.findType? name := by
  unfold Session.findType?
  congr 1
  funext id
  show ((s.arena.relabel f).typeScope? id).bind _ = _
  rw [Arena.typeScope?_relabel]
  cases s.arena.typeScope? id with
  | none => rfl
  | some scope => exact scope.find?_relabel name

theorem freePlaceholder?_relabel (b : BlockId) (name : String) :
    (s.relabel f).freePlaceholder? b (f.text name) = s.freePlaceholder? b name := by
  unfold Session.freePlaceholder?
  have hfree := s.arena.isFree_relabel (f := f) name
  have hdecls := s.arena.declsAround_relabel (f := f) b
  simp only [Session.relabel, hfree, hdecls]

theorem refusedToLink_relabel (b : BlockId) (name : String) :
    Lower.refusedToLink (s.relabel f) b (f.text name) = Lower.refusedToLink s b name :=
  congrArg (fun refused => if s.unitBody = some b then refused else [])
    (s.arena.refusedAround_relabel b name)

end Session

end BlockLowering
