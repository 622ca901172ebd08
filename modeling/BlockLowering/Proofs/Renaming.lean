import Mathlib.Logic.Equiv.Basic
import BlockLowering.Proofs.Isolation
import BlockLowering.Proofs.RelabelledRuns

/-!
# Names matter only up to renaming

Rename the texts of a symbol table, so that different texts stay different and the builtin types
keep their names. A module is then lowered to the same blocks and types, the declarations of the
program have the new names, temporaries keep theirs, and a name that was not found is reported under
its new text. It does no harm if a new name is that of a temporary. The numbers of symbols do not
matter either: lowering depends on a table only through which identifiers have equal texts.
-/

namespace BlockLowering

open IR Diagnostic Source Session

/-! ## Trees that keep their labels -/

/-- The labels as they are. -/
abbrev Labels.kept : Labels := ⟨id, id⟩

namespace Source

theorem Ident.relabel_kept (name : Ident) : name.relabel .kept = name := rfl
theorem StringLiteral.relabel_kept (name : StringLiteral) : name.relabel .kept = name := rfl

theorem map_kept {α : Type} {g : α → α} (h : ∀ a, g a = a) (o : Option α) : o.map g = o := by
  cases o with
  | none => rfl
  | some a => exact congrArg some (h a)

theorem TypeName.relabel_kept (name : TypeName) : name.relabel .kept = name := by
  induction name with
  | simple => rfl
  | qualified head rest span ih => exact congrArg (TypeName.qualified head · span) ih

mutual

theorem Ascription.relabel_kept (a : Ascription) : a.relabel .kept = a := by
  obtain ⟨type, span⟩ := a
  simp only [Ascription.relabel, type.relabel_kept, id_eq]

theorem TypeExpr.relabel_kept (type : TypeExpr) : type.relabel .kept = type := by
  cases type with
  | reference name args span =>
    simp only [TypeExpr.relabel, name.relabel_kept, relabelAscriptions_kept args, id_eq]
  | function params result span =>
    simp only [TypeExpr.relabel, relabelTypeParams_kept params, result.relabel_kept, id_eq]
  | array element span => simp only [TypeExpr.relabel, element.relabel_kept, id_eq]
  | union members span => simp only [TypeExpr.relabel, relabelAscriptions_kept members, id_eq]

theorem relabelAscriptions_kept (as : List Ascription) : relabelAscriptions .kept as = as := by
  cases as with
  | nil => simp only [relabelAscriptions]
  | cons a rest => simp only [relabelAscriptions, a.relabel_kept, relabelAscriptions_kept rest]

theorem relabelTypeParams_kept (ps : List FunctionTypeParam) : relabelTypeParams .kept ps = ps := by
  cases ps with
  | nil => simp only [relabelTypeParams]
  | cons p rest =>
    obtain ⟨name, type⟩ := p
    simp only [relabelTypeParams, map_kept Ident.relabel_kept, type.relabel_kept,
      relabelTypeParams_kept rest]

end

theorem TypeParameter.relabel_kept (p : TypeParameter) : p.relabel .kept = p := by
  obtain ⟨name, bound, initial, span⟩ := p
  simp only [TypeParameter.relabel, name.relabel_kept, map_kept Ascription.relabel_kept, id_eq]

theorem ImportSpecifier.relabel_kept (s : ImportSpecifier) : s.relabel .kept = s := by
  obtain ⟨name, binding⟩ := s
  simp only [ImportSpecifier.relabel, name.relabel_kept, map_kept Ident.relabel_kept]

mutual

theorem Pattern.relabel_kept (p : Pattern) : p.relabel .kept = p := by
  cases p with
  | identifier name => simp only [Pattern.relabel, name.relabel_kept]
  | array elements span => simp only [Pattern.relabel, relabelElements_kept elements, id_eq]
  | object properties span =>
    simp only [Pattern.relabel, relabelPropertyPatterns_kept properties, id_eq]

theorem relabelElements_kept (ps : List (Option Pattern)) : relabelElements .kept ps = ps := by
  match ps with
  | [] => simp only [relabelElements]
  | none :: rest => simp only [relabelElements, relabelElements_kept rest]
  | some p :: rest => simp only [relabelElements, p.relabel_kept, relabelElements_kept rest]

theorem relabelPropertyPatterns_kept (ps : List PropertyPattern) :
    relabelPropertyPatterns .kept ps = ps := by
  match ps with
  | [] => simp only [relabelPropertyPatterns]
  | ⟨key, value, span⟩ :: rest =>
    simp only [relabelPropertyPatterns, key.relabel_kept, value.relabel_kept,
      relabelPropertyPatterns_kept rest, id_eq]

end

mutual

theorem Expression.relabel_kept (e : Expression) : e.relabel .kept = e := by
  cases e with
  | int | float | boolean | null | this | super => simp only [Expression.relabel, id_eq]
  | string literal => simp only [Expression.relabel, literal.relabel_kept]
  | identifier name => simp only [Expression.relabel, name.relabel_kept]
  | template tag parts span =>
    simp only [Expression.relabel, relabelExpression?_kept tag, relabelParts_kept parts, id_eq]
  | array items span | comma items span =>
    simp only [Expression.relabel, relabelExpressions_kept items, id_eq]
  | object properties span =>
    simp only [Expression.relabel, relabelObject_kept properties, id_eq]
  | unary operator operand span => simp only [Expression.relabel, operand.relabel_kept, id_eq]
  | binary operator left right span | logical operator left right span
  | assignment operator left right span =>
    simp only [Expression.relabel, left.relabel_kept, right.relabel_kept, id_eq]
  | conditional test consequent alternate span =>
    simp only [Expression.relabel, test.relabel_kept, consequent.relabel_kept,
      alternate.relabel_kept, id_eq]
  | call callee typeArgs args span | new callee typeArgs args span =>
    simp only [Expression.relabel, callee.relabel_kept, relabelAscriptions_kept typeArgs,
      relabelExpressions_kept args, id_eq]
  | member object property span =>
    simp only [Expression.relabel, object.relabel_kept, property.relabel_kept, id_eq]
  | index object position span =>
    simp only [Expression.relabel, object.relabel_kept, position.relabel_kept, id_eq]
  | function name typeParams params result body span =>
    simp only [Expression.relabel, map_kept Ident.relabel_kept,
      List.map_id'' TypeParameter.relabel_kept, relabelParams_kept params,
      map_kept Ascription.relabel_kept, body.relabel_kept, id_eq]
  | parenthesized inner span => simp only [Expression.relabel, inner.relabel_kept, id_eq]
  | instanceOf object type span | typeCast object type span =>
    simp only [Expression.relabel, object.relabel_kept, type.relabel_kept, id_eq]

theorem relabelExpressions_kept (es : List Expression) : relabelExpressions .kept es = es := by
  cases es with
  | nil => simp only [relabelExpressions]
  | cons e rest => simp only [relabelExpressions, e.relabel_kept, relabelExpressions_kept rest]

theorem relabelExpression?_kept (e : Option Expression) : relabelExpression? .kept e = e := by
  cases e with
  | none => simp only [relabelExpression?]
  | some e => simp only [relabelExpression?, e.relabel_kept]

theorem relabelParts_kept (parts : List TemplatePart) : relabelParts .kept parts = parts := by
  match parts with
  | [] => simp only [relabelParts]
  | .text value :: rest => simp only [relabelParts, relabelParts_kept rest, id_eq]
  | .expression e :: rest => simp only [relabelParts, e.relabel_kept, relabelParts_kept rest]

theorem Property.relabel_kept (p : Property) : p.relabel .kept = p := by
  obtain ⟨key, value, span⟩ := p
  simp only [Property.relabel, key.relabel_kept, value.relabel_kept, id_eq]

theorem PropertyKey.relabel_kept (key : PropertyKey) : key.relabel .kept = key := by
  cases key with
  | identifier name => simp only [PropertyKey.relabel, name.relabel_kept]
  | string literal => simp only [PropertyKey.relabel, literal.relabel_kept]
  | computed e => simp only [PropertyKey.relabel, e.relabel_kept]

theorem relabelObject_kept (ps : List Property) : relabelObject .kept ps = ps := by
  cases ps with
  | nil => simp only [relabelObject]
  | cons p rest => simp only [relabelObject, p.relabel_kept, relabelObject_kept rest]

theorem Parameter.relabel_kept (p : Parameter) : p.relabel .kept = p := by
  obtain ⟨kind, pattern, type, initial, span⟩ := p
  simp only [Parameter.relabel, pattern.relabel_kept, map_kept Ascription.relabel_kept,
    relabelExpression?_kept initial, id_eq]

theorem relabelParams_kept (ps : List Parameter) : relabelParams .kept ps = ps := by
  cases ps with
  | nil => simp only [relabelParams]
  | cons p rest => simp only [relabelParams, p.relabel_kept, relabelParams_kept rest]

theorem Block.relabel_kept (b : Block) : b.relabel .kept = b := by
  obtain ⟨statements, span⟩ := b
  simp only [Block.relabel, relabelStatements_kept statements, id_eq]

theorem relabelBlock?_kept (b : Option Block) : relabelBlock? .kept b = b := by
  cases b with
  | none => simp only [relabelBlock?]
  | some b => simp only [relabelBlock?, b.relabel_kept]

theorem VariableDecl.relabel_kept (d : VariableDecl) : d.relabel .kept = d := by
  obtain ⟨kind, pattern, type, initial, span⟩ := d
  simp only [VariableDecl.relabel, pattern.relabel_kept, map_kept Ascription.relabel_kept,
    relabelExpression?_kept initial, id_eq]

theorem FunctionDecl.relabel_kept (d : FunctionDecl) : d.relabel .kept = d := by
  obtain ⟨name, typeParams, params, result, body, span⟩ := d
  simp only [FunctionDecl.relabel, name.relabel_kept, List.map_id'' TypeParameter.relabel_kept,
    relabelParams_kept params, map_kept Ascription.relabel_kept, body.relabel_kept, id_eq]

theorem FieldDecl.relabel_kept (d : FieldDecl) : d.relabel .kept = d := by
  obtain ⟨name, type, initial, span⟩ := d
  simp only [FieldDecl.relabel, name.relabel_kept, map_kept Ascription.relabel_kept,
    relabelExpression?_kept initial, id_eq]

theorem relabelMembers_kept (members : List ClassMember) :
    relabelMembers .kept members = members := by
  match members with
  | [] => simp only [relabelMembers]
  | .field d :: rest => simp only [relabelMembers, d.relabel_kept, relabelMembers_kept rest]
  | .method d :: rest => simp only [relabelMembers, d.relabel_kept, relabelMembers_kept rest]

theorem SwitchCase.relabel_kept (c : SwitchCase) : c.relabel .kept = c := by
  obtain ⟨test, consequent, span⟩ := c
  simp only [SwitchCase.relabel, relabelExpression?_kept test, relabelStatements_kept consequent,
    id_eq]

theorem relabelCases_kept (cs : List SwitchCase) : relabelCases .kept cs = cs := by
  cases cs with
  | nil => simp only [relabelCases]
  | cons c rest => simp only [relabelCases, c.relabel_kept, relabelCases_kept rest]

theorem CatchClause.relabel_kept (c : CatchClause) : c.relabel .kept = c := by
  obtain ⟨param, body, span⟩ := c
  simp only [CatchClause.relabel, map_kept Pattern.relabel_kept, body.relabel_kept, id_eq]

theorem relabelHandler?_kept (handler : Option CatchClause) :
    relabelHandler? .kept handler = handler := by
  cases handler with
  | none => simp only [relabelHandler?]
  | some c => simp only [relabelHandler?, c.relabel_kept]

theorem relabelInit?_kept (init : Option ForInit) : relabelInit? .kept init = init := by
  match init with
  | none => simp only [relabelInit?]
  | some (.variableDecl d) => simp only [relabelInit?, d.relabel_kept]
  | some (.expression e) => simp only [relabelInit?, e.relabel_kept]

theorem Statement.relabel_kept (s : Statement) : s.relabel .kept = s := by
  cases s with
  | variableDecl d => simp only [Statement.relabel, d.relabel_kept]
  | functionDecl d => simp only [Statement.relabel, d.relabel_kept]
  | namespaceDecl name members span =>
    simp only [Statement.relabel, name.relabel_kept, relabelStatements_kept members, id_eq]
  | classDecl name typeParams base members span =>
    simp only [Statement.relabel, name.relabel_kept, List.map_id'' TypeParameter.relabel_kept,
      map_kept Ascription.relabel_kept, relabelMembers_kept members, id_eq]
  | typeAlias name typeParams type span =>
    simp only [Statement.relabel, name.relabel_kept, List.map_id'' TypeParameter.relabel_kept,
      type.relabel_kept, id_eq]
  | importDecl specifiers source span =>
    simp only [Statement.relabel, List.map_id'' ImportSpecifier.relabel_kept, source.relabel_kept,
      id_eq]
  | exportDecl declaration span => simp only [Statement.relabel, declaration.relabel_kept, id_eq]
  | expression value span | throwValue value span =>
    simp only [Statement.relabel, value.relabel_kept, id_eq]
  | ifElse condition thenBranch elseBranch span =>
    simp only [Statement.relabel, condition.relabel_kept, thenBranch.relabel_kept,
      relabelStatement?_kept elseBranch, id_eq]
  | switch discriminant cases span =>
    simp only [Statement.relabel, discriminant.relabel_kept, relabelCases_kept cases, id_eq]
  | whileLoop condition body span | doWhile body condition span =>
    simp only [Statement.relabel, condition.relabel_kept, body.relabel_kept, id_eq]
  | forLoop init test update body span =>
    simp only [Statement.relabel, relabelInit?_kept init, relabelExpression?_kept test,
      relabelExpression?_kept update, body.relabel_kept, id_eq]
  | forOf binding iterable body span =>
    simp only [Statement.relabel, binding.relabel_kept, iterable.relabel_kept, body.relabel_kept,
      id_eq]
  | breakTo label span | continueTo label span =>
    simp only [Statement.relabel, map_kept Ident.relabel_kept, id_eq]
  | returnValue value span => simp only [Statement.relabel, relabelExpression?_kept value, id_eq]
  | tryCatch body handler finalizer span =>
    simp only [Statement.relabel, body.relabel_kept, relabelHandler?_kept handler,
      relabelBlock?_kept finalizer, id_eq]
  | block group => simp only [Statement.relabel, group.relabel_kept]
  | empty span => simp only [Statement.relabel, id_eq]

theorem relabelStatements_kept (sts : List Statement) : relabelStatements .kept sts = sts := by
  cases sts with
  | nil => simp only [relabelStatements]
  | cons s rest => simp only [relabelStatements, s.relabel_kept, relabelStatements_kept rest]

theorem relabelStatement?_kept (s : Option Statement) : relabelStatement? .kept s = s := by
  cases s with
  | none => simp only [relabelStatement?]
  | some s => simp only [relabelStatement?, s.relabel_kept]

end

theorem Module.relabel_kept (m : Module) : m.relabel .kept = m := by
  obtain ⟨statements, span⟩ := m
  simp only [Module.relabel, relabelStatements_kept statements, id_eq]

end Source

/-! ## What a renaming does -/

/-- The table in which every symbol has the text `r` gives for its text. -/
def SymbolTable.renamed (r : String → String) (names : SymbolTable) : SymbolTable :=
  ⟨names.texts.map r⟩

/-- The module with other numbers for its symbols. -/
def Source.Module.renumbered (σ : Symbol → Symbol) (m : Module) : Module := m.relabel ⟨σ, id⟩

/-- A declaration of the program is renamed; a temporary keeps its name. -/
def IR.Decl.renamed (r : String → String) (d : Decl) : Decl :=
  if d.isTemporary then d else { d with name := r d.name }

/-- The argument of a name that was not found is renamed. -/
def Diagnostic.Record.renamed (r : String → String) (x : Record) : Record :=
  if x.code = .nameNotFound then { x with args := x.args.map r } else x

/-- `t` has the blocks and types of `s`, and its declarations and records are those of `s`,
renamed. -/
structure Session.Renamed (r : String → String) (s t : Session) : Prop where
  blocks : t.arena.blocks = s.arena.blocks
  decls : t.arena.decls = s.arena.decls.map (Decl.renamed r)
  types : t.arena.typeScopes = s.arena.typeScopes
  records : t.log.records = s.log.records.map (Record.renamed r)

/-- New texts and other numbers for symbols; all places are kept. -/
def Relabel.renaming (σ : Symbol → Symbol) {r : String → String} (hr : Function.Injective r) :
    Relabel where
  symbol := σ
  span := id
  text := r
  span_synthetic := rfl
  span_merge _ _ := rfl
  text_injective := hr

section

variable {σ : Symbol → Symbol} {r : String → String} {hr : Function.Injective r}

namespace IR

mutual

theorem Expr.relabel_renaming (e : Expr) : e.relabel (.renaming σ hr) = e := by
  cases e with
  | ref | int | float | func => simp only [Expr.relabel, DeclRef.relabel, Relabel.renaming, id_eq]
  | binary op lhs rhs span =>
    simp only [Expr.relabel, lhs.relabel_renaming, rhs.relabel_renaming]
    rfl
  | call callee args span =>
    simp only [Expr.relabel, callee.relabel_renaming, relabelExprs_renaming args]
    rfl

theorem relabelExprs_renaming (es : List Expr) : relabelExprs (.renaming σ hr) es = es := by
  cases es with
  | nil => simp only [relabelExprs]
  | cons e rest => simp only [relabelExprs, e.relabel_renaming, relabelExprs_renaming rest]

end

theorem Stmt.relabel_renaming (stmt : Stmt) : stmt.relabel (.renaming σ hr) = stmt := by
  cases stmt <;> simp only [Stmt.relabel, Expr.relabel_renaming] <;> rfl

theorem Block.relabel_renaming (b : Block) : b.relabel (.renaming σ hr) = b := by
  unfold Block.relabel
  rw [List.map_id'' Stmt.relabel_renaming]
  rfl

theorem Decl.relabel_renaming (d : Decl) : d.relabel (.renaming σ hr) = d.renamed r := by
  have htype : d.type.map (TypeRef.relabel (.renaming σ hr)) = d.type := map_kept (fun _ => rfl) _
  unfold Decl.relabel Decl.renamed
  rw [htype]
  cases d.isTemporary <;> rfl

end IR

theorem Diagnostic.Record.relabel_renaming (x : Record) :
    x.relabel (.renaming σ hr) = x.renamed r := by
  have hspan : x.span.map (Relabel.renaming σ hr).span = x.span := map_kept (fun _ => rfl) _
  unfold Record.relabel Record.renamed
  rw [hspan]
  split <;> rfl

/-- The type scope of a session stays, if the builtin types keep their names. -/
theorem Session.Fixed.types_renaming {s : Session} {options : Options} (h : Fixed options s)
    (hfix : options.builtinTypes.map r = options.builtinTypes) :
    s.arena.typeScopes.map (TypeScope.relabel (.renaming σ hr)) = s.arena.typeScopes := by
  rcases h.types with ⟨_, hnone⟩ | ⟨_, hscope⟩
  · rw [hnone]
    rfl
  · rw [hscope, List.map_singleton, TypeScope.ofBuiltins_relabel]
    exact congrArg (fun names => [TypeScope.ofBuiltins ⟨0⟩ names]) hfix

/-- Lowering the renumbered module, under a table that gives the identifiers the texts that `r`
gives. -/
theorem renamed_lowerModule {names names' : SymbolTable} {m : Module} {options : Options}
    (hr : Function.Injective r) (hfix : ∀ t ∈ options.builtinTypes, r t = t)
    (h : ∀ x ∈ (Node.module m).identifiers, names'.resolve (σ x.name) = r (names.resolve x.name)) :
    Renamed r (lowerModule names m options) (lowerModule names' (m.renumbered σ) options) := by
  have hbuiltins : options.builtinTypes.map r = options.builtinTypes :=
    (List.map_congr_left hfix).trans (List.map_id _)
  have hrelabel := lowerModule_relabel (f := Relabel.renaming σ hr) h options
  have hoptions : options.relabel (Relabel.renaming σ hr) = options :=
    congrArg (fun builtinTypes => { options with builtinTypes }) hbuiltins
  rw [hoptions] at hrelabel
  have hfixed : Fixed options (lowerModule names m options) :=
    (Fixed.initial options).module (reachable_initial names anyNode options) m
  show Renamed r _ (lowerModule names' (m.relabel (Relabel.renaming σ hr)) options)
  rw [hrelabel]
  exact
    { blocks := List.map_id'' Block.relabel_renaming _
      decls := List.map_congr_left fun d _ => d.relabel_renaming
      types := hfixed.types_renaming hbuiltins
      records := List.map_congr_left fun x _ => x.relabel_renaming }

end

/-! ## Texts that are equal in the same places -/

/-- Pairs that agree on the left where they agree on the right are pairs of a permutation. -/
theorem exists_perm_of_pairs {α : Type} [DecidableEq α] (l : List (α × α))
    (h : ∀ p ∈ l, ∀ q ∈ l, p.1 = q.1 ↔ p.2 = q.2) : ∃ r : Equiv.Perm α, ∀ p ∈ l, r p.1 = p.2 := by
  induction l with
  | nil => exact ⟨Equiv.refl α, fun _ hp => by cases hp⟩
  | cons q l ih =>
    obtain ⟨r, hr⟩ := ih fun p hp p' hp' => h p (.tail _ hp) p' (.tail _ hp')
    -- What `r` makes of `q.1` changes places with `q.2`; the other pairs are not touched by that.
    refine ⟨r.trans (Equiv.swap (r q.1) q.2), fun p hp => ?_⟩
    show Equiv.swap (r q.1) q.2 (r p.1) = p.2
    rcases List.mem_cons.1 hp with rfl | hp
    · exact Equiv.swap_apply_left _ _
    · have hiff := h p (.tail _ hp) q (.head _)
      by_cases heq : p.1 = q.1
      · rw [heq, Equiv.swap_apply_left, hiff.1 heq]
      · rw [hr p hp]
        refine Equiv.swap_apply_of_ne_of_ne (fun hp' => heq ?_) fun hp' => heq (hiff.2 hp')
        exact r.injective ((hr p hp).trans hp')

/-- A table whose texts are equal in the same places is a renamed table. -/
theorem exists_renaming {names names' : SymbolTable} {σ : Symbol → Symbol} {ids : List Ident}
    {builtins : List String}
    (hids : ∀ x ∈ ids, ∀ y ∈ ids, names.resolve x.name = names.resolve y.name ↔
      names'.resolve (σ x.name) = names'.resolve (σ y.name))
    (hbuiltins : ∀ x ∈ ids, ∀ t ∈ builtins, names.resolve x.name = t ↔
      names'.resolve (σ x.name) = t) :
    ∃ r : String → String, Function.Injective r ∧ (∀ t ∈ builtins, r t = t) ∧
      ∀ x ∈ ids, names'.resolve (σ x.name) = r (names.resolve x.name) := by
  obtain ⟨r, hr⟩ := exists_perm_of_pairs
    (ids.map (fun x => (names.resolve x.name, names'.resolve (σ x.name))) ++
      builtins.map fun t => (t, t)) (by
    intro p hp q hq
    simp only [List.mem_append, List.mem_map] at hp hq
    rcases hp with ⟨x, hx, rfl⟩ | ⟨t, ht, rfl⟩ <;> rcases hq with ⟨y, hy, rfl⟩ | ⟨u, hu, rfl⟩
    · exact hids x hx y hy
    · exact hbuiltins x hx u hu
    · exact eq_comm.trans ((hbuiltins y hy t ht).trans eq_comm)
    · exact Iff.rfl)
  refine ⟨r, r.injective, fun t ht => ?_, fun x hx => ?_⟩
  · exact hr (t, t) (List.mem_append_right _ (List.mem_map.2 ⟨t, ht, rfl⟩))
  · exact (hr _ (List.mem_append_left _ (List.mem_map.2 ⟨x, hx, rfl⟩))).symm

/-- A table and its renamed table, on symbols of the table. -/
theorem SymbolTable.resolve_renamed {names : SymbolTable} {x : Symbol} (h : x.index < names.size)
    (r : String → String) : (names.renamed r).resolve x = r (names.resolve x) := by
  unfold SymbolTable.renamed SymbolTable.resolve
  have hx : names.texts[x.index]? = some names.texts[x.index] := List.getElem?_eq_getElem h
  rw [List.getElem?_map, hx]
  rfl

/-- Lowering a module under a renamed table, where `r` keeps texts apart and the builtin types as
they are: the same blocks, statements, kinds, types and places, with the declarations of the program
renamed and the records of names that were not found renamed. The numbers of the symbols and the
texts of the table matter only through which texts are equal: under a table whose texts are equal in
the same places, after any renumbering, the result is the same up to some renaming. -/
theorem lowerModule_renamed (names : SymbolTable) (m : Module) (options : Options) :
    (∀ r, Function.Injective r → (∀ t ∈ options.builtinTypes, r t = t) →
      (∀ x ∈ (Node.module m).identifiers, x.name.index < names.size) →
      Renamed r (lowerModule names m options) (lowerModule (names.renamed r) m options)) ∧
    (∀ (names' : SymbolTable) (σ : Symbol → Symbol),
      (∀ x ∈ (Node.module m).identifiers, ∀ y ∈ (Node.module m).identifiers,
        names.resolve x.name = names.resolve y.name ↔
          names'.resolve (σ x.name) = names'.resolve (σ y.name)) →
      (∀ x ∈ (Node.module m).identifiers, ∀ t ∈ options.builtinTypes,
        names.resolve x.name = t ↔ names'.resolve (σ x.name) = t) →
      ∃ r, Function.Injective r ∧ (∀ t ∈ options.builtinTypes, r t = t) ∧
        (∀ x ∈ (Node.module m).identifiers,
          names'.resolve (σ x.name) = r (names.resolve x.name)) ∧
        Renamed r (lowerModule names m options)
          (lowerModule names' (m.renumbered σ) options)) := by
  constructor
  · intro r hr hfix hsymbols
    have hkept : m.renumbered id = m := m.relabel_kept
    have htexts : ∀ x ∈ (Node.module m).identifiers,
        (names.renamed r).resolve (id x.name) = r (names.resolve x.name) :=
      fun x hx => SymbolTable.resolve_renamed (hsymbols x hx) r
    have h := renamed_lowerModule hr hfix htexts
    rwa [hkept] at h
  · intro names' σ hids hbuiltins
    obtain ⟨r, hr, hfix, htexts⟩ := exists_renaming hids hbuiltins
    exact ⟨r, hr, hfix, htexts, renamed_lowerModule hr hfix htexts⟩

/-- In `let x; x = y;` the variable may get the name of the temporary of the assignment. -/
theorem renamed_like_temporary :
    let names : SymbolTable := ⟨["x", "y"]⟩
    let x : Ident := ⟨⟨0⟩, .synthetic⟩
    let y : Ident := ⟨⟨1⟩, .synthetic⟩
    let m : Module :=
      ⟨[.variableDecl ⟨.letBinding, .identifier x, none, none, .synthetic⟩,
        .expression (.assignment .assign (.identifier x) (.identifier y) .synthetic) .synthetic],
        .synthetic⟩
    let r : String → String := Equiv.swap "x" "~tmp0"
    let σ : Symbol → Symbol := fun symbol => ⟨1 - symbol.index⟩
    let s := lowerModule names m {}
    let t := lowerModule (names.renamed r) m {}
    Renamed r s t ∧ t.arena.decls.map Decl.name = ["~tmp0", "~tmp0"] ∧
      t.log.records.map Record.args = [["y"]] ∧
      ∃ r', Function.Injective r' ∧ r' "x" = "a" ∧ r' "y" = "b" ∧
        Renamed r' s (lowerModule ⟨["b", "a"]⟩ (m.renumbered σ) {}) := by
  intro names x y m r σ s t
  obtain ⟨hrenamed, hnumbers⟩ := lowerModule_renamed names m {}
  have hr : Function.Injective r := (Equiv.swap "x" "~tmp0").injective
  refine ⟨hrenamed r hr (by decide +kernel) (by decide +kernel), by decide +kernel,
    by decide +kernel, ?_⟩
  obtain ⟨r', hr', _, htexts, h⟩ := hnumbers ⟨["b", "a"]⟩ σ (by decide +kernel) (by decide +kernel)
  exact ⟨r', hr', (htexts x (by decide +kernel)).symm, (htexts y (by decide +kernel)).symm, h⟩

end BlockLowering
