import BlockLowering.Proofs.Relabelling

/-!
# Lowering commutes with relabelling

Lowering a relabelled tree in a relabelled session gives the relabelled result, from any state and
for any tree, if the two symbol tables agree on the identifiers of the tree up to the relabelling.
Each operation of a session commutes with it, and so does what is put together from them.
-/

namespace BlockLowering

open IR Diagnostic Source Session

/-! ## The identifiers of a tree -/

/-- All identifiers that are visited have `P`. -/
def Spells (P : Ident → Prop) (visits : List Visit) : Prop :=
  ∀ id ∈ visits.filterMap Visit.ident?, P id

/-- The identifier that a node is. -/
def Source.Node.ident? (n : Node) : Option Ident := (Visit.byKind n).ident?

section

variable {P : Ident → Prop}

@[simp] theorem spells_nil : Spells P [] := by simp [Spells]

@[simp] theorem spells_append (l r : List Visit) :
    Spells P (l ++ r) ↔ Spells P l ∧ Spells P r := by
  unfold Spells
  simp only [List.filterMap_append, List.mem_append, or_imp, forall_and]

@[simp] theorem spells_enterKind (n : Node) (below : List Visit) :
    Spells P (enterKind everywhere n below) ↔
      (∀ id, n.ident? = some id → P id) ∧ Spells P below := by
  unfold Spells enterKind enter everywhere Node.ident?
  simp only [if_true, List.filterMap_cons]
  cases (Visit.byKind n).ident? <;> simp

@[simp] theorem spells_enterStatement (s : Statement) (below : List Visit) :
    Spells P (enterStatement everywhere s below) ↔ Spells P below := by
  show Spells P (enterKind everywhere (.statement s) below) ↔ _
  rw [spells_enterKind]
  exact and_iff_right fun _ h => by cases h

@[simp] theorem spells_enterExpression (e : Expression) (below : List Visit) :
    Spells P (enterExpression everywhere e below) ↔
      (∀ id, (Node.expression e).ident? = some id → P id) ∧ Spells P below :=
  spells_enterKind (.expression e) below

@[simp] theorem spells_visitIdent (id : Ident) : Spells P (visitIdent everywhere id) ↔ P id := by
  unfold visitIdent
  simp [Node.ident, Node.ident?, Visit.byKind, Visit.ident?]

theorem spells_identifiers {m : Module} (h : ∀ id ∈ (Node.module m).identifiers, P id) :
    Spells P (innerStatements everywhere m.statements) := h

end

/-! ## Operations -/

section

variable {f : Relabel} {α β : Type}

/-- From the relabelled state, `y` does what `x` does from `s`, relabelled; `g` relabels the
result. -/
def CommutesAt (f : Relabel) (g : α → α) (s : Session) (x y : Lower α) : Prop :=
  y.run (s.relabel f) = (g (x.run s).1, (x.run s).2.relabel f)

/-- From all states, `x` and `y` do the same up to the relabelling. -/
def Commutes (f : Relabel) (g : α → α) (x y : Lower α) : Prop := ∀ s, CommutesAt f g s x y

namespace Commutes

theorem pure (g : α → α) (a : α) : Commutes f g (pure a : Lower α) (pure (g a)) := fun _ => rfl

theorem bind {g : α → α} {h : β → β} {x y : Lower α} {k l : α → Lower β} (hx : Commutes f g x y)
    (hk : ∀ a, Commutes f h (k a) (l (g a))) : Commutes f h (x >>= k) (y >>= l) := by
  intro s
  unfold CommutesAt
  rw [Lower.run_bind, hx s]
  exact hk (x.run s).1 (x.run s).2

theorem get {g : α → α} {k l : Session → Lower α}
    (h : ∀ s, CommutesAt f g s (k s) (l (s.relabel f))) :
    Commutes f g (MonadState.get >>= k) (MonadState.get >>= l) := h

theorem modify {k l : Session → Session} (h : ∀ s, l (s.relabel f) = (k s).relabel f) :
    Commutes f id (modify k : Lower Unit) (modify l) := fun s => congrArg (Prod.mk ()) (h s)

end Commutes

theorem commutes_report (p : Problem) :
    Commutes f id (Lower.report p) (Lower.report (p.relabel f)) := by
  refine .modify fun s => ?_
  simp [Session.relabel, Log.relabel, Log.push]

theorem commutes_report_none (g : α → α) (p : Problem) :
    Commutes f (Option.map g) (do Lower.report p; return none)
      (do Lower.report (p.relabel f); return none) :=
  .bind (commutes_report p) fun _ => .pure _ none

theorem commutes_reject (construct : String) (span : Span) :
    Commutes f id (Lower.reject construct span) (Lower.reject construct (f.span span)) :=
  commutes_report (.unsupported construct span)

theorem commutes_reject_none (g : α → α) (construct : String) (span : Span) :
    Commutes f (Option.map g) (do Lower.reject construct span; return none)
      (do Lower.reject construct (f.span span); return none) :=
  commutes_report_none g (.unsupported construct span)

theorem commutes_createRoot (span : Span) :
    Commutes f id (Lower.createRoot span) (Lower.createRoot (f.span span)) := by
  intro s
  have h : (s.arena.relabel f).createRoot (f.span span) = _ := s.arena.relabel_allocBlock none span
  show (((s.arena.relabel f).createRoot (f.span span)).2,
    { s.relabel f with arena := ((s.arena.relabel f).createRoot (f.span span)).1 }) = _
  rw [h]
  rfl

theorem commutes_createChild (b : BlockId) (span : Span) :
    Commutes f id (Lower.createChild b span) (Lower.createChild b (f.span span)) := by
  refine .get fun s => ?_
  have h : (s.relabel f).arena.createChild b (f.span span) = _ := s.arena.relabel_createChild b span
  unfold CommutesAt
  simp only [h]
  rcases s.arena.createChild b span with ⟨arena, reason | id⟩
  · exact congrArg (fun n => (BlockId.mk n, _)) s.arena.length_blocks_relabel
  · rfl

theorem commutes_declare (d : Decl) :
    Commutes f id (Lower.addDecl d.owner d.name d.type d.kind d.span)
      (Lower.addDecl d.owner (d.relabel f).name (d.relabel f).type d.kind (d.relabel f).span) := by
  refine .get fun s => ?_
  have h : (s.relabel f).arena.addDecl d.owner (d.relabel f).name (d.relabel f).type d.kind
    (d.relabel f).span = _ := s.arena.relabel_addDecl d
  unfold CommutesAt
  simp only [h]
  rcases s.arena.addDecl d.owner d.name d.type d.kind d.span with ⟨arena, reason | id⟩
  · exact congrArg (fun n => (DeclId.mk n, _)) s.arena.length_decls_relabel
  · rfl

theorem commutes_addDecl (b : BlockId) (name : String) (type : Option TypeRef) {kind : DeclKind}
    (hkind : kind ≠ .temporary) (span : Span) :
    Commutes f id (Lower.addDecl b name type kind span)
      (Lower.addDecl b (f.text name) (type.map (TypeRef.relabel f)) kind (f.span span)) := by
  have h := commutes_declare (f := f) ⟨name, type, kind, b, span⟩
  rwa [Decl.name_relabel (by simpa [Decl.isTemporary] using hkind)] at h

theorem commutes_addStmt (b : BlockId) (stmt : Stmt) :
    Commutes f id (Lower.addStmt b stmt) (Lower.addStmt b (stmt.relabel f)) := by
  refine .get fun s => ?_
  have h : (s.relabel f).arena.addStmt b (stmt.relabel f) = _ := s.arena.relabel_addStmt b stmt
  unfold CommutesAt
  simp only [h]
  cases s.arena.addStmt b stmt <;> rfl

theorem commutes_sealBlock (b : BlockId) :
    Commutes f id (Lower.sealBlock b) (Lower.sealBlock b) := by
  refine .get fun s => ?_
  have h : (s.relabel f).arena.sealBlock b = _ := s.arena.relabel_sealBlock b
  unfold CommutesAt
  simp only [h]
  cases s.arena.sealBlock b <;> rfl

theorem commutes_currentBlock : Commutes f id Lower.currentBlock Lower.currentBlock := by
  intro s
  unfold CommutesAt
  cases hb : s.current? with
  | some b =>
    rw [Lower.run_currentBlock_some hb]
    exact Lower.run_currentBlock_some hb
  | none =>
    have hnil : s.openBlocks = [] := List.head?_eq_none_iff.1 hb
    have hnil' : (s.relabel f).openBlocks = [] := hnil
    have hroot := s.arena.relabel_allocBlock (f := f) none .synthetic
    rw [f.span_synthetic] at hroot
    rw [Lower.run_currentBlock_none hnil, Lower.run_currentBlock_none hnil']
    show (BlockId.mk (s.arena.relabel f).blocks.length,
      { s.relabel f with
        arena := ((s.arena.relabel f).allocBlock none .synthetic).1
        openBlocks := [⟨(s.arena.relabel f).blocks.length⟩] }) = _
    rw [hroot, Arena.length_blocks_relabel]
    rfl

theorem commutes_inBlock (b : BlockId) {x y : Lower Unit} (h : Commutes f id x y) :
    Commutes f id (Lower.inBlock b x) (Lower.inBlock b y) := by
  have hclose : Commutes f id (Lower.closeBlock b) (Lower.closeBlock b) := by
    intro s
    unfold CommutesAt
    rw [run_closeBlock_eq, run_closeBlock_eq]
    exact commutes_sealBlock b (s.popped b)
  exact .bind (.modify fun _ => rfl) fun _ => .bind h fun _ => hclose

theorem commutes_freshTemp (b : BlockId) (span : Span) :
    Commutes f id (Lower.freshTemp b span) (Lower.freshTemp b (f.span span)) := by
  refine .get fun s => ?_
  exact commutes_declare ⟨s.options.tempPrefix ++ toString s.nextTemp, none, .temporary, b, span⟩
    { s with nextTemp := s.nextTemp + 1 }

theorem commutes_linkHoisted (b : BlockId) (name : String) (d : DeclId) :
    Commutes f id (Lower.linkHoisted b name d) (Lower.linkHoisted b (f.text name) d) := by
  intro s
  unfold CommutesAt
  rw [Lower.run_linkHoisted_eq, Lower.run_linkHoisted_eq, s.freePlaceholder?_relabel,
    s.refusedToLink_relabel]
  cases hp : s.freePlaceholder? b name with
  | none => rfl
  | some p =>
    obtain ⟨x, hx, _, hfree⟩ := Lower.freePlaceholder?_spec hp
    have hlink := s.arena.relabel_withLink (f := f) p d hx hfree
    exact congrArg (fun arena =>
      ((), { (s.withRefused (Lower.refusedToLink s b name)).relabel f with arena })) hlink.symm

theorem commutes_lookup (b : BlockId) (name : String) :
    Commutes f id (Lower.lookup b name) (Lower.lookup b (f.text name)) := by
  intro s
  have hsearch := s.arena.searchFrom_relabel (f := f) b name
  exact congrArg (fun found => (found.1, (s.relabel f).withRefused found.2)) hsearch

end

/-! ## Names and annotations -/

/-- Under the two tables, the relabelled identifier has the new text. -/
def Relabel.Translates (f : Relabel) (names names' : SymbolTable) (id : Ident) : Prop :=
  names'.resolve (id.relabel f).name = f.text (names.resolve id.name)

section

variable {f : Relabel} {names names' : SymbolTable} {b : BlockId}

theorem commutes_resolveName {name : Ident} (h : f.Translates names names' name) :
    Commutes f (Option.map (DeclRef.relabel f)) (Lower.resolveName names name)
      (Lower.resolveName names' (name.relabel f)) := by
  have hlookup : ∀ b, Commutes f id (Lower.lookup b (names.resolve name.name))
      (Lower.lookup b (names'.resolve (name.relabel f).name)) := fun b => by
    rw [h]
    exact commutes_lookup b _
  refine .bind commutes_currentBlock fun b => .bind (hlookup b) fun found => ?_
  cases found with
  | some d => exact .pure (Option.map (DeclRef.relabel f)) (some ⟨d, name.span⟩)
  | none =>
    have hreport := commutes_report_none (f := f) (DeclRef.relabel f)
      (.nameNotFound (names.resolve name.name) name.span)
    rw [Problem.relabel, ← h] at hreport
    exact hreport

/-- A declaration of the program under the name of an identifier. -/
theorem commutes_addNamed {name : Ident} (h : f.Translates names names' name)
    (type : Option TypeRef) {kind : DeclKind} (hkind : kind ≠ .temporary) (span : Span) :
    Commutes f id (Lower.addDecl b (names.resolve name.name) type kind span)
      (Lower.addDecl b (names'.resolve (name.relabel f).name) (type.map (TypeRef.relabel f)) kind
        (f.span span)) := by
  rw [h]
  exact commutes_addDecl b _ type hkind span

/-- What an annotation means, relabelled. -/
theorem resolveType_relabel (s : Session) (a : Ascription)
    (h : Spells (f.Translates names names') (a.inner everywhere)) :
    (s.relabel f).resolveType names' (a.relabel f) =
      match s.resolveType names a with
      | .ok type => .ok (type.relabel f)
      | .error problem => .error (problem.relabel f) := by
  obtain ⟨type, place⟩ := a
  cases type with
  | reference name args span =>
    have hhead : f.Translates names names' name.head := by
      simp only [Ascription.inner, TypeExpr.inner, spells_enterKind, spells_append] at h
      cases name <;> simp_all [TypeName.inner, TypeName.head]
    have hargs : (relabelAscriptions f args).isEmpty = args.isEmpty := by
      cases args <;> rfl
    simp only [Ascription.relabel, TypeExpr.relabel, Session.resolveType,
      TypeName.isQualified_relabel, TypeName.span_relabel, TypeName.head_relabel, hargs]
    rw [hhead, s.findType?_relabel]
    cases name.isQualified with
    | true => rfl
    | false =>
      cases args.isEmpty with
      | false => rfl
      | true => cases s.findType? (names.resolve name.head.name) <;> rfl
  | function | array | union =>
    simp only [Ascription.relabel, TypeExpr.relabel, Session.resolveType, Problem.relabel,
      TypeExpr.kind]

theorem commutes_ascription? (written : Option Ascription)
    (h : Spells (f.Translates names names') (written.toList.flatMap (visitAscription everywhere))) :
    Commutes f (Option.map (TypeRef.relabel f)) (Lower.ascription? names written)
      (Lower.ascription? names' (written.map (Ascription.relabel f))) := by
  cases written with
  | none => exact .pure _ none
  | some a =>
    have ha : Spells (f.Translates names names') (a.inner everywhere) := by
      simp only [Option.toList_some, List.flatMap_cons, List.flatMap_nil, List.append_nil,
        visitAscription, spells_enterKind] at h
      exact h.2
    refine .get fun s => ?_
    have hresolve := resolveType_relabel s a ha
    unfold CommutesAt
    simp only [hresolve]
    cases s.resolveType names a with
    | ok type => rfl
    | error problem => exact commutes_report_none (TypeRef.relabel f) problem s

/-! ## Functions -/

theorem commutes_parameter (p : Parameter)
    (h : Spells (f.Translates names names') (p.inner everywhere)) :
    Commutes f id (Lower.parameter names b p) (Lower.parameter names' b (p.relabel f)) := by
  obtain ⟨kind, pattern, type, initial, span⟩ := p
  simp only [Parameter.inner, spells_append] at h
  simp only [Parameter.relabel]
  unfold Lower.parameter
  cases kind with
  | optional => exact commutes_reject _ span
  | rest => exact commutes_reject _ span
  | positional =>
    cases initial with
    | some e => exact commutes_reject _ span
    | none =>
      cases pattern with
      | array _ place => exact commutes_reject _ place
      | object _ place => exact commutes_reject _ place
      | identifier name =>
        have hname : f.Translates names names' name := h.1.1 name (.head _)
        refine .bind (commutes_ascription? type h.1.2) fun r => ?_
        exact .bind (commutes_addNamed hname r (fun h => by cases h) span) fun _ => .pure _ ()

theorem commutes_parameters (params : List Parameter)
    (h : Spells (f.Translates names names') (innerParams everywhere params)) :
    Commutes f id (Lower.parameters names b params)
      (Lower.parameters names' b (relabelParams f params)) := by
  induction params with
  | nil =>
    simp only [relabelParams]
    exact .pure _ ()
  | cons p rest ih =>
    simp only [innerParams, spells_append, spells_enterKind] at h
    simp only [relabelParams]
    exact .bind (commutes_parameter p h.1.2) fun _ => ih h.2

theorem commutes_functionBody (typeParams : List TypeParameter) (params : List Parameter)
    (h : Spells (f.Translates names names') (innerParams everywhere params)) {x y : Lower Unit}
    (hxy : Commutes f id x y) :
    Commutes f id (Lower.functionBody names b typeParams params x)
      (Lower.functionBody names' b (typeParams.map (TypeParameter.relabel f))
        (relabelParams f params) y) := by
  have htypes : Commutes f id (Lower.typeParameters typeParams)
      (Lower.typeParameters (typeParams.map (TypeParameter.relabel f))) := by
    unfold Lower.typeParameters
    rw [typeParamsSpan?_relabel]
    cases typeParamsSpan? typeParams with
    | none => exact .pure _ ()
    | some span => exact commutes_reject _ span
  refine .bind htypes fun _ => commutes_inBlock b ?_
  exact .bind (commutes_parameters params h) fun _ => hxy

theorem commutes_elseBlock? (branch : Option Statement) :
    Commutes f id (Lower.elseBlock? b branch)
      (Lower.elseBlock? b (relabelStatement? f branch)) := by
  cases branch with
  | none =>
    simp only [relabelStatement?]
    exact .pure _ none
  | some st =>
    simp only [relabelStatement?, Lower.elseBlock?, Statement.span_relabel]
    exact .bind (commutes_createChild b st.span) fun c => .pure _ (some c)

/-! ## Expressions and statements -/

mutual

theorem commutes_expression (e : Expression)
    (hvisits : Spells (f.Translates names names') (e.visits everywhere)) :
    Commutes f (Option.map (Expr.relabel f)) (Lower.expression names e)
      (Lower.expression names' (e.relabel f)) := by
  obtain ⟨hself, h⟩ := (spells_enterExpression e _).1 hvisits
  cases e with
  | int value span | float value span =>
    simp only [Expression.relabel, Lowering.expression]
    exact .pure _ _
  | identifier name =>
    simp only [Expression.relabel, Lowering.expression]
    refine .bind (commutes_resolveName (hself name rfl)) fun r => ?_
    cases r with
    | none => exact .pure _ none
    | some target => exact .pure _ _
  | binary operator left right span =>
    simp only [Expression.inner, spells_append] at h
    simp only [Expression.relabel, Lowering.expression]
    cases operator.toIR? with
    | none => exact commutes_reject_none _ _ span
    | some op =>
      refine .bind (commutes_expression left h.1) fun r => ?_
      cases r with
      | none => exact .pure _ none
      | some lhs =>
        refine .bind (commutes_expression right h.2) fun r => ?_
        cases r with
        | none => exact .pure _ none
        | some rhs => exact .pure _ (some (Expr.binary op lhs rhs span))
  | assignment operator left right span =>
    simp only [Expression.inner, spells_append] at h
    cases operator with
    | assign =>
      simp only [Expression.relabel, Lowering.expression]
      refine .bind commutes_currentBlock fun b => .bind (commutes_freshTemp b span) fun temp => ?_
      refine .bind (commutes_expression right h.2) fun r => ?_
      cases r with
      | none => exact .pure _ none
      | some value =>
        refine .bind (commutes_addStmt b (.assign ⟨temp, span⟩ value span)) fun _ => ?_
        refine .bind (commutes_expression left h.1) fun r => ?_
        cases r with
        | none => exact .pure _ none
        | some target =>
          cases target with
          | ref target =>
            refine .bind (commutes_addStmt b (.assign target (.ref ⟨temp, span⟩) span)) fun _ => ?_
            exact .pure _ (some (Expr.ref ⟨temp, span⟩))
          | int | float | binary | func | call =>
            simp only [Expression.kind_relabel, Expression.span_relabel]
            exact commutes_reject_none _ _ left.span
    | addAssign | subtractAssign | multiplyAssign | divideAssign | moduloAssign =>
      simp only [Expression.relabel, Lowering.expression]
      exact commutes_reject_none _ _ span
  | call callee typeArgs args span =>
    simp only [Expression.inner, spells_append] at h
    simp only [Expression.relabel, Lowering.expression, ascriptionsSpan?_relabel]
    cases ascriptionsSpan? typeArgs with
    | some place => exact commutes_reject_none _ _ place
    | none =>
      refine .bind (commutes_expression callee h.1.1) fun r => ?_
      cases r with
      | none => exact .pure _ none
      | some target =>
        refine .bind (commutes_expressions args h.2) fun r => ?_
        cases r with
        | none => exact .pure _ none
        | some values => exact .pure _ (some (Expr.call target values span))
  | function name typeParams params result body span =>
    simp only [Expression.inner, spells_append, spells_enterKind] at h
    simp only [Expression.relabel, Lowering.expression, Block.span_relabel]
    refine .bind commutes_currentBlock fun b => .bind (commutes_createChild b body.span) fun c => ?_
    have hbody := commutes_group body h.2.2
    exact .bind (commutes_functionBody typeParams params h.1.1.2 hbody) fun _ =>
      .pure _ (some (Expr.func c span))
  | parenthesized inner span =>
    simp only [Expression.inner] at h
    simp only [Expression.relabel, Lowering.expression]
    exact commutes_expression inner h
  | string | template | boolean | null | this | super | array | object | unary | logical
  | conditional | member | index | new | comma | instanceOf | typeCast =>
    simp only [Expression.relabel, Lowering.expression]
    exact commutes_reject_none _ _ _

theorem commutes_expressions (es : List Expression)
    (h : Spells (f.Translates names names') (innerExpressions everywhere es)) :
    Commutes f (Option.map (relabelExprs f)) (Lower.expressions names es)
      (Lower.expressions names' (relabelExpressions f es)) := by
  cases es with
  | nil =>
    simp only [relabelExpressions, Lowering.expressions]
    exact .pure _ (some [])
  | cons e rest =>
    simp only [innerExpressions, spells_append] at h
    simp only [relabelExpressions, Lowering.expressions]
    refine .bind (commutes_expression e h.1) fun r => ?_
    cases r with
    | none => exact .pure _ none
    | some v =>
      refine .bind (commutes_expressions rest h.2) fun r => ?_
      cases r with
      | none => exact .pure _ none
      | some vs => exact .pure _ (some (v :: vs))

theorem commutes_initialValue {b : BlockId} (target : DeclRef) (span : Span)
    (e : Option Expression)
    (h : Spells (f.Translates names names') (innerExpression? everywhere e)) :
    Commutes f id (Lower.initialValue names b target span e)
      (Lower.initialValue names' b (target.relabel f) (f.span span) (relabelExpression? f e)) := by
  cases e with
  | none =>
    simp only [relabelExpression?, Lowering.initialValue]
    exact .pure _ ()
  | some e =>
    simp only [innerExpression?] at h
    simp only [relabelExpression?, Lowering.initialValue]
    refine .bind (commutes_expression e h) fun r => ?_
    cases r with
    | none => exact .pure _ ()
    | some v => exact commutes_addStmt b (.assign target v span)

theorem commutes_variableDecl (d : VariableDecl)
    (h : Spells (f.Translates names names') (d.inner everywhere)) :
    Commutes f id (Lower.variableDecl names d) (Lower.variableDecl names' (d.relabel f)) := by
  obtain ⟨kind, pattern, type, initial, span⟩ := d
  simp only [VariableDecl.inner, spells_append] at h
  simp only [VariableDecl.relabel]
  cases pattern with
  | identifier name =>
    have hname : f.Translates names names' name := h.1.1 name (.head _)
    simp only [Pattern.relabel, Lowering.variableDecl]
    refine .bind (commutes_ascription? type h.1.2) fun r => .bind commutes_currentBlock fun b => ?_
    refine .bind (commutes_addNamed hname r (fun h => by cases h) span) fun d => ?_
    exact commutes_initialValue ⟨d, name.span⟩ span initial h.2
  | array _ place | object _ place =>
    simp only [Pattern.relabel, Lowering.variableDecl]
    exact commutes_reject _ place

theorem commutes_functionDecl (d : FunctionDecl)
    (h : Spells (f.Translates names names') (d.inner everywhere)) :
    Commutes f id (Lower.functionDecl names d) (Lower.functionDecl names' (d.relabel f)) := by
  obtain ⟨name, typeParams, params, result, body, span⟩ := d
  simp only [FunctionDecl.inner, spells_append, spells_enterKind, spells_visitIdent] at h
  simp only [FunctionDecl.relabel, Lowering.functionDecl, Block.span_relabel]
  have hname : f.Translates names names' name := h.1.1.1.1
  refine .bind commutes_currentBlock fun b => ?_
  refine .bind (commutes_addNamed hname none (fun h => by cases h) name.span) fun d => ?_
  have hlink : Commutes f id (Lower.linkHoisted b (names.resolve name.name) d)
      (Lower.linkHoisted b (names'.resolve (name.relabel f).name) d) := by
    rw [hname]
    exact commutes_linkHoisted b _ d
  refine .bind hlink fun _ => .bind (commutes_createChild b body.span) fun c => ?_
  refine .bind (commutes_addStmt b (.assign ⟨d, name.span⟩ (.func c span) span)) fun _ => ?_
  exact commutes_functionBody typeParams params h.1.1.2 (commutes_group body h.2.2)

theorem commutes_group (g : Source.Block)
    (h : Spells (f.Translates names names') (g.inner everywhere)) :
    Commutes f id (Lower.group names g) (Lower.group names' (g.relabel f)) := by
  obtain ⟨statements, span⟩ := g
  simp only [Block.inner] at h
  simp only [Source.Block.relabel, Lowering.group]
  exact commutes_statementList statements h

theorem commutes_statementAt (branch : Bool) (st : Statement)
    (h : Spells (f.Translates names names') (st.inner everywhere)) :
    Commutes f id (Lower.statementAt names branch st)
      (Lower.statementAt names' branch (st.relabel f)) := by
  cases st with
  | variableDecl d =>
    simp only [Statement.inner] at h
    simp only [Statement.relabel, Lowering.statementAt]
    exact commutes_variableDecl d h
  | functionDecl d =>
    simp only [Statement.inner] at h
    simp only [Statement.relabel, Lowering.statementAt]
    exact commutes_functionDecl d h
  | namespaceDecl name members span =>
    simp only [Statement.inner, spells_append] at h
    simp only [Statement.relabel, Lowering.statementAt]
    refine .bind commutes_currentBlock fun b => .bind (commutes_createChild b span) fun c => ?_
    exact commutes_inBlock c (commutes_statementList members h.2)
  | expression value span =>
    simp only [Statement.inner] at h
    simp only [Statement.relabel, Lowering.statementAt]
    refine .bind (commutes_expression value h) fun r => ?_
    cases r with
    | none => exact .pure _ ()
    | some v => exact .bind commutes_currentBlock fun b => commutes_addStmt b (.drop v span)
  | ifElse condition thenBranch elseBranch span =>
    simp only [Statement.inner, spells_append, spells_enterStatement] at h
    simp only [Statement.relabel, Lowering.statementAt, Statement.span_relabel]
    refine .bind (commutes_expression condition h.1.1) fun r => ?_
    cases r with
    | none => exact .pure _ ()
    | some cond =>
      refine .bind commutes_currentBlock fun b => ?_
      refine .bind (commutes_createChild b thenBranch.span) fun c => ?_
      refine .bind (commutes_elseBlock? elseBranch) fun e => ?_
      refine .bind (commutes_addStmt b (.ifElse cond c e span)) fun _ => ?_
      refine .bind (commutes_inBlock c (commutes_statementAt true thenBranch h.1.2)) fun _ => ?_
      exact commutes_elseBody e elseBranch h.2
  | whileLoop condition body span =>
    simp only [Statement.inner, spells_append, spells_enterStatement] at h
    simp only [Statement.relabel, Lowering.statementAt, Statement.span_relabel]
    refine .bind (commutes_expression condition h.1) fun r => ?_
    cases r with
    | none => exact .pure _ ()
    | some cond =>
      refine .bind commutes_currentBlock fun b => ?_
      refine .bind (commutes_createChild b body.span) fun c => ?_
      refine .bind (commutes_addStmt b (.whileLoop cond c span)) fun _ => ?_
      exact commutes_inBlock c (commutes_statementAt true body h.2)
  | block braces =>
    simp only [Statement.inner] at h
    simp only [Statement.relabel, Lowering.statementAt, Block.span_relabel]
    cases branch with
    | true => exact commutes_group braces h
    | false =>
      refine .bind commutes_currentBlock fun b => ?_
      refine .bind (commutes_createChild b braces.span) fun c => ?_
      exact commutes_inBlock c (commutes_group braces h)
  | empty span =>
    simp only [Statement.relabel, Lowering.statementAt]
    exact .pure _ ()
  | classDecl | typeAlias | importDecl | exportDecl | switch | doWhile | forLoop | forOf | breakTo
  | continueTo | returnValue | throwValue | tryCatch =>
    simp only [Statement.relabel, Lowering.statementAt]
    exact commutes_reject _ _

theorem commutes_elseBody (e : Option BlockId) (branch : Option Statement)
    (h : Spells (f.Translates names names') (innerStatement? everywhere branch)) :
    Commutes f id (Lower.elseBody names e branch)
      (Lower.elseBody names' e (relabelStatement? f branch)) := by
  cases branch with
  | none => cases e <;> simp only [relabelStatement?, Lowering.elseBody] <;> exact .pure _ ()
  | some st =>
    simp only [innerStatement?, spells_enterStatement] at h
    cases e with
    | none =>
      simp only [relabelStatement?, Lowering.elseBody]
      exact .pure _ ()
    | some c =>
      simp only [relabelStatement?, Lowering.elseBody]
      exact commutes_inBlock c (commutes_statementAt true st h)

theorem commutes_statementList (sts : List Statement)
    (h : Spells (f.Translates names names') (innerStatements everywhere sts)) :
    Commutes f id (Lower.statementList names sts)
      (Lower.statementList names' (relabelStatements f sts)) := by
  cases sts with
  | nil =>
    simp only [relabelStatements, Lowering.statementList]
    exact .pure _ ()
  | cons st rest =>
    simp only [innerStatements, spells_append, spells_enterStatement] at h
    simp only [relabelStatements, Lowering.statementList]
    exact .bind (commutes_statementAt false st h.1) fun _ => commutes_statementList rest h.2

end

/-! ## Modules -/

/-- The functions of a module are named by identifiers of the module. -/
theorem functionName_of_spells {P : Ident → Prop} {m : Module}
    (h : Spells P (innerStatements everywhere m.statements)) : ∀ id ∈ m.functionNames, P id := by
  obtain ⟨statements, span⟩ := m
  unfold Module.functionNames
  dsimp only at h ⊢
  induction statements with
  | nil => simp
  | cons st rest ih =>
    simp only [innerStatements, spells_append, spells_enterStatement] at h
    have hrest := ih h.2
    cases st with
    | functionDecl d =>
      obtain ⟨name, typeParams, params, result, body, span⟩ := d
      simp only [Statement.inner, FunctionDecl.inner, spells_append, spells_visitIdent] at h
      intro id hid
      rcases List.mem_cons.1 hid with rfl | hid
      · exact h.1.1.1.1.1
      · exact hrest id hid
    | _ => exact hrest

theorem commutes_hoist (unit : BlockId) (ids : List Ident)
    (h : ∀ id ∈ ids, f.Translates names names' id) :
    Commutes f id (Lower.hoist names unit ids)
      (Lower.hoist names' unit (ids.map (Ident.relabel f))) := by
  induction ids with
  | nil => exact .pure _ ()
  | cons name rest ih =>
    obtain ⟨hname, hrest⟩ := List.forall_mem_cons.1 h
    exact .bind (commutes_addNamed hname none (fun h => by cases h) name.span) fun _ => ih hrest

theorem commutes_placeholders (unit : BlockId) (ids : List Ident)
    (h : ∀ id ∈ ids, f.Translates names names' id) :
    Commutes f id (Lower.placeholders names unit ids)
      (Lower.placeholders names' unit (ids.map (Ident.relabel f))) := by
  refine .get fun s => ?_
  show CommutesAt f id s (if s.options.hoisting = true then _ else _)
    (if s.options.hoisting = true then _ else _)
  by_cases hhoist : s.options.hoisting = true
  · rw [if_pos hhoist, if_pos hhoist]
    exact commutes_hoist unit ids h s
  · rw [if_neg hhoist, if_neg hhoist]
    exact Commutes.pure _ () s

theorem commutes_unitBlock (unit : BlockId) (m : Module)
    (h : Spells (f.Translates names names') (innerStatements everywhere m.statements)) :
    Commutes f id (Lower.unitBlock names unit m) (Lower.unitBlock names' unit (m.relabel f)) := by
  have hset : ∀ body?, Commutes f id (Lower.setUnitBody body?) (Lower.setUnitBody body?) :=
    fun _ => .modify fun t => rfl
  unfold Lower.unitBlock Lowering.unitBlock
  rw [Module.functionNames_relabel]
  refine .bind (commutes_placeholders unit m.functionNames (functionName_of_spells h)) fun _ => ?_
  refine .bind (commutes_createChild unit m.span) fun body => .get fun s => ?_
  refine Commutes.bind (hset (some body)) (fun _ => ?_) s
  refine .bind (commutes_inBlock body (commutes_statementList m.statements h)) fun _ => ?_
  exact hset _

theorem commutes_module (m : Module)
    (h : Spells (f.Translates names names') (innerStatements everywhere m.statements)) :
    Commutes f id (Lower.module names m) (Lower.module names' (m.relabel f)) := by
  have htypes : Commutes f id Lower.ensureTypeScope Lower.ensureTypeScope := by
    intro s
    refine Prod.ext rfl ?_
    show (Lower.ensureTypeScope.run (s.relabel f)).2 = (Lower.ensureTypeScope.run s).2.relabel f
    have hscope : (s.relabel f).arena.createTypeScope (s.relabel f).options.builtinTypes = _ :=
      s.arena.relabel_createTypeScope s.options.builtinTypes
    rw [run_ensureTypeScope_eq, run_ensureTypeScope_eq, hscope]
    show (if s.typeScopes.isEmpty = true then _ else _) = _
    by_cases hempty : s.typeScopes.isEmpty = true
    · rw [if_pos hempty, if_pos hempty]
      rfl
    · rw [if_neg hempty, if_neg hempty]
  refine .bind htypes fun _ => .bind (commutes_createRoot m.span) fun unit => ?_
  exact .bind (commutes_inBlock unit (commutes_unitBlock unit m h)) fun _ => .pure _ unit

/-- Lowering a relabelled module gives the relabelled session. -/
theorem lowerModule_relabel {m : Module}
    (h : ∀ id ∈ (Node.module m).identifiers, f.Translates names names' id) (options : Options) :
    lowerModule names' (m.relabel f) (options.relabel f) =
      (lowerModule names m options).relabel f :=
  congrArg Prod.snd (commutes_module m (spells_identifiers h) (initial options))

end

end BlockLowering
