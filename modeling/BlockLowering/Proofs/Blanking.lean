import BlockLowering.Proofs.Reports

/-!
# Statements that are not supported

Replace every statement that is not supported, wherever lowering comes to it, by an empty statement
at the same place. Lowering then builds the same arena: nothing that it does depends on the log, and
a rejected statement only adds to the log. The records of the new module are those of the old one
without the records of the statements that were replaced.
-/

namespace BlockLowering

open IR Diagnostic Source Session

/-! ## Blanking -/

namespace Source

mutual

/-- The expression with statements blanked in the function bodies that lowering comes to. -/
def Expression.blanked : Expression → Expression
  | .binary operator left right span => .binary operator left.blanked right.blanked span
  | .assignment operator left right span => .assignment operator left.blanked right.blanked span
  | .call callee typeArgs args span => .call callee.blanked typeArgs (blankedExpressions args) span
  | .function name typeParams params result body span =>
    .function name typeParams params result body.blanked span
  | .parenthesized inner span => .parenthesized inner.blanked span
  | other => other

def blankedExpressions : List Expression → List Expression
  | [] => []
  | e :: rest => e.blanked :: blankedExpressions rest

def blankedInitial : Option Expression → Option Expression
  | none => none
  | some e => some e.blanked

def VariableDecl.blanked : VariableDecl → VariableDecl
  | ⟨kind, pattern, type, initial, span⟩ => ⟨kind, pattern, type, blankedInitial initial, span⟩

def FunctionDecl.blanked : FunctionDecl → FunctionDecl
  | ⟨name, typeParams, params, result, body, span⟩ =>
    ⟨name, typeParams, params, result, body.blanked, span⟩

def Block.blanked : Block → Block
  | ⟨statements, span⟩ => ⟨blankedStatements statements, span⟩

/-- The empty statement in place of a statement that is not supported; other statements are blanked
inside. -/
def Statement.blanked : Statement → Statement
  | .variableDecl decl =>
    if decl.pattern.identifier?.isSome then .variableDecl decl.blanked else .empty decl.span
  | .functionDecl decl => .functionDecl decl.blanked
  | .namespaceDecl name members span => .namespaceDecl name (blankedStatements members) span
  | .expression value span => .expression value.blanked span
  | .ifElse condition thenBranch elseBranch span =>
    .ifElse condition.blanked thenBranch.blanked (blankedElse elseBranch) span
  | .whileLoop condition body span => .whileLoop condition.blanked body.blanked span
  | .block braces => .block braces.blanked
  | other => .empty other.span

def blankedElse : Option Statement → Option Statement
  | none => none
  | some branch => some branch.blanked

def blankedStatements : List Statement → List Statement
  | [] => []
  | s :: rest => s.blanked :: blankedStatements rest

end

/-- The module with every statement blanked that is not supported. -/
def Module.blanked (m : Module) : Module := ⟨blankedStatements m.statements, m.span⟩

/-! ## What blanking keeps -/

@[simp] theorem Block.span_blanked (b : Block) : b.blanked.span = b.span := by
  obtain ⟨statements, span⟩ := b
  simp only [Block.blanked]

@[simp] theorem Statement.span_blanked (s : Statement) : s.blanked.span = s.span := by
  cases s with
  | variableDecl decl =>
    obtain ⟨kind, pattern, type, initial, span⟩ := decl
    cases pattern <;> simp [Statement.blanked, VariableDecl.blanked, Statement.span,
      Pattern.identifier?]
  | functionDecl decl =>
    obtain ⟨name, typeParams, params, result, body, span⟩ := decl
    simp [Statement.blanked, FunctionDecl.blanked, Statement.span]
  | block braces => simp [Statement.blanked, Statement.span]
  | _ => simp only [Statement.blanked, Statement.span]

@[simp] theorem Statement.declared_blanked (names : SymbolTable) (s : Statement) :
    s.blanked.declared names = s.declared names := by
  cases s with
  | variableDecl decl =>
    obtain ⟨kind, pattern, type, initial, span⟩ := decl
    cases pattern <;> simp [Statement.blanked, VariableDecl.blanked, Statement.declared,
      Pattern.identifier?]
  | functionDecl decl =>
    obtain ⟨name, typeParams, params, result, body, span⟩ := decl
    simp [Statement.blanked, FunctionDecl.blanked, Statement.declared]
  | _ => simp only [Statement.blanked, Statement.declared]

@[simp] theorem Module.functionNames_blanked (m : Module) :
    m.blanked.functionNames = m.functionNames := by
  obtain ⟨statements, span⟩ := m
  unfold Module.functionNames Module.blanked
  dsimp only
  induction statements with
  | nil => simp only [blankedStatements]
  | cons s rest ih =>
    simp only [blankedStatements, List.filterMap_cons, ih]
    congr 1
    cases s with
    | variableDecl decl =>
      obtain ⟨kind, pattern, type, initial, span⟩ := decl
      cases pattern <;> simp [Statement.blanked, Pattern.identifier?]
    | functionDecl decl =>
      obtain ⟨name, typeParams, params, result, body, span⟩ := decl
      simp [Statement.blanked, FunctionDecl.blanked]
    | _ => simp only [Statement.blanked]

@[simp] theorem Expression.kind_blanked (e : Expression) : e.blanked.kind = e.kind := by
  cases e <;> simp only [Expression.blanked, Expression.kind]

@[simp] theorem Expression.span_blanked (e : Expression) : e.blanked.span = e.span := by
  cases e <;> simp only [Expression.blanked, Expression.span]

@[simp] theorem Expression.isTarget_blanked : ∀ e : Expression, e.blanked.isTarget = e.isTarget
  | .parenthesized inner _ => by
    simp only [Expression.blanked, Expression.isTarget]
    exact inner.isTarget_blanked
  | .int .. | .float .. | .string .. | .template .. | .boolean .. | .null .. | .this .. | .super ..
  | .identifier .. | .array .. | .object .. | .unary .. | .binary .. | .logical .. | .assignment ..
  | .conditional .. | .call .. | .member .. | .index .. | .new .. | .function .. | .comma ..
  | .instanceOf .. | .typeCast .. => by
    simp only [Expression.blanked, Expression.isTarget]

mutual

@[simp] theorem Expression.lowers_blanked (names : SymbolTable) (env : Env) :
    ∀ e : Expression, e.blanked.lowers names env = e.lowers names env
  | .binary _ left right _ => by
    simp only [Expression.blanked, Expression.lowers, left.lowers_blanked, right.lowers_blanked]
  | .assignment operator left right _ => by
    simp only [Expression.blanked, Expression.lowers, left.lowers_blanked, right.lowers_blanked,
      left.isTarget_blanked]
  | .call callee _ args _ => by
    simp only [Expression.blanked, Expression.lowers, callee.lowers_blanked, lowersAll_blanked]
  | .parenthesized inner _ => by
    simp only [Expression.blanked, Expression.lowers, inner.lowers_blanked]
  | .int .. | .float .. | .string .. | .template .. | .boolean .. | .null .. | .this .. | .super ..
  | .identifier .. | .array .. | .object .. | .unary .. | .logical .. | .conditional .. | .member ..
  | .index .. | .new .. | .function .. | .comma .. | .instanceOf .. | .typeCast .. => by
    simp only [Expression.blanked, Expression.lowers]

@[simp] theorem lowersAll_blanked (names : SymbolTable) (env : Env) :
    ∀ es : List Expression, lowersAll names env (blankedExpressions es) = lowersAll names env es
  | [] => by simp only [blankedExpressions]
  | e :: rest => by
    simp only [blankedExpressions, lowersAll, e.lowers_blanked, lowersAll_blanked]

end

end Source

/-! ## Lowering does not read its log -/

section

variable {names : SymbolTable} {α β : Type}

/-- From `s`, and from `s` with another log, `x` and `y` give the same result and the same state but
for the log. -/
def SameAt (s : Session) (log : Log) (x y : Lower α) : Prop :=
  ∃ log', y.run { s with log } = ((x.run s).1, { (x.run s).2 with log := log' })

/-- From states that are the same but for the log, `x` and `y` do the same but for the log. -/
def Same (x y : Lower α) : Prop := ∀ s log, SameAt s log x y

theorem Same.pure (a : α) : Same (pure a : Lower α) (pure a) := fun _ log => ⟨log, rfl⟩

theorem Same.bind {x y : Lower α} {f g : α → Lower β} (hx : Same x y) (hf : ∀ a, Same (f a) (g a)) :
    Same (x >>= f) (y >>= g) := by
  intro s log
  obtain ⟨log₁, h₁⟩ := hx s log
  obtain ⟨log₂, h₂⟩ := hf (x.run s).1 (x.run s).2 log₁
  refine ⟨log₂, ?_⟩
  rw [Lower.run_bind, h₁]
  exact h₂

/-- Reading the state: what follows may depend on all of it but the log. -/
theorem Same.get {f g : Session → Lower α} (h : ∀ s log, SameAt s log (f s) (g { s with log })) :
    Same (MonadState.get >>= f) (MonadState.get >>= g) := h

theorem Same.report (p q : Problem) : Same (Lower.report p) (Lower.report q) :=
  fun _ _ => ⟨_, rfl⟩

/-- A report is the same as nothing. -/
theorem Same.report_pure (p : Problem) : Same (Lower.report p) (Pure.pure ()) :=
  fun _ log => ⟨log, rfl⟩

theorem Same.reject_none (construct construct' : String) (span span' : Span) :
    Same (do Lower.reject construct span; return (none : Option α))
      (do Lower.reject construct' span'; return none) :=
  .bind (.report _ _) fun _ => .pure none

theorem same_createRoot (span : Span) : Same (Lower.createRoot span) (Lower.createRoot span) :=
  fun _ log => ⟨log, rfl⟩

theorem same_createChild (b : BlockId) (span : Span) :
    Same (Lower.createChild b span) (Lower.createChild b span) := by
  refine .get fun s log => ⟨log, ?_⟩
  rcases s.arena.createChild b span with ⟨arena, _ | _⟩ <;> rfl

theorem same_addDecl (b : BlockId) (name : String) (type : Option TypeRef) (kind : DeclKind)
    (span : Span) :
    Same (Lower.addDecl b name type kind span) (Lower.addDecl b name type kind span) := by
  refine .get fun s log => ⟨log, ?_⟩
  rcases s.arena.addDecl b name type kind span with ⟨arena, _ | _⟩ <;> rfl

theorem same_addStmt (b : BlockId) (stmt : Stmt) :
    Same (Lower.addStmt b stmt) (Lower.addStmt b stmt) := by
  refine .get fun s log => ⟨log, ?_⟩
  dsimp only
  cases s.arena.addStmt b stmt <;> rfl

theorem same_sealBlock (b : BlockId) : Same (Lower.sealBlock b) (Lower.sealBlock b) := by
  refine .get fun s log => ⟨log, ?_⟩
  dsimp only
  cases s.arena.sealBlock b <;> rfl

theorem same_currentBlock : Same Lower.currentBlock Lower.currentBlock := by
  intro s log
  refine ⟨log, ?_⟩
  cases hb : s.current? with
  | some b =>
    rw [Lower.run_currentBlock_some hb]
    exact Lower.run_currentBlock_some hb
  | none =>
    have hnil : s.openBlocks = [] := List.head?_eq_none_iff.1 hb
    rw [Lower.run_currentBlock_none hnil]
    exact Lower.run_currentBlock_none hnil

/-- The stack taken down by one, with a fault if `b` was not on top. -/
def Session.popped (b : BlockId) (s : Session) : Session :=
  { s with
    openBlocks := s.openBlocks.tail
    faults := if s.openBlocks.head? ≠ some b then s.faults ++ [.unbalanced b] else s.faults }

theorem run_closeBlock_eq (b : BlockId) (s : Session) :
    (Lower.closeBlock b).run s = (Lower.sealBlock b).run (s.popped b) := by
  unfold Lower.closeBlock Session.popped
  rw [Lower.run_bind, Lower.run_get, Lower.run_bind, Lower.run_set]
  by_cases h : s.openBlocks.head? ≠ some b
  · simp only [if_pos h]
    rfl
  · simp only [if_neg h]

theorem same_closeBlock (b : BlockId) : Same (Lower.closeBlock b) (Lower.closeBlock b) := by
  intro s log
  unfold SameAt
  rw [run_closeBlock_eq, run_closeBlock_eq]
  exact same_sealBlock b (s.popped b) log

theorem same_inBlock (b : BlockId) {x y : Lower Unit} (h : Same x y) :
    Same (Lower.inBlock b x) (Lower.inBlock b y) :=
  .bind (fun _ log => ⟨log, rfl⟩) fun _ => .bind h fun _ => same_closeBlock b

theorem same_freshTemp (b : BlockId) (span : Span) :
    Same (Lower.freshTemp b span) (Lower.freshTemp b span) := by
  intro s log
  exact same_addDecl b (s.options.tempPrefix ++ toString s.nextTemp) none .temporary span
    { s with nextTemp := s.nextTemp + 1 } log

theorem same_linkHoisted (b : BlockId) (name : String) (d : DeclId) :
    Same (Lower.linkHoisted b name d) (Lower.linkHoisted b name d) := by
  intro s log
  unfold SameAt
  rw [Lower.run_linkHoisted_eq, Lower.run_linkHoisted_eq]
  have hfree : ({ s with log } : Session).freePlaceholder? b name = s.freePlaceholder? b name := rfl
  refine ⟨log, ?_⟩
  rw [hfree]
  cases s.freePlaceholder? b name <;> rfl

theorem same_lookup (b : BlockId) (name : String) :
    Same (Lower.lookup b name) (Lower.lookup b name) := fun _ log => ⟨log, rfl⟩

theorem same_resolveName (id : Ident) :
    Same (Lower.resolveName names id) (Lower.resolveName names id) := by
  refine .bind same_currentBlock fun b => .bind (same_lookup b _) fun found => ?_
  cases found with
  | some d => exact .pure _
  | none => exact .bind (.report _ _) fun _ => .pure none

theorem same_ascription? (written : Option Ascription) :
    Same (Lower.ascription? names written) (Lower.ascription? names written) := by
  cases written with
  | none => exact .pure none
  | some a =>
    refine .get fun s log => ?_
    have hresolve : ({ s with log } : Session).resolveType names a = s.resolveType names a := rfl
    rw [hresolve]
    cases s.resolveType names a with
    | ok type => exact Same.pure _ s log
    | error problem => exact (Same.report _ _).bind (fun _ => .pure none) s log

theorem same_parameter (b : BlockId) (p : Parameter) :
    Same (Lower.parameter names b p) (Lower.parameter names b p) := by
  obtain ⟨kind, pattern, type, initial, span⟩ := p
  unfold Lower.parameter
  cases kind with
  | optional => exact .report _ _
  | rest => exact .report _ _
  | positional =>
    cases initial with
    | some e => exact .report _ _
    | none =>
      cases pattern with
      | array => exact .report _ _
      | object => exact .report _ _
      | identifier id =>
        refine .bind (same_ascription? type) fun r => ?_
        exact .bind (same_addDecl b _ r .param span) fun _ => .pure ()

theorem same_parameters (b : BlockId) (params : List Parameter) :
    Same (Lower.parameters names b params) (Lower.parameters names b params) := by
  induction params with
  | nil => exact .pure ()
  | cons p rest ih => exact .bind (same_parameter b p) fun _ => ih

theorem same_functionBody (b : BlockId) (typeParams : List TypeParameter) (params : List Parameter)
    {x y : Lower Unit} (h : Same x y) :
    Same (Lower.functionBody names b typeParams params x)
      (Lower.functionBody names b typeParams params y) := by
  have htypes : Same (Lower.typeParameters typeParams) (Lower.typeParameters typeParams) := by
    unfold Lower.typeParameters
    cases typeParamsSpan? typeParams with
    | none => exact .pure ()
    | some span => exact .report _ _
  exact .bind htypes fun _ => same_inBlock b (.bind (same_parameters b params) fun _ => h)

/-! ## Lowering what is blanked -/

theorem same_elseBlock? (b : BlockId) (branch : Option Statement) :
    Same (Lower.elseBlock? b branch) (Lower.elseBlock? b (blankedElse branch)) := by
  cases branch with
  | none =>
    simp only [blankedElse]
    exact .pure none
  | some st =>
    simp only [blankedElse, Lower.elseBlock?, Statement.span_blanked]
    exact .bind (same_createChild b st.span) fun c => .pure (some c)

mutual

theorem same_expression (e : Expression) :
    Same (Lower.expression names e) (Lower.expression names e.blanked) := by
  cases e with
  | int | float =>
    simp only [Expression.blanked, Lowering.expression]
    exact .pure _
  | identifier id =>
    simp only [Expression.blanked, Lowering.expression]
    exact .bind (same_resolveName id) fun r => .pure _
  | binary operator left right span =>
    simp only [Expression.blanked, Lowering.expression]
    cases operator.toIR? with
    | none => exact .reject_none _ _ _ _
    | some op =>
      refine .bind (same_expression left) fun r => ?_
      cases r with
      | none => exact .pure none
      | some lhs =>
        refine .bind (same_expression right) fun r => ?_
        cases r with
        | none => exact .pure none
        | some rhs => exact .pure _
  | assignment operator left right span =>
    cases operator with
    | assign =>
      simp only [Expression.blanked, Lowering.expression]
      refine .bind same_currentBlock fun b => .bind (same_freshTemp b span) fun temp => ?_
      refine .bind (same_expression right) fun r => ?_
      cases r with
      | none => exact .pure none
      | some value =>
        refine .bind (same_addStmt b _) fun _ => .bind (same_expression left) fun r => ?_
        cases r with
        | none => exact .pure none
        | some target =>
          cases target with
          | ref target => exact .bind (same_addStmt b _) fun _ => .pure _
          | int | float | binary | func | call => exact .reject_none _ _ _ _
    | addAssign | subtractAssign | multiplyAssign | divideAssign | moduloAssign =>
      simp only [Expression.blanked, Lowering.expression]
      exact .reject_none _ _ _ _
  | call callee typeArgs args span =>
    simp only [Expression.blanked, Lowering.expression]
    cases ascriptionsSpan? typeArgs with
    | some place => exact .reject_none _ _ _ _
    | none =>
      refine .bind (same_expression callee) fun r => ?_
      cases r with
      | none => exact .pure none
      | some f =>
        refine .bind (same_expressions args) fun r => ?_
        cases r with
        | none => exact .pure none
        | some values => exact .pure _
  | function name typeParams params result body span =>
    simp only [Expression.blanked, Lowering.expression, Block.span_blanked]
    refine .bind same_currentBlock fun b => .bind (same_createChild b body.span) fun c => ?_
    exact .bind (same_functionBody c typeParams params (same_group body)) fun _ => .pure _
  | parenthesized inner span =>
    simp only [Expression.blanked, Lowering.expression]
    exact same_expression inner
  | string | template | boolean | null | this | super | array | object | unary | logical
  | conditional | member | index | new | comma | instanceOf | typeCast =>
    simp only [Expression.blanked, Lowering.expression]
    exact .reject_none _ _ _ _

theorem same_expressions (es : List Expression) :
    Same (Lower.expressions names es) (Lower.expressions names (blankedExpressions es)) := by
  cases es with
  | nil =>
    simp only [blankedExpressions, Lowering.expressions]
    exact .pure _
  | cons e rest =>
    simp only [blankedExpressions, Lowering.expressions]
    refine .bind (same_expression e) fun r => ?_
    cases r with
    | none => exact .pure none
    | some v =>
      refine .bind (same_expressions rest) fun r => ?_
      cases r with
      | none => exact .pure none
      | some vs => exact .pure _

theorem same_initialValue (b : BlockId) (target : DeclRef) (span : Span) (e : Option Expression) :
    Same (Lower.initialValue names b target span e)
      (Lower.initialValue names b target span (blankedInitial e)) := by
  cases e with
  | none =>
    simp only [blankedInitial, Lowering.initialValue]
    exact .pure ()
  | some e =>
    simp only [blankedInitial, Lowering.initialValue]
    refine .bind (same_expression e) fun r => ?_
    cases r with
    | none => exact .pure ()
    | some v => exact same_addStmt b _

theorem same_variableDecl (d : VariableDecl) :
    Same (Lower.variableDecl names d) (Lower.variableDecl names d.blanked) := by
  obtain ⟨kind, pattern, type, initial, span⟩ := d
  simp only [VariableDecl.blanked]
  cases pattern with
  | identifier id =>
    simp only [Lowering.variableDecl]
    refine .bind (same_ascription? type) fun r => .bind same_currentBlock fun b => ?_
    refine .bind (same_addDecl b _ r .localVar span) fun d => ?_
    exact same_initialValue b ⟨d, id.span⟩ span initial
  | array | object =>
    simp only [Lowering.variableDecl]
    exact .report _ _

theorem same_functionDecl (d : FunctionDecl) :
    Same (Lower.functionDecl names d) (Lower.functionDecl names d.blanked) := by
  obtain ⟨id, typeParams, params, result, body, span⟩ := d
  simp only [FunctionDecl.blanked, Lowering.functionDecl, Block.span_blanked]
  refine .bind same_currentBlock fun b => .bind (same_addDecl b _ none .function id.span) fun d => ?_
  refine .bind (same_linkHoisted b _ d) fun _ => .bind (same_createChild b body.span) fun c => ?_
  refine .bind (same_addStmt b _) fun _ => ?_
  exact same_functionBody c typeParams params (same_group body)

theorem same_group (g : Source.Block) : Same (Lower.group names g) (Lower.group names g.blanked) := by
  obtain ⟨statements, span⟩ := g
  simp only [Block.blanked, Lowering.group]
  exact same_statementList statements

theorem same_statementAt (branch : Bool) (st : Statement) :
    Same (Lower.statementAt names branch st) (Lower.statementAt names branch st.blanked) := by
  cases st with
  | variableDecl d =>
    have hsame : Same (Lower.variableDecl names d) _ := same_variableDecl d
    obtain ⟨kind, pattern, type, initial, span⟩ := d
    cases pattern with
    | identifier id =>
      simp only [Statement.blanked, Pattern.identifier?, Option.isSome_some, if_true,
        Lowering.statementAt]
      exact hsame
    | array | object =>
      simp only [Statement.blanked, Pattern.identifier?, Option.isSome_none, Bool.false_eq_true,
        if_false, Lowering.statementAt, Lowering.variableDecl]
      exact .report_pure _
  | functionDecl d =>
    simp only [Statement.blanked, Lowering.statementAt]
    exact same_functionDecl d
  | namespaceDecl name members span =>
    simp only [Statement.blanked, Lowering.statementAt]
    refine .bind same_currentBlock fun b => .bind (same_createChild b span) fun c => ?_
    exact same_inBlock c (same_statementList members)
  | expression value span =>
    simp only [Statement.blanked, Lowering.statementAt]
    refine .bind (same_expression value) fun r => ?_
    cases r with
    | none => exact .pure ()
    | some v => exact .bind same_currentBlock fun b => same_addStmt b _
  | ifElse condition thenBranch elseBranch span =>
    simp only [Statement.blanked, Lowering.statementAt, Statement.span_blanked]
    refine .bind (same_expression condition) fun r => ?_
    cases r with
    | none => exact .pure ()
    | some cond =>
      refine .bind same_currentBlock fun b => .bind (same_createChild b thenBranch.span) fun c => ?_
      refine .bind (same_elseBlock? b elseBranch) fun e => .bind (same_addStmt b _) fun _ => ?_
      refine .bind (same_inBlock c (same_statementAt true thenBranch)) fun _ => ?_
      exact same_elseBody e elseBranch
  | whileLoop condition body span =>
    simp only [Statement.blanked, Lowering.statementAt, Statement.span_blanked]
    refine .bind (same_expression condition) fun r => ?_
    cases r with
    | none => exact .pure ()
    | some cond =>
      refine .bind same_currentBlock fun b => .bind (same_createChild b body.span) fun c => ?_
      refine .bind (same_addStmt b _) fun _ => ?_
      exact same_inBlock c (same_statementAt true body)
  | block braces =>
    simp only [Statement.blanked, Lowering.statementAt, Block.span_blanked]
    cases branch with
    | true => exact same_group braces
    | false =>
      refine .bind same_currentBlock fun b => .bind (same_createChild b braces.span) fun c => ?_
      exact same_inBlock c (same_group braces)
  | empty span =>
    simp only [Statement.blanked, Lowering.statementAt]
    exact .pure ()
  | classDecl | typeAlias | importDecl | exportDecl | switch | doWhile | forLoop | forOf | breakTo
  | continueTo | returnValue | throwValue | tryCatch =>
    simp only [Statement.blanked, Lowering.statementAt]
    exact .report_pure _

theorem same_elseBody (e : Option BlockId) (branch : Option Statement) :
    Same (Lower.elseBody names e branch) (Lower.elseBody names e (blankedElse branch)) := by
  cases branch with
  | none => cases e <;> simp only [blankedElse, Lowering.elseBody] <;> exact .pure ()
  | some st =>
    cases e with
    | none =>
      simp only [blankedElse, Lowering.elseBody]
      exact .pure ()
    | some c =>
      simp only [blankedElse, Lowering.elseBody]
      exact same_inBlock c (same_statementAt true st)

theorem same_statementList (sts : List Statement) :
    Same (Lower.statementList names sts) (Lower.statementList names (blankedStatements sts)) := by
  cases sts with
  | nil =>
    simp only [blankedStatements, Lowering.statementList]
    exact .pure ()
  | cons st rest =>
    simp only [blankedStatements, Lowering.statementList]
    exact .bind (same_statementAt false st) fun _ => same_statementList rest

end

theorem same_hoist (unit : BlockId) (ids : List Ident) :
    Same (Lower.hoist names unit ids) (Lower.hoist names unit ids) := by
  induction ids with
  | nil => exact .pure ()
  | cons id rest ih => exact .bind (same_addDecl unit _ none _ id.span) fun _ => ih

theorem same_placeholders (unit : BlockId) (ids : List Ident) :
    Same (Lower.placeholders names unit ids) (Lower.placeholders names unit ids) := by
  refine .get fun s log => ?_
  by_cases h : s.options.hoisting = true
  · simp only [if_pos h]
    exact same_hoist unit ids s log
  · simp only [if_neg h]
    exact Same.pure () s log

theorem same_unitBlock (unit : BlockId) (m : Module) :
    Same (Lower.unitBlock names unit m) (Lower.unitBlock names unit m.blanked) := by
  unfold Lower.unitBlock Lowering.unitBlock
  rw [Module.functionNames_blanked]
  refine .bind (same_placeholders unit m.functionNames) fun _ => ?_
  refine .bind (same_createChild unit m.span) fun body => .get fun s log => ?_
  refine Same.bind (fun _ log => ⟨log, rfl⟩) (fun _ => ?_) s log
  exact .bind (same_inBlock body (same_statementList m.statements)) fun _ _ log => ⟨log, rfl⟩

/-- A module and the blanked module do the same but for the log. -/
theorem same_module (m : Module) : Same (Lower.module names m) (Lower.module names m.blanked) := by
  have htypes : Same Lower.ensureTypeScope Lower.ensureTypeScope := by
    intro s log
    refine ⟨log, Prod.ext rfl ?_⟩
    show (Lower.ensureTypeScope.run { s with log }).2 = { (Lower.ensureTypeScope.run s).2 with log }
    rw [run_ensureTypeScope_eq, run_ensureTypeScope_eq]
    by_cases h : s.typeScopes.isEmpty = true
    · simp only [if_pos h]
    · simp only [if_neg h]
  refine .bind htypes fun _ => .bind (same_createRoot m.span) fun unit => ?_
  exact .bind (same_inBlock unit (same_unitBlock unit m)) fun _ => .pure unit

theorem arena_lowerModule_blanked (names : SymbolTable) (m : Module) (options : Options) :
    (lowerModule names m.blanked options).arena = (lowerModule names m options).arena := by
  have hsame : Same (Lower.module names m) (Lower.module names m.blanked) := same_module m
  obtain ⟨log, h⟩ := hsame (initial options) .empty
  exact congrArg (fun r => r.2.arena) h

/-! ## What is found in what is blanked -/

/-- `left` is what is left of `found` without the whole statements, none of which is supported. -/
structure Drops (found left : List Finding) : Prop where
  rest : left = found.filter fun f => !f.isWhole
  unsupported : ∀ st, .whole st ∈ found → st.isUnsupported = true

namespace Drops

theorem nil : Drops [] [] := ⟨rfl, fun _ h => by cases h⟩

theorem part (p : Problem) : Drops [.part p] [.part p] := ⟨rfl, fun _ h => by simp at h⟩

theorem whole {st : Statement} (h : st.isUnsupported = true) : Drops [.whole st] [] := by
  refine ⟨rfl, fun st' h' => ?_⟩
  cases List.mem_singleton.1 h'
  exact h

theorem append {l l' r r' : List Finding} (hl : Drops l l') (hr : Drops r r') :
    Drops (l ++ r) (l' ++ r') := by
  refine ⟨?_, fun st h => ?_⟩
  · rw [List.filter_append, ← hl.rest, ← hr.rest]
  · rcases List.mem_append.1 h with h | h
    · exact hl.unsupported st h
    · exact hr.unsupported st h

theorem guarded {l l' : List Finding} (c : Bool) (h : Drops l l') :
    Drops (if c then l else []) (if c then l' else []) := by
  cases c with
  | true => exact h
  | false => exact .nil

theorem flatMap {l : List α} {f : α → List Finding} (h : ∀ a, Drops (f a) (f a)) :
    Drops (l.flatMap f) (l.flatMap f) := by
  induction l with
  | nil => exact .nil
  | cons a rest ih =>
    rw [List.flatMap_cons]
    exact (h a).append ih

theorem toList (p : Option Problem) : Drops (p.toList.map .part) (p.toList.map .part) := by
  cases p with
  | none => exact .nil
  | some p => exact .part p

end Drops

theorem drops_parameter (types : List String) (p : Parameter) :
    Drops (p.findings names types) (p.findings names types) := by
  obtain ⟨kind, pattern, type, initial, span⟩ := p
  unfold Parameter.findings
  cases kind with
  | optional => exact .part _
  | rest => exact .part _
  | positional =>
    cases initial with
    | some e => exact .part _
    | none =>
      cases pattern with
      | array => exact .part _
      | object => exact .part _
      | identifier id => exact .toList _

/-- What is found before the statements of a function. -/
theorem drops_signature (types : List String) (typeParams : List TypeParameter)
    (params : List Parameter) :
    Drops (typeParamFindings typeParams ++ params.flatMap (Parameter.findings names types))
      (typeParamFindings typeParams ++ params.flatMap (Parameter.findings names types)) := by
  have htypes : Drops (typeParamFindings typeParams) (typeParamFindings typeParams) := by
    unfold typeParamFindings
    cases typeParamsSpan? typeParams with
    | none => exact .nil
    | some span => exact .part _
  exact htypes.append (.flatMap (drops_parameter types))

mutual

theorem drops_expression (e : Expression) (env : Env) :
    Drops (e.findings names env) (e.blanked.findings names env) := by
  cases e with
  | int | float =>
    simp only [Expression.blanked, Expression.findings]
    exact .nil
  | identifier id =>
    simp only [Expression.blanked, Expression.findings]
    cases env.has (names.resolve id.name) with
    | true => exact .nil
    | false => exact .part _
  | binary operator left right span =>
    simp only [Expression.blanked, Expression.findings, Expression.lowers_blanked]
    cases operator.toIR? with
    | none => exact .part _
    | some op => exact (drops_expression left env).append (.guarded _ (drops_expression right env))
  | assignment operator left right span =>
    cases operator with
    | assign =>
      simp only [Expression.blanked, Expression.findings, Expression.lowers_blanked,
        Expression.isTarget_blanked, Expression.kind_blanked, Expression.span_blanked]
      refine (drops_expression right env).append (.guarded _ ?_)
      exact (drops_expression left env).append (.guarded _ (.part _))
    | addAssign | subtractAssign | multiplyAssign | divideAssign | moduloAssign =>
      simp only [Expression.blanked, Expression.findings]
      exact .part _
  | call callee typeArgs args span =>
    simp only [Expression.blanked, Expression.findings, Expression.lowers_blanked]
    cases ascriptionsSpan? typeArgs with
    | some place => exact .part _
    | none => exact (drops_expression callee env).append (.guarded _ (drops_expressions args env))
  | function name typeParams params result body span =>
    simp only [Expression.blanked, Expression.findings]
    exact (drops_signature env.types typeParams params).append (drops_group body _)
  | parenthesized inner span =>
    simp only [Expression.blanked, Expression.findings]
    exact drops_expression inner env
  | string | template | boolean | null | this | super | array | object | unary | logical
  | conditional | member | index | new | comma | instanceOf | typeCast =>
    simp only [Expression.blanked, Expression.findings]
    exact .part _

theorem drops_expressions (es : List Expression) (env : Env) :
    Drops (expressionsFindings names env es)
      (expressionsFindings names env (blankedExpressions es)) := by
  cases es with
  | nil =>
    simp only [blankedExpressions, expressionsFindings]
    exact .nil
  | cons e rest =>
    simp only [blankedExpressions, expressionsFindings, Expression.lowers_blanked]
    exact (drops_expression e env).append (.guarded _ (drops_expressions rest env))

theorem drops_initial (e : Option Expression) (env : Env) :
    Drops (initialFindings names env e) (initialFindings names env (blankedInitial e)) := by
  cases e with
  | none =>
    simp only [blankedInitial, initialFindings]
    exact .nil
  | some e =>
    simp only [blankedInitial, initialFindings]
    exact drops_expression e env

theorem drops_functionDecl (d : FunctionDecl) (env : Env) :
    Drops (d.findings names env) (d.blanked.findings names env) := by
  obtain ⟨id, typeParams, params, result, body, span⟩ := d
  simp only [FunctionDecl.blanked, FunctionDecl.findings]
  exact (drops_signature env.types typeParams params).append (drops_group body _)

theorem drops_group (g : Source.Block) (env : Env) :
    Drops (g.findings names env) (g.blanked.findings names env) := by
  obtain ⟨statements, span⟩ := g
  simp only [Block.blanked, Block.findings]
  exact drops_statements statements env

theorem drops_statement (branch : Bool) (st : Statement) (env : Env) :
    Drops (st.findings names branch env) (st.blanked.findings names branch env) := by
  cases st with
  | variableDecl d =>
    obtain ⟨kind, pattern, type, initial, span⟩ := d
    cases pattern with
    | identifier id =>
      simp only [Statement.blanked, Pattern.identifier?, Option.isSome_some, if_true,
        Statement.findings, VariableDecl.blanked, VariableDecl.findings]
      exact (Drops.toList _).append (drops_initial initial _)
    | array | object =>
      simp only [Statement.blanked, Pattern.identifier?, Option.isSome_none, Bool.false_eq_true,
        if_false, Statement.findings, VariableDecl.findings]
      exact .whole rfl
  | functionDecl d =>
    simp only [Statement.blanked, Statement.findings]
    exact drops_functionDecl d env
  | namespaceDecl name members span =>
    simp only [Statement.blanked, Statement.findings]
    exact drops_statements members _
  | expression value span =>
    simp only [Statement.blanked, Statement.findings]
    exact drops_expression value env
  | ifElse condition thenBranch elseBranch span =>
    simp only [Statement.blanked, Statement.findings, Expression.lowers_blanked]
    refine (drops_expression condition env).append (.guarded _ ?_)
    exact (drops_statement true thenBranch _).append (drops_else elseBranch _)
  | whileLoop condition body span =>
    simp only [Statement.blanked, Statement.findings, Expression.lowers_blanked]
    exact (drops_expression condition env).append (.guarded _ (drops_statement true body _))
  | block braces =>
    simp only [Statement.blanked, Statement.findings]
    exact drops_group braces _
  | empty span =>
    simp only [Statement.blanked, Statement.findings]
    exact .nil
  | classDecl | typeAlias | importDecl | exportDecl | switch | doWhile | forLoop | forOf | breakTo
  | continueTo | returnValue | throwValue | tryCatch =>
    simp only [Statement.blanked, Statement.findings]
    exact .whole rfl

theorem drops_else (branch : Option Statement) (env : Env) :
    Drops (elseFindings names env branch) (elseFindings names env (blankedElse branch)) := by
  cases branch with
  | none =>
    simp only [blankedElse, elseFindings]
    exact .nil
  | some st =>
    simp only [blankedElse, elseFindings]
    exact drops_statement true st env

theorem drops_statements (sts : List Statement) (env : Env) :
    Drops (statementsFindings names env sts)
      (statementsFindings names env (blankedStatements sts)) := by
  cases sts with
  | nil =>
    simp only [blankedStatements, statementsFindings]
    exact .nil
  | cons st rest =>
    simp only [blankedStatements, statementsFindings, Statement.declared_blanked]
    exact (drops_statement false st env).append (drops_statements rest _)

end

theorem drops_module (m : Module) (options : Options) :
    Drops (m.findings names options) (m.blanked.findings names options) := by
  unfold Module.findings Module.hoisted
  rw [Module.functionNames_blanked]
  exact drops_statements m.statements _

/-- Blanking the statements of a module that are not supported changes nothing in the arena. The
records of the module are those of its findings, in order; blanking takes away the records of the
whole statements among them, one for each statement that lowering reached and rejected, and leaves
the rest in order. -/
theorem lowerModule_blanked (names : SymbolTable) (m : Module) (options : Options) :
    let s := lowerModule names m options
    let t := lowerModule names m.blanked options
    let found := m.findings names options
    t.arena = s.arena ∧
    s.log.records = found.map Finding.record ∧
    t.log.records = (found.filter fun f => !f.isWhole).map Finding.record ∧
    ∀ st, .whole st ∈ found → st.isUnsupported = true := by
  intro s t found
  have hdrops : Drops found _ := drops_module m options
  refine ⟨arena_lowerModule_blanked names m options, records_lowerModule names m options, ?_,
    hdrops.unsupported⟩
  rw [← hdrops.rest]
  exact records_lowerModule names m.blanked options

end

end BlockLowering
