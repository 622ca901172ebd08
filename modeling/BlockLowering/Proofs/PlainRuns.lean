import Mathlib.Data.List.Forall2
import BlockLowering.Proofs.Blanking
import BlockLowering.Proofs.PlainForms

/-!
# Lowering plain forms

A module and its plain form are lowered to the same arena, and their records are the same, one by
one and in order, except for one kind: where a parenthesised expression cannot be assigned, the
record of the module tells of the parentheses and that of the plain form of what stands inside
(`lowerModule_plain`). Most of the two runs are equal as programs; where the logs differ, nothing
that follows depends on it.
-/

namespace BlockLowering

open IR Diagnostic Source Session

/-! ## Records -/

/-- The problem with an expression that cannot be assigned. -/
def Source.Expression.rejectedTarget (left : Expression) : Problem :=
  .unsupported ("assignment to " ++ left.kind.description) left.span

/-- Two records are the same, or they reject the target of one assignment: the first the target in
parentheses, the second what stands inside. -/
inductive Corresponds (src : Node → Prop) : Record → Record → Prop
  | same (r : Record) : Corresponds src r r
  | target {inner right : Expression} {place span : Span}
      (stands : src (.expression (.assignment .assign (.parenthesized inner place) right span)))
      (invalid : inner.isTarget = false) :
      Corresponds src (Expression.parenthesized inner place).rejectedTarget.record
        inner.unwrapped.rejectedTarget.record

section

variable {names : SymbolTable} {src : Node → Prop} {label : Ident} {α β : Type}

theorem corresponds_rejectedTarget {left right : Expression} {span : Span}
    (h : src (.expression (.assignment .assign left right span))) (hleft : left.isTarget = false) :
    Corresponds src left.rejectedTarget.record (left.plain label).rejectedTarget.record := by
  have hplain : (left.plain label).rejectedTarget = left.unwrapped.rejectedTarget := by
    unfold Expression.rejectedTarget
    rw [Expression.kind_plain, Expression.span_plain]
  rw [hplain]
  cases left with
  | parenthesized inner place => exact .target h hleft
  | _ => exact .same _

/-! ## Runs that differ in their records -/

/-- From `s`, and from `s` with another log, `x` and `y` give the same result and the same state but
for the log, and logs that correspond still do. -/
def ParallelAt (src : Node → Prop) (s : Session) (log : Log) (x y : Lower α) : Prop :=
  List.Forall₂ (Corresponds src) s.log.records log.records →
    ∃ log', List.Forall₂ (Corresponds src) (x.run s).2.log.records log'.records ∧
      y.run { s with log } = ((x.run s).1, { (x.run s).2 with log := log' })

/-- From states that are the same but for logs that correspond, `x` and `y` do the same, and the
logs correspond afterwards. -/
def Parallel (src : Node → Prop) (x y : Lower α) : Prop := ∀ s log, ParallelAt src s log x y

/-- All results of `x` have `P`. -/
def Returns (x : Lower α) (P : α → Prop) : Prop := ∀ s, P (x.run s).1

namespace Parallel

theorem pure (a : α) : Parallel src (pure a : Lower α) (pure a) := fun _ log h => ⟨log, h, rfl⟩

/-- What follows may rely on what is known of every result of the first part. -/
theorem bindKnown {x y : Lower α} {f g : α → Lower β} {P : α → Prop} (hx : Parallel src x y)
    (hP : Returns x P) (hf : ∀ a, P a → Parallel src (f a) (g a)) :
    Parallel src (x >>= f) (y >>= g) := by
  intro s log h
  obtain ⟨log₁, h₁, hrun₁⟩ := hx s log h
  obtain ⟨log₂, h₂, hrun₂⟩ := hf (x.run s).1 (hP s) (x.run s).2 log₁ h₁
  refine ⟨log₂, h₂, ?_⟩
  rw [Lower.run_bind, hrun₁]
  exact hrun₂

theorem bind {x y : Lower α} {f g : α → Lower β} (hx : Parallel src x y)
    (hf : ∀ a, Parallel src (f a) (g a)) : Parallel src (x >>= f) (y >>= g) :=
  hx.bindKnown (P := fun _ => True) (fun _ => trivial) fun a _ => hf a

/-- Reading the state: what follows may depend on all of it but the log. -/
theorem get {f g : Session → Lower α}
    (h : ∀ s log, ParallelAt src s log (f s) (g { s with log })) :
    Parallel src (MonadState.get >>= f) (MonadState.get >>= g) := h

theorem report {p q : Problem} (h : Corresponds src p.record q.record) :
    Parallel src (Lower.report p) (Lower.report q) := by
  intro s log hlog
  refine ⟨log.push q.record, ?_, rfl⟩
  exact List.rel_append hlog (.cons h .nil)

theorem reject (construct : String) (span : Span) :
    Parallel src (Lower.reject construct span) (Lower.reject construct span) :=
  .report (.same _)

theorem reject_none (construct : String) (span : Span) :
    Parallel src (do Lower.reject construct span; return (none : Option α))
      (do Lower.reject construct span; return none) :=
  .bind (.reject construct span) fun _ => .pure none

end Parallel

/-- `x` neither reads nor writes the log. -/
structure IgnoresLog (x : Lower α) : Prop where
  same : Same x x
  silent : Lower.Silent x

theorem IgnoresLog.parallel {x : Lower α} (h : IgnoresLog x) : Parallel src x x := by
  intro s log hlog
  obtain ⟨log', hrun⟩ := h.same s log
  have hkept : log' = log := by
    have hend := h.silent { s with log }
    rw [hrun] at hend
    exact hend
  refine ⟨log, ?_, hkept ▸ hrun⟩
  rw [h.silent s]
  exact hlog

theorem IgnoresLog.pure (a : α) : IgnoresLog (Pure.pure a : Lower α) := ⟨.pure a, .pure a⟩

theorem IgnoresLog.bind {x : Lower α} {f : α → Lower β} (hx : IgnoresLog x)
    (hf : ∀ a, IgnoresLog (f a)) : IgnoresLog (x >>= f) :=
  ⟨hx.same.bind fun a => (hf a).same, hx.silent.bind fun a => (hf a).silent⟩

theorem ignoresLog_modify {f : Session → Session} (hlog : ∀ s, (f s).log = s.log)
    (hsame : ∀ s log, f { s with log } = { f s with log }) : IgnoresLog (modify f : Lower Unit) :=
  ⟨fun s log => ⟨log, congrArg (Prod.mk ()) (hsame s log)⟩, hlog⟩

theorem ignoresLog_createRoot (span : Span) : IgnoresLog (Lower.createRoot span) :=
  ⟨same_createRoot span, fun _ => rfl⟩

theorem ignoresLog_createChild (b : BlockId) (span : Span) :
    IgnoresLog (Lower.createChild b span) :=
  ⟨same_createChild b span, Lower.silent_createChild b span⟩

theorem ignoresLog_addDecl (b : BlockId) (name : String) (type : Option TypeRef) (kind : DeclKind)
    (span : Span) : IgnoresLog (Lower.addDecl b name type kind span) :=
  ⟨same_addDecl b name type kind span, Lower.silent_addDecl b name type kind span⟩

theorem ignoresLog_addStmt (b : BlockId) (stmt : Stmt) : IgnoresLog (Lower.addStmt b stmt) :=
  ⟨same_addStmt b stmt, Lower.silent_addStmt b stmt⟩

theorem ignoresLog_currentBlock : IgnoresLog Lower.currentBlock :=
  ⟨same_currentBlock, Lower.silent_currentBlock⟩

theorem ignoresLog_freshTemp (b : BlockId) (span : Span) : IgnoresLog (Lower.freshTemp b span) :=
  ⟨same_freshTemp b span, Lower.silent_freshTemp b span⟩

theorem ignoresLog_lookup (b : BlockId) (name : String) : IgnoresLog (Lower.lookup b name) :=
  ⟨same_lookup b name, Lower.silent_lookup b name⟩

theorem ignoresLog_linkHoisted (b : BlockId) (name : String) (d : DeclId) :
    IgnoresLog (Lower.linkHoisted b name d) :=
  ⟨same_linkHoisted b name d, Lower.silent_linkHoisted b name d⟩

theorem ignoresLog_closeBlock (b : BlockId) : IgnoresLog (Lower.closeBlock b) :=
  ⟨same_closeBlock b, Lower.silent_closeBlock b⟩

theorem ignoresLog_elseBlock? (b : BlockId) (branch : Option Statement) :
    IgnoresLog (Lower.elseBlock? b branch) := by
  cases branch with
  | none => exact .pure none
  | some st => exact .bind (ignoresLog_createChild b st.span) fun c => .pure (some c)

theorem parallel_inBlock (b : BlockId) {x y : Lower Unit} (h : Parallel src x y) :
    Parallel src (Lower.inBlock b x) (Lower.inBlock b y) := by
  have hopen : IgnoresLog (Lower.openBlock b) := ignoresLog_modify (fun _ => rfl) fun _ _ => rfl
  exact .bind hopen.parallel fun _ => .bind h fun _ => (ignoresLog_closeBlock b).parallel

theorem parallel_resolveName (id : Ident) :
    Parallel src (Lower.resolveName names id) (Lower.resolveName names id) := by
  refine .bind ignoresLog_currentBlock.parallel fun b => ?_
  refine .bind (ignoresLog_lookup b _).parallel fun found => ?_
  cases found with
  | some d => exact .pure _
  | none => exact .bind (.report (.same _)) fun _ => .pure none

theorem parallel_ascription? (written : Option Ascription) :
    Parallel src (Lower.ascription? names written) (Lower.ascription? names written) := by
  cases written with
  | none => exact .pure none
  | some a =>
    refine .get fun s log => ?_
    have hresolve : ({ s with log } : Session).resolveType names a = s.resolveType names a := rfl
    rw [hresolve]
    cases s.resolveType names a with
    | ok type => exact Parallel.pure _ s log
    | error problem => exact (Parallel.report (.same _)).bind (fun _ => .pure none) s log

theorem parallel_parameter (b : BlockId) (p : Parameter) :
    Parallel src (Lower.parameter names b p) (Lower.parameter names b p) := by
  obtain ⟨kind, pattern, type, initial, span⟩ := p
  unfold Lower.parameter
  cases kind with
  | optional => exact .reject _ _
  | rest => exact .reject _ _
  | positional =>
    cases initial with
    | some e => exact .reject _ _
    | none =>
      cases pattern with
      | array => exact .reject _ _
      | object => exact .reject _ _
      | identifier id =>
        refine .bind (parallel_ascription? type) fun r => ?_
        exact .bind (ignoresLog_addDecl b _ r .param span).parallel fun _ => .pure ()

theorem parallel_parameters (b : BlockId) (params : List Parameter) :
    Parallel src (Lower.parameters names b params) (Lower.parameters names b params) := by
  induction params with
  | nil => exact .pure ()
  | cons p rest ih => exact .bind (parallel_parameter b p) fun _ => ih

theorem parallel_functionBody (b : BlockId) (typeParams : List TypeParameter)
    (params : List Parameter) {x y : Lower Unit} (h : Parallel src x y) :
    Parallel src (Lower.functionBody names b typeParams params x)
      (Lower.functionBody names b typeParams params y) := by
  have htypes :
      Parallel src (Lower.typeParameters typeParams) (Lower.typeParameters typeParams) := by
    unfold Lower.typeParameters
    cases typeParamsSpan? typeParams with
    | none => exact .pure ()
    | some span => exact .reject _ _
  exact .bind htypes fun _ => parallel_inBlock b (.bind (parallel_parameters b params) fun _ => h)

/-! ## Equal programs -/

theorem expression_binary_plain (operator : BinaryOperator) (left right : Expression)
    (span : Span) :
    Lower.expression names (.binary operator.plain left right span) =
      Lower.expression names (.binary operator left right span) := by
  cases operator <;> simp only [Lowering.expression, BinaryOperator.plain, BinaryOperator.toIR?]

/-- Of the initial value of a parameter only its presence matters. -/
theorem parameters_plain (b : BlockId) (params : List Parameter) :
    Lower.parameters names b (plainParams label params) = Lower.parameters names b params := by
  induction params with
  | nil => simp only [plainParams]
  | cons p rest ih =>
    obtain ⟨kind, pattern, type, initial, span⟩ := p
    have hparam : Lower.parameter names b (Parameter.plain label
        ⟨kind, pattern, type, initial, span⟩) =
        Lower.parameter names b ⟨kind, pattern, type, initial, span⟩ := by
      cases initial with
      | none => simp only [Parameter.plain, plainExpression?]
      | some e =>
        simp only [Parameter.plain, plainExpression?]
        rfl
    simp only [plainParams, Lower.parameters, hparam, ih]

theorem functionBody_plain (b : BlockId) (typeParams : List TypeParameter)
    (params : List Parameter) (statements : Lower Unit) :
    Lower.functionBody names b typeParams (plainParams label params) statements =
      Lower.functionBody names b typeParams params statements := by
  unfold Lower.functionBody
  rw [parameters_plain]

theorem elseBlock?_plain (b : BlockId) (branch : Option Statement) :
    Lower.elseBlock? b (plainElse label branch) = Lower.elseBlock? b branch := by
  cases branch <;>
    simp only [plainElse, Lower.elseBlock?, Statement.span_braced, Statement.span_plain]

/-- A branch has its block already, so it may stand in braces. -/
theorem statementAt_braced (st : Statement) :
    Lower.statementAt names true st.braced = Lower.statementAt names true st := by
  have hone : ∀ x : Lower Unit, (do x; pure ()) = x := fun x => bind_pure x
  cases st with
  | block group => rfl
  | _ =>
    simp only [Statement.braced, Lowering.statementAt, if_true, Lowering.group,
      Lowering.statementList, hone]

/-- Nothing happens at an empty statement. -/
theorem statementList_empty {st : Statement} (h : st.isEmpty = true) (rest : List Statement) :
    Lower.statementList names (st :: rest) = Lower.statementList names rest := by
  cases st with
  | empty span =>
    simp only [Lowering.statementList, Lowering.statementAt]
    exact pure_bind _ _
  | _ => cases h

/-! ## Values that are mere uses -/

theorem Returns.bind {x : Lower α} {f : α → Lower β} {P : β → Prop} (hf : ∀ a, Returns (f a) P) :
    Returns (x >>= f) P := fun s => hf (x.run s).1 (x.run s).2

theorem Returns.none {P : Expr → Prop} : Returns (pure none) fun r => ∀ v, r = some v → P v :=
  fun _ _ h => by cases h

theorem Returns.some {P : Expr → Prop} {v : Expr} (h : P v) :
    Returns (pure (some v)) fun r => ∀ v, r = some v → P v :=
  fun _ _ hv => Option.some.inj hv ▸ h

/-- The value of an expression is a mere use exactly if the expression may be assigned. -/
theorem returns_expression : ∀ e : Expression,
    Returns (Lower.expression names e) fun r => ∀ v, r = some v → v.isRef = e.isTarget
  | .parenthesized inner _ => by
    simp only [Lowering.expression, Expression.isTarget]
    exact returns_expression inner
  | .int .. | .float .. => by
    simp only [Lowering.expression]
    exact .some rfl
  | .identifier id => by
    simp only [Lowering.expression]
    refine .bind fun r => ?_
    cases r with
    | none => exact .none
    | some d => exact .some rfl
  | .binary operator left right span => by
    simp only [Lowering.expression]
    cases operator.toIR? with
    | none => exact .bind fun _ => .none
    | some op =>
      refine .bind fun r => ?_
      cases r with
      | none => exact .none
      | some lhs =>
        refine .bind fun r => ?_
        cases r with
        | none => exact .none
        | some rhs => exact .some rfl
  | .assignment operator left right span => by
    cases operator with
    | assign =>
      simp only [Lowering.expression]
      refine .bind fun b => .bind fun temp => .bind fun r => ?_
      cases r with
      | none => exact .none
      | some value =>
        refine .bind fun _ => .bind fun r => ?_
        cases r with
        | none => exact .none
        | some target =>
          cases target with
          | ref target => exact .bind fun _ => .some rfl
          | int | float | binary | func | call => exact .bind fun _ => .none
    | addAssign | subtractAssign | multiplyAssign | divideAssign | moduloAssign =>
      simp only [Lowering.expression]
      exact .bind fun _ => .none
  | .call callee typeArgs args span => by
    simp only [Lowering.expression]
    cases ascriptionsSpan? typeArgs with
    | some place => exact .bind fun _ => .none
    | none =>
      refine .bind fun r => ?_
      cases r with
      | none => exact .none
      | some f =>
        refine .bind fun r => ?_
        cases r with
        | none => exact .none
        | some values => exact .some rfl
  | .function .. => by
    simp only [Lowering.expression]
    exact .bind fun b => .bind fun c => .bind fun _ => .some rfl
  | .string .. | .template .. | .boolean .. | .null .. | .this .. | .super .. | .array ..
  | .object .. | .unary .. | .logical .. | .conditional .. | .member .. | .index .. | .new ..
  | .comma .. | .instanceOf .. | .typeCast .. => by
    simp only [Lowering.expression]
    exact .bind fun _ => .none

/-! ## One form after the other -/

mutual

theorem parallel_expression (e : Expression) (he : src (.expression e))
    (h : Covers src (e.inner everywhere)) :
    Parallel src (Lower.expression names e) (Lower.expression names (e.plain label)) := by
  cases e with
  | int | float =>
    simp only [Expression.plain, Lowering.expression]
    exact .pure _
  | identifier id =>
    simp only [Expression.plain, Lowering.expression]
    exact .bind (parallel_resolveName id) fun r => .pure _
  | binary operator left right span =>
    simp only [Expression.inner, covers_append, covers_enterExpression] at h
    simp only [Expression.plain, expression_binary_plain]
    simp only [Lowering.expression]
    cases operator.toIR? with
    | none => exact .reject_none _ _
    | some op =>
      refine .bind (parallel_expression left h.1.1 h.1.2) fun r => ?_
      cases r with
      | none => exact .pure none
      | some lhs =>
        refine .bind (parallel_expression right h.2.1 h.2.2) fun r => ?_
        cases r with
        | none => exact .pure none
        | some rhs => exact .pure _
  | assignment operator left right span =>
    simp only [Expression.inner, covers_append, covers_enterExpression] at h
    cases operator with
    | assign =>
      simp only [Expression.plain, Lowering.expression]
      refine .bind ignoresLog_currentBlock.parallel fun b => ?_
      refine .bind (ignoresLog_freshTemp b span).parallel fun temp => ?_
      refine .bind (parallel_expression right h.2.1 h.2.2) fun r => ?_
      cases r with
      | none => exact .pure none
      | some value =>
        refine .bind (ignoresLog_addStmt b _).parallel fun _ =>
          .bindKnown (parallel_expression left h.1.1 h.1.2) (returns_expression left) fun r hr => ?_
        cases r with
        | none => exact .pure none
        | some target =>
          have hleft := hr target rfl
          cases target with
          | ref target => exact .bind (ignoresLog_addStmt b _).parallel fun _ => .pure _
          | int | float | binary | func | call =>
            exact .bind (.report (corresponds_rejectedTarget he hleft.symm)) fun _ => .pure none
    | addAssign | subtractAssign | multiplyAssign | divideAssign | moduloAssign =>
      simp only [Expression.plain, Lowering.expression]
      exact .reject_none _ _
  | call callee typeArgs args span =>
    simp only [Expression.inner, covers_append, covers_enterExpression] at h
    simp only [Expression.plain, Lowering.expression]
    cases ascriptionsSpan? typeArgs with
    | some place => exact .reject_none _ _
    | none =>
      refine .bind (parallel_expression callee h.1.1.1 h.1.1.2) fun r => ?_
      cases r with
      | none => exact .pure none
      | some f =>
        refine .bind (parallel_expressions args h.2) fun r => ?_
        cases r with
        | none => exact .pure none
        | some values => exact .pure _
  | function name typeParams params result body span =>
    simp only [Expression.inner, covers_append, covers_enterKind] at h
    simp only [Expression.plain, Lowering.expression, Block.span_plain, functionBody_plain]
    refine .bind ignoresLog_currentBlock.parallel fun b => ?_
    refine .bind (ignoresLog_createChild b body.span).parallel fun c => ?_
    have hbody := parallel_group body h.2.2
    exact .bind (parallel_functionBody c typeParams params hbody) fun _ => .pure _
  | parenthesized inner span =>
    simp only [Expression.inner, covers_enterExpression] at h
    simp only [Expression.plain, Lowering.expression]
    exact parallel_expression inner h.1 h.2
  | string | template | boolean | null | this | super | array | object | unary | logical
  | conditional | member | index | new | comma | instanceOf | typeCast =>
    simp only [Expression.plain, Lowering.expression, Expression.kind, Expression.span]
    exact .reject_none _ _

theorem parallel_expressions (es : List Expression)
    (h : Covers src (innerExpressions everywhere es)) :
    Parallel src (Lower.expressions names es)
      (Lower.expressions names (plainExpressions label es)) := by
  cases es with
  | nil =>
    simp only [plainExpressions, Lowering.expressions]
    exact .pure _
  | cons e rest =>
    simp only [innerExpressions, covers_append, covers_enterExpression] at h
    simp only [plainExpressions, Lowering.expressions]
    refine .bind (parallel_expression e h.1.1 h.1.2) fun r => ?_
    cases r with
    | none => exact .pure none
    | some v =>
      refine .bind (parallel_expressions rest h.2) fun r => ?_
      cases r with
      | none => exact .pure none
      | some vs => exact .pure _

theorem parallel_initialValue (b : BlockId) (target : DeclRef) (span : Span) (e : Option Expression)
    (h : Covers src (innerExpression? everywhere e)) :
    Parallel src (Lower.initialValue names b target span e)
      (Lower.initialValue names b target span (plainExpression? label e)) := by
  cases e with
  | none =>
    simp only [plainExpression?, Lowering.initialValue]
    exact .pure ()
  | some e =>
    simp only [innerExpression?, covers_enterExpression] at h
    simp only [plainExpression?, Lowering.initialValue]
    refine .bind (parallel_expression e h.1 h.2) fun r => ?_
    cases r with
    | none => exact .pure ()
    | some v => exact (ignoresLog_addStmt b _).parallel

theorem parallel_variableDecl (d : VariableDecl) (h : Covers src (d.inner everywhere)) :
    Parallel src (Lower.variableDecl names d) (Lower.variableDecl names (d.plain label)) := by
  obtain ⟨kind, pattern, type, initial, span⟩ := d
  simp only [VariableDecl.inner, covers_append] at h
  simp only [VariableDecl.plain]
  cases pattern with
  | identifier id =>
    simp only [Lowering.variableDecl]
    refine .bind (parallel_ascription? type) fun r => ?_
    refine .bind ignoresLog_currentBlock.parallel fun b => ?_
    refine .bind (ignoresLog_addDecl b _ r .localVar span).parallel fun d => ?_
    exact parallel_initialValue b ⟨d, id.span⟩ span initial h.2
  | array | object =>
    simp only [Lowering.variableDecl]
    exact .reject _ _

theorem parallel_functionDecl (d : FunctionDecl) (h : Covers src (d.inner everywhere)) :
    Parallel src (Lower.functionDecl names d) (Lower.functionDecl names (d.plain label)) := by
  obtain ⟨id, typeParams, params, result, body, span⟩ := d
  simp only [FunctionDecl.inner, covers_append, covers_enterKind] at h
  simp only [FunctionDecl.plain, Lowering.functionDecl, Block.span_plain, functionBody_plain]
  refine .bind ignoresLog_currentBlock.parallel fun b =>
    .bind (ignoresLog_addDecl b _ none .function id.span).parallel fun d => ?_
  refine .bind (ignoresLog_linkHoisted b _ d).parallel fun _ =>
    .bind (ignoresLog_createChild b body.span).parallel fun c => ?_
  refine .bind (ignoresLog_addStmt b _).parallel fun _ => ?_
  exact parallel_functionBody c typeParams params (parallel_group body h.2.2)

theorem parallel_group (g : Source.Block) (h : Covers src (g.inner everywhere)) :
    Parallel src (Lower.group names g) (Lower.group names (g.plain label)) := by
  obtain ⟨statements, span⟩ := g
  simp only [Block.plain, Lowering.group]
  exact parallel_statementList statements h

theorem parallel_statementAt (branch : Bool) (st : Statement)
    (h : Covers src (st.inner everywhere)) :
    Parallel src (Lower.statementAt names branch st)
      (Lower.statementAt names branch (st.plain label)) := by
  cases st with
  | variableDecl d =>
    simp only [Statement.plain, Lowering.statementAt]
    exact parallel_variableDecl d h
  | functionDecl d =>
    simp only [Statement.plain, Lowering.statementAt]
    exact parallel_functionDecl d h
  | namespaceDecl name members span =>
    simp only [Statement.inner, covers_append] at h
    simp only [Statement.plain, Lowering.statementAt]
    refine .bind ignoresLog_currentBlock.parallel fun b => ?_
    refine .bind (ignoresLog_createChild b span).parallel fun c => ?_
    exact parallel_inBlock c (parallel_statementList members h.2)
  | expression value span =>
    simp only [Statement.inner, covers_enterExpression] at h
    simp only [Statement.plain, Lowering.statementAt]
    refine .bind (parallel_expression value h.1 h.2) fun r => ?_
    cases r with
    | none => exact .pure ()
    | some v =>
      exact .bind ignoresLog_currentBlock.parallel fun b => (ignoresLog_addStmt b _).parallel
  | ifElse condition thenBranch elseBranch span =>
    simp only [Statement.inner, covers_append, covers_enterExpression, covers_enterStatement] at h
    simp only [Statement.plain, Lowering.statementAt, Statement.span_braced, Statement.span_plain,
      statementAt_braced, elseBlock?_plain]
    refine .bind (parallel_expression condition h.1.1.1 h.1.1.2) fun r => ?_
    cases r with
    | none => exact .pure ()
    | some cond =>
      refine .bind ignoresLog_currentBlock.parallel fun b =>
        .bind (ignoresLog_createChild b thenBranch.span).parallel fun c => ?_
      refine .bind (ignoresLog_elseBlock? b elseBranch).parallel fun e =>
        .bind (ignoresLog_addStmt b _).parallel fun _ => ?_
      refine .bind (parallel_inBlock c (parallel_statementAt true thenBranch h.1.2.2)) fun _ => ?_
      exact parallel_elseBody e elseBranch h.2
  | whileLoop condition body span =>
    simp only [Statement.inner, covers_append, covers_enterExpression, covers_enterStatement] at h
    simp only [Statement.plain, Lowering.statementAt, Statement.span_braced, Statement.span_plain,
      statementAt_braced]
    refine .bind (parallel_expression condition h.1.1 h.1.2) fun r => ?_
    cases r with
    | none => exact .pure ()
    | some cond =>
      refine .bind ignoresLog_currentBlock.parallel fun b =>
        .bind (ignoresLog_createChild b body.span).parallel fun c => ?_
      refine .bind (ignoresLog_addStmt b _).parallel fun _ => ?_
      exact parallel_inBlock c (parallel_statementAt true body h.2.2)
  | block braces =>
    simp only [Statement.inner] at h
    simp only [Statement.plain, Lowering.statementAt, Block.span_plain]
    cases branch with
    | true => exact parallel_group braces h
    | false =>
      refine .bind ignoresLog_currentBlock.parallel fun b =>
        .bind (ignoresLog_createChild b braces.span).parallel fun c => ?_
      exact parallel_inBlock c (parallel_group braces h)
  | empty span =>
    simp only [Statement.plain, Lowering.statementAt]
    exact .pure ()
  | classDecl | typeAlias | importDecl | exportDecl | switch | doWhile | forLoop | forOf | breakTo
  | continueTo | returnValue | throwValue | tryCatch =>
    simp only [Statement.plain, Lowering.statementAt, Statement.kind, Statement.span]
    exact .reject _ _

theorem parallel_elseBody (e : Option BlockId) (branch : Option Statement)
    (h : Covers src (innerStatement? everywhere branch)) :
    Parallel src (Lower.elseBody names e branch)
      (Lower.elseBody names e (plainElse label branch)) := by
  cases branch with
  | none => cases e <;> simp only [plainElse, Lowering.elseBody] <;> exact .pure ()
  | some st =>
    simp only [innerStatement?, covers_enterStatement] at h
    cases e with
    | none =>
      simp only [plainElse, Lowering.elseBody]
      exact .pure ()
    | some c =>
      simp only [plainElse, Lowering.elseBody, statementAt_braced]
      exact parallel_inBlock c (parallel_statementAt true st h.2)

theorem parallel_statementList (sts : List Statement)
    (h : Covers src (innerStatements everywhere sts)) :
    Parallel src (Lower.statementList names sts)
      (Lower.statementList names (plainStatements label sts)) := by
  cases sts with
  | nil =>
    simp only [plainStatements, Lowering.statementList]
    exact .pure ()
  | cons st rest =>
    simp only [innerStatements, covers_append, covers_enterStatement] at h
    by_cases hempty : st.isEmpty = true
    · simp only [plainStatements, if_pos hempty, statementList_empty hempty]
      exact parallel_statementList rest h.2
    · simp only [plainStatements, if_neg hempty, Lowering.statementList]
      exact .bind (parallel_statementAt false st h.1.2) fun _ => parallel_statementList rest h.2

end

/-! ## Modules -/

theorem ignoresLog_hoist (unit : BlockId) (ids : List Ident) :
    IgnoresLog (Lower.hoist names unit ids) := by
  induction ids with
  | nil => exact .pure ()
  | cons id rest ih => exact .bind (ignoresLog_addDecl unit _ none _ id.span) fun _ => ih

theorem ignoresLog_placeholders (unit : BlockId) (ids : List Ident) :
    IgnoresLog (Lower.placeholders names unit ids) := by
  refine ⟨same_placeholders unit ids, fun s => ?_⟩
  unfold Lower.placeholders
  rw [Lower.run_bind, Lower.run_get]
  by_cases h : s.options.hoisting = true
  · simp only [if_pos h]
    exact (ignoresLog_hoist unit ids).silent s
  · simp only [if_neg h]
    rfl

theorem parallel_unitBlock (unit : BlockId) (m : Module)
    (h : Covers src (innerStatements everywhere m.statements)) :
    Parallel src (Lower.unitBlock names unit m) (Lower.unitBlock names unit (m.plain label)) := by
  have hset : ∀ body?, IgnoresLog (Lower.setUnitBody body?) :=
    fun _ => ignoresLog_modify (fun _ => rfl) fun _ _ => rfl
  unfold Lower.unitBlock Lowering.unitBlock
  rw [Module.functionNames_plain]
  refine .bind (ignoresLog_placeholders unit m.functionNames).parallel fun _ => ?_
  refine .bind (ignoresLog_createChild unit m.span).parallel fun body => .get fun s log => ?_
  refine Parallel.bind (hset (some body)).parallel (fun _ => ?_) s log
  refine .bind (parallel_inBlock body (parallel_statementList m.statements h)) fun _ => ?_
  exact (hset _).parallel

theorem parallel_module (m : Module) (h : Covers src (innerStatements everywhere m.statements)) :
    Parallel src (Lower.module names m) (Lower.module names (m.plain label)) := by
  have htypes : IgnoresLog Lower.ensureTypeScope := by
    refine ignoresLog_modify (fun s => ?_) fun s log => ?_
    · by_cases hnone : s.typeScopes.isEmpty = true
      · simp only [if_pos hnone]
      · simp only [if_neg hnone]
    · by_cases hnone : s.typeScopes.isEmpty = true
      · simp only [if_pos hnone]
      · simp only [if_neg hnone]
  refine .bind htypes.parallel fun _ => .bind (ignoresLog_createRoot m.span).parallel fun unit => ?_
  exact .bind (parallel_inBlock unit (parallel_unitBlock unit m h)) fun _ => .pure unit

/-- The node stands somewhere in the module. -/
def Source.Module.Holds (m : Module) (n : Node) : Prop :=
  ∃ v ∈ innerStatements everywhere m.statements, v.subject = n

end

/-- A module and its plain form, in which all namespaces have the same name, are lowered to the same
arena. Their records correspond, one by one and in order: they are the same, but where an assignment
of the module has a target in parentheses that is rejected. -/
theorem lowerModule_plain (names : SymbolTable) (m : Module) (options : Options) (label : Ident) :
    let s := lowerModule names m options
    let t := lowerModule names (m.plain label) options
    t.arena = s.arena ∧ List.Forall₂ (Corresponds m.Holds) s.log.records t.log.records := by
  intro s t
  have hparallel : Parallel m.Holds (Lower.module names m) (Lower.module names (m.plain label)) :=
    parallel_module m fun v hv => ⟨v, hv, rfl⟩
  obtain ⟨log, hrecords, hrun⟩ := hparallel (initial options) .empty .nil
  have ht : t = { s with log } := congrArg Prod.snd hrun
  rw [ht]
  exact ⟨rfl, hrecords⟩

end BlockLowering
