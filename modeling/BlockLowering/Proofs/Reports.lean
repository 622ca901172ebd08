import BlockLowering.Proofs.Diagnostics
import BlockLowering.Proofs.Findings
import BlockLowering.Proofs.Units

/-!
# What is reported

Lowering reports exactly what is found in the tree, in the same order (`records_lowerModule`). The
proof follows the syntax: at every state, lowering a form appends the records of what is found in
the form under the names in force there. An expression has a value exactly if `lowers` says so, and
the value is a mere use exactly if the expression may be assigned.
-/

namespace BlockLowering

open IR Diagnostic Source Session

/-! ## Records in order -/

/-- From `s` to `t` the findings are reported, in order. -/
def Reports (found : List Finding) (s t : Session) : Prop :=
  t.log.records = s.log.records ++ found.map Finding.record

/-- The findings are reported, with `env` in force at the end. -/
structure Finds (found : List Finding) (env : Env) (s t : Session) : Prop where
  reports : Reports found s t
  env : t.env = env

section

variable {names : SymbolTable} {s t u : Session} {b c : BlockId} {found found' : List Finding}
  {env env' : Env}

theorem Reports.of_log (h : t.log = s.log) : Reports [] s t := by
  unfold Reports
  rw [h]
  exact (List.append_nil _).symm

theorem Reports.trans (h : Reports found s t) (h' : Reports found' t u) :
    Reports (found ++ found') s u := by
  unfold Reports at *
  rw [h', h, List.map_append, List.append_assoc]

theorem Finds.refl (s : Session) : Finds [] s.env s s := ⟨.of_log rfl, rfl⟩

theorem Finds.trans (h : Finds found env s t) (h' : Finds found' env' t u) :
    Finds (found ++ found') env' s u :=
  ⟨h.reports.trans h'.reports, h'.env⟩

/-- Where no problem was reported the records are the same. -/
theorem Checked.finds (h : Checked True env s t) (hst : s.Frame 0 t) : Finds [] env s t := by
  refine ⟨.of_log ?_, h.env⟩
  have hlength : s.log.records.length = t.log.records.length := (h.iff.2 trivial).symm
  exact congrArg Log.mk (hst.log.eq_of_length hlength).symm

/-- A first part that reports nothing does not change the findings. -/
theorem Finds.first (h : Finds [] env s t) (h' : Finds found env' t u) : Finds found env' s u :=
  h.trans h'

theorem Finds.quiet (h : Finds found env s t) (hq : Quiet t u) (htu : t.Frame 0 u) :
    Finds found env s u := by
  have hwhole := h.trans (hq.finds htu)
  rw [List.append_nil, h.env] at hwhole
  exact hwhole

theorem Finds.addStmt (h : Finds found env s t) (ht : t.Good names anyNode)
    (hb : t.current? = some b) {stmt : Stmt}
    (hscope : t.arena.InScope (some b) stmt.refs stmt.blocks) :
    After t (Lower.addStmt b stmt) fun _ u => Finds found env s u :=
  h.quiet (quiet_addStmt ht hb hscope) ((does_addStmt (n := 0) ht hb hscope).1.good_frame ht).2

theorem finds_report (s : Session) {f : Finding} {p : Problem} (hf : f.record = p.record) :
    After s (Lower.report p) fun _ t => Finds [f] s.env s t := by
  refine ⟨?_, rfl⟩
  show s.log.records ++ [p.record] = s.log.records ++ [f.record]
  rw [hf]

theorem finds_reject (s : Session) (construct : String) (span : Span) :
    After s (Lower.reject construct span) fun _ t =>
      Finds [.unsupported construct span] s.env s t :=
  finds_report s rfl

/-- Work inside a new child: the findings are those of the work, with one more scope, and afterwards
the names in force are those from before. -/
theorem finds_inBlock {body : Lower Unit} {l : List Finding} (hs : s.Good names anyNode)
    (hb : s.current? = some b) (hc : s.MayOpen c) (hp : s.arena.parent? c = some b)
    (hbody : Does names anyNode s.arena.blocks.length ((Lower.openBlock c).run s).2 body anything)
    (hv : ∀ t, t.Good names anyNode → t.current? = some c → t.env = s.env.enter →
      After t body fun _ u => Reports l t u) :
    After s (Lower.inBlock c body) fun _ t => Finds l s.env s t := by
  have hopen := hs.openBlock hc
  have hinner := hv _ hopen rfl (env_openBlock hs hc hp hb)
  obtain ⟨ht, hst⟩ := hbody.1.good_frame hopen
  refine ⟨?_, env_inBlock hs hb hc hp hbody⟩
  unfold Reports
  rw [show ((Lower.inBlock c body).run s).2.log = _ from ht.log_closeBlock (hst.current rfl)]
  exact hinner

/-! ## Names, annotations and parameters -/

/-- A name that is not in force is reported. -/
theorem finds_resolveName (hs : s.Good names anyNode) (id : Ident) :
    After s (Lower.resolveName names id) fun r t =>
      Finds ((Expression.identifier id).findings names s.env) s.env s t ∧
        r.isSome = (Expression.identifier id).lowers names s.env := by
  unfold Lower.resolveName
  refine .bind hs does_currentBlock (quiet_currentBlock hs) fun b t ht hst hb hq => ?_
  have hiff : t.env.Has (names.resolve id.name) ↔ _ := has_iff_lookup? hb
  rw [hq.env, ← Env.has_eq_true_iff] at hiff
  have hfinds := hq.finds hst
  refine .lookup ht ?_
  simp only [Expression.findings, Expression.lowers]
  cases hl : t.arena.lookup? b (names.resolve id.name) with
  | some d =>
    rw [hl] at hiff
    have hhas : s.env.has (names.resolve id.name) = true := hiff.2 rfl
    rw [if_pos hhas, hhas]
    exact ⟨hfinds, rfl⟩
  | none =>
    rw [hl] at hiff
    have hhas : s.env.has (names.resolve id.name) = false := by simpa using hiff
    rw [if_neg (by rw [hhas]; exact Bool.false_ne_true), hhas]
    have hreport := finds_report t (f := .part (.nameNotFound (names.resolve id.name) id.span)) rfl
    refine ⟨?_, rfl⟩
    rw [← hfinds.env]
    exact hfinds.trans hreport

/-- An annotation has a problem exactly if it is not resolved, and that is what is reported. -/
theorem problem?_eq_some_iff {a : Ascription} {problem : Problem} :
    a.problem? names s.env.types = some problem ↔ s.resolveType names a = .error problem := by
  obtain ⟨type, place⟩ := a
  cases type with
  | reference name args span =>
    unfold Ascription.problem? Session.resolveType
    have hfind : (s.findType? (names.resolve name.head.name)).isSome = true ↔ _ := findType?_isSome
    by_cases hq : name.isQualified = true
    · simp only [if_pos hq, Option.some.injEq, Except.error.injEq]
    by_cases hargs : (!args.isEmpty) = true
    · simp only [if_neg hq, if_pos hargs, Option.some.injEq, Except.error.injEq]
    simp only [if_neg hq, if_neg hargs]
    cases hf : s.findType? (names.resolve name.head.name) with
    | none =>
      rw [hf] at hfind
      have hnot : ¬names.resolve name.head.name ∈ s.env.types := by simpa using hfind
      simp [hnot]
    | some d =>
      rw [hf] at hfind
      have hmem : names.resolve name.head.name ∈ s.env.types := by simpa using hfind
      simp [hmem]
  | function | array | union => simp only [Ascription.problem?, Session.resolveType,
      Option.some.injEq, Except.error.injEq]

theorem finds_ascription? (s : Session) (written : Option Ascription) :
    After s (Lower.ascription? names written) fun _ t =>
      Finds (ascriptionFindings names s.env.types written) s.env s t := by
  cases written with
  | none => exact Finds.refl s
  | some a =>
    unfold Lower.ascription? ascriptionFindings
    refine .get ?_
    rw [Option.bind_some]
    cases hresolve : s.resolveType names a with
    | ok type =>
      have hnone : a.problem? names s.env.types = none := by
        refine Option.eq_none_iff_forall_ne_some.2 fun problem hproblem => ?_
        rw [problem?_eq_some_iff, hresolve] at hproblem
        cases hproblem
      rw [hnone]
      exact Finds.refl s
    | error problem =>
      rw [problem?_eq_some_iff.2 hresolve]
      exact finds_report s rfl

theorem finds_parameter (hs : s.Good names anyNode) (hb : s.current? = some b) (p : Parameter) :
    After s (Lower.parameter names b p) fun _ t =>
      Reports (p.findings names s.env.types) s t := by
  obtain ⟨kind, pattern, type, initial, span⟩ := p
  unfold Lower.parameter
  cases kind with
  | optional => exact (finds_reject s _ _).reports
  | rest => exact (finds_reject s _ _).reports
  | positional =>
    cases initial with
    | some e => exact (finds_reject s _ _).reports
    | none =>
      cases pattern with
      | array => exact (finds_reject s _ _).reports
      | object => exact (finds_reject s _ _).reports
      | identifier id =>
        refine .bind hs (does_ascription? hs type) (finds_ascription? s type)
          fun r t ht hst hr htype => ?_
        have hp : anyNode (.parameter ⟨.positional, .identifier id, type, none, span⟩) := trivial
        refine .bind ht (does_addDecl ht (hst.current hb) (by simp) (annotated_of_names hp rfl hr))
          (checked_addDecl ht (hst.current hb) (by simp) (annotated_of_names hp rfl hr))
          fun _ u _ htu _ hdecl => ?_
        have hwhole := htype.trans (hdecl.finds htu)
        rw [List.append_nil] at hwhole
        exact hwhole.reports

theorem finds_parameters (hs : s.Good names anyNode) (hb : s.current? = some b)
    (params : List Parameter) :
    After s (Lower.parameters names b params) fun _ t =>
      Reports (params.flatMap (Parameter.findings names s.env.types)) s t := by
  induction params generalizing s with
  | nil => exact Reports.of_log rfl
  | cons p rest ih =>
    unfold Lower.parameters
    refine .bind hs (does_parameter hs hb trivial)
      (.and (finds_parameter hs hb p) (checked_parameter hs hb p)) fun _ t ht hst _ hp => ?_
    have hrest := ih ht (hst.current hb)
    unfold After at hrest ⊢
    rw [hp.2.env, Env.types_declareAll] at hrest
    exact hp.1.trans hrest

theorem finds_typeParameters (s : Session) (params : List TypeParameter) :
    After s (Lower.typeParameters params) fun _ t =>
      Finds (typeParamFindings params) s.env s t := by
  unfold Lower.typeParameters typeParamFindings
  cases typeParamsSpan? params with
  | none => exact Finds.refl s
  | some span => exact finds_reject s _ span

/-- The body of a function: type parameters, parameters, then statements. -/
theorem finds_functionBody (hs : s.Good names anyNode) (hb : s.current? = some b)
    (hc : s.MayOpen c) (hp : s.arena.parent? c = some b) (typeParams : List TypeParameter)
    (params : List Parameter) {statements : Lower Unit} {body : Source.Block}
    (hbody : AlwaysDoes names anyNode statements)
    (hv : ∀ t, t.Good names anyNode →
      After t statements fun _ u => Reports (body.findings names t.env) t u) :
    After s (Lower.functionBody names c typeParams params statements) fun _ t =>
      Finds (typeParamFindings typeParams ++ params.flatMap (Parameter.findings names s.env.types) ++
        body.findings names (s.env.enter.declareAll (params.flatMap (Parameter.declared names))))
        s.env s t := by
  unfold Lower.functionBody
  refine .bind hs (does_typeParameters typeParams) (finds_typeParameters s typeParams)
    fun _ t ht hst hopen htypes => ?_
  have hopened := ht.openBlock (hopen c hc)
  have hwork : Does names anyNode t.arena.blocks.length ((Lower.openBlock c).run t).2
      (do Lower.parameters names c params; statements) anything := by
    refine .bind hopened (does_parameters hopened rfl fun _ _ => trivial) fun _ u hu huv _ => ?_
    exact hbody _ u hu huv.arena.size
  have hinner := finds_inBlock (l := params.flatMap (Parameter.findings names s.env.types) ++
      body.findings names (s.env.enter.declareAll (params.flatMap (Parameter.declared names))))
    ht (hst.current hb) (hopen c hc) (hst.arena.parent_some hp) hwork fun u hu hc' henv => by
      rw [htypes.env] at henv
      refine .bind hu (does_parameters hu hc' fun _ _ => trivial)
        (.and (finds_parameters hu hc' params) (checked_parameters hu hc' params))
        fun _ v hv' _ _ hps => ?_
      have hrest := hv v hv'
      unfold After at hrest ⊢
      rw [hps.2.env, henv] at hrest
      have hfirst := hps.1
      rw [henv] at hfirst
      exact hfirst.trans hrest
  unfold After at hinner ⊢
  rw [htypes.env] at hinner
  rw [List.append_assoc]
  exact htypes.trans hinner

/-! ## Expressions and statements -/

/-- What lowering an expression reports, whether it has a value, and whether that is a mere use. -/
structure ExprFinds (names : SymbolTable) (e : Expression) (s : Session) (r : Option Expr)
    (t : Session) : Prop extends Finds (e.findings names s.env) s.env s t where
  value : r.isSome = e.lowers names s.env
  target : ∀ v, r = some v → v.isRef = e.isTarget

/-- There is no value. -/
theorem ExprFinds.of_none {e : Expression} (h : Finds found s.env s t)
    (hfound : e.findings names s.env = found) (hlowers : e.lowers names s.env = false) :
    ExprFinds names e s none t :=
  ⟨hfound ▸ h, hlowers.symm, fun _ hv => by cases hv⟩

/-- There is a value that is no mere use. -/
theorem ExprFinds.of_some {e : Expression} {v : Expr} (h : Finds found s.env s t)
    (hfound : e.findings names s.env = found) (hlowers : e.lowers names s.env = true)
    (htarget : v.isRef = e.isTarget) : ExprFinds names e s (some v) t := by
  refine ⟨hfound ▸ h, hlowers.symm, fun w hw => ?_⟩
  obtain rfl := Option.some.inj hw
  exact htarget

theorem exprFinds_reject {e : Expression} {construct : String} {span : Span}
    (hfound : e.findings names s.env = [.unsupported construct span])
    (hlowers : e.lowers names s.env = false) :
    After s (do Lower.reject construct span; return none) (ExprFinds names e s) :=
  .of_none (finds_reject s construct span) hfound hlowers

/-- An expression as the first part of a sequence: it has no value, or what follows can use it. -/
theorem After.bindFound {α : Type} {e : Expression} {f : Option Expr → Lower α}
    {post : α → Session → Prop} (hs : s.Good names anyNode) (henv : s.env = env)
    (he : After s (Lower.expression names e) (ExprFinds names e s))
    (hnone : ∀ t, e.lowers names env = false → Finds (e.findings names env) env s t →
      After t (f none) post)
    (hsome : ∀ v t, t.Good names anyNode → s.Frame 0 t →
      t.arena.InScope t.current? v.refs v.blocks → e.lowers names env = true →
      Finds (e.findings names env) env s t → v.isRef = e.isTarget → After t (f (some v)) post) :
    After s (Lower.expression names e >>= f) post := by
  subst henv
  refine .bind hs (does_expression e (covers_anyNode _) 0 s hs (Nat.zero_le _)) he
    fun r t ht hst hscope hr => ?_
  cases r with
  | none => exact hnone t hr.value.symm hr.toFinds
  | some v => exact hsome v t ht hst (hscope v rfl) hr.value.symm hr.toFinds (hr.target v rfl)

/-- Statements in a new block of their own. -/
theorem finds_scope {body : Lower Unit} {F : Env → List Finding}
    (hs : s.Good names anyNode) (hb : s.current? = some b) (hc : s.MayOpen c)
    (hp : s.arena.parent? c = some b) (hbody : AlwaysDoes names anyNode body)
    (hv : ∀ t, t.Good names anyNode → After t body fun _ u => Reports (F t.env) t u) :
    After s (Lower.inBlock c body) fun _ t => Finds (F s.env.enter) s.env s t := by
  refine finds_inBlock hs hb hc hp (hbody _ _ (hs.openBlock hc) (Nat.le_refl _))
    fun t ht _ henv => ?_
  rw [← henv]
  exact hv t ht

mutual

theorem finds_expression (e : Expression) (s : Session) (hs : s.Good names anyNode) :
    After s (Lower.expression names e) (ExprFinds names e s) := by
  cases e with
  | int value span =>
    simp only [Lowering.expression]
    exact .of_some (.refl s) rfl rfl rfl
  | float value span =>
    simp only [Lowering.expression]
    exact .of_some (.refl s) rfl rfl rfl
  | identifier id =>
    simp only [Lowering.expression]
    refine .bind hs (does_resolveName hs id) (finds_resolveName hs id) fun r t _ _ _ hr => ?_
    refine ⟨hr.1, by rw [← hr.2]; exact Option.isSome_map, fun v hv => ?_⟩
    obtain ⟨x, _, rfl⟩ := Option.map_eq_some_iff.1 hv
    rfl
  | binary operator left right span =>
    simp only [Lowering.expression]
    cases hir : operator.toIR? with
    | none =>
      refine exprFinds_reject ?_ ?_
      · simp only [Expression.findings, hir]
      · simp [Expression.lowers, hir]
    | some op =>
      refine .bindFound hs rfl (finds_expression left s hs) (fun t hl₀ hl => ?_)
        fun lhs t ht _ _ hl₁ hl _ => ?_
      · refine .of_none hl ?_ ?_
        · simp [Expression.findings, hir, hl₀]
        · simp [Expression.lowers, hl₀]
      refine .bindFound ht hl.env (finds_expression right t ht) (fun u hr₀ hr => ?_)
        fun rhs u _ _ _ hr₁ hr _ => ?_
      · refine .of_none (hl.trans hr) ?_ ?_
        · simp [Expression.findings, hir, hl₁]
        · simp [Expression.lowers, hr₀]
      · refine .of_some (hl.trans hr) ?_ ?_ rfl
        · simp [Expression.findings, hir, hl₁]
        · simp [Expression.lowers, hir, hl₁, hr₁]
  | assignment operator left right span =>
    cases operator with
    | assign =>
      simp only [Lowering.expression]
      refine .bind hs does_currentBlock (quiet_currentBlock hs) fun b s₁ hs₁ h₁ hb q₁ => ?_
      refine .bind hs₁ (does_freshTemp hs₁ hb span) (quiet_freshTemp hs₁ hb span)
        fun temp s₂ hs₂ h₂ htemp q₂ => ?_
      have f₂ := (q₁.finds h₁).quiet q₂ h₂
      refine .bindFound hs₂ f₂.env (finds_expression right s₂ hs₂) (fun s₃ hr₀ f₃ => ?_)
        fun value s₃ hs₃ h₃ hvalue hr₁ f₃ _ => ?_
      · refine .of_none (f₂.first f₃) ?_ ?_
        · simp [Expression.findings, hr₀]
        · simp [Expression.lowers, hr₀]
      have f₃ := f₂.first f₃
      have hb₃ : s₃.current? = some b := h₃.current (h₂.current hb)
      rw [hb₃] at hvalue
      have htemp₃ := h₃.arena.sees htemp
      have hscope := (Arena.InScope.ref (r := ⟨temp, span⟩) htemp₃).append hvalue
      refine .bind hs₃ (does_addStmt hs₃ hb₃ hscope) (quiet_addStmt hs₃ hb₃ hscope)
        fun _ s₄ hs₄ h₄ _ q₄ => ?_
      have f₄ := f₃.quiet q₄ h₄
      have hb₄ := h₄.current hb₃
      refine .bindFound hs₄ f₄.env (finds_expression left s₄ hs₄) (fun s₅ hl₀ f₅ => ?_)
        fun target s₅ hs₅ h₅ htarget hl₁ f₅ href => ?_
      · refine .of_none (f₄.trans f₅) ?_ ?_
        · simp [Expression.findings, hr₁, hl₀]
        · simp [Expression.lowers, hl₀]
      have f₅ := f₄.trans f₅
      cases target with
      | ref target =>
        have hb₅ := h₅.current hb₄
        rw [hb₅] at htarget
        have htemp₅ := h₅.arena.sees (h₄.arena.sees htemp₃)
        have hscope₅ := htarget.append (.ref (r := ⟨temp, span⟩) htemp₅)
        refine .bind hs₅ (does_addStmt hs₅ hb₅ hscope₅) (quiet_addStmt hs₅ hb₅ hscope₅)
          fun _ s₆ _ h₆ _ q₆ => ?_
        have hassignable : left.isTarget = true := href.symm
        refine .of_some (f₅.quiet q₆ h₆) ?_ ?_ rfl
        · simp [Expression.findings, hr₁, hassignable]
        · simp [Expression.lowers, hr₁, hl₁, hassignable]
      | int | float | binary | func | call =>
        have hassignable : left.isTarget = false := href.symm
        have hreject := finds_reject s₅ ("assignment to " ++ left.kind.description) left.span
        unfold After at hreject
        rw [f₅.env] at hreject
        refine .of_none (f₅.trans hreject) ?_ ?_
        · simp [Expression.findings, hr₁, hl₁, hassignable]
        · simp [Expression.lowers, hassignable]
    | addAssign | subtractAssign | multiplyAssign | divideAssign | moduloAssign =>
      simp only [Lowering.expression]
      exact exprFinds_reject (by simp only [Expression.findings]) (by simp only [Expression.lowers])
  | parenthesized inner span =>
    simp only [Lowering.expression]
    have h := finds_expression inner s hs
    refine ⟨?_, ?_, h.target⟩
    · simp only [Expression.findings]
      exact h.toFinds
    · simp only [Expression.lowers]
      exact h.value
  | string | template | boolean | null | this | super | array | object | unary | logical
  | conditional | member | index | new | comma | instanceOf | typeCast =>
    simp only [Lowering.expression]
    exact exprFinds_reject (by simp only [Expression.findings]) (by simp only [Expression.lowers])
  | call callee typeArgs args span =>
    simp only [Lowering.expression]
    cases hspan : ascriptionsSpan? typeArgs with
    | some place =>
      refine exprFinds_reject ?_ ?_
      · simp only [Expression.findings, hspan]
      · simp [Expression.lowers, hspan]
    | none =>
      refine .bindFound hs rfl (finds_expression callee s hs) (fun t hc₀ hc => ?_)
        fun f t ht _ _ hc₁ hc _ => ?_
      · refine .of_none hc ?_ ?_
        · simp [Expression.findings, hspan, hc₀]
        · simp [Expression.lowers, hc₀]
      refine .bind ht (does_expressions args (covers_anyNode _) 0 t ht (Nat.zero_le _))
        (finds_expressions args t ht) fun r u _ _ _ hargs => ?_
      rw [hc.env] at hargs
      have hfound : (Expression.call callee typeArgs args span).findings names s.env =
          callee.findings names s.env ++ expressionsFindings names s.env args := by
        simp [Expression.findings, hspan, hc₁]
      cases r with
      | none =>
        refine .of_none (hc.trans hargs.1) hfound ?_
        have hlowers := hargs.2
        simp [Expression.lowers, ← hlowers]
      | some values =>
        refine .of_some (hc.trans hargs.1) hfound ?_ rfl
        have hlowers := hargs.2
        simp [Expression.lowers, hspan, hc₁, ← hlowers]
  | function name typeParams params result body span =>
    simp only [Lowering.expression]
    refine .bind hs does_currentBlock (quiet_currentBlock hs) fun b s₁ hs₁ h₁ hb q₁ => ?_
    refine .bind hs₁ (does_createChild hs₁ hb body.span) (quiet_createChild hs₁ hb body.span)
      fun c s₂ hs₂ h₂ hc q₂ => ?_
    have f₂ := (q₁.finds h₁).quiet q₂ h₂
    have hbody : AlwaysDoes names anyNode (Lower.group names body) :=
      does_group body (covers_anyNode _)
    refine .bind hs₂ (does_functionBody hs₂ hc.1.opens (Nat.zero_le _) (fun _ _ => trivial) hbody)
      (finds_functionBody hs₂ (h₂.current hb) hc.1.opens hc.1.parent typeParams params hbody
        (reports_group body)) fun _ s₃ _ _ _ f₃ => ?_
    rw [f₂.env] at f₃
    exact .of_some (f₂.first f₃) (by simp only [Expression.findings])
      (by simp only [Expression.lowers]) rfl

theorem finds_expressions (es : List Expression) (s : Session) (hs : s.Good names anyNode) :
    After s (Lower.expressions names es) fun r t =>
      Finds (expressionsFindings names s.env es) s.env s t ∧ r.isSome = lowersAll names s.env es := by
  cases es with
  | nil =>
    simp only [Lowering.expressions, expressionsFindings, lowersAll]
    exact ⟨.refl s, rfl⟩
  | cons e rest =>
    simp only [Lowering.expressions, expressionsFindings, lowersAll]
    refine .bindFound hs rfl (finds_expression e s hs) (fun t he₀ he => ?_)
      fun v t ht _ _ he₁ he _ => ?_
    · rw [he₀, if_neg Bool.false_ne_true, List.append_nil]
      exact ⟨he, rfl⟩
    refine .bind ht (does_expressions rest (covers_anyNode _) 0 t ht (Nat.zero_le _))
      (finds_expressions rest t ht) fun r u _ _ _ hrest => ?_
    rw [he.env] at hrest
    rw [he₁, if_pos rfl, Bool.true_and, ← hrest.2]
    cases r with
    | none => exact ⟨he.trans hrest.1, rfl⟩
    | some vs => exact ⟨he.trans hrest.1, rfl⟩

theorem reports_initialValue (e : Option Expression) {b : BlockId} (target : DeclRef) (span : Span)
    (s : Session) (hs : s.Good names anyNode) (hb : s.current? = some b)
    (htarget : s.arena.Sees b target.decl) :
    After s (Lower.initialValue names b target span e) fun _ t =>
      Reports (initialFindings names s.env e) s t := by
  cases e with
  | none =>
    simp only [Lowering.initialValue, initialFindings]
    exact Reports.of_log rfl
  | some e =>
    simp only [Lowering.initialValue, initialFindings]
    refine .bindFound hs rfl (finds_expression e s hs) (fun t _ he => he.reports)
      fun v t ht hst hv _ he _ => ?_
    rw [hst.current hb] at hv
    have hscope := (Arena.InScope.ref (hst.arena.sees htarget)).append hv
    have hstmt : After t (Lower.addStmt b (.assign target v span)) fun _ u => Finds _ s.env s u :=
      he.addStmt ht (hst.current hb) hscope
    exact hstmt.reports

theorem reports_variableDecl (d : VariableDecl) (s : Session) (hs : s.Good names anyNode) :
    After s (Lower.variableDecl names d) fun _ t => Reports (d.findings names s.env) s t := by
  obtain ⟨kind, pattern, type, initial, span⟩ := d
  cases pattern with
  | identifier id =>
    simp only [Lowering.variableDecl, VariableDecl.findings]
    refine .bind hs (does_ascription? hs type) (finds_ascription? s type)
      fun r s₁ hs₁ _ hr htype => ?_
    refine .bind hs₁ does_currentBlock (quiet_currentBlock hs₁) fun b s₂ hs₂ h₂ hb q₂ => ?_
    have htype₂ := htype.quiet q₂ h₂
    have htyped : ∀ t, r = some t → ∃ x, type = some x ∧ Names names s₂.arena x t := by
      intro t ht
      obtain ⟨x, hx, head, nameSpan, place, decl, rfl, hdecl, hname⟩ := hr t ht
      exact ⟨_, hx, head, nameSpan, place, decl, rfl, h₂.arena.typeDecl hdecl, hname⟩
    have hd : anyNode (.statement (.variableDecl ⟨kind, .identifier id, type, initial, span⟩)) :=
      trivial
    refine .bind hs₂ (does_addDecl hs₂ hb (by simp) (annotated_of_names hd rfl htyped))
      (checked_addDecl hs₂ hb (by simp) (annotated_of_names hd rfl htyped))
      fun d s₃ hs₃ h₃ hsees hdecl => ?_
    rw [htype₂.env] at hdecl
    have hinitial := reports_initialValue initial ⟨d, id.span⟩ span s₃ hs₃ (h₃.current hb) hsees
    unfold After at hinitial ⊢
    rw [hdecl.env] at hinitial
    have hdecl₃ := htype₂.trans (hdecl.finds h₃)
    rw [List.append_nil] at hdecl₃
    exact hdecl₃.reports.trans hinitial
  | array | object =>
    simp only [Lowering.variableDecl, VariableDecl.findings]
    exact (finds_report s rfl).reports

theorem reports_functionDecl (d : FunctionDecl) (s : Session) (hs : s.Good names anyNode) :
    After s (Lower.functionDecl names d) fun _ t => Reports (d.findings names s.env) s t := by
  obtain ⟨id, typeParams, params, result, body, span⟩ := d
  simp only [Lowering.functionDecl, FunctionDecl.findings]
  refine .bind hs does_currentBlock (quiet_currentBlock hs) fun b s₁ hs₁ h₁ hb q₁ => ?_
  refine .bind hs₁ (does_addDecl hs₁ hb (by simp) fun _ ht => by cases ht)
    (checked_addDecl hs₁ hb (by simp) fun _ ht => by cases ht) fun d s₂ hs₂ h₂ hsees c₂ => ?_
  rw [q₁.env] at c₂
  have f₂ := (q₁.finds h₁).first (c₂.finds h₂)
  have hb₂ := h₂.current hb
  refine .bind hs₂ (does_linkHoisted hb₂ _ d) (quiet_linkHoisted hs₂ hb₂ _ d)
    fun _ s₃ hs₃ h₃ _ q₃ => ?_
  have hb₃ := h₃.current hb₂
  refine .bind hs₃ (does_createChild hs₃ hb₃ body.span) (quiet_createChild hs₃ hb₃ body.span)
    fun c s₄ hs₄ h₄ hc q₄ => ?_
  have hb₄ := h₄.current hb₃
  have hscope := (Arena.InScope.ref (r := ⟨d, id.span⟩) (h₄.arena.sees (h₃.arena.sees hsees))).append
    (.block hc.1.parent)
  refine .bind hs₄ (does_addStmt hs₄ hb₄ hscope) (quiet_addStmt hs₄ hb₄ hscope)
    fun _ s₅ hs₅ h₅ hopen q₅ => ?_
  have f₅ := ((f₂.quiet q₃ h₃).quiet q₄ h₄).quiet q₅ h₅
  have hfunction := finds_functionBody hs₅ (h₅.current hb₄) (hopen c hc.1.opens)
    (h₅.arena.parent_some hc.1.parent) typeParams params (does_group body (covers_anyNode _))
    (reports_group body)
  unfold After at hfunction ⊢
  rw [f₅.env, Env.types_declare] at hfunction
  exact (f₅.first hfunction).reports

theorem reports_group (g : Source.Block) (s : Session) (hs : s.Good names anyNode) :
    After s (Lower.group names g) fun _ t => Reports (g.findings names s.env) s t := by
  obtain ⟨statements, span⟩ := g
  simp only [Lowering.group, Block.findings]
  exact reports_statementList statements s hs

theorem reports_statementAt (branch : Bool) (st : Statement) (s : Session)
    (hs : s.Good names anyNode) :
    After s (Lower.statementAt names branch st) fun _ t =>
      Reports (st.findings names branch s.env) s t := by
  cases st with
  | variableDecl d =>
    simp only [Lowering.statementAt, Statement.findings]
    exact reports_variableDecl d s hs
  | functionDecl d =>
    simp only [Lowering.statementAt, Statement.findings]
    exact reports_functionDecl d s hs
  | namespaceDecl name members span =>
    simp only [Lowering.statementAt, Statement.findings]
    refine .bind hs does_currentBlock (quiet_currentBlock hs) fun b s₁ hs₁ h₁ hb q₁ => ?_
    refine .bind hs₁ (does_createChild hs₁ hb span) (quiet_createChild hs₁ hb span)
      fun c s₂ hs₂ h₂ hc q₂ => ?_
    have f₂ := (q₁.finds h₁).quiet q₂ h₂
    have hmembers := finds_scope (F := (statementsFindings names · members)) hs₂ (h₂.current hb)
      hc.1.opens hc.1.parent (does_statementList members (covers_anyNode _))
      (reports_statementList members)
    unfold After at hmembers ⊢
    rw [f₂.env] at hmembers
    exact (f₂.first hmembers).reports
  | expression value span =>
    simp only [Lowering.statementAt, Statement.findings]
    refine .bindFound hs rfl (finds_expression value s hs) (fun t _ hv => hv.reports)
      fun v t ht _ hscope _ hv _ => ?_
    refine .bind ht does_currentBlock (quiet_currentBlock ht) fun b u hu htu hb q => ?_
    have hdrop := htu.inScope hscope
    rw [hb] at hdrop
    have hstmt : After u (Lower.addStmt b (.drop v span)) fun _ w => Finds _ s.env s w :=
      (hv.quiet q htu).addStmt hu hb hdrop
    exact hstmt.reports
  | ifElse condition thenBranch elseBranch span =>
    simp only [Lowering.statementAt, Statement.findings]
    refine .bindFound hs rfl (finds_expression condition s hs) (fun t hcond₀ hcond => ?_)
      fun cond s₁ hs₁ h₁ hscope hcond₁ hcond _ => ?_
    · rw [hcond₀, if_neg Bool.false_ne_true, List.append_nil]
      exact hcond.reports
    rw [hcond₁, if_pos rfl]
    refine .bind hs₁ does_currentBlock (quiet_currentBlock hs₁) fun b s₂ hs₂ h₂ hb q₂ => ?_
    refine .bind hs₂ (does_createChild hs₂ hb thenBranch.span)
      (quiet_createChild hs₂ hb thenBranch.span) fun c s₃ hs₃ h₃ hc q₃ => ?_
    have hb₃ := h₃.current hb
    refine .bind hs₃ (does_elseBlock? hs₃ hb₃ elseBranch) (quiet_elseBlock? hs₃ hb₃ elseBranch)
      fun e s₄ hs₄ h₄ he q₄ => ?_
    have hb₄ := h₄.current hb₃
    have hlt := hc.1.opens.index_lt
    have hcond₄ := h₄.inScope (h₃.inScope (h₂.inScope hscope))
    rw [hb₄] at hcond₄
    have hbranches : s₄.arena.InScope (some b) [] (c :: e.toList) := by
      refine ⟨by simp, fun x hx => ⟨b, rfl, ?_⟩⟩
      rcases List.mem_cons.1 hx with rfl | hx
      · exact h₄.arena.parent_some hc.1.parent
      · exact (he.1 x (Option.mem_toList.1 hx)).parent
    have hstmt := hbranches.append hcond₄
    refine .bind hs₄ (does_addStmt hs₄ hb₄ hstmt) (quiet_addStmt hs₄ hb₄ hstmt)
      fun _ s₅ hs₅ h₅ hopen q₅ => ?_
    have hb₅ := h₅.current hb₄
    have hc₅ := hopen c (he.2 c hc.1.opens)
    have hcond₅ := (((hcond.quiet q₂ h₂).quiet q₃ h₃).quiet q₄.1 h₄).quiet q₅ h₅
    have hbranch : AlwaysDoes names anyNode (Lower.statementAt names true thenBranch) :=
      does_statementAt true thenBranch trivial (covers_anyNode _)
    have hparent : ∀ x ∈ c :: e.toList, s₅.arena.parent? x = some b := by
      intro x hx
      obtain ⟨_, hb', hx⟩ := hbranches.blocks x hx
      rw [hb']
      exact h₅.arena.parent_some hx
    have hinside := does_inBlock hs₅ hc₅ (Nat.zero_le _)
      (hbranch _ _ (hs₅.openBlock hc₅) (Nat.le_refl _))
    have hscoped := finds_scope (F := (thenBranch.findings names true ·)) hs₅ hb₅ hc₅
      (hparent c List.mem_cons_self) hbranch (reports_statementAt true thenBranch)
    refine .bind hs₅ hinside hscoped fun _ s₆ hs₆ h₆ hopen₆ hthen => ?_
    rw [hcond₅.env] at hthen
    have hthen := hcond₅.trans hthen
    have helse := reports_elseBody e elseBranch s₆ hs₆ (h₆.current hb₅) q₄.2 fun x hx => by
      have hx' := he.1 x hx
      have hidx := hx'.index
      refine ⟨hopen₆ x (hopen x hx'.opens) ?_, h₆.arena.parent_some (hparent x ?_)⟩
      · rintro rfl
        omega
      · rw [hx]
        simp
    unfold After at helse ⊢
    rw [hthen.env] at helse
    have hwhole := hthen.reports.trans helse
    rwa [List.append_assoc] at hwhole
  | whileLoop condition body span =>
    simp only [Lowering.statementAt, Statement.findings]
    refine .bindFound hs rfl (finds_expression condition s hs) (fun t hcond₀ hcond => ?_)
      fun cond s₁ hs₁ h₁ hscope hcond₁ hcond _ => ?_
    · rw [hcond₀, if_neg Bool.false_ne_true, List.append_nil]
      exact hcond.reports
    rw [hcond₁, if_pos rfl]
    refine .bind hs₁ does_currentBlock (quiet_currentBlock hs₁) fun b s₂ hs₂ h₂ hb q₂ => ?_
    refine .bind hs₂ (does_createChild hs₂ hb body.span) (quiet_createChild hs₂ hb body.span)
      fun c s₃ hs₃ h₃ hc q₃ => ?_
    have hb₃ := h₃.current hb
    have hcond₃ := h₃.inScope (h₂.inScope hscope)
    rw [hb₃] at hcond₃
    have hstmt := (Arena.InScope.block hc.1.parent).append hcond₃
    refine .bind hs₃ (does_addStmt hs₃ hb₃ hstmt) (quiet_addStmt hs₃ hb₃ hstmt)
      fun _ s₄ hs₄ h₄ hopen q₄ => ?_
    have hcond₄ := ((hcond.quiet q₂ h₂).quiet q₃ h₃).quiet q₄ h₄
    have hbody := finds_scope (F := (body.findings names true ·)) hs₄ (h₄.current hb₃)
      (hopen c hc.1.opens) (h₄.arena.parent_some hc.1.parent)
      (does_statementAt true body trivial (covers_anyNode _)) (reports_statementAt true body)
    unfold After at hbody ⊢
    rw [hcond₄.env] at hbody
    exact (hcond₄.trans hbody).reports
  | block braces =>
    simp only [Lowering.statementAt, Statement.findings]
    cases branch with
    | true => exact reports_group braces s hs
    | false =>
      refine .bind hs does_currentBlock (quiet_currentBlock hs) fun b s₁ hs₁ h₁ hb q₁ => ?_
      refine .bind hs₁ (does_createChild hs₁ hb braces.span) (quiet_createChild hs₁ hb braces.span)
        fun c s₂ hs₂ h₂ hc q₂ => ?_
      have f₂ := (q₁.finds h₁).quiet q₂ h₂
      have hgroup := finds_scope (F := (braces.findings names ·)) hs₂ (h₂.current hb) hc.1.opens
        hc.1.parent (does_group braces (covers_anyNode _)) (reports_group braces)
      unfold After at hgroup ⊢
      rw [f₂.env] at hgroup
      exact (f₂.first hgroup).reports
  | empty span =>
    simp only [Lowering.statementAt, Statement.findings]
    exact Reports.of_log rfl
  | classDecl | typeAlias | importDecl | exportDecl | switch | doWhile | forLoop | forOf | breakTo
  | continueTo | returnValue | throwValue | tryCatch =>
    simp only [Lowering.statementAt, Statement.findings]
    exact (finds_report s rfl).reports

theorem reports_elseBody (e : Option BlockId) (branch : Option Statement) {b : BlockId} (s : Session)
    (hs : s.Good names anyNode) (hb : s.current? = some b) (hsome : e.isSome = branch.isSome)
    (he : ∀ x, e = some x → s.MayOpen x ∧ s.arena.parent? x = some b) :
    After s (Lower.elseBody names e branch) fun _ t =>
      Reports (elseFindings names s.env.enter branch) s t := by
  cases branch with
  | none =>
    cases e with
    | none =>
      simp only [Lowering.elseBody, elseFindings]
      exact Reports.of_log rfl
    | some x => cases hsome
  | some st =>
    cases e with
    | none => cases hsome
    | some x =>
      simp only [Lowering.elseBody, elseFindings]
      obtain ⟨hx, hp⟩ := he x rfl
      have hbranch := finds_scope (F := (st.findings names true ·)) hs hb hx hp
        (does_statementAt true st trivial (covers_anyNode _)) (reports_statementAt true st)
      exact hbranch.reports

theorem reports_statementList (sts : List Statement) (s : Session) (hs : s.Good names anyNode) :
    After s (Lower.statementList names sts) fun _ t =>
      Reports (statementsFindings names s.env sts) s t := by
  cases sts with
  | nil =>
    simp only [Lowering.statementList, statementsFindings]
    exact Reports.of_log rfl
  | cons st rest =>
    simp only [Lowering.statementList, statementsFindings]
    refine .bind hs (does_statementAt false st trivial (covers_anyNode _) 0 s hs (Nat.zero_le _))
      (.and (reports_statementAt false st s hs) (checked_statementAt false st s hs))
      fun _ t ht _ _ hst => ?_
    have hrest := reports_statementList rest t ht
    unfold After at hrest ⊢
    rw [Checked.env hst.2] at hrest
    exact hst.1.trans hrest

end

/-! ## Modules -/

/-- The names in force where the statements of a module start. -/
theorem env_enterUnit (hs : Reachable names anyNode s) (m : Module) :
    (s.enterUnit names m).env =
      ⟨(Lower.ensureTypeScope.run s).2.typeNames, [[], m.hoisted names s.options]⟩ := by
  obtain ⟨hbody, _, heq⟩ := s.enterUnit_eq names m
  have h₀ := hs.openUnit m
  have henv : (s.openUnit m).env = ⟨(Lower.ensureTypeScope.run s).2.typeNames, [[]]⟩ := by
    unfold Session.openUnit
    rw [← Session.nextUnit_types]
    exact env_openRoot _ m.span
  have hoptions : (s.openUnit m).options = s.options := (run_ensureTypeScope s).2
  have c₁ := checked_placeholders h₀.good rfl m
  have d₁ := does_placeholders (n := 0) h₀.good rfl m.functionNames
  obtain ⟨h₁, f₁⟩ := d₁.1.good_frame h₀.good
  have hb₁ : _ = some s.nextUnit := f₁.current rfl
  have d₂ := does_createChild (n := 0) h₁ hb₁ m.span
  have c₂ := quiet_createChild h₁ hb₁ m.span
  obtain ⟨h₂, f₂⟩ := d₂.1.good_frame h₁
  have hchild := d₂.2.1
  unfold After at c₁ c₂
  rw [hbody] at hchild
  have h₂' : Good names anyNode { ((Lower.createChild s.nextUnit m.span).run
      ((Lower.placeholders names s.nextUnit m.functionNames).run (s.openUnit m)).2).2 with
        unitBody := some s.nextBody } := ⟨h₂.arena, h₂.opened, h₂.distinct⟩
  rw [← heq, env_openBlock h₂' ⟨hchild.opens.closed, hchild.opens.fresh⟩ hchild.parent
    (f₂.current hb₁)]
  have hnames := c₂.env.trans c₁.env
  rw [henv, hoptions, declareAll_cons] at hnames
  exact congrArg Env.enter hnames

/-- Lowering the statements of a module reports what is found in them. -/
theorem reports_module (hs : Reachable names anyNode s) (m : Module) :
    After s (Lower.module names m) fun _ t =>
      Reports (statementsFindings names ⟨(Lower.ensureTypeScope.run s).2.typeNames,
        [[], m.hoisted names s.options]⟩ m.statements) s t := by
  have hstatements := reports_statementList m.statements _ (hs.enterUnit m).good
  have hlog : (s.enterUnit names m).log = s.log := (run_ensureTypeScope s).1
  unfold After Reports at hstatements ⊢
  rw [env_enterUnit hs m, hlog] at hstatements
  rw [run_module hs m]
  exact hstatements

/-- The records of a module that is lowered by itself are those of its findings, in order. -/
theorem records_lowerModule (names : SymbolTable) (m : Module) (options : Options) :
    (Session.lowerModule names m options).log.records =
      (m.findings names options).map Finding.record := by
  have h := reports_module (reachable_initial names anyNode options) m
  unfold After Reports at h
  rw [typeNames_ensureTypeScope] at h
  exact h

end

end BlockLowering
