import BlockLowering.Proofs.Scoping
import BlockLowering.Proofs.Verdicts

/-!
# Diagnostics are sound and complete

Lowering a module reports a problem exactly if the module is not well-formed. The proof follows the
syntax: at every state, lowering a form has the verdict that the rules for the form give under the
names in force there.
-/

namespace BlockLowering

open IR Diagnostic Source Session

/-! ## Environments -/

namespace Source.Env

@[simp] theorem types_declare (env : Env) (name : String) : (env.declare name).types = env.types := by
  unfold declare
  cases env.scopes <;> rfl

@[simp] theorem types_declareAll (env : Env) (names : List String) :
    (env.declareAll names).types = env.types := by
  unfold declareAll
  induction names generalizing env with
  | nil => rfl
  | cons name rest ih => rw [List.foldl_cons, ih, types_declare]

theorem declareAll_append (env : Env) (l r : List String) :
    env.declareAll (l ++ r) = (env.declareAll l).declareAll r := List.foldl_append

end Source.Env

/-! ## Functions -/

section

variable {names : SymbolTable} {s t : Session} {b c : BlockId}

/-- A parameter that is not plain is reported and not declared. -/
theorem checked_notPlain {p : Parameter} (hp : p.name? = none) (h : Checked False s.env s t) :
    Checked (p.WellFormed names s.env.types) (s.env.declareAll (p.declared names)) s t := by
  have hdeclared : p.declared names = [] := by
    unfold Parameter.declared
    rw [hp]
    rfl
  rw [hdeclared]
  refine h.fails (fun h => h) fun hwf => ?_
  have hplain := hwf.plain
  rw [hp] at hplain
  cases hplain

theorem checked_parameter (hs : s.Good names anyNode) (hb : s.current? = some b) (p : Parameter) :
    After s (Lower.parameter names b p) fun _ t =>
      Checked (p.WellFormed names s.env.types) (s.env.declareAll (p.declared names)) s t := by
  obtain ⟨kind, pattern, type, initial, span⟩ := p
  unfold Lower.parameter
  cases kind with
  | optional => exact checked_notPlain rfl (checked_reject s _ _)
  | rest => exact checked_notPlain rfl (checked_reject s _ _)
  | positional =>
    cases initial with
    | some e => exact checked_notPlain (by cases pattern <;> rfl) (checked_reject s _ _)
    | none =>
      cases pattern with
      | array => exact checked_notPlain rfl (checked_reject s _ _)
      | object => exact checked_notPlain rfl (checked_reject s _ _)
      | identifier id =>
        refine .bind hs (does_ascription? hs type) (checked_ascription? s type)
          fun r t ht hst hr htype => ?_
        have hp : anyNode (.parameter ⟨.positional, .identifier id, type, none, span⟩) := trivial
        refine .bind ht (does_addDecl ht (hst.current hb) (by simp) (annotated_of_names hp rfl hr))
          (checked_addDecl ht (hst.current hb) (by simp) (annotated_of_names hp rfl hr))
          fun _ u _ _ _ hdecl => ?_
        rw [htype.env] at hdecl
        refine (htype.and hdecl).congr ⟨fun h => ⟨rfl, h.1⟩, fun h => ⟨h.type, trivial⟩⟩

theorem checked_parameters (hs : s.Good names anyNode) (hb : s.current? = some b)
    (params : List Parameter) :
    After s (Lower.parameters names b params) fun _ t =>
      Checked (∀ p ∈ params, p.WellFormed names s.env.types)
        (s.env.declareAll (params.flatMap (Parameter.declared names))) s t := by
  induction params generalizing s with
  | nil => exact (Quiet.refl s).congr (by simp)
  | cons p rest ih =>
    unfold Lower.parameters
    refine .bind hs (does_parameter hs hb trivial) (checked_parameter hs hb p)
      fun _ t ht hst _ hp => ?_
    have hrest := ih ht (hst.current hb)
    unfold After at hrest ⊢
    rw [hp.env, Env.types_declareAll, ← Env.declareAll_append] at hrest
    exact (hp.and hrest).congr (by simp)

theorem checked_typeParameters (s : Session) (params : List TypeParameter) :
    After s (Lower.typeParameters params) fun _ t => Checked (params = []) s.env s t := by
  cases params with
  | nil => exact (Quiet.refl s).congr (by simp)
  | cons p rest => exact Checked.congr (checked_reject s _ _) (by simp)

/-- The verdict on the body of a function is the one that the rules ask for. -/
theorem checked_functionBody (hs : s.Good names anyNode) (hb : s.current? = some b)
    (hc : s.MayOpen c) (hp : s.arena.parent? c = some b) (typeParams : List TypeParameter)
    (params : List Parameter) {statements : Lower Unit} {list : List Statement}
    (hbody : AlwaysDoes names anyNode statements)
    (hv : ∀ t, t.Good names anyNode →
      After t statements fun _ u => Verdict (StatementsWellFormed names t.env list) t u) :
    After s (Lower.functionBody names c typeParams params statements) fun _ t =>
      Checked (typeParams = [] ∧ (∀ p ∈ params, p.WellFormed names s.env.types) ∧
        StatementsWellFormed names (s.env.enter.declareAll (params.flatMap (Parameter.declared names)))
          list) s.env s t := by
  unfold Lower.functionBody
  refine .bind hs (does_typeParameters typeParams) (checked_typeParameters s typeParams)
    fun _ t ht hst hopen htypes => ?_
  have hcur := hst.current hb
  have hopened := ht.openBlock (hopen c hc)
  have hwork : Does names anyNode t.arena.blocks.length ((Lower.openBlock c).run t).2
      (do Lower.parameters names c params; statements) anything := by
    refine .bind hopened (does_parameters hopened rfl fun _ _ => trivial) fun _ u hu huv _ => ?_
    exact hbody _ u hu huv.arena.size
  have hverdict : ∀ u, u.Good names anyNode → u.current? = some c → u.env = t.env.enter →
      After u (do Lower.parameters names c params; statements) fun _ w =>
        Verdict ((∀ p ∈ params, p.WellFormed names s.env.types) ∧ StatementsWellFormed names
          (s.env.enter.declareAll (params.flatMap (Parameter.declared names))) list) u w := by
    intro u hu hc' henv
    rw [htypes.env] at henv
    refine .bind hu (does_parameters hu hc' fun _ _ => trivial) (checked_parameters hu hc' params)
      fun _ v hv' _ _ hps => ?_
    have hrest := hv v hv'
    unfold After at hrest ⊢
    rw [hps.env, henv] at hrest
    rw [henv] at hps
    exact hps.toVerdict.and hrest
  have hinner := checked_inBlock ht hcur (hopen c hc) (hst.arena.parent_some hp) hwork hverdict
  unfold After at hinner ⊢
  rw [htypes.env] at hinner
  exact htypes.and hinner

/-! ## Expressions and statements -/

/-- The value is a mere use of a declaration. -/
def IR.Expr.isRef : Expr → Bool
  | .ref _ => true
  | _ => false

theorem toIR?_isSome (operator : BinaryOperator) :
    operator.toIR?.isSome = true ↔ operator ∈ acceptedOperators := by
  cases operator <;> decide

/-- The verdict on an expression; one that is accepted has a value, which is a mere use exactly if it
may be assigned. -/
structure ExprChecked (names : SymbolTable) (e : Expression) (s : Session) (r : Option Expr)
    (t : Session) : Prop extends Checked (e.WellFormed names s.env) s.env s t where
  value : e.WellFormed names s.env → ∃ v, r = some v ∧ v.isRef = e.isTarget

/-- Where a part has failed there is no value, and what needs the part is not accepted. -/
theorem ExprChecked.of_fails {e : Expression} {ok : Prop} (h : Checked ok s.env s t) (hnot : ¬ok)
    (himp : e.WellFormed names s.env → ok) : ExprChecked names e s none t :=
  ⟨h.fails hnot fun hwf => hnot (himp hwf), fun hwf => absurd (himp hwf) hnot⟩

/-- A form without a rule is reported. -/
theorem exprChecked_reject {e : Expression} (h : ¬e.WellFormed names s.env) (construct : String)
    (span : Span) :
    After s (do Lower.reject construct span; return none) (ExprChecked names e s) :=
  .of_fails (checked_reject s construct span) (fun h => h) h

/-- An expression as the first part of a sequence: it failed, or what follows can use its value. -/
theorem After.bindValue {α : Type} {e : Expression} {env : Env} {f : Option Expr → Lower α}
    {post : α → Session → Prop} (hs : s.Good names anyNode) (henv : s.env = env)
    (he : After s (Lower.expression names e) (ExprChecked names e s))
    (hnone : ∀ t, Checked (e.WellFormed names env) env s t → ¬e.WellFormed names env →
      After t (f none) post)
    (hsome : ∀ v t, t.Good names anyNode → s.Frame 0 t →
      t.arena.InScope t.current? v.refs v.blocks → Checked (e.WellFormed names env) env s t →
      (e.WellFormed names env → v.isRef = e.isTarget) → After t (f (some v)) post) :
    After s (Lower.expression names e >>= f) post := by
  subst henv
  refine .bind hs (does_expression e (covers_anyNode _) 0 s hs (Nat.zero_le _)) he
    fun r t ht hst hscope hr => ?_
  cases r with
  | none =>
    refine hnone t hr.toChecked fun hwf => ?_
    obtain ⟨v, hv, _⟩ := hr.value hwf
    cases hv
  | some v =>
    refine hsome v t ht hst (hscope v rfl) hr.toChecked fun hwf => ?_
    obtain ⟨w, hw, href⟩ := hr.value hwf
    obtain rfl := Option.some.inj hw
    exact href

/-- The verdict on a statement, with its names in force afterwards; on a branch, the verdict on its
statements. -/
def StmtChecked (names : SymbolTable) (branch : Bool) (st : Statement) (s t : Session) : Prop :=
  match branch with
  | true => Verdict (StatementsWellFormed names s.env st.branch) s t
  | false => Checked (st.WellFormed names s.env) (s.env.declareAll (st.declared names)) s t

/-- A statement that is no brace group is the same as a branch. -/
theorem StmtChecked.of_checked {st : Statement} (branch : Bool) (hst : st.branch = [st])
    (h : Checked (st.WellFormed names s.env) (s.env.declareAll (st.declared names)) s t) :
    StmtChecked names branch st s t := by
  cases branch with
  | false => exact h
  | true =>
    refine h.toVerdict.congr ?_
    rw [hst, statementsWellFormed_cons]
    exact ⟨fun h => ⟨h, .nil⟩, fun h => h.1⟩

theorem quiet_elseBlock? (hs : s.Good names anyNode) (hb : s.current? = some b)
    (branch : Option Statement) :
    After s (Lower.elseBlock? b branch) fun r t => Quiet s t ∧ r.isSome = branch.isSome := by
  cases branch with
  | none => exact ⟨.refl s, rfl⟩
  | some st => exact ⟨quiet_createChild hs hb st.span, rfl⟩

/-- Statements in a new block of their own. -/
theorem checked_scope {body : Lower Unit} {list : List Statement} (hs : s.Good names anyNode)
    (hb : s.current? = some b) (hc : s.MayOpen c) (hp : s.arena.parent? c = some b)
    (hbody : AlwaysDoes names anyNode body)
    (hv : ∀ t, t.Good names anyNode →
      After t body fun _ u => Verdict (StatementsWellFormed names t.env list) t u) :
    After s (Lower.inBlock c body) fun _ t =>
      Checked (StatementsWellFormed names s.env.enter list) s.env s t := by
  refine checked_inBlock hs hb hc hp (hbody _ _ (hs.openBlock hc) (Nat.le_refl _))
    fun t ht _ henv => ?_
  rw [← henv]
  exact hv t ht

mutual

theorem checked_expression (e : Expression) (s : Session) (hs : s.Good names anyNode) :
    After s (Lower.expression names e) (ExprChecked names e s) := by
  cases e with
  | int value span =>
    simp only [Lowering.expression]
    exact ⟨(Quiet.refl s).congr (by simp [Expression.WellFormed.int]), fun _ => ⟨_, rfl, rfl⟩⟩
  | float value span =>
    simp only [Lowering.expression]
    exact ⟨(Quiet.refl s).congr (by simp [Expression.WellFormed.float]), fun _ => ⟨_, rfl, rfl⟩⟩
  | identifier id =>
    simp only [Lowering.expression]
    have hiff : s.env.Has (names.resolve id.name) ↔
        (Expression.identifier id).WellFormed names s.env := ⟨.identifier, fun | .identifier h => h⟩
    refine .bind hs (does_resolveName hs id) (checked_resolveName hs id) fun r t _ _ _ hr => ?_
    refine ⟨hr.1.congr hiff, fun hwf => ?_⟩
    obtain ⟨x, rfl⟩ := Option.isSome_iff_exists.1 (hr.2 (hiff.2 hwf))
    exact ⟨.ref x, rfl, rfl⟩
  | binary operator left right span =>
    simp only [Lowering.expression]
    have hop := toIR?_isSome operator
    cases hir : operator.toIR? with
    | none =>
      refine exprChecked_reject (fun hwf => ?_) _ _
      have haccepted := hop.2 (Expression.wellFormed_binary.1 hwf).1
      rw [hir] at haccepted
      cases haccepted
    | some op =>
      have haccepted := hop.1 (by rw [hir]; rfl)
      refine .bindValue hs rfl (checked_expression left s hs) (fun t hl hnot => ?_)
        fun lhs t ht _ _ hl _ => ?_
      · exact .of_fails hl hnot fun hwf => (Expression.wellFormed_binary.1 hwf).2.1
      · refine .bindValue ht hl.env (checked_expression right t ht) (fun u hr hnot => ?_)
          fun rhs u _ _ _ hr _ => ?_
        · exact .of_fails (hl.and hr) (fun h => hnot h.2) fun hwf =>
            (Expression.wellFormed_binary.1 hwf).2
        · refine ⟨(hl.and hr).congr ?_, fun _ => ⟨_, rfl, rfl⟩⟩
          rw [Expression.wellFormed_binary]
          exact ⟨fun h => ⟨haccepted, h⟩, fun h => h.2⟩
  | assignment operator left right span =>
    cases operator with
    | assign =>
      simp only [Lowering.expression]
      refine .bind hs does_currentBlock (quiet_currentBlock hs) fun b s₁ hs₁ h₁ hb q₁ => ?_
      refine .bind hs₁ (does_freshTemp hs₁ hb span) (quiet_freshTemp hs₁ hb span)
        fun temp s₂ hs₂ h₂ htemp q₂ => ?_
      have q₂ := q₁.quiet q₂
      refine .bindValue hs₂ q₂.env (checked_expression right s₂ hs₂) (fun s₃ c₃ hnot => ?_)
        fun value s₃ hs₃ h₃ hvalue c₃ _ => ?_
      · exact .of_fails (q₂.andThen c₃) hnot fun hwf => (Expression.wellFormed_assignment.1 hwf).1.1
      have c₃ := q₂.andThen c₃
      have hb₃ : s₃.current? = some b := h₃.current (h₂.current hb)
      rw [hb₃] at hvalue
      have htemp₃ := h₃.arena.sees htemp
      have hscope := (Arena.InScope.ref (r := ⟨temp, span⟩) htemp₃).append hvalue
      refine .bind hs₃ (does_addStmt hs₃ hb₃ hscope) (quiet_addStmt hs₃ hb₃ hscope)
        fun _ s₄ hs₄ h₄ _ q₄ => ?_
      have c₄ := c₃.quiet q₄
      have hb₄ := h₄.current hb₃
      refine .bindValue hs₄ c₄.env (checked_expression left s₄ hs₄) (fun s₅ c₅ hnot => ?_)
        fun target s₅ hs₅ h₅ htarget c₅ href => ?_
      · exact .of_fails (c₄.and c₅) (fun h => hnot h.2) fun hwf =>
          (Expression.wellFormed_assignment.1 hwf).1
      have c₅ := c₄.and c₅
      cases target with
      | ref target =>
        have hb₅ := h₅.current hb₄
        rw [hb₅] at htarget
        have htemp₅ := h₅.arena.sees (h₄.arena.sees htemp₃)
        have hscope₅ := htarget.append (.ref (r := ⟨temp, span⟩) htemp₅)
        refine .bind hs₅ (does_addStmt hs₅ hb₅ hscope₅) (quiet_addStmt hs₅ hb₅ hscope₅)
          fun _ s₆ _ _ _ q₆ => ?_
        refine ⟨(c₅.quiet q₆).congr ?_, fun _ => ⟨_, rfl, rfl⟩⟩
        rw [Expression.wellFormed_assignment]
        exact ⟨fun h => ⟨h, (href h.2).symm⟩, fun h => h.1⟩
      | int | float | binary | func | call =>
        have hreject := c₅.and (checked_reject s₅ ("assignment to " ++ left.kind.description) left.span)
        rw [c₅.env] at hreject
        refine .of_fails hreject (fun h => h.2) fun hwf => ?_
        obtain ⟨hparts, hlvalue⟩ := Expression.wellFormed_assignment.1 hwf
        rw [← href hparts.2] at hlvalue
        cases hlvalue
    | addAssign | subtractAssign | multiplyAssign | divideAssign | moduloAssign =>
      simp only [Lowering.expression]
      exact exprChecked_reject (fun h => by cases h) _ _
  | parenthesized inner span =>
    simp only [Lowering.expression]
    have hiff : inner.WellFormed names s.env ↔
        (Expression.parenthesized inner span).WellFormed names s.env :=
      ⟨.parenthesized, fun | .parenthesized h => h⟩
    have h := checked_expression inner s hs
    exact ⟨h.toChecked.congr hiff, fun hwf => h.value (hiff.2 hwf)⟩
  | string | template | boolean | null | this | super | array | object | unary | logical
  | conditional | member | index | new | comma | instanceOf | typeCast =>
    simp only [Lowering.expression]
    exact exprChecked_reject (fun h => by cases h) _ _
  | call callee typeArgs args span =>
    simp only [Lowering.expression]
    cases typeArgs with
    | cons a rest =>
      refine exprChecked_reject (fun hwf => ?_) _ _
      cases (Expression.wellFormed_call.1 hwf).1
    | nil =>
      refine .bindValue hs rfl (checked_expression callee s hs) (fun t hc hnot => ?_)
        fun f t ht _ _ hc _ => ?_
      · exact .of_fails hc hnot fun hwf => (Expression.wellFormed_call.1 hwf).2.1
      refine .bind ht (does_expressions args (covers_anyNode _) 0 t ht (Nat.zero_le _))
        (checked_expressions args t ht) fun r u _ _ _ hargs => ?_
      rw [hc.env] at hargs
      cases r with
      | none =>
        refine .of_fails (hc.and hargs.1) (fun h => ?_) fun hwf => (Expression.wellFormed_call.1 hwf).2
        cases hargs.2 h.2
      | some values =>
        refine ⟨(hc.and hargs.1).congr ?_, fun _ => ⟨_, rfl, rfl⟩⟩
        rw [Expression.wellFormed_call]
        exact ⟨fun h => ⟨rfl, h⟩, fun h => h.2⟩
  | function name typeParams params result body span =>
    simp only [Lowering.expression]
    refine .bind hs does_currentBlock (quiet_currentBlock hs) fun b s₁ hs₁ h₁ hb q₁ => ?_
    refine .bind hs₁ (does_createChild hs₁ hb body.span) (quiet_createChild hs₁ hb body.span)
      fun c s₂ hs₂ h₂ hc q₂ => ?_
    have q₂ := q₁.quiet q₂
    have hbody : AlwaysDoes names anyNode (Lower.group names body) :=
      does_group body (covers_anyNode _)
    refine .bind hs₂ (does_functionBody hs₂ hc.1.opens (Nat.zero_le _) (fun _ _ => trivial) hbody)
      (checked_functionBody hs₂ (h₂.current hb) hc.1.opens hc.1.parent typeParams params hbody
        (checked_group body)) fun _ s₃ _ _ _ c₃ => ?_
    have c₃ := q₂.andThen c₃
    rw [q₂.env] at c₃
    exact ⟨c₃.congr Expression.wellFormed_function.symm, fun _ => ⟨_, rfl, rfl⟩⟩

theorem checked_expressions (es : List Expression) (s : Session) (hs : s.Good names anyNode) :
    After s (Lower.expressions names es) fun r t =>
      Checked (∀ e ∈ es, e.WellFormed names s.env) s.env s t ∧
        ((∀ e ∈ es, e.WellFormed names s.env) → r.isSome = true) := by
  cases es with
  | nil =>
    simp only [Lowering.expressions]
    exact ⟨(Quiet.refl s).congr (by simp), fun _ => rfl⟩
  | cons e rest =>
    simp only [Lowering.expressions, List.forall_mem_cons]
    refine .bindValue hs rfl (checked_expression e s hs) (fun t he hnot => ?_)
      fun v t ht _ _ he _ => ?_
    · exact ⟨he.fails hnot fun h => hnot h.1, fun h => absurd h.1 hnot⟩
    refine .bind ht (does_expressions rest (covers_anyNode _) 0 t ht (Nat.zero_le _))
      (checked_expressions rest t ht) fun r u _ _ _ hrest => ?_
    rw [he.env] at hrest
    cases r with
    | none => exact ⟨he.and hrest.1, fun h => hrest.2 h.2⟩
    | some vs => exact ⟨he.and hrest.1, fun _ => rfl⟩

theorem checked_initialValue (e : Option Expression) {b : BlockId} (target : DeclRef) (span : Span)
    (s : Session) (hs : s.Good names anyNode) (hb : s.current? = some b)
    (htarget : s.arena.Sees b target.decl) :
    After s (Lower.initialValue names b target span e) fun _ t =>
      Checked (∀ x ∈ e, x.WellFormed names s.env) s.env s t := by
  cases e with
  | none =>
    simp only [Lowering.initialValue]
    exact (Quiet.refl s).congr (by simp)
  | some e =>
    simp only [Lowering.initialValue]
    have hone : e.WellFormed names s.env ↔ ∀ x ∈ some e, x.WellFormed names s.env := by simp
    refine .bindValue hs rfl (checked_expression e s hs) (fun t he _ => ?_)
      fun v t ht hst hv he _ => ?_
    · exact he.congr hone
    · rw [hst.current hb] at hv
      have hscope := (Arena.InScope.ref (hst.arena.sees htarget)).append hv
      exact (he.congr hone).quiet (quiet_addStmt ht (hst.current hb) hscope)

theorem checked_variableDecl (d : VariableDecl) (s : Session) (hs : s.Good names anyNode) :
    After s (Lower.variableDecl names d) fun _ t =>
      Checked ((Statement.variableDecl d).WellFormed names s.env)
        (s.env.declareAll ((Statement.variableDecl d).declared names)) s t := by
  obtain ⟨kind, pattern, type, initial, span⟩ := d
  cases pattern with
  | identifier id =>
    simp only [Lowering.variableDecl]
    refine .bind hs (does_ascription? hs type) (checked_ascription? s type)
      fun r s₁ hs₁ _ hr htype => ?_
    refine .bind hs₁ does_currentBlock (quiet_currentBlock hs₁) fun b s₂ hs₂ h₂ hb q₂ => ?_
    have htype₂ := htype.quiet q₂
    have htyped : ∀ t, r = some t → ∃ x, type = some x ∧ Names names s₂.arena x t := by
      intro t ht
      obtain ⟨x, hx, head, nameSpan, place, decl, rfl, hdecl, hname⟩ := hr t ht
      exact ⟨_, hx, head, nameSpan, place, decl, rfl, h₂.arena.typeDecl hdecl, hname⟩
    have hd : anyNode (.statement (.variableDecl ⟨kind, .identifier id, type, initial, span⟩)) :=
      trivial
    refine .bind hs₂ (does_addDecl hs₂ hb (by simp) (annotated_of_names hd rfl htyped))
      (checked_addDecl hs₂ hb (by simp) (annotated_of_names hd rfl htyped))
      fun d s₃ hs₃ h₃ hsees hdecl => ?_
    rw [htype₂.env] at hdecl
    have hinitial := checked_initialValue initial ⟨d, id.span⟩ span s₃ hs₃ (h₃.current hb) hsees
    unfold After at hinitial ⊢
    rw [hdecl.env] at hinitial
    refine ((htype₂.and hdecl).and hinitial).congr ?_
    rw [Statement.wellFormed_variableDecl]
    simp
  | array | object =>
    simp only [Lowering.variableDecl]
    exact Checked.fails (checked_reject s _ _) (fun h => h) fun h => by cases h

theorem checked_functionDecl (d : FunctionDecl) (s : Session) (hs : s.Good names anyNode) :
    After s (Lower.functionDecl names d) fun _ t =>
      Checked ((Statement.functionDecl d).WellFormed names s.env)
        (s.env.declareAll ((Statement.functionDecl d).declared names)) s t := by
  obtain ⟨id, typeParams, params, result, body, span⟩ := d
  simp only [Lowering.functionDecl]
  refine .bind hs does_currentBlock (quiet_currentBlock hs) fun b s₁ hs₁ _ hb q₁ => ?_
  refine .bind hs₁ (does_addDecl hs₁ hb (by simp) fun _ ht => by cases ht)
    (checked_addDecl hs₁ hb (by simp) fun _ ht => by cases ht) fun d s₂ hs₂ h₂ hsees c₂ => ?_
  rw [q₁.env] at c₂
  have c₂ := q₁.andThen c₂
  have hb₂ := h₂.current hb
  refine .bind hs₂ (does_linkHoisted hb₂ _ d) (quiet_linkHoisted hs₂ hb₂ _ d)
    fun _ s₃ hs₃ h₃ _ q₃ => ?_
  have hb₃ := h₃.current hb₂
  refine .bind hs₃ (does_createChild hs₃ hb₃ body.span) (quiet_createChild hs₃ hb₃ body.span)
    fun c s₄ hs₄ h₄ hc q₄ => ?_
  have hb₄ := h₄.current hb₃
  have hscope := (Arena.InScope.ref (r := ⟨d, id.span⟩) (h₄.arena.sees (h₃.arena.sees hsees))).append
    (.block hc.1.parent)
  refine .bind hs₄ (does_addStmt hs₄ hb₄ hscope) (quiet_addStmt hs₄ hb₄ hscope)
    fun _ s₅ hs₅ h₅ hopen q₅ => ?_
  have c₅ := ((c₂.quiet q₃).quiet q₄).quiet q₅
  have hfunction := checked_functionBody hs₅ (h₅.current hb₄) (hopen c hc.1.opens)
    (h₅.arena.parent_some hc.1.parent) typeParams params (does_group body (covers_anyNode _))
    (checked_group body)
  unfold After at hfunction ⊢
  rw [c₅.env] at hfunction
  refine (c₅.andThen hfunction).congr ?_
  rw [Statement.wellFormed_functionDecl, Env.types_declare]

theorem checked_group (g : Source.Block) (s : Session) (hs : s.Good names anyNode) :
    After s (Lower.group names g) fun _ t =>
      Verdict (StatementsWellFormed names s.env g.statements) s t := by
  obtain ⟨statements, span⟩ := g
  simp only [Lowering.group]
  exact checked_statementList statements s hs

theorem checked_statementAt (branch : Bool) (st : Statement) (s : Session)
    (hs : s.Good names anyNode) :
    After s (Lower.statementAt names branch st) fun _ t => StmtChecked names branch st s t := by
  cases st with
  | variableDecl d =>
    simp only [Lowering.statementAt]
    exact .of_checked branch rfl (checked_variableDecl d s hs)
  | functionDecl d =>
    simp only [Lowering.statementAt]
    exact .of_checked branch rfl (checked_functionDecl d s hs)
  | namespaceDecl name members span =>
    simp only [Lowering.statementAt]
    refine .bind hs does_currentBlock (quiet_currentBlock hs) fun b s₁ hs₁ _ hb q₁ => ?_
    refine .bind hs₁ (does_createChild hs₁ hb span) (quiet_createChild hs₁ hb span)
      fun c s₂ hs₂ h₂ hc q₂ => ?_
    have q₂ := q₁.quiet q₂
    have hmembers := checked_scope hs₂ (h₂.current hb) hc.1.opens hc.1.parent
      (does_statementList members (covers_anyNode _)) (checked_statementList members)
    unfold After at hmembers ⊢
    rw [q₂.env] at hmembers
    refine .of_checked branch rfl ((q₂.andThen hmembers).congr ?_)
    exact ⟨.namespaceDecl, fun | .namespaceDecl h => h⟩
  | expression value span =>
    simp only [Lowering.statementAt]
    have hiff : value.WellFormed names s.env ↔
        (Statement.expression value span).WellFormed names s.env :=
      ⟨.expression, fun | .expression h => h⟩
    refine .bindValue hs rfl (checked_expression value s hs) (fun t hv _ => ?_)
      fun v t ht _ hscope hv _ => ?_
    · exact .of_checked branch rfl (hv.congr hiff)
    refine .bind ht does_currentBlock (quiet_currentBlock ht) fun b u hu htu hb q => ?_
    have hdrop := htu.inScope hscope
    rw [hb] at hdrop
    have hq : After u (Lower.addStmt b (.drop v span)) fun _ w => Quiet u w :=
      quiet_addStmt hu hb hdrop
    exact .of_checked branch rfl (((hv.congr hiff).quiet q).quiet hq)
  | ifElse condition thenBranch elseBranch span =>
    simp only [Lowering.statementAt]
    refine .bindValue hs rfl (checked_expression condition s hs) (fun t hcond hnot => ?_)
      fun cond s₁ hs₁ h₁ hscope hcond _ => ?_
    · refine .of_checked branch rfl (hcond.fails hnot fun hwf => hnot ?_)
      exact (Statement.wellFormed_ifElse.1 hwf).1
    refine .bind hs₁ does_currentBlock (quiet_currentBlock hs₁) fun b s₂ hs₂ h₂ hb q₂ => ?_
    refine .bind hs₂ (does_createChild hs₂ hb thenBranch.span)
      (quiet_createChild hs₂ hb thenBranch.span) fun c s₃ hs₃ h₃ hc q₃ => ?_
    have hb₃ := h₃.current hb
    refine .bind hs₃ (does_elseBlock? hs₃ hb₃ elseBranch) (quiet_elseBlock? hs₃ hb₃ elseBranch)
      fun e s₄ hs₄ h₄ he q₄ => ?_
    have hb₄ := h₄.current hb₃
    have hlt := hc.1.opens.index_lt
    have hcond₄ := h₄.inScope (h₃.inScope (h₂.inScope hscope))
    rw [hb₄] at hcond₄
    have hbranches : s₄.arena.InScope (some b) [] (c :: e.toList) := by
      refine ⟨by simp, fun x hx => ⟨b, rfl, ?_⟩⟩
      rcases List.mem_cons.1 hx with rfl | hx
      · exact h₄.arena.parent_some hc.1.parent
      · exact (he.1 x (Option.mem_toList.1 hx)).parent
    have hstmt := hbranches.append hcond₄
    refine .bind hs₄ (does_addStmt hs₄ hb₄ hstmt) (quiet_addStmt hs₄ hb₄ hstmt)
      fun _ s₅ hs₅ h₅ hopen q₅ => ?_
    have hb₅ := h₅.current hb₄
    have hc₅ := hopen c (he.2 c hc.1.opens)
    have hcond₅ := (((hcond.quiet q₂).quiet q₃).quiet q₄.1).quiet q₅
    have hbranch : AlwaysDoes names anyNode (Lower.statementAt names true thenBranch) :=
      does_statementAt true thenBranch trivial (covers_anyNode _)
    have hparent : ∀ x ∈ c :: e.toList, s₅.arena.parent? x = some b := by
      intro x hx
      obtain ⟨_, hb', hx⟩ := hbranches.blocks x hx
      rw [hb']
      exact h₅.arena.parent_some hx
    refine .bind hs₅ (does_inBlock hs₅ hc₅ (Nat.zero_le _) (hbranch _ _ (hs₅.openBlock hc₅)
      (Nat.le_refl _))) (checked_scope hs₅ hb₅ hc₅ (hparent c List.mem_cons_self) hbranch
      (checked_statementAt true thenBranch)) fun _ s₆ hs₆ h₆ hopen₆ hthen => ?_
    rw [hcond₅.env] at hthen
    have hthen := hcond₅.and hthen
    have helse := checked_elseBody e elseBranch s₆ hs₆ (h₆.current hb₅) q₄.2 fun x hx => by
      have hx' := he.1 x hx
      have hidx := hx'.index
      refine ⟨hopen₆ x (hopen x hx'.opens) ?_, h₆.arena.parent_some (hparent x ?_)⟩
      · rintro rfl
        omega
      · rw [hx]
        simp
    unfold After at helse ⊢
    rw [hthen.env] at helse
    refine .of_checked branch rfl ((hthen.and helse).congr ?_)
    rw [Statement.wellFormed_ifElse, and_assoc]
  | whileLoop condition body span =>
    simp only [Lowering.statementAt]
    refine .bindValue hs rfl (checked_expression condition s hs) (fun t hcond hnot => ?_)
      fun cond s₁ hs₁ h₁ hscope hcond _ => ?_
    · refine .of_checked branch rfl (hcond.fails hnot fun hwf => hnot ?_)
      exact (Statement.wellFormed_whileLoop.1 hwf).1
    refine .bind hs₁ does_currentBlock (quiet_currentBlock hs₁) fun b s₂ hs₂ h₂ hb q₂ => ?_
    refine .bind hs₂ (does_createChild hs₂ hb body.span) (quiet_createChild hs₂ hb body.span)
      fun c s₃ hs₃ h₃ hc q₃ => ?_
    have hb₃ := h₃.current hb
    have hcond₃ := h₃.inScope (h₂.inScope hscope)
    rw [hb₃] at hcond₃
    have hstmt := (Arena.InScope.block hc.1.parent).append hcond₃
    refine .bind hs₃ (does_addStmt hs₃ hb₃ hstmt) (quiet_addStmt hs₃ hb₃ hstmt)
      fun _ s₄ hs₄ h₄ hopen q₄ => ?_
    have hcond₄ := ((hcond.quiet q₂).quiet q₃).quiet q₄
    have hbody := checked_scope hs₄ (h₄.current hb₃) (hopen c hc.1.opens)
      (h₄.arena.parent_some hc.1.parent) (does_statementAt true body trivial (covers_anyNode _))
      (checked_statementAt true body)
    unfold After at hbody ⊢
    rw [hcond₄.env] at hbody
    exact .of_checked branch rfl ((hcond₄.and hbody).congr Statement.wellFormed_whileLoop.symm)
  | block braces =>
    simp only [Lowering.statementAt]
    cases branch with
    | true => exact checked_group braces s hs
    | false =>
      refine .bind hs does_currentBlock (quiet_currentBlock hs) fun b s₁ hs₁ _ hb q₁ => ?_
      refine .bind hs₁ (does_createChild hs₁ hb braces.span) (quiet_createChild hs₁ hb braces.span)
        fun c s₂ hs₂ h₂ hc q₂ => ?_
      have q₂ := q₁.quiet q₂
      have hgroup := checked_scope hs₂ (h₂.current hb) hc.1.opens hc.1.parent
        (does_group braces (covers_anyNode _)) (checked_group braces)
      unfold After at hgroup ⊢
      rw [q₂.env] at hgroup
      exact (q₂.andThen hgroup).congr ⟨.block, fun | .block h => h⟩
  | empty span =>
    simp only [Lowering.statementAt]
    exact .of_checked branch rfl ((Quiet.refl s).congr (by simp [Statement.WellFormed.empty]))
  | classDecl | typeAlias | importDecl | exportDecl | switch | doWhile | forLoop | forOf | breakTo
  | continueTo | returnValue | throwValue | tryCatch =>
    simp only [Lowering.statementAt]
    exact .of_checked branch rfl
      (Checked.fails (checked_reject s _ _) (fun h => h) fun h => by cases h)

theorem checked_elseBody (e : Option BlockId) (branch : Option Statement) {b : BlockId} (s : Session)
    (hs : s.Good names anyNode) (hb : s.current? = some b) (hsome : e.isSome = branch.isSome)
    (he : ∀ x, e = some x → s.MayOpen x ∧ s.arena.parent? x = some b) :
    After s (Lower.elseBody names e branch) fun _ t =>
      Checked (∀ st ∈ branch, StatementsWellFormed names s.env.enter st.branch) s.env s t := by
  cases branch with
  | none =>
    cases e with
    | none =>
      simp only [Lowering.elseBody]
      exact (Quiet.refl s).congr (by simp)
    | some x => cases hsome
  | some st =>
    cases e with
    | none => cases hsome
    | some x =>
      simp only [Lowering.elseBody]
      obtain ⟨hx, hp⟩ := he x rfl
      refine Checked.congr (checked_scope hs hb hx hp
        (does_statementAt true st trivial (covers_anyNode _)) (checked_statementAt true st)) ?_
      simp

theorem checked_statementList (sts : List Statement) (s : Session) (hs : s.Good names anyNode) :
    After s (Lower.statementList names sts) fun _ t =>
      Verdict (StatementsWellFormed names s.env sts) s t := by
  cases sts with
  | nil =>
    simp only [Lowering.statementList]
    exact (Quiet.refl s).toVerdict.congr (by simp [StatementsWellFormed.nil])
  | cons st rest =>
    simp only [Lowering.statementList]
    refine .bind hs (does_statementAt false st trivial (covers_anyNode _) 0 s hs (Nat.zero_le _))
      (checked_statementAt false st s hs) fun _ t ht _ _ hst => ?_
    have hrest := checked_statementList rest t ht
    unfold After at hrest ⊢
    rw [Checked.env hst] at hrest
    exact (hst.toVerdict.and hrest).congr statementsWellFormed_cons.symm

end

/-- An expression without a value has a problem. -/
theorem problems_lt (hs : s.Good names anyNode) {e : Expression}
    (h : ((Lower.expression names e).run s).1 = none) :
    s.problems < ((Lower.expression names e).run s).2.problems := by
  have hchecked := checked_expression e s hs
  unfold After at hchecked
  rw [h] at hchecked
  refine hchecked.lt fun hwf => ?_
  obtain ⟨v, hv, _⟩ := hchecked.value hwf
  cases hv

/-- An expression as the first part of a sequence: it failed with a problem, or it has a value. -/
theorem After.bindExpression {α : Type} {e : Expression} {f : Option Expr → Lower α}
    {mid : Option Expr → Session → Prop} {post : α → Session → Prop} (hs : s.Good names anyNode)
    (he : After s (Lower.expression names e) mid)
    (hnone : ∀ t, t.Good names anyNode → mid none t → s.problems < t.problems →
      After t (f none) post)
    (hsome : ∀ v t, t.Good names anyNode → s.Frame 0 t →
      t.arena.InScope t.current? v.refs v.blocks → mid (some v) t → After t (f (some v)) post) :
    After s (Lower.expression names e >>= f) post := by
  have hproblems : After s (Lower.expression names e) fun r t =>
      r = none → s.problems < t.problems := problems_lt hs
  refine .bind hs (does_expression e (covers_anyNode _) 0 s hs (Nat.zero_le _)) (he.and hproblems)
    fun r t ht hst hscope h => ?_
  cases r with
  | none => exact hnone t ht h.1 (h.2 rfl)
  | some v => exact hsome v t ht hst (hscope v rfl) h.1

/-! ## Modules -/

theorem checked_hoist (hs : s.Good names anyNode) (hb : s.current? = some b) (ids : List Ident) :
    After s (Lower.hoist names b ids) fun _ t =>
      Checked True (s.env.declareAll (ids.map fun id => names.resolve id.name)) s t := by
  induction ids generalizing s with
  | nil => exact Quiet.refl s
  | cons id rest ih =>
    unfold Lower.hoist
    refine .bind hs (does_addDecl hs hb (by simp) fun _ ht => by cases ht)
      (checked_addDecl hs hb (by simp) fun _ ht => by cases ht) fun _ t ht hst _ hdecl => ?_
    have hrest := ih ht (hst.current hb)
    unfold After at hrest ⊢
    rw [hdecl.env] at hrest
    exact hdecl.andThen hrest

theorem checked_placeholders (hs : s.Good names anyNode) (hb : s.current? = some b) (m : Module) :
    After s (Lower.placeholders names b m.functionNames) fun _ t =>
      Checked True (s.env.declareAll (m.hoisted names s.options)) s t := by
  unfold Lower.placeholders Module.hoisted
  refine .get ?_
  by_cases h : s.options.hoisting = true
  · simp only [if_pos h]
    exact checked_hoist hs hb m.functionNames
  · simp only [if_neg h]
    exact Quiet.refl s

/-- The verdict on the inside of a unit block. -/
theorem verdict_unitBlock (hs : s.Good names anyNode) (hb : s.current? = some b) (m : Module) :
    After s (Lower.unitBlock names b m) fun _ t =>
      Verdict (StatementsWellFormed names (s.env.declareAll (m.hoisted names s.options)).enter
        m.statements) s t := by
  have d₁ := does_placeholders (n := 0) hs hb m.functionNames
  obtain ⟨h₁, f₁⟩ := d₁.1.good_frame hs
  have c₁ := checked_placeholders hs hb m
  have hb₁ := f₁.current hb
  unfold After at c₁ ⊢
  rw [Lower.run_unitBlock]
  dsimp only
  generalize ((Lower.placeholders names b m.functionNames).run s).2 = s₁ at *
  have d₂ := does_createChild (n := 0) h₁ hb₁ m.span
  obtain ⟨h₂, f₂⟩ := d₂.1.good_frame h₁
  have c₂ := quiet_createChild h₁ hb₁ m.span
  have hc := d₂.2.1
  have hb₂ := f₂.current hb₁
  unfold After at c₂
  generalize ((Lower.createChild b m.span).run s₁).2 = s₂ at *
  generalize ((Lower.createChild b m.span).run s₁).1 = c at *
  have h₂' : ({ s₂ with unitBody := some c } : Session).Good names anyNode :=
    ⟨h₂.arena, h₂.opened, h₂.distinct⟩
  have hbody := checked_scope h₂' hb₂ ⟨hc.opens.closed, hc.opens.fresh⟩ hc.parent
    (does_statementList m.statements (covers_anyNode _)) (checked_statementList m.statements)
  have c₂ := c₁.quiet c₂
  rw [← c₂.env]
  exact c₂.andVerdict ⟨hbody.le, hbody.iff⟩

/-- Inside a new root there is one scope, which is empty. -/
theorem env_openRoot (s : Session) (span : Span) :
    ((Lower.openBlock ⟨s.arena.blocks.length⟩).run ((Lower.createRoot span).run s).2).2.env =
      ⟨s.typeNames, [[]]⟩ := by
  have hroot : (s.arena.createRoot span).1.block? ⟨s.arena.blocks.length⟩ =
      some (.fresh ⟨s.arena.blocks.length⟩ none span) :=
    (Arena.block?_allocBlock _ _ _ _).trans (if_pos rfl)
  unfold env
  rw [bindings_root rfl hroot]
  rfl

theorem typeNames_ensureTypeScope (options : Options) :
    (Lower.ensureTypeScope.run { options }).2.typeNames = options.builtinTypes := by
  show ([⟨0⟩] : List TypeScopeId).flatMap (fun id =>
    (((Arena.empty.createTypeScope options.builtinTypes).1.typeScope? id).map fun scope =>
      scope.decls.map TypeDecl.name).getD []) = options.builtinTypes
  simp [Arena.createTypeScope, Arena.typeScope?, Arena.empty, TypeScope.ofBuiltins,
    Function.comp_def]

theorem run_ensureTypeScope (s : Session) :
    (Lower.ensureTypeScope.run s).2.log = s.log ∧
      (Lower.ensureTypeScope.run s).2.options = s.options := by
  show (ite (s.typeScopes.isEmpty = true) _ s).log = s.log ∧
    (ite (s.typeScopes.isEmpty = true) _ s).options = s.options
  split
  · exact ⟨rfl, rfl⟩
  · exact ⟨rfl, rfl⟩

/-- The verdict on a module, wherever it comes in a session. -/
theorem verdict_module (hs : Reachable names anyNode s) (m : Module) :
    After s (Lower.module names m) fun _ t =>
      Verdict (StatementsWellFormed names ⟨(Lower.ensureTypeScope.run s).2.typeNames,
        [[], m.hoisted names s.options]⟩ m.statements) s t := by
  have h₁ := hs.types
  obtain ⟨hlog, hoptions⟩ := run_ensureTypeScope s
  show Verdict _ s ((Lower.inBlock ⟨(Lower.ensureTypeScope.run s).2.arena.blocks.length⟩
    (Lower.unitBlock names ⟨(Lower.ensureTypeScope.run s).2.arena.blocks.length⟩ m)).run
    ((Lower.createRoot m.span).run (Lower.ensureTypeScope.run s).2).2).2
  generalize (Lower.ensureTypeScope.run s).2 = s₁ at *
  have h₂ := (h₁.root m.span).enter (mayOpen_createRoot h₁.good m.span)
  obtain ⟨h₃, hcur⟩ := h₂.unitBlock rfl (m := m) (covers_anyNode _)
  have hunit := verdict_unitBlock h₂.good rfl m
  have hhoisted : m.hoisted names ((Lower.openBlock ⟨s₁.arena.blocks.length⟩).run
      ((Lower.createRoot m.span).run s₁).2).2.options = m.hoisted names s.options := by
    rw [← hoptions]
    rfl
  unfold After at hunit
  rw [env_openRoot, hhoisted, declareAll_cons] at hunit
  have hfirst : Verdict True s ((Lower.openBlock ⟨s₁.arena.blocks.length⟩).run
      ((Lower.createRoot m.span).run s₁).2).2 := .of_log hlog
  have hwhole := (hfirst.and hunit).and (.of_log (h₃.good.log_closeBlock hcur))
  exact hwhole.congr (by simp [Env.enter])

/-- Lowering a module reports nothing exactly if the module is well-formed. -/
theorem lowerModule_silent_iff_wellFormed (names : SymbolTable) (m : Module) (options : Options) :
    (Session.lowerModule names m options).log.records = [] ↔ m.WellFormed names options := by
  have h := verdict_module (Reachable.start.options options : Reachable names anyNode _) m
  unfold After at h
  rw [typeNames_ensureTypeScope] at h
  rw [← List.length_eq_zero_iff]
  exact h.iff

end

end BlockLowering
