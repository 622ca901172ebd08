import BlockLowering.Proofs.LoweringRules

/-!
# Lowering runs

Every function of lowering, started in a good state, only `Runs`, and an expression that does not
fail has a value that is in scope where it was lowered. The proof is one mutual induction over the
syntax, with a case for each form.
-/

namespace BlockLowering

open IR Diagnostic Source Session

/-! ## The nodes of a tree -/

/-- A traversal that is cut nowhere. -/
def everywhere (_ : Visit) : Bool := true

/-- All nodes that are visited have `src`. -/
def Covers (src : Node → Prop) (visits : List Visit) : Prop := ∀ v ∈ visits, src v.subject

/-- All nodes will do. -/
def anyNode (_ : Node) : Prop := True

theorem covers_anyNode (visits : List Visit) : Covers anyNode visits := fun _ _ => trivial

section

variable {src : Node → Prop}

@[simp] theorem covers_append (l r : List Visit) :
    Covers src (l ++ r) ↔ Covers src l ∧ Covers src r := by
  unfold Covers
  simp only [List.mem_append, or_imp, forall_and]

@[simp] theorem covers_enter (v : Visit) (below : List Visit) :
    Covers src (enter everywhere v below) ↔ src v.subject ∧ Covers src below := by
  unfold Covers enter everywhere
  simp

@[simp] theorem covers_enterKind (n : Node) (below : List Visit) :
    Covers src (enterKind everywhere n below) ↔ src n ∧ Covers src below :=
  covers_enter (.byKind n) below

@[simp] theorem covers_enterStatement (s : Statement) (below : List Visit) :
    Covers src (enterStatement everywhere s below) ↔ src (.statement s) ∧ Covers src below := by
  unfold enterStatement
  simp

@[simp] theorem covers_enterExpression (e : Expression) (below : List Visit) :
    Covers src (enterExpression everywhere e below) ↔ src (.expression e) ∧ Covers src below := by
  unfold enterExpression
  simp

theorem param_of_covers {params : List Parameter} (h : Covers src (innerParams everywhere params)) :
    ∀ p ∈ params, src (.parameter p) := by
  induction params with
  | nil => simp
  | cons p rest ih =>
    simp only [innerParams, covers_append, covers_enterKind] at h
    intro q hq
    rcases List.mem_cons.1 hq with rfl | hq
    · exact h.1.1
    · exact ih h.2 q hq

end

/-! ## Functions -/

section

variable {names : SymbolTable} {src : Node → Prop} {n : Nat} {s : Session} {b c : BlockId}

theorem does_parameter (hs : s.Good names src) (hb : s.current? = some b) {p : Parameter}
    (hp : src (.parameter p)) : Does names src n s (Lower.parameter names b p) anything := by
  obtain ⟨kind, pattern, type, initial, span⟩ := p
  unfold Lower.parameter
  cases kind with
  | optional => exact (does_reject _ _).imp fun _ _ _ => trivial
  | rest => exact (does_reject _ _).imp fun _ _ _ => trivial
  | positional =>
    cases initial with
    | some e => exact (does_reject _ _).imp fun _ _ _ => trivial
    | none =>
      cases pattern with
      | array => exact (does_reject _ _).imp fun _ _ _ => trivial
      | object => exact (does_reject _ _).imp fun _ _ _ => trivial
      | identifier id =>
        refine .bind hs (does_ascription? hs type) fun r t ht hst hr => ?_
        refine .bind ht (does_addDecl ht (hst.current hb) (by simp) ?_) fun _ _ _ _ _ => .pure trivial
        exact annotated_of_names hp rfl hr

theorem does_parameters (hs : s.Good names src) (hb : s.current? = some b) {params : List Parameter}
    (hp : ∀ p ∈ params, src (.parameter p)) :
    Does names src n s (Lower.parameters names b params) anything := by
  induction params generalizing s with
  | nil => exact .pure trivial
  | cons p rest ih =>
    unfold Lower.parameters
    refine .bind hs (does_parameter hs hb (hp p List.mem_cons_self)) fun _ t ht hst _ => ?_
    exact ih ht (hst.current hb) fun q hq => hp q (List.mem_cons_of_mem p hq)

theorem does_typeParameters (params : List TypeParameter) :
    Does names src n s (Lower.typeParameters params) (opensAs s) := by
  unfold Lower.typeParameters
  cases typeParamsSpan? params with
  | some span => exact does_reject _ _
  | none => exact .pure fun _ h => h

/-- A piece of lowering that runs from every good state. -/
def AlwaysDoes (names : SymbolTable) (src : Node → Prop) (x : Lower Unit) : Prop :=
  ∀ (n : Nat) (s : Session), s.Good names src → n ≤ s.arena.blocks.length →
    Does names src n s x anything

theorem does_functionBody (hs : s.Good names src) (hc : s.MayOpen c) (hn : n ≤ c.index)
    {typeParams : List TypeParameter} {params : List Parameter} {statements : Lower Unit}
    (hp : ∀ p ∈ params, src (.parameter p)) (hbody : AlwaysDoes names src statements) :
    Does names src n s (Lower.functionBody names c typeParams params statements) anything := by
  unfold Lower.functionBody
  refine .bind hs (does_typeParameters typeParams) fun _ t ht hst hopen => ?_
  refine (does_inBlock ht (hopen c hc) hn ?_).imp fun _ _ _ => trivial
  have hu := ht.openBlock (hopen c hc)
  refine .bind hu (does_parameters hu rfl hp) fun _ v hv huv _ => ?_
  exact hbody _ v hv huv.arena.size

theorem does_elseBlock? (hs : s.Good names src) (hb : s.current? = some b)
    (branch : Option Statement) :
    Does names src n s (Lower.elseBlock? b branch) fun r t =>
      (∀ e, r = some e → FreshChild s b e t) ∧ opensAs s r t := by
  cases branch with
  | none => exact .pure ⟨fun _ h => (by cases h), fun _ h => h⟩
  | some stmt =>
    unfold Lower.elseBlock?
    refine .bind hs (does_createChild hs hb stmt.span) fun e t _ _ h => .pure ⟨?_, h.2⟩
    intro e' he
    obtain rfl := Option.some.inj he
    exact h.1

/-! ## Expressions and statements -/

/-- The value of an expression that did not fail is in scope at the innermost open block. -/
def valueInScope (r : Option Expr) (t : Session) : Prop :=
  ∀ v, r = some v → t.arena.InScope t.current? v.refs v.blocks

def valuesInScope (r : Option (List Expr)) (t : Session) : Prop :=
  ∀ vs, r = some vs → t.arena.InScope t.current? (Expr.refsAll vs) (Expr.blocksAll vs)

theorem Session.Frame.inScope {t : Session} {refs : List DeclRef} {blocks : List BlockId}
    (h : s.Frame n t) (hv : s.arena.InScope s.current? refs blocks) :
    t.arena.InScope t.current? refs blocks :=
  hv.mono h.arena fun _ => h.current

theorem valueInScope_none {t : Session} : valueInScope none t := by
  intro v hv
  cases hv

theorem valuesInScope_none {t : Session} : valuesInScope none t := by
  intro vs hvs
  cases hvs

mutual

theorem does_expression (e : Expression) (h : Covers src (e.inner everywhere)) (n : Nat)
    (s : Session) (hs : s.Good names src) (hn : n ≤ s.arena.blocks.length) :
    Does names src n s (Lower.expression names e) valueInScope := by
  cases e with
  | int value span =>
    simp only [Lowering.expression]
    exact .pure fun v hv => by cases hv; exact .nil
  | float value span =>
    simp only [Lowering.expression]
    exact .pure fun v hv => by cases hv; exact .nil
  | identifier id =>
    simp only [Lowering.expression]
    refine .bind hs (does_resolveName hs id) fun r t _ _ hr => .pure fun v hv => ?_
    obtain ⟨x, hx, rfl⟩ := Option.map_eq_some_iff.1 hv
    obtain ⟨b, hb, hsees⟩ := hr x hx
    rw [hb]
    exact .ref hsees
  | binary operator left right span =>
    simp only [Lowering.expression]
    simp only [Expression.inner, covers_append, covers_enterExpression] at h
    cases operator.toIR? with
    | none => exact does_reject_none hs _ _ fun _ => valueInScope_none
    | some op =>
      refine .bind hs (does_expression left h.1.2 n s hs hn) fun r t ht hst hr => ?_
      cases r with
      | none => exact .pure valueInScope_none
      | some lhs =>
        refine .bind ht (does_expression right h.2.2 n t ht (Nat.le_trans hn hst.arena.size))
          fun r' u _ htu hr' => ?_
        cases r' with
        | none => exact .pure valueInScope_none
        | some rhs =>
          refine .pure fun v hv => ?_
          cases hv
          exact (htu.inScope (hr lhs rfl)).append (hr' rhs rfl)
  | assignment operator left right span =>
    simp only [Expression.inner, covers_append, covers_enterExpression] at h
    cases operator with
    | assign =>
      simp only [Lowering.expression]
      refine .bind hs does_currentBlock fun b s₁ hs₁ h₁ hb => ?_
      refine .bind hs₁ (does_freshTemp hs₁ hb span) fun temp s₂ hs₂ h₂ htemp => ?_
      have hn₂ : n ≤ s₂.arena.blocks.length :=
        Nat.le_trans hn (Nat.le_trans h₁.arena.size h₂.arena.size)
      refine .bind hs₂ (does_expression right h.2.2 n s₂ hs₂ hn₂) fun r s₃ hs₃ h₃ hr => ?_
      have hb₃ : s₃.current? = some b := h₃.current (h₂.current hb)
      have htemp₃ := h₃.arena.sees htemp
      cases r with
      | none => exact .pure valueInScope_none
      | some value =>
        have hvalue := hr value rfl
        rw [hb₃] at hvalue
        refine .bind hs₃ (does_addStmt hs₃ hb₃ ((Arena.InScope.ref htemp₃).append hvalue))
          fun _ s₄ hs₄ h₄ _ => ?_
        have hb₄ := h₄.current hb₃
        refine .bind hs₄ (does_expression left h.1.2 n s₄ hs₄
          (Nat.le_trans hn₂ (Nat.le_trans h₃.arena.size h₄.arena.size))) fun r' s₅ hs₅ h₅ hr' => ?_
        have hb₅ := h₅.current hb₄
        have htemp₅ := h₅.arena.sees (h₄.arena.sees htemp₃)
        cases r' with
        | none => exact .pure valueInScope_none
        | some v =>
          cases v with
          | ref target =>
            have htarget := hr' (.ref target) rfl
            rw [hb₅] at htarget
            refine .bind hs₅ (does_addStmt hs₅ hb₅ (htarget.append (.ref htemp₅)))
              fun _ s₆ _ h₆ _ => .pure fun v hv => ?_
            cases hv
            rw [h₆.current hb₅]
            exact .ref (h₆.arena.sees htemp₅)
          | int | float | binary | func | call =>
            exact does_reject_none hs₅ _ _ fun _ => valueInScope_none
    | addAssign | subtractAssign | multiplyAssign | divideAssign | moduloAssign =>
      simp only [Lowering.expression]
      exact does_reject_none hs _ _ fun _ => valueInScope_none
  | call callee typeArgs args span =>
    simp only [Lowering.expression]
    simp only [Expression.inner, covers_append, covers_enterExpression] at h
    cases ascriptionsSpan? typeArgs with
    | some place => exact does_reject_none hs _ _ fun _ => valueInScope_none
    | none =>
      refine .bind hs (does_expression callee h.1.1.2 n s hs hn) fun r t ht hst hr => ?_
      cases r with
      | none => exact .pure valueInScope_none
      | some f =>
        refine .bind ht (does_expressions args h.2 n t ht (Nat.le_trans hn hst.arena.size))
          fun r' u _ htu hr' => ?_
        cases r' with
        | none => exact .pure valueInScope_none
        | some values =>
          refine .pure fun v hv => ?_
          cases hv
          exact (htu.inScope (hr f rfl)).append (hr' values rfl)
  | function name typeParams params result body span =>
    simp only [Lowering.expression]
    simp only [Expression.inner, covers_append, covers_enterKind] at h
    refine .bind hs does_currentBlock fun b s₁ hs₁ h₁ hb => ?_
    refine .bind hs₁ (does_createChild hs₁ hb body.span) fun c s₂ hs₂ h₂ hc => ?_
    have hnc : n ≤ c.index := by
      rw [hc.1.index]
      exact Nat.le_trans hn h₁.arena.size
    refine .bind hs₂ (does_functionBody hs₂ hc.1.opens hnc (param_of_covers h.1.1.2)
      (does_group body h.2.2)) fun _ s₃ _ h₃ _ => .pure fun v hv => ?_
    cases hv
    rw [h₃.current (h₂.current hb)]
    exact .block (h₃.arena.parent_some hc.1.parent)
  | parenthesized inner span =>
    simp only [Lowering.expression]
    simp only [Expression.inner, covers_enterExpression] at h
    exact does_expression inner h.2 n s hs hn
  | string | template | boolean | null | this | super | array | object | unary | logical
  | conditional | member | index | new | comma | instanceOf | typeCast =>
    simp only [Lowering.expression]
    exact does_reject_none hs _ _ fun _ => valueInScope_none

theorem does_expressions (es : List Expression) (h : Covers src (innerExpressions everywhere es))
    (n : Nat) (s : Session) (hs : s.Good names src) (hn : n ≤ s.arena.blocks.length) :
    Does names src n s (Lower.expressions names es) valuesInScope := by
  cases es with
  | nil =>
    simp only [Lowering.expressions]
    exact .pure fun v hv => by cases hv; exact .nil
  | cons e rest =>
    simp only [Lowering.expressions]
    simp only [innerExpressions, covers_append, covers_enterExpression] at h
    refine .bind hs (does_expression e h.1.2 n s hs hn) fun r t ht hst hr => ?_
    cases r with
    | none => exact .pure valuesInScope_none
    | some v =>
      refine .bind ht (does_expressions rest h.2 n t ht (Nat.le_trans hn hst.arena.size))
        fun r' u _ htu hr' => ?_
      cases r' with
      | none => exact .pure valuesInScope_none
      | some vs =>
        refine .pure fun v hv => ?_
        cases hv
        exact (htu.inScope (hr _ rfl)).append (hr' vs rfl)

theorem does_initialValue (e : Option Expression) (h : Covers src (innerExpression? everywhere e))
    {b : BlockId} {target : DeclRef} {span : Span} (n : Nat) (s : Session)
    (hs : s.Good names src) (hn : n ≤ s.arena.blocks.length) (hb : s.current? = some b)
    (htarget : s.arena.Sees b target.decl) :
    Does names src n s (Lower.initialValue names b target span e) anything := by
  cases e with
  | none =>
    simp only [Lowering.initialValue]
    exact .pure trivial
  | some e =>
    simp only [Lowering.initialValue]
    simp only [innerExpression?, covers_enterExpression] at h
    refine .bind hs (does_expression e h.2 n s hs hn) fun r t ht hst hr => ?_
    cases r with
    | none => exact .pure trivial
    | some value =>
      have hvalue := hr value rfl
      rw [hst.current hb] at hvalue
      refine (does_addStmt ht (hst.current hb) ?_).imp fun _ _ _ => trivial
      exact (Arena.InScope.ref (hst.arena.sees htarget)).append hvalue

theorem does_variableDecl (d : VariableDecl) (hd : src (.statement (.variableDecl d)))
    (h : Covers src (d.inner everywhere)) :
    AlwaysDoes names src (Lower.variableDecl names d) := by
  intro n s hs hn
  obtain ⟨kind, pattern, type, initial, span⟩ := d
  simp only [VariableDecl.inner, covers_append] at h
  cases pattern with
  | identifier id =>
    simp only [Lowering.variableDecl]
    refine .bind hs (does_ascription? hs type) fun r s₁ hs₁ h₁ hr => ?_
    refine .bind hs₁ does_currentBlock fun b s₂ hs₂ h₂ hb => ?_
    have htyped : ∀ t, r = some t → ∃ x, type = some x ∧ Names names s₂.arena x t := by
      intro t ht
      obtain ⟨x, hx, head, nameSpan, place, decl, rfl, hdecl, hname⟩ := hr t ht
      exact ⟨_, hx, head, nameSpan, place, decl, rfl, h₂.arena.typeDecl hdecl, hname⟩
    refine .bind hs₂ (does_addDecl hs₂ hb (by simp) (annotated_of_names hd rfl htyped))
      fun d s₃ hs₃ h₃ hsees => ?_
    exact does_initialValue initial h.2 n s₃ hs₃
      (Nat.le_trans hn (Nat.le_trans h₁.arena.size (Nat.le_trans h₂.arena.size h₃.arena.size)))
      (h₃.current hb) hsees
  | array | object =>
    simp only [Lowering.variableDecl]
    exact (does_reject _ _).imp fun _ _ _ => trivial

theorem does_functionDecl (d : FunctionDecl) (h : Covers src (d.inner everywhere)) :
    AlwaysDoes names src (Lower.functionDecl names d) := by
  intro n s hs hn
  obtain ⟨id, typeParams, params, result, body, span⟩ := d
  simp only [FunctionDecl.inner, covers_append, covers_enterKind] at h
  simp only [Lowering.functionDecl]
  refine .bind hs does_currentBlock fun b s₁ hs₁ h₁ hb => ?_
  refine .bind hs₁ (does_addDecl hs₁ hb (by simp) (fun _ ht => by cases ht))
    fun d s₂ hs₂ h₂ hsees => ?_
  have hb₂ := h₂.current hb
  refine .bind hs₂ (does_linkHoisted hb₂ _ d) fun _ s₃ hs₃ h₃ _ => ?_
  have hb₃ := h₃.current hb₂
  refine .bind hs₃ (does_createChild hs₃ hb₃ body.span) fun c s₄ hs₄ h₄ hc => ?_
  have hb₄ := h₄.current hb₃
  have hnc : n ≤ c.index := by
    rw [hc.1.index]
    exact Nat.le_trans hn (h₁.trans (h₂.trans h₃)).arena.size
  refine .bind hs₄ (does_addStmt hs₄ hb₄ ?_) fun _ s₅ hs₅ h₅ hopen => ?_
  · exact (Arena.InScope.ref (h₄.arena.sees (h₃.arena.sees hsees))).append (.block hc.1.parent)
  · exact does_functionBody hs₅ (hopen c hc.1.opens) hnc (param_of_covers h.1.1.2)
      (does_group body h.2.2)

theorem does_group (g : Source.Block) (h : Covers src (g.inner everywhere)) :
    AlwaysDoes names src (Lower.group names g) := by
  obtain ⟨statements, span⟩ := g
  simp only [Lowering.group]
  exact does_statementList statements h

theorem does_statementAt (branch : Bool) (st : Statement) (hst : src (.statement st))
    (h : Covers src (st.inner everywhere)) :
    AlwaysDoes names src (Lower.statementAt names branch st) := by
  intro n s hs hn
  cases st with
  | variableDecl d =>
    simp only [Lowering.statementAt]
    exact does_variableDecl d hst h n s hs hn
  | functionDecl d =>
    simp only [Lowering.statementAt]
    exact does_functionDecl d h n s hs hn
  | namespaceDecl name members span =>
    simp only [Lowering.statementAt]
    simp only [Statement.inner, covers_append] at h
    refine .bind hs does_currentBlock fun b s₁ hs₁ h₁ hb => ?_
    refine .bind hs₁ (does_createChild hs₁ hb span) fun c s₂ hs₂ h₂ hc => ?_
    refine (does_inBlock hs₂ hc.1.opens (hc.1.index ▸ Nat.le_trans hn h₁.arena.size) ?_).imp
      fun _ _ _ => trivial
    exact does_statementList members h.2 _ _ (hs₂.openBlock hc.1.opens) (Nat.le_refl _)
  | expression value span =>
    simp only [Lowering.statementAt]
    simp only [Statement.inner, covers_enterExpression] at h
    refine .bind hs (does_expression value h.2 n s hs hn) fun r s₁ hs₁ _ hr => ?_
    cases r with
    | none => exact .pure trivial
    | some v =>
      refine .bind hs₁ does_currentBlock fun b s₂ hs₂ h₂ hb => ?_
      have hv := h₂.inScope (hr v rfl)
      rw [hb] at hv
      refine (does_addStmt hs₂ hb ?_).imp fun _ _ _ => trivial
      exact hv
  | ifElse condition thenBranch elseBranch span =>
    simp only [Lowering.statementAt]
    simp only [Statement.inner, covers_append, covers_enterExpression, covers_enterStatement] at h
    refine .bind hs (does_expression condition h.1.1.2 n s hs hn) fun r s₁ hs₁ h₁ hr => ?_
    cases r with
    | none => exact .pure trivial
    | some cond =>
      refine .bind hs₁ does_currentBlock fun b s₂ hs₂ h₂ hb => ?_
      refine .bind hs₂ (does_createChild hs₂ hb thenBranch.span) fun c s₃ hs₃ h₃ hc => ?_
      have hb₃ := h₃.current hb
      refine .bind hs₃ (does_elseBlock? hs₃ hb₃ elseBranch) fun e s₄ hs₄ h₄ he => ?_
      have hb₄ := h₄.current hb₃
      have hnc : n ≤ c.index := by
        rw [hc.1.index]
        exact Nat.le_trans hn (h₁.trans h₂).arena.size
      have hlt := hc.1.opens.index_lt
      have hcond := h₄.inScope (h₃.inScope (h₂.inScope (hr cond rfl)))
      rw [hb₄] at hcond
      have hbranches : s₄.arena.InScope (some b) [] (c :: e.toList) := by
        refine ⟨by simp, fun x hx => ⟨b, rfl, ?_⟩⟩
        rcases List.mem_cons.1 hx with rfl | hx
        · exact h₄.arena.parent_some hc.1.parent
        · exact (he.1 x (Option.mem_toList.1 hx)).parent
      refine .bind hs₄ (does_addStmt hs₄ hb₄ (hbranches.append hcond)) fun _ s₅ hs₅ h₅ hopen => ?_
      have hc₅ := hopen c (he.2 c hc.1.opens)
      refine .bind hs₅ (does_inBlock hs₅ hc₅ hnc (does_statementAt true thenBranch h.1.2.1 h.1.2.2 _ _
        (hs₅.openBlock hc₅) (Nat.le_refl _))) fun _ s₆ hs₆ _ hopen₆ => ?_
      refine does_elseBody e elseBranch h.2 n s₆ hs₆ fun x hx => ?_
      have hx' := he.1 x hx
      have hidx := hx'.index
      refine ⟨hopen₆ x (hopen x hx'.opens) ?_, by omega⟩
      rintro rfl
      omega
  | whileLoop condition body span =>
    simp only [Lowering.statementAt]
    simp only [Statement.inner, covers_append, covers_enterExpression, covers_enterStatement] at h
    refine .bind hs (does_expression condition h.1.2 n s hs hn) fun r s₁ hs₁ h₁ hr => ?_
    cases r with
    | none => exact .pure trivial
    | some cond =>
      refine .bind hs₁ does_currentBlock fun b s₂ hs₂ h₂ hb => ?_
      refine .bind hs₂ (does_createChild hs₂ hb body.span) fun c s₃ hs₃ h₃ hc => ?_
      have hb₃ := h₃.current hb
      have hnc : n ≤ c.index := by
        rw [hc.1.index]
        exact Nat.le_trans hn (h₁.trans h₂).arena.size
      have hcond := h₃.inScope (h₂.inScope (hr cond rfl))
      rw [hb₃] at hcond
      refine .bind hs₃ (does_addStmt hs₃ hb₃ ((Arena.InScope.block hc.1.parent).append hcond))
        fun _ s₄ hs₄ _ hopen => ?_
      have hc₄ := hopen c hc.1.opens
      refine (does_inBlock hs₄ hc₄ hnc ?_).imp fun _ _ _ => trivial
      exact does_statementAt true body h.2.1 h.2.2 _ _ (hs₄.openBlock hc₄) (Nat.le_refl _)
  | block braces =>
    simp only [Lowering.statementAt]
    cases branch with
    | true => exact does_group braces h n s hs hn
    | false =>
      refine .bind hs does_currentBlock fun b s₁ hs₁ h₁ hb => ?_
      refine .bind hs₁ (does_createChild hs₁ hb braces.span) fun c s₂ hs₂ h₂ hc => ?_
      refine (does_inBlock hs₂ hc.1.opens (hc.1.index ▸ Nat.le_trans hn h₁.arena.size) ?_).imp
        fun _ _ _ => trivial
      exact does_group braces h _ _ (hs₂.openBlock hc.1.opens) (Nat.le_refl _)
  | empty span =>
    simp only [Lowering.statementAt]
    exact .pure trivial
  | classDecl | typeAlias | importDecl | exportDecl | switch | doWhile | forLoop | forOf | breakTo
  | continueTo | returnValue | throwValue | tryCatch =>
    simp only [Lowering.statementAt]
    exact (does_reject _ _).imp fun _ _ _ => trivial

theorem does_elseBody (e : Option BlockId) (branch : Option Statement)
    (h : Covers src (innerStatement? everywhere branch)) (n : Nat) (s : Session)
    (hs : s.Good names src) (he : ∀ x, e = some x → s.MayOpen x ∧ n ≤ x.index) :
    Does names src n s (Lower.elseBody names e branch) anything := by
  cases branch with
  | none =>
    cases e <;> simp only [Lowering.elseBody] <;> exact .pure trivial
  | some st =>
    simp only [innerStatement?, covers_enterStatement] at h
    cases e with
    | none =>
      simp only [Lowering.elseBody]
      exact .pure trivial
    | some x =>
      simp only [Lowering.elseBody]
      obtain ⟨hx, hnx⟩ := he x rfl
      refine (does_inBlock hs hx hnx ?_).imp fun _ _ _ => trivial
      exact does_statementAt true st h.1 h.2 _ _ (hs.openBlock hx) (Nat.le_refl _)

theorem does_statementList (sts : List Statement) (h : Covers src (innerStatements everywhere sts)) :
    AlwaysDoes names src (Lower.statementList names sts) := by
  intro n s hs hn
  cases sts with
  | nil =>
    simp only [Lowering.statementList]
    exact .pure trivial
  | cons st rest =>
    simp only [Lowering.statementList]
    simp only [innerStatements, covers_append, covers_enterStatement] at h
    refine .bind hs (does_statementAt false st h.1.1 h.1.2 n s hs hn) fun _ t ht hst _ => ?_
    exact does_statementList rest h.2 n t ht (Nat.le_trans hn hst.arena.size)

end

end

end BlockLowering
