import BlockLowering.Proofs.Diagnostics
import BlockLowering.Proofs.Items

/-!
# Books

Lowering keeps books on every item: what it has put into the arena and what it still holds in its
hands, as part of a value that is not in a statement yet, is paid for by nodes of the source tree.
The books are even as long as nothing is reported. A use is paid for by the block that it names, so
for uses the books hold in every session.
-/

namespace BlockLowering

open IR Diagnostic Source Session

section

variable {names : SymbolTable} {src : Node → Prop} {s t u : Session} {b c : BlockId} {i : Item}
  {p q k l : Nat}

/-- From `s` to `t` the item is paid for `p` times, and `k` of them are still in hand. -/
structure Session.Books (i : Item) (p k : Nat) (s t : Session) : Prop where
  problems : s.problems ≤ t.problems
  covered : t.arena.items.count i + k + s.arena.supply i ≤
    s.arena.items.count i + p + t.arena.supply i
  even : i.isUse = false → t.problems = s.problems →
    t.arena.items.count i + k = s.arena.items.count i + p

namespace Session.Books

theorem cast (h : Books i p k s t) (hp : p = q) (hk : k = l) : Books i q l s t := hp ▸ hk ▸ h

theorem trans (h : Books i p k s t) (h' : Books i q l t u) : Books i (p + q) (k + l) s u where
  problems := Nat.le_trans h.problems h'.problems
  covered := by
    have h₁ := h.covered
    have h₂ := h'.covered
    omega
  even huse hsame := by
    have hle := h.problems
    have hle' := h'.problems
    have h₁ := h.even huse (by omega)
    have h₂ := h'.even huse (by omega)
    omega

/-- Pieces are paid for and stay in hand. -/
theorem hold (h : Books i p k s t) (n : Nat) : Books i (p + n) (k + n) s t where
  problems := h.problems
  covered := by
    have h₁ := h.covered
    omega
  even huse hsame := by
    have h₁ := h.even huse hsame
    omega

/-- Once a problem is reported, what is in hand is given up and the rest of the tree is paid for
without being used. -/
theorem fail (h : Books i p k s t) (hlt : s.problems < t.problems) (hpq : p ≤ q) :
    Books i q 0 s t where
  problems := h.problems
  covered := by
    have h₁ := h.covered
    omega
  even _ hsame := by omega

/-- A block need not be named. -/
theorem unused {d : BlockId} (h : Books i p ([Item.use d].count i) s t) : Books i p 0 s t where
  problems := h.problems
  covered := by
    have h₁ := h.covered
    omega
  even huse hsame := by
    have hnone := Item.count_use huse d
    have h₁ := h.even huse hsame
    omega

theorem of_count (hproblems : s.problems ≤ t.problems)
    (hsize : s.arena.blocks.length ≤ t.arena.blocks.length)
    (hcount : t.arena.items.count i = s.arena.items.count i + p) : Books i p 0 s t where
  problems := hproblems
  covered := by
    have hsupply : s.arena.supply i ≤ t.arena.supply i := Arena.supply_mono hsize
    omega
  even _ _ := hcount

theorem of_arena (hproblems : s.problems ≤ t.problems) (harena : t.arena = s.arena) :
    Books i 0 0 s t :=
  .of_count hproblems (Nat.le_of_eq (by rw [harena])) (congrArg (fun a => a.items.count i) harena)

theorem refl (s : Session) : Books i 0 0 s s := .of_arena (Nat.le_refl _) rfl

/-- A part that fails after another. -/
theorem thenFail {n : Nat} (h : Books i p k s t) (h' : Books i q l t u)
    (hlt : t.problems < u.problems) (hn : p + q ≤ n) : Books i n 0 s u :=
  (h.trans h').fail (Nat.lt_of_le_of_lt h.problems hlt) hn

/-- A statement takes what is in hand as its parts. -/
theorem append (h : Books i p k s t) (ht : t.Good names src) (hb : t.current? = some b) (st : Stmt)
    (hk : k = st.parts.count i) :
    After t (Lower.addStmt b st) fun _ u => Books i (p + [st.item].count i) 0 s u := by
  obtain ⟨x, hx, ho⟩ := ht.current hb
  unfold After
  rw [Lower.run_addStmt hx ho]
  have hcount := Arena.count_items_withStmt (i := i) (Arena.index_lt_of_block? hx) st
  have hsupply : t.arena.supply i ≤ (t.arena.withStmt b st).supply i :=
    Arena.supply_mono (Nat.le_of_eq (Arena.length_withStmt ..).symm)
  constructor
  · exact h.problems
  · have h₁ := h.covered
    show (t.arena.withStmt b st).items.count i + 0 + s.arena.supply i ≤ _ +
      (t.arena.withStmt b st).supply i
    omega
  · intro huse hsame
    have h₁ := h.even huse hsame
    show (t.arena.withStmt b st).items.count i + 0 = _
    omega

section

variable {value cond : Expr}

theorem assign (h : Books i p k s t) (ht : t.Good names src) (hb : t.current? = some b)
    (target : DeclRef) (span : Span) (hk : k = value.items.count i) :
    After t (Lower.addStmt b (.assign target value span)) fun _ u =>
      Books i (p + [Item.assign].count i) 0 s u :=
  h.append ht hb (.assign target value span) hk

theorem drop (h : Books i p k s t) (ht : t.Good names src) (hb : t.current? = some b)
    (span : Span) (hk : k = value.items.count i) :
    After t (Lower.addStmt b (.drop value span)) fun _ u =>
      Books i (p + [Item.drop].count i) 0 s u :=
  h.append ht hb (.drop value span) hk

theorem ifElse (h : Books i p k s t) (ht : t.Good names src) (hb : t.current? = some b)
    {elseBlock : Option BlockId} (span : Span)
    (hk : k = [Item.use c].count i + (elseBlock.toList.map Item.use).count i +
      cond.items.count i) :
    After t (Lower.addStmt b (.ifElse cond c elseBlock span)) fun _ u =>
      Books i (p + [Item.ifElse].count i) 0 s u :=
  h.append ht hb (.ifElse cond c elseBlock span) (hk.trans Stmt.count_ifElse.symm)

theorem whileLoop (h : Books i p k s t) (ht : t.Good names src) (hb : t.current? = some b)
    (span : Span) (hk : k = [Item.use c].count i + cond.items.count i) :
    After t (Lower.addStmt b (.whileLoop cond c span)) fun _ u =>
      Books i (p + [Item.whileLoop].count i) 0 s u :=
  h.append ht hb (.whileLoop cond c span) (hk.trans Stmt.count_whileLoop.symm)

end

end Session.Books

/-! ## Operations -/

variable (i)

/-- Whatever stands in the source, a problem settles the books. -/
theorem books_report (s : Session) (problem : Problem) :
    After s (Lower.report problem) fun _ t => Books i p 0 s t := by
  have hlt := problems_report s problem
  exact (Books.of_arena (Nat.le_of_lt hlt) rfl).fail hlt (Nat.zero_le p)

theorem books_currentBlock (s : Session) :
    After s Lower.currentBlock fun _ t => Books i 0 0 s t := by
  unfold After
  cases hb : s.current? with
  | some b =>
    rw [Lower.run_currentBlock_some hb]
    exact .refl s
  | none =>
    rw [Lower.run_currentBlock_none (List.head?_eq_none_iff.1 hb)]
    have hsize : (s.arena.createRoot .synthetic).1.blocks.length = s.arena.blocks.length + 1 :=
      Arena.length_allocBlock ..
    exact .of_count (Nat.le_refl _) (by rw [hsize]; exact Nat.le_succ _)
      (Arena.count_items_createRoot ..)

theorem books_addDecl (hs : s.Good names src) (hb : s.current? = some b) {name : String}
    {type : Option TypeRef} {kind : DeclKind} {span : Span} :
    After s (Lower.addDecl b name type kind span) fun _ t =>
      Books i (kind.items.count i) 0 s t := by
  obtain ⟨x, hx, ho⟩ := hs.current hb
  unfold After
  rw [Lower.run_addDecl hx ho]
  exact .of_count (Nat.le_refl _) (Nat.le_of_eq (Arena.length_withDecl ..).symm)
    (Arena.count_items_withDecl ..)

theorem books_freshTemp (hs : s.Good names src) (hb : s.current? = some b) (span : Span) :
    After s (Lower.freshTemp b span) fun _ t => Books i ([Item.temporary].count i) 0 s t := by
  obtain ⟨x, hx, ho⟩ := hs.current hb
  unfold After
  rw [Lower.run_freshTemp hx ho]
  exact .of_count (Nat.le_refl _) (Nat.le_of_eq (Arena.length_withDecl ..).symm)
    (Arena.count_items_withDecl ..)

theorem books_linkHoisted (hs : s.Good names src) (hb : s.current? = some b) (name : String)
    (d : DeclId) : After s (Lower.linkHoisted b name d) fun _ t => Books i 0 0 s t := by
  unfold After
  rcases hs.run_linkHoisted hb name d with hrun | ⟨x, y, hy, hfree, hrun⟩
  · rw [hrun]
    exact .refl s
  · rw [hrun]
    exact .of_count (Nat.le_refl _) (Nat.le_refl _) (Arena.count_items_withLink hy hfree d)

/-- A new block comes with a use of it. -/
theorem books_createChild (hs : s.Good names src) (hb : s.current? = some b) (span : Span) :
    After s (Lower.createChild b span) fun c t =>
      Books i ([Item.block].count i) ([Item.use c].count i) s t := by
  obtain ⟨x, hx, _⟩ := hs.current hb
  unfold After
  rw [Lower.run_createChild hx]
  have hcount := s.arena.count_items_withChild (i := i) b span
  have hsupply := Arena.supply_newBlock (i := i) (s.arena.length_withChild b span)
  constructor
  · exact Nat.le_refl _
  · show (s.arena.withChild b span).items.count i +
      [Item.use ⟨s.arena.blocks.length⟩].count i + _ ≤ _ + (s.arena.withChild b span).supply i
    omega
  · intro huse _
    have hnone := Item.count_use huse ⟨s.arena.blocks.length⟩
    show (s.arena.withChild b span).items.count i + [Item.use ⟨s.arena.blocks.length⟩].count i = _
    omega

theorem books_closeBlock (hs : s.Good names src) (hc : s.current? = some c) :
    After s (Lower.closeBlock c) fun _ t => Books i 0 0 s t := by
  unfold After
  rw [hs.run_closeBlock hc]
  exact .of_count (Nat.le_refl _) (Nat.le_of_eq (Arena.length_withSealed ..).symm)
    (Arena.count_items_withSealed ..)

theorem books_elseBlock? (hs : s.Good names src) (hb : s.current? = some b)
    (branch : Option Statement) :
    After s (Lower.elseBlock? b branch) fun r t => r.isSome = branch.isSome ∧
      Books i (branch.elim 0 fun _ => [Item.block].count i) ((r.toList.map Item.use).count i)
        s t := by
  cases branch with
  | none => exact ⟨rfl, .refl s⟩
  | some st => exact ⟨rfl, books_createChild i hs hb st.span⟩

theorem books_ascription? (names : SymbolTable) (s : Session) (written : Option Ascription) :
    After s (Lower.ascription? names written) fun _ t => Books i 0 0 s t := by
  cases written with
  | none => exact .refl s
  | some a =>
    unfold Lower.ascription?
    refine .get ?_
    cases s.resolveType names a with
    | ok type => exact .refl s
    | error problem => exact books_report i s problem

theorem books_resolveName (hs : s.Good names anyNode) (id : Ident) :
    After s (Lower.resolveName names id) fun _ t => Books i 0 0 s t := by
  unfold Lower.resolveName
  refine .bind hs does_currentBlock (books_currentBlock i s) fun b t ht _ _ h => .lookup ht ?_
  cases t.arena.lookup? b (names.resolve id.name) with
  | some d => exact h
  | none => exact h.trans (books_report i (p := 0) t _)

theorem books_parameter (hs : s.Good names anyNode) (hb : s.current? = some b) (x : Parameter) :
    After s (Lower.parameter names b x) fun _ t =>
      Books i ([Item.param].count i + tally i (x.inner everywhere)) 0 s t := by
  obtain ⟨kind, pattern, type, initial, span⟩ := x
  unfold Lower.parameter
  cases kind with
  | optional => exact books_report i s _
  | rest => exact books_report i s _
  | positional =>
    cases initial with
    | some e => exact books_report i s _
    | none =>
      cases pattern with
      | array => exact books_report i s _
      | object => exact books_report i s _
      | identifier id =>
        have hbelow : tally i (Parameter.inner everywhere
            ⟨.positional, .identifier id, type, none, span⟩) = 0 := by
          have hpattern : tally i (visitPattern everywhere (.identifier id)) = 0 := rfl
          simp only [Parameter.inner, innerExpression?, tally_append, hpattern, tally_nil,
            tally_flatMap_eq_zero tally_visitAscription]
        refine .bind hs (does_ascription? hs type) (books_ascription? i names s type)
          fun r t ht hst _ htype => ?_
        have hdecl : After t (Lower.addDecl b (names.resolve id.name) r .param span) fun _ u =>
            Books i ([Item.param].count i) 0 t u := books_addDecl i ht (hst.current hb)
        rw [hbelow]
        exact (htype.trans hdecl).cast (Nat.zero_add _) rfl

theorem books_parameters (hs : s.Good names anyNode) (hb : s.current? = some b)
    (params : List Parameter) :
    After s (Lower.parameters names b params) fun _ t =>
      Books i (parametersCost i params) 0 s t := by
  induction params generalizing s with
  | nil => exact .refl s
  | cons x rest ih =>
    unfold Lower.parameters
    rw [parametersCost_cons]
    refine .bind hs (does_parameter hs hb trivial) (books_parameter i hs hb x)
      fun _ t ht hst _ hx => ?_
    exact hx.trans (ih ht (hst.current hb))

theorem books_typeParameters (s : Session) (params : List TypeParameter) :
    After s (Lower.typeParameters params) fun _ t => Books i 0 0 s t := by
  cases params with
  | nil => exact .refl s
  | cons _ _ => exact books_report i s _

theorem books_inBlock {body : Lower Unit} (hs : s.Good names anyNode) (hc : s.MayOpen c)
    (hdoes : Does names anyNode s.arena.blocks.length ((Lower.openBlock c).run s).2 body anything)
    (hbody : ∀ t, t.Good names anyNode → t.current? = some c →
      After t body fun _ u => Books i p 0 t u) :
    After s (Lower.inBlock c body) fun _ t => Books i p 0 s t := by
  have hopen := hs.openBlock hc
  have hstart : Books i 0 0 s ((Lower.openBlock c).run s).2 := .of_arena (Nat.le_refl _) rfl
  have hwork := hbody _ hopen rfl
  obtain ⟨ht, hst⟩ := hdoes.1.good_frame hopen
  have hend := books_closeBlock i ht (hst.current rfl)
  exact ((hstart.trans hwork).trans hend).cast (by omega) rfl

theorem books_functionBody (hs : s.Good names anyNode) (hc : s.MayOpen c)
    (typeParams : List TypeParameter) (params : List Parameter) {statements : Lower Unit}
    (hdoes : AlwaysDoes names anyNode statements)
    (hbody : ∀ t, t.Good names anyNode → After t statements fun _ u => Books i p 0 t u) :
    After s (Lower.functionBody names c typeParams params statements) fun _ t =>
      Books i (parametersCost i params + p) 0 s t := by
  unfold Lower.functionBody
  refine .bind hs (does_typeParameters typeParams) (books_typeParameters i s typeParams)
    fun _ t ht _ hopen htypes => ?_
  have hopened := ht.openBlock (hopen c hc)
  have hwork : Does names anyNode t.arena.blocks.length ((Lower.openBlock c).run t).2
      (do Lower.parameters names c params; statements) anything := by
    refine .bind hopened (does_parameters hopened rfl fun _ _ => trivial) fun _ u hu huv _ => ?_
    exact hdoes _ u hu huv.arena.size
  have hblock := books_inBlock i (p := parametersCost i params + p) ht (hopen c hc) hwork
    fun u hu hcur => by
      refine .bind hu (does_parameters hu hcur fun _ _ => trivial)
        (books_parameters i hu hcur params) fun _ v hv _ _ hparams => ?_
      exact hparams.trans (hbody v hv)
  exact (htypes.trans hblock).cast (Nat.zero_add _) rfl

/-! ## Expressions and statements -/

/-- `n` is paid for what is put into the arena and for the value. -/
def ValueBooks (n : Nat) (s : Session) (r : Option Expr) (t : Session) : Prop :=
  Books i n ((r.elim [] Expr.items).count i) s t

theorem ValueBooks.of_some {n : Nat} {v : Expr} (h : Books i p k s t) (hp : p = n)
    (hk : k = v.items.count i) : ValueBooks i n s (some v) t := h.cast hp hk

/-- The value of a part that came before is given up. -/
theorem Session.Books.rejected {i : Item} {n : Nat} (h : Books i p k s t) (hn : p ≤ n)
    (construct : String) (span : Span) :
    After t (do Lower.reject construct span; return none) (ValueBooks i n s) :=
  h.thenFail (books_report i (p := 0) t _) (problems_report t (.unsupported construct span)) hn

theorem valueBooks_reject {n : Nat} (s : Session) (construct : String) (span : Span) :
    After s (do Lower.reject construct span; return none) (ValueBooks i n s) :=
  books_report i s (.unsupported construct span)

theorem After.bindBooks {α : Type} {e : Expression} {f : Option Expr → Lower α}
    {post : α → Session → Prop} (hs : s.Good names anyNode)
    (he : After s (Lower.expression names e) (ValueBooks i (e.cost i) s))
    (hnone : ∀ t, Books i (e.cost i) 0 s t → s.problems < t.problems → After t (f none) post)
    (hsome : ∀ v t, t.Good names anyNode → s.Frame 0 t →
      t.arena.InScope t.current? v.refs v.blocks → Books i (e.cost i) (v.items.count i) s t →
      After t (f (some v)) post) :
    After s (Lower.expression names e >>= f) post :=
  .bindExpression hs he (fun t _ h => hnone t h) hsome

-- By recursion along the code: each case adds up the books of its parts and compares the sum with
-- the cost of the node.
mutual

theorem books_expression (e : Expression) (s : Session) (hs : s.Good names anyNode) :
    After s (Lower.expression names e) (ValueBooks i (e.cost i) s) := by
  cases e with
  | int value span =>
    simp only [Lowering.expression]
    exact .refl s
  | float value span =>
    simp only [Lowering.expression]
    exact .refl s
  | identifier id =>
    simp only [Lowering.expression]
    refine .bind hs (does_resolveName hs id) (books_resolveName i hs id) fun r t _ _ _ hr => ?_
    cases r with
    | none => exact hr
    | some x => exact hr
  | binary operator left right span =>
    simp only [Lowering.expression]
    rw [Expression.cost_binary]
    cases operator.toIR? with
    | none => exact valueBooks_reject i s _ _
    | some op =>
      refine .bindBooks i hs (books_expression left s hs)
        (fun t hl hlt => hl.fail hlt (by omega)) fun lhs t ht _ _ hl => ?_
      refine .bindBooks i ht (books_expression right t ht)
        (fun u hr hlt => hl.thenFail hr hlt (by omega)) fun rhs u _ _ _ hr => ?_
      refine .of_some i ((hl.trans hr).hold ([Item.binary].count i)) (by omega) ?_
      rw [Expr.count_binary]
      omega
  | assignment operator left right span =>
    cases operator with
    | assign =>
      simp only [Lowering.expression]
      rw [Expression.cost_assignment]
      refine .bind hs does_currentBlock (books_currentBlock i s) fun b s₁ hs₁ h₁ hb books₁ => ?_
      refine .bind hs₁ (does_freshTemp hs₁ hb span) (books_freshTemp i hs₁ hb span)
        fun temp s₂ hs₂ h₂ htemp books₂ => ?_
      have made := books₁.trans books₂
      refine .bindBooks i hs₂ (books_expression right s₂ hs₂)
        (fun s₃ hright hlt => made.thenFail hright hlt (by omega))
        fun value s₃ hs₃ h₃ hvalue hright => ?_
      have hb₃ : s₃.current? = some b := h₃.current (h₂.current hb)
      rw [hb₃] at hvalue
      have htemp₃ := h₃.arena.sees htemp
      have hscope := (Arena.InScope.ref (r := ⟨temp, span⟩) htemp₃).append hvalue
      refine .bind hs₃ (does_addStmt hs₃ hb₃ hscope)
        ((made.trans hright).assign hs₃ hb₃ ⟨temp, span⟩ span (by omega))
        fun _ s₄ hs₄ h₄ _ assigned => ?_
      have hb₄ := h₄.current hb₃
      refine .bindBooks i hs₄ (books_expression left s₄ hs₄)
        (fun s₅ hleft hlt => assigned.thenFail hleft hlt (by omega))
        fun target s₅ hs₅ h₅ htarget hleft => ?_
      have both := assigned.trans hleft
      cases target with
      | ref target =>
        -- A target is a mere use of a declaration, so nothing is in hand here.
        have hb₅ := h₅.current hb₄
        rw [hb₅] at htarget
        have htemp₅ := h₅.arena.sees (h₄.arena.sees htemp₃)
        have hscope₅ := htarget.append (.ref (r := ⟨temp, span⟩) htemp₅)
        refine .bind hs₅ (does_addStmt hs₅ hb₅ hscope₅) (both.assign hs₅ hb₅ target span rfl)
          fun _ s₆ _ _ _ hdone => ?_
        exact .of_some i hdone (by omega) rfl
      | int | float | binary | func | call => exact both.rejected (by omega) _ _
    | addAssign | subtractAssign | multiplyAssign | divideAssign | moduloAssign =>
      simp only [Lowering.expression]
      exact valueBooks_reject i s _ _
  | call callee typeArgs args span =>
    simp only [Lowering.expression]
    rw [Expression.cost_call]
    cases ascriptionsSpan? typeArgs with
    | some place => exact valueBooks_reject i s _ _
    | none =>
      refine .bindBooks i hs (books_expression callee s hs)
        (fun t hc hlt => hc.fail hlt (by omega)) fun f t ht _ _ hc => ?_
      refine .bind ht (does_expressions args (covers_anyNode _) 0 t ht (Nat.zero_le _))
        (books_expressions args t ht) fun r u _ _ _ hargs => ?_
      cases r with
      | none => exact hc.thenFail hargs.1 (hargs.2 rfl) (by omega)
      | some values =>
        have both : Books i _ (f.items.count i + (Expr.itemsAll values).count i) s u :=
          hc.trans hargs.1
        refine .of_some i (both.hold ([Item.call].count i)) (by omega) ?_
        rw [Expr.count_call]
        omega
  | function name typeParams params result body span =>
    simp only [Lowering.expression]
    rw [Expression.cost_function]
    refine .bind hs does_currentBlock (books_currentBlock i s) fun b s₁ hs₁ h₁ hb books₁ => ?_
    refine .bind hs₁ (does_createChild hs₁ hb body.span) (books_createChild i hs₁ hb body.span)
      fun c s₂ hs₂ h₂ hc books₂ => ?_
    -- The use of the new block stays in hand while its statements are lowered.
    have hbody : AlwaysDoes names anyNode (Lower.group names body) :=
      does_group body (covers_anyNode _)
    refine .bind hs₂ (does_functionBody hs₂ hc.1.opens (Nat.zero_le _) (fun _ _ => trivial) hbody)
      (books_functionBody i hs₂ hc.1.opens typeParams params hbody (books_group body))
      fun _ s₃ _ _ _ books₃ => ?_
    have all := ((books₁.trans books₂).trans books₃).hold ([Item.func].count i)
    refine .of_some i all (by omega) ?_
    rw [Expr.count_func]
    omega
  | parenthesized inner span =>
    simp only [Lowering.expression]
    rw [Expression.cost_parenthesized]
    exact books_expression inner s hs
  | string | template | boolean | null | this | super | array | object | unary | logical
  | conditional | member | index | new | comma | instanceOf | typeCast =>
    simp only [Lowering.expression]
    exact valueBooks_reject i s _ _

theorem books_expressions (es : List Expression) (s : Session) (hs : s.Good names anyNode) :
    After s (Lower.expressions names es) fun r t =>
      Books i (expressionsCost i es) ((r.elim [] Expr.itemsAll).count i) s t ∧
        (r = none → s.problems < t.problems) := by
  cases es with
  | nil =>
    simp only [Lowering.expressions]
    exact ⟨.refl s, fun h => by cases h⟩
  | cons e rest =>
    simp only [Lowering.expressions]
    rw [expressionsCost_cons]
    refine .bindBooks i hs (books_expression e s hs)
      (fun t he hlt => ⟨he.fail hlt (by omega), fun _ => hlt⟩) fun v t ht _ _ he => ?_
    refine .bind ht (does_expressions rest (covers_anyNode _) 0 t ht (Nat.zero_le _))
      (books_expressions rest t ht) fun r u _ _ _ hrest => ?_
    cases r with
    | none =>
      have hlt := hrest.2 rfl
      exact ⟨he.thenFail hrest.1 hlt (Nat.le_refl _), fun _ => Nat.lt_of_le_of_lt he.problems hlt⟩
    | some vs =>
      exact ⟨(he.trans hrest.1).cast rfl List.count_append.symm, fun h => by cases h⟩

theorem books_initialValue (e : Option Expression) {b : BlockId} {target : DeclRef} {span : Span}
    (s : Session) (hs : s.Good names anyNode) (hb : s.current? = some b) :
    After s (Lower.initialValue names b target span e) fun _ t =>
      Books i (e.elim 0 fun e => [Item.assign].count i + e.cost i) 0 s t := by
  cases e with
  | none =>
    simp only [Lowering.initialValue]
    exact .refl s
  | some e =>
    simp only [Lowering.initialValue, Option.elim_some]
    refine .bindBooks i hs (books_expression e s hs) (fun t he hlt => he.fail hlt (by omega))
      fun v t ht hst _ he => ?_
    exact (he.assign ht (hst.current hb) target span rfl).cast (Nat.add_comm _ _) rfl

theorem books_variableDecl (d : VariableDecl) (s : Session) (hs : s.Good names anyNode) :
    After s (Lower.variableDecl names d) fun _ t =>
      Books i ((Statement.variableDecl d).cost i) 0 s t := by
  obtain ⟨kind, pattern, type, initial, span⟩ := d
  cases pattern with
  | identifier id =>
    simp only [Lowering.variableDecl]
    rw [Statement.cost_variableDecl]
    refine .bind hs (does_ascription? hs type) (books_ascription? i names s type)
      fun r s₁ hs₁ _ hr books₁ => ?_
    refine .bind hs₁ does_currentBlock (books_currentBlock i s₁) fun b s₂ hs₂ h₂ hb books₂ => ?_
    have htyped : ∀ t, r = some t → ∃ x, type = some x ∧ Names names s₂.arena x t := by
      intro t ht
      obtain ⟨x, hx, head, nameSpan, place, decl, rfl, hdecl, hname⟩ := hr t ht
      exact ⟨_, hx, head, nameSpan, place, decl, rfl, h₂.arena.typeDecl hdecl, hname⟩
    have hd : anyNode (.statement (.variableDecl ⟨kind, .identifier id, type, initial, span⟩)) :=
      trivial
    refine .bind hs₂ (does_addDecl hs₂ hb (by simp) (annotated_of_names hd rfl htyped))
      (books_addDecl i hs₂ hb) fun d s₃ hs₃ h₃ _ books₃ => ?_
    have declared : Books i (0 + 0 + [Item.localVar].count i) 0 s s₃ :=
      (books₁.trans books₂).trans books₃
    exact (declared.trans (books_initialValue initial s₃ hs₃ (h₃.current hb))).cast (by omega) rfl
  | array | object =>
    simp only [Lowering.variableDecl]
    exact books_report i s _

theorem books_functionDecl (d : FunctionDecl) (s : Session) (hs : s.Good names anyNode) :
    After s (Lower.functionDecl names d) fun _ t =>
      Books i ((Statement.functionDecl d).cost i) 0 s t := by
  obtain ⟨id, typeParams, params, result, body, span⟩ := d
  simp only [Lowering.functionDecl]
  rw [Statement.cost_functionDecl]
  refine .bind hs does_currentBlock (books_currentBlock i s) fun b s₁ hs₁ h₁ hb books₁ => ?_
  refine .bind hs₁ (does_addDecl hs₁ hb (by simp) (fun _ ht => by cases ht))
    (books_addDecl i hs₁ hb) fun d s₂ hs₂ h₂ hsees books₂ => ?_
  have hb₂ := h₂.current hb
  refine .bind hs₂ (does_linkHoisted hb₂ _ d) (books_linkHoisted i hs₂ hb₂ _ d)
    fun _ s₃ hs₃ h₃ _ books₃ => ?_
  have hb₃ := h₃.current hb₂
  refine .bind hs₃ (does_createChild hs₃ hb₃ body.span) (books_createChild i hs₃ hb₃ body.span)
    fun c s₄ hs₄ h₄ hc books₄ => ?_
  have hb₄ := h₄.current hb₃
  have hscope : s₄.arena.InScope (some b) ([⟨d, id.span⟩] ++ []) ([] ++ [c]) :=
    (Arena.InScope.ref (h₄.arena.sees (h₃.arena.sees hsees))).append (.block hc.1.parent)
  have declared : Books i (0 + [Item.function].count i) 0 s s₂ := books₁.trans books₂
  have made := ((declared.trans books₃).trans books₄).hold ([Item.func].count i)
  have hvalue : (Expr.func c span).items.count i =
      [Item.func].count i + [Item.use c].count i := Expr.count_func
  refine .bind hs₄ (does_addStmt hs₄ hb₄ hscope)
    (made.assign hs₄ hb₄ ⟨d, id.span⟩ span (by rw [hvalue]; omega))
    fun _ s₅ hs₅ h₅ hopen assigned => ?_
  have hbody : AlwaysDoes names anyNode (Lower.group names body) :=
    does_group body (covers_anyNode _)
  have inside := books_functionBody i hs₅ (hopen c hc.1.opens) typeParams params hbody
    (books_group body)
  exact (assigned.trans inside).cast (by omega) rfl

theorem books_group (g : Source.Block) (s : Session) (hs : s.Good names anyNode) :
    After s (Lower.group names g) fun _ t => Books i (statementsCost i g.statements) 0 s t := by
  obtain ⟨statements, span⟩ := g
  simp only [Lowering.group]
  exact books_statementList statements s hs

theorem books_statementAt (branch : Bool) (st : Statement) (s : Session)
    (hs : s.Good names anyNode) :
    After s (Lower.statementAt names branch st) fun _ t =>
      Books i (statementCost i branch st) 0 s t := by
  cases st with
  | variableDecl d =>
    simp only [Lowering.statementAt]
    rw [statementCost_of_not_group rfl]
    exact books_variableDecl d s hs
  | functionDecl d =>
    simp only [Lowering.statementAt]
    rw [statementCost_of_not_group rfl]
    exact books_functionDecl d s hs
  | namespaceDecl name members span =>
    simp only [Lowering.statementAt]
    rw [statementCost_of_not_group rfl, Statement.cost_namespaceDecl]
    refine .bind hs does_currentBlock (books_currentBlock i s) fun b s₁ hs₁ h₁ hb books₁ => ?_
    refine .bind hs₁ (does_createChild hs₁ hb span) (books_createChild i hs₁ hb span)
      fun c s₂ hs₂ h₂ hc books₂ => ?_
    have hdoes := does_statementList members (covers_anyNode _) _ _ (hs₂.openBlock hc.1.opens)
      (Nat.le_refl _)
    have inside := books_inBlock i hs₂ hc.1.opens hdoes fun t ht _ =>
      books_statementList members t ht
    -- Nothing names the block of a namespace.
    exact ((books₁.trans books₂.unused).trans inside).cast (by omega) rfl
  | expression value span =>
    simp only [Lowering.statementAt]
    rw [statementCost_of_not_group rfl, Statement.cost_expression]
    refine .bindBooks i hs (books_expression value s hs) (fun t he hlt => he.fail hlt (by omega))
      fun v s₁ hs₁ _ _ books₁ => ?_
    refine .bind hs₁ does_currentBlock (books_currentBlock i s₁) fun b s₂ hs₂ h₂ hb books₂ => ?_
    exact ((books₁.trans books₂).drop hs₂ hb span rfl).cast (by omega) rfl
  | ifElse condition thenBranch elseBranch span =>
    simp only [Lowering.statementAt]
    rw [statementCost_of_not_group rfl, Statement.cost_ifElse]
    refine .bindBooks i hs (books_expression condition s hs)
      (fun t he hlt => he.fail hlt (by omega)) fun cond s₁ hs₁ h₁ hscope books₁ => ?_
    refine .bind hs₁ does_currentBlock (books_currentBlock i s₁) fun b s₂ hs₂ h₂ hb books₂ => ?_
    refine .bind hs₂ (does_createChild hs₂ hb thenBranch.span)
      (books_createChild i hs₂ hb thenBranch.span) fun c s₃ hs₃ h₃ hc books₃ => ?_
    have hb₃ := h₃.current hb
    refine .bind hs₃ (does_elseBlock? hs₃ hb₃ elseBranch) (books_elseBlock? i hs₃ hb₃ elseBranch)
      fun e s₄ hs₄ h₄ he books₄ => ?_
    have hb₄ := h₄.current hb₃
    have hscope₄ := h₄.inScope (h₃.inScope (h₂.inScope hscope))
    rw [hb₄] at hscope₄
    have hbranches : s₄.arena.InScope (some b) [] (c :: e.toList) := by
      refine ⟨by simp, fun x hx => ⟨b, rfl, ?_⟩⟩
      rcases List.mem_cons.1 hx with rfl | hx
      · exact h₄.arena.parent_some hc.1.parent
      · exact (he.1 x (Option.mem_toList.1 hx)).parent
    -- Both blocks are named before either branch is lowered.
    have made := ((books₁.trans books₂).trans books₃).trans books₄.2
    refine .bind hs₄ (does_addStmt hs₄ hb₄ (hbranches.append hscope₄))
      (made.ifElse hs₄ hb₄ span (by omega)) fun _ s₅ hs₅ h₅ hopen head => ?_
    have hc₅ := hopen c (he.2 c hc.1.opens)
    have hthen : AlwaysDoes names anyNode (Lower.statementAt names true thenBranch) :=
      does_statementAt true thenBranch trivial (covers_anyNode _)
    have hwork := hthen _ _ (hs₅.openBlock hc₅) (Nat.le_refl _)
    refine .bind hs₅ (does_inBlock hs₅ hc₅ (Nat.zero_le _) hwork) (books_inBlock i hs₅ hc₅ hwork
      fun t ht _ => books_statementAt true thenBranch t ht) fun _ s₆ hs₆ _ hopen₆ inThen => ?_
    have inElse := books_elseBody e elseBranch books₄.1 s₆ hs₆ fun x hx => by
      have hx' := he.1 x hx
      have hidx := hx'.index
      have hlt := hc.1.opens.index_lt
      refine hopen₆ x (hopen x hx'.opens) ?_
      rintro rfl
      omega
    refine ((head.trans inThen).trans inElse).cast ?_ rfl
    rw [statementCost_branch]
    cases elseBranch with
    | none =>
      simp only [Option.elim_none]
      omega
    | some st =>
      simp only [Option.elim_some]
      omega
  | whileLoop condition body span =>
    simp only [Lowering.statementAt]
    rw [statementCost_of_not_group rfl, Statement.cost_whileLoop]
    refine .bindBooks i hs (books_expression condition s hs)
      (fun t he hlt => he.fail hlt (by omega)) fun cond s₁ hs₁ h₁ hscope books₁ => ?_
    refine .bind hs₁ does_currentBlock (books_currentBlock i s₁) fun b s₂ hs₂ h₂ hb books₂ => ?_
    refine .bind hs₂ (does_createChild hs₂ hb body.span) (books_createChild i hs₂ hb body.span)
      fun c s₃ hs₃ h₃ hc books₃ => ?_
    have hb₃ := h₃.current hb
    have hscope₃ := h₃.inScope (h₂.inScope hscope)
    rw [hb₃] at hscope₃
    have hstmt := (Arena.InScope.block hc.1.parent).append hscope₃
    have made := (books₁.trans books₂).trans books₃
    refine .bind hs₃ (does_addStmt hs₃ hb₃ hstmt) (made.whileLoop hs₃ hb₃ span (by omega))
      fun _ s₄ hs₄ _ hopen head => ?_
    have hc₄ := hopen c hc.1.opens
    have hdoes := does_statementAt true body trivial (covers_anyNode _) _ _ (hs₄.openBlock hc₄)
      (Nat.le_refl _)
    have inside := books_inBlock i hs₄ hc₄ hdoes fun t ht _ => books_statementAt true body t ht
    refine (head.trans inside).cast ?_ rfl
    rw [statementCost_branch]
    omega
  | block braces =>
    simp only [Lowering.statementAt]
    have hcost := Statement.cost_block (i := i) braces
    cases branch with
    | true =>
      rw [statementCost_branch, hcost]
      exact books_group braces s hs
    | false =>
      refine .bind hs does_currentBlock (books_currentBlock i s) fun b s₁ hs₁ h₁ hb books₁ => ?_
      refine .bind hs₁ (does_createChild hs₁ hb braces.span)
        (books_createChild i hs₁ hb braces.span) fun c s₂ hs₂ h₂ hc books₂ => ?_
      have hdoes := does_group braces (covers_anyNode _) _ _ (hs₂.openBlock hc.1.opens)
        (Nat.le_refl _)
      have inside := books_inBlock i hs₂ hc.1.opens hdoes fun t ht _ => books_group braces t ht
      refine ((books₁.trans books₂.unused).trans inside).cast ?_ rfl
      show _ = [Item.block].count i + (Statement.block braces).cost i
      omega
  | empty span =>
    simp only [Lowering.statementAt]
    rw [statementCost_of_not_group rfl]
    exact .refl s
  | classDecl | typeAlias | importDecl | exportDecl | switch | doWhile | forLoop | forOf | breakTo
  | continueTo | returnValue | throwValue | tryCatch =>
    simp only [Lowering.statementAt]
    exact books_report i s _

theorem books_elseBody (e : Option BlockId) (branch : Option Statement)
    (hsome : e.isSome = branch.isSome) (s : Session) (hs : s.Good names anyNode)
    (he : ∀ x, e = some x → s.MayOpen x) :
    After s (Lower.elseBody names e branch) fun _ t =>
      Books i (branch.elim 0 fun st => st.cost i) 0 s t := by
  cases branch with
  | none =>
    cases e <;> simp only [Lowering.elseBody] <;> exact .refl s
  | some st =>
    cases e with
    | none => cases hsome
    | some x =>
      simp only [Lowering.elseBody, Option.elim_some]
      have hx := he x rfl
      have hdoes := does_statementAt true st trivial (covers_anyNode _) _ _ (hs.openBlock hx)
        (Nat.le_refl _)
      rw [← statementCost_branch]
      exact books_inBlock i hs hx hdoes fun t ht _ => books_statementAt true st t ht

theorem books_statementList (sts : List Statement) (s : Session) (hs : s.Good names anyNode) :
    After s (Lower.statementList names sts) fun _ t => Books i (statementsCost i sts) 0 s t := by
  cases sts with
  | nil =>
    simp only [Lowering.statementList]
    exact .refl s
  | cons st rest =>
    simp only [Lowering.statementList]
    rw [statementsCost_cons]
    refine .bind hs (does_statementAt false st trivial (covers_anyNode _) 0 s hs (Nat.zero_le _))
      (books_statementAt false st s hs) fun _ t ht _ _ hst => ?_
    exact hst.trans (books_statementList rest t ht)

end

/-! ## Modules -/

/-- The placeholders of a unit are no items, and its root is no nested block. -/
theorem books_enterUnit (names : SymbolTable) (m : Module) (s : Session) :
    Books i ([Item.block].count i) 0 s (s.enterUnit names m) := by
  have hstill := still_enterUnit names m s
  refine .of_count hstill.problems hstill.grows.size ?_
  have hplaceholders : (m.placeholders names s.options s.nextUnit).flatMap
      (fun d => d.kind.items) = [] := by
    apply List.flatMap_eq_nil_iff.2
    intro d hd
    unfold Module.placeholders at hd
    split at hd
    · obtain ⟨id, _, rfl⟩ := List.mem_map.1 hd
      rfl
    · cases hd
  obtain ⟨scopes, ids, htypes⟩ := run_ensureTypeScope_fields s
  unfold Session.enterUnit Session.unitArena
  rw [htypes, Arena.count_items_withChild, Arena.count_items_withDecls, hplaceholders]
  show (({ s.arena with typeScopes := scopes } : Arena).createRoot m.span).1.items.count i + 0 +
    _ = _
  rw [Arena.count_items_createRoot]
  rfl

theorem books_leaveUnit (s t : Session) : Books i 0 0 t (s.leaveUnit t) := by
  have hstill := still_leaveUnit s t
  refine .of_count hstill.problems hstill.grows.size ?_
  show ((t.arena.withSealed s.nextBody).withSealed s.nextUnit).items.count i = _
  rw [Arena.count_items_withSealed, Arena.count_items_withSealed]
  rfl

/-- Besides its statements, a module has the block of its body. -/
theorem books_module (hs : Reachable names anyNode s) (m : Module) :
    Books i ([Item.block].count i + tally i ((Node.module m).visits everywhere)) 0 s
      ((Lower.module names m).run s).2 := by
  have hin := hs.enterUnit m
  have hstatements := books_statementList i m.statements _ hin.good
  rw [run_module hs m, tally_module]
  exact ((books_enterUnit i names m s).trans hstatements).trans (books_leaveUnit i s _)

end

end BlockLowering
