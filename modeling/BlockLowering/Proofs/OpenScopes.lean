import BlockLowering.Proofs.Lookups
import BlockLowering.Proofs.Units

/-!
# Open blocks are the scopes of names

A name is searched for along the parents of blocks, and lowering keeps a stack of open blocks. The
two agree wherever a name is looked up: the blocks searched are the open blocks from the innermost
one to the first root, and none of them is sealed (`lookups_search_open_blocks`). Further out the
stack may hold a root that an earlier step left open; it is not searched from inside a module.

Every look-up of a session is `Orderly`: it is made in a reachable state, from the innermost open
block. The stack of a reachable state then unrolls the chain of its innermost block
(`IR.Arena.Stacked.ancestors_eq`).
-/

namespace BlockLowering

open IR Source Session

/-! ## The stack and the chain -/

/-- From the innermost open block the chain of parents goes along the stack to its first root. -/
theorem IR.Arena.Stacked.ancestors_eq {a : Arena} (ha : a.ParentsBelow) {b : BlockId}
    {stack : List BlockId} (h : a.Stacked (b :: stack)) :
    ∃ inner root outer, b :: stack = inner ++ root :: outer ∧ a.ancestors b = inner ++ [root] ∧
      (∀ c ∈ inner, a.parent? c ≠ none) ∧ a.parent? root = none := by
  induction stack generalizing b with
  | nil =>
    have hroot : a.parent? b = none := h.1.elim id id
    exact ⟨[], b, [], rfl, Arena.ancestors_eq_singleton hroot, by simp, hroot⟩
  | cons p rest ih =>
    obtain ⟨hroot | hparent, hrest⟩ := h
    · exact ⟨[], b, p :: rest, rfl, Arena.ancestors_eq_singleton hroot, by simp, hroot⟩
    · obtain ⟨inner, root, outer, hstack, hchain, hinner, hroot⟩ := ih hrest
      refine ⟨b :: inner, root, outer, congrArg (b :: ·) hstack, ?_, ?_, hroot⟩
      · rw [Arena.ancestors_eq_cons ha hparent, hchain]
        rfl
      · intro c hc
        rcases List.mem_cons.1 hc with rfl | hc
        · rw [hparent]
          exact Option.some_ne_none p
        · exact hinner c hc

namespace Watched

variable {names : SymbolTable} {s : Session} {b c : BlockId} {α β : Type}

/-- Every look-up is made in a state of a session, from the innermost open block. -/
def Orderly (names : SymbolTable) (s : Session) (w : Watched α) : Prop :=
  ∀ l ∈ w.lookups s, Reachable names anyNode l.session ∧ l.session.current? = some l.start

/-! ## Rules -/

namespace Orderly

variable {w : Watched α} {x : Lower α} {f : α → Watched β} {mid : α → Session → Prop}

theorem of_nil (h : w.lookups s = []) : Orderly names s w := by
  intro l hl
  rw [h] at hl
  cases hl

/-- The second part of a sequence starts in a reachable state that the first part framed. -/
theorem bind (hs : Reachable names anyNode s) (hcode : w.code = x)
    (hx : Does names anyNode 0 s x mid) (hw : Orderly names s w)
    (hf : ∀ a t, Reachable names anyNode t → s.Frame 0 t → mid a t → Orderly names t (f a)) :
    Orderly names s (w >>= f) := by
  subst hcode
  intro l hl
  rcases List.mem_append.1 hl with hl | hl
  · exact hw l hl
  · exact hf _ _ (hx.reachable hs) (hx.1.good_frame hs.good).2 hx.2 l hl

theorem bind_lift (hs : Reachable names anyNode s) (hx : Does names anyNode 0 s x mid)
    (hf : ∀ a t, Reachable names anyNode t → s.Frame 0 t → mid a t → Orderly names t (f a)) :
    Orderly names s (liftM x >>= f) := .bind hs rfl hx (.of_nil rfl) hf

/-- No names are looked up after the first part. -/
theorem last (hw : Orderly names s w) (hf : ∀ a t, (f a).lookups t = []) :
    Orderly names s (w >>= f) := by
  intro l hl
  rcases List.mem_append.1 hl with hl | hl
  · exact hw l hl
  · rw [hf] at hl
    cases hl

end Orderly

theorem orderly_resolveName (hs : Reachable names anyNode s) (id : Ident) :
    Orderly names s (resolveName names id) := by
  intro l hl
  obtain rfl := List.mem_singleton.1 hl
  have hcurrent : Does names anyNode 0 s Lower.currentBlock fun b t => t.current? = some b :=
    does_currentBlock
  exact ⟨hcurrent.reachable hs, hcurrent.2⟩

theorem lookups_inBlock (c : BlockId) (body : Watched Unit) (s : Session) :
    (Lower.inBlock c body).lookups s = body.lookups ((Lower.openBlock c).run s).2 :=
  List.append_nil _

theorem orderly_inBlock {body : Watched Unit}
    (hbody : Orderly names ((Lower.openBlock c).run s).2 body) :
    Orderly names s (Lower.inBlock c body) := by
  unfold Orderly
  rw [lookups_inBlock]
  exact hbody

/-! ## Lowering -/

/-- Watched code whose look-ups are orderly from every state of a session. -/
def AlwaysOrderly (names : SymbolTable) (w : Watched α) : Prop :=
  ∀ s, Reachable names anyNode s → Orderly names s w

theorem orderly_functionBody {statements : Watched Unit} (hs : Reachable names anyNode s)
    (hc : s.MayOpen c) (typeParams : List TypeParameter) (params : List Parameter)
    (hbody : AlwaysOrderly names statements) :
    Orderly names s (Lower.functionBody names c typeParams params statements) := by
  refine .bind_lift hs (does_typeParameters typeParams) fun _ t ht _ hopen => ?_
  have hin := ht.enter (hopen c hc)
  refine orderly_inBlock ?_
  exact .bind_lift hin (does_parameters hin.good rfl fun _ _ => trivial)
    fun _ u hu _ _ => hbody u hu

/-- Where an expression fails, no more names are looked up. -/
theorem Orderly.bind_value {e : Expression} {f : Option Expr → Watched β}
    (hs : Reachable names anyNode s)
    (he : Orderly names s (Lowering.expression names (resolveName names) e))
    (hnone : ∀ t, (f none).lookups t = [])
    (hsome : ∀ v t, Reachable names anyNode t → s.Frame 0 t →
      t.arena.InScope t.current? v.refs v.blocks → Orderly names t (f (some v))) :
    Orderly names s (Lowering.expression names (resolveName names) e >>= f) := by
  have hdoes := does_expression e (covers_anyNode _) 0 s hs.good (Nat.zero_le _)
  refine .bind hs (code_expression names e) hdoes he fun r t ht hst hr => ?_
  cases r with
  | none => exact .of_nil (hnone t)
  | some v => exact hsome v t ht hst (hr v rfl)

-- By recursion along the syntax. What lowering does between two look-ups leads from reachable
-- states to reachable states; for an appended statement that takes values that are in scope.
mutual

theorem orderly_expression (e : Expression) :
    AlwaysOrderly names (Lowering.expression names (resolveName names) e) := by
  intro s hs
  cases e with
  | identifier id =>
    simp only [Lowering.expression]
    exact .last (orderly_resolveName hs id) fun _ _ => rfl
  | binary operator left right span =>
    simp only [Lowering.expression]
    cases operator.toIR? with
    | none => exact .of_nil rfl
    | some op =>
      refine .bind_value hs (orderly_expression left s hs) (fun _ => rfl) fun lhs t ht _ _ => ?_
      refine .last (orderly_expression right t ht) fun r _ => ?_
      cases r <;> rfl
  | assignment operator left right span =>
    cases operator with
    | assign =>
      simp only [Lowering.expression]
      refine .bind_lift hs does_currentBlock fun b s₁ hs₁ _ hb => ?_
      refine .bind_lift hs₁ (does_freshTemp hs₁.good hb span) fun temp s₂ hs₂ h₂ htemp => ?_
      refine .bind_value hs₂ (orderly_expression right s₂ hs₂) (fun _ => rfl)
        fun value s₃ hs₃ h₃ hvalue => ?_
      have hb₃ := h₃.current (h₂.current hb)
      have htemp₃ := h₃.arena.sees htemp
      rw [hb₃] at hvalue
      refine .bind_lift hs₃ (does_addStmt hs₃.good hb₃ ((Arena.InScope.ref htemp₃).append hvalue))
        fun _ s₄ hs₄ _ _ => ?_
      refine .last (orderly_expression left s₄ hs₄) fun r _ => ?_
      cases r with
      | none => rfl
      | some v => cases v <;> rfl
    | addAssign | subtractAssign | multiplyAssign | divideAssign | moduloAssign =>
      simp only [Lowering.expression]
      exact .of_nil rfl
  | call callee typeArgs args span =>
    simp only [Lowering.expression]
    cases ascriptionsSpan? typeArgs with
    | some place => exact .of_nil rfl
    | none =>
      refine .bind_value hs (orderly_expression callee s hs) (fun _ => rfl) fun f t ht _ _ => ?_
      refine .last (orderly_expressions args t ht) fun r _ => ?_
      cases r <;> rfl
  | function name typeParams params result body span =>
    simp only [Lowering.expression]
    refine .bind_lift hs does_currentBlock fun b s₁ hs₁ _ hb => ?_
    refine .bind_lift hs₁ (does_createChild hs₁.good hb body.span) fun c s₂ hs₂ _ hc => ?_
    exact .last (orderly_functionBody hs₂ hc.1.opens typeParams params (orderly_group body))
      fun _ _ => rfl
  | parenthesized inner span =>
    simp only [Lowering.expression]
    exact orderly_expression inner s hs
  | int | float | string | template | boolean | null | this | super | array | object | unary
  | logical | conditional | member | index | new | comma | instanceOf | typeCast =>
    simp only [Lowering.expression]
    exact .of_nil rfl

theorem orderly_expressions (es : List Expression) :
    AlwaysOrderly names (Lowering.expressions names (resolveName names) es) := by
  intro s hs
  cases es with
  | nil =>
    simp only [Lowering.expressions]
    exact .of_nil rfl
  | cons e rest =>
    simp only [Lowering.expressions]
    refine .bind_value hs (orderly_expression e s hs) (fun _ => rfl) fun v t ht _ _ => ?_
    refine .last (orderly_expressions rest t ht) fun r _ => ?_
    cases r <;> rfl

theorem orderly_initialValue (block : BlockId) (target : DeclRef) (span : Span)
    (e : Option Expression) :
    AlwaysOrderly names (Lowering.initialValue names (resolveName names) block target span e) := by
  intro s hs
  cases e with
  | none =>
    simp only [Lowering.initialValue]
    exact .of_nil rfl
  | some e =>
    simp only [Lowering.initialValue]
    refine .last (orderly_expression e s hs) fun r _ => ?_
    cases r <;> rfl

theorem orderly_variableDecl (d : VariableDecl) :
    AlwaysOrderly names (Lowering.variableDecl names (resolveName names) d) := by
  intro s hs
  obtain ⟨kind, pattern, type, initial, span⟩ := d
  cases pattern with
  | identifier id =>
    simp only [Lowering.variableDecl]
    refine .bind_lift hs (does_ascription? hs.good type) fun r s₁ hs₁ _ hr => ?_
    refine .bind_lift hs₁ does_currentBlock fun b s₂ hs₂ h₂ hb => ?_
    have htyped : ∀ t, r = some t → ∃ x, type = some x ∧ Names names s₂.arena x t := by
      intro t ht
      obtain ⟨x, hx, head, nameSpan, place, decl, rfl, hdecl, hname⟩ := hr t ht
      exact ⟨_, hx, head, nameSpan, place, decl, rfl, h₂.arena.typeDecl hdecl, hname⟩
    have hnode : anyNode (.statement (.variableDecl ⟨kind, .identifier id, type, initial, span⟩)) :=
      trivial
    refine .bind_lift hs₂ (does_addDecl hs₂.good hb (by simp) (annotated_of_names hnode rfl htyped))
      fun d s₃ hs₃ _ _ => ?_
    exact orderly_initialValue b ⟨d, id.span⟩ span initial s₃ hs₃
  | array | object =>
    simp only [Lowering.variableDecl]
    exact .of_nil rfl

theorem orderly_functionDecl (d : FunctionDecl) :
    AlwaysOrderly names (Lowering.functionDecl names (resolveName names) d) := by
  intro s hs
  obtain ⟨id, typeParams, params, result, body, span⟩ := d
  simp only [Lowering.functionDecl]
  refine .bind_lift hs does_currentBlock fun b s₁ hs₁ _ hb => ?_
  refine .bind_lift hs₁ (does_addDecl hs₁.good hb (by simp) (fun _ ht => by cases ht))
    fun d s₂ hs₂ h₂ hsees => ?_
  have hb₂ := h₂.current hb
  refine .bind_lift hs₂ (does_linkHoisted hb₂ _ d) fun _ s₃ hs₃ h₃ _ => ?_
  have hb₃ := h₃.current hb₂
  refine .bind_lift hs₃ (does_createChild hs₃.good hb₃ body.span) fun c s₄ hs₄ h₄ hc => ?_
  refine .bind_lift hs₄ (does_addStmt hs₄.good (h₄.current hb₃) ?_) fun _ s₅ hs₅ _ hopen => ?_
  · exact (Arena.InScope.ref (h₄.arena.sees (h₃.arena.sees hsees))).append (.block hc.1.parent)
  · exact orderly_functionBody hs₅ (hopen c hc.1.opens) typeParams params (orderly_group body)

theorem orderly_group (g : Source.Block) :
    AlwaysOrderly names (Lowering.group names (resolveName names) g) := by
  obtain ⟨statements, span⟩ := g
  simp only [Lowering.group]
  exact orderly_statementList statements

theorem orderly_statementAt (branch : Bool) (st : Statement) :
    AlwaysOrderly names (Lowering.statementAt names (resolveName names) branch st) := by
  intro s hs
  cases st with
  | variableDecl d =>
    simp only [Lowering.statementAt]
    exact orderly_variableDecl d s hs
  | functionDecl d =>
    simp only [Lowering.statementAt]
    exact orderly_functionDecl d s hs
  | namespaceDecl name members span =>
    simp only [Lowering.statementAt]
    refine .bind_lift hs does_currentBlock fun b s₁ hs₁ _ hb => ?_
    refine .bind_lift hs₁ (does_createChild hs₁.good hb span) fun c s₂ hs₂ _ hc => ?_
    exact orderly_inBlock (orderly_statementList members _ (hs₂.enter hc.1.opens))
  | expression value span =>
    simp only [Lowering.statementAt]
    refine .last (orderly_expression value s hs) fun r _ => ?_
    cases r <;> rfl
  | ifElse condition thenBranch elseBranch span =>
    simp only [Lowering.statementAt]
    refine .bind_value hs (orderly_expression condition s hs) (fun _ => rfl)
      fun cond s₁ hs₁ _ hcond => ?_
    refine .bind_lift hs₁ does_currentBlock fun b s₂ hs₂ h₂ hb => ?_
    refine .bind_lift hs₂ (does_createChild hs₂.good hb thenBranch.span) fun c s₃ hs₃ h₃ hc => ?_
    have hb₃ := h₃.current hb
    refine .bind_lift hs₃ (does_elseBlock? hs₃.good hb₃ elseBranch) fun e s₄ hs₄ h₄ he => ?_
    have hb₄ := h₄.current hb₃
    have hcond₄ := h₄.inScope (h₃.inScope (h₂.inScope hcond))
    rw [hb₄] at hcond₄
    have hbranches : s₄.arena.InScope (some b) [] (c :: e.toList) := by
      refine ⟨by simp, fun x hx => ⟨b, rfl, ?_⟩⟩
      rcases List.mem_cons.1 hx with rfl | hx
      · exact h₄.arena.parent_some hc.1.parent
      · exact (he.1 x (Option.mem_toList.1 hx)).parent
    refine .bind_lift hs₄ (does_addStmt hs₄.good hb₄ (hbranches.append hcond₄))
      fun _ s₅ hs₅ _ hopen => ?_
    have hc₅ := hopen c (he.2 c hc.1.opens)
    have hthen := does_inBlock hs₅.good hc₅ (Nat.zero_le _) (does_statementAt true thenBranch
      trivial (covers_anyNode _) _ _ (hs₅.enter hc₅).good (Nat.le_refl _))
    refine .bind hs₅ (code_inBlock (code_statementAt names true thenBranch) c) hthen
      (orderly_inBlock (orderly_statementAt true thenBranch _ (hs₅.enter hc₅)))
      fun _ s₆ hs₆ _ hopen₆ => ?_
    refine orderly_elseBody e elseBranch s₆ hs₆ fun x hx => ?_
    -- The block of the other branch was made later, so it is another one.
    have hx' := he.1 x hx
    refine hopen₆ x (hopen x hx'.opens) ?_
    rintro rfl
    have hlt := hc.1.opens.index_lt
    have hindex := hx'.index
    omega
  | whileLoop condition body span =>
    simp only [Lowering.statementAt]
    refine .bind_value hs (orderly_expression condition s hs) (fun _ => rfl)
      fun cond s₁ hs₁ _ hcond => ?_
    refine .bind_lift hs₁ does_currentBlock fun b s₂ hs₂ h₂ hb => ?_
    refine .bind_lift hs₂ (does_createChild hs₂.good hb body.span) fun c s₃ hs₃ h₃ hc => ?_
    have hb₃ := h₃.current hb
    have hcond₃ := h₃.inScope (h₂.inScope hcond)
    rw [hb₃] at hcond₃
    refine .bind_lift hs₃ (does_addStmt hs₃.good hb₃
      ((Arena.InScope.block hc.1.parent).append hcond₃)) fun _ s₄ hs₄ _ hopen => ?_
    exact orderly_inBlock (orderly_statementAt true body _ (hs₄.enter (hopen c hc.1.opens)))
  | block braces =>
    simp only [Lowering.statementAt]
    cases branch with
    | true => exact orderly_group braces s hs
    | false =>
      refine .bind_lift hs does_currentBlock fun b s₁ hs₁ _ hb => ?_
      refine .bind_lift hs₁ (does_createChild hs₁.good hb braces.span) fun c s₂ hs₂ _ hc => ?_
      exact orderly_inBlock (orderly_group braces _ (hs₂.enter hc.1.opens))
  | empty | classDecl | typeAlias | importDecl | exportDecl | switch | doWhile | forLoop | forOf
  | breakTo | continueTo | returnValue | throwValue | tryCatch =>
    simp only [Lowering.statementAt]
    exact .of_nil rfl

theorem orderly_elseBody (e : Option BlockId) (branch : Option Statement) (s : Session)
    (hs : Reachable names anyNode s) (he : ∀ x, e = some x → s.MayOpen x) :
    Orderly names s (Lowering.elseBody names (resolveName names) e branch) := by
  cases e with
  | none =>
    simp only [Lowering.elseBody]
    exact .of_nil rfl
  | some x =>
    cases branch with
    | none =>
      simp only [Lowering.elseBody]
      exact .of_nil rfl
    | some st =>
      simp only [Lowering.elseBody]
      exact orderly_inBlock (orderly_statementAt true st _ (hs.enter (he x rfl)))

theorem orderly_statementList (sts : List Statement) :
    AlwaysOrderly names (Lowering.statementList names (resolveName names) sts) := by
  intro s hs
  cases sts with
  | nil =>
    simp only [Lowering.statementList]
    exact .of_nil rfl
  | cons st rest =>
    simp only [Lowering.statementList]
    have hfirst := does_statementAt false st trivial (covers_anyNode _) 0 s hs.good (Nat.zero_le _)
    exact .bind hs (code_statementAt names false st) hfirst (orderly_statementAt false st s hs)
      fun _ t ht _ _ => orderly_statementList rest t ht

end

/-! ## Sessions -/

/-- In a unit block, names are looked up by the statements of the module alone. -/
theorem lookups_unitBlock (unit : BlockId) (m : Module) (s : Session) :
    (Lowering.unitBlock names (resolveName names) unit m).lookups s =
      let s₁ := ((Lower.placeholders names unit m.functionNames).run s).2
      let s₂ := ((Lower.createChild unit m.span).run s₁).2
      let body := ((Lower.createChild unit m.span).run s₁).1
      (Lowering.statementList names (resolveName names) m.statements).lookups
        ((Lower.openBlock body).run { s₂ with unitBody := some body }).2 :=
  (List.append_nil _).trans (lookups_inBlock _ _ _)

theorem lookups_module (m : Module) (s : Session) :
    (Lowering.module names (resolveName names) m).lookups s =
      (Lowering.statementList names (resolveName names) m.statements).lookups
        (s.enterUnit names m) := by
  obtain ⟨hbody, _, heq⟩ := s.enterUnit_eq names m
  have hmodule : (Lowering.module names (resolveName names) m).lookups s =
      (Lowering.unitBlock names (resolveName names) s.nextUnit m).lookups (s.openUnit m) := by
    unfold Session.openUnit
    rw [← Session.nextUnit_types]
    exact (List.append_nil _).trans (lookups_inBlock _ _ _)
  rw [hmodule, lookups_unitBlock]
  dsimp only
  rw [hbody, heq]

theorem orderly_module (m : Module) :
    AlwaysOrderly names (Lowering.module names (resolveName names) m) := by
  intro s hs
  unfold Orderly
  rw [lookups_module]
  exact orderly_statementList m.statements _ (hs.enterUnit m)

theorem orderly_visit (v : Visit) :
    AlwaysOrderly names (Lowering.visit names (resolveName names) v) := by
  intro s hs
  unfold Lowering.visit
  by_cases hh : Lower.handles v = true
  · rw [if_pos hh]
    cases v.subject with
    | module m => exact .last (orderly_module m s hs) fun _ _ => rfl
    | statement st => exact orderly_statementAt false st s hs
    | _ => exact .of_nil rfl
  · rw [if_neg hh]
    exact .of_nil rfl

theorem orderly_visitAll (visits : List Visit) :
    AlwaysOrderly names (Lowering.visitAll names (resolveName names) visits) := by
  induction visits with
  | nil => exact fun s _ => .of_nil rfl
  | cons v rest ih =>
    intro s hs l hl
    rcases List.mem_append.1 hl with hl | hl
    · exact orderly_visit v s hs l hl
    · rw [code_visit] at hl
      exact ih _ (hs.visit fun _ => covers_anyNode _) l hl

theorem orderly_step (st : Step) :
    AlwaysOrderly names (Lowering.step names (resolveName names) st) := by
  intro s hs
  cases st with
  | options chosen => exact .of_nil rfl
  | module m => exact .last (orderly_module m s hs) fun _ _ => rfl
  | statement st => exact orderly_statementAt false st s hs
  | expression e => exact orderly_visitAll _ s hs
  | node n => exact orderly_visitAll _ s hs

theorem orderly_steps (sts : List Step) : AlwaysOrderly names (steps names sts) := by
  induction sts with
  | nil => exact fun s _ => .of_nil rfl
  | cons st rest ih =>
    intro s hs l hl
    rcases List.mem_append.1 hl with hl | hl
    · exact orderly_step st s hs l hl
    · rw [code_step] at hl
      exact ih _ (hs.step fun _ _ => covers_anyNode _) l hl

end Watched

/-- In a state of a session, the blocks around the innermost open block are open themselves, up to
the first root on the stack. -/
theorem Reachable.ancestors_current {names : SymbolTable} {src : Node → Prop} {s : Session}
    {b : BlockId} (hs : Reachable names src s) (hb : s.current? = some b) :
    ∃ inner root outer, s.openBlocks = inner ++ root :: outer ∧
      s.arena.ancestors b = inner ++ [root] ∧
      ∀ c ∈ inner ++ [root], ∃ x, s.arena.block? c = some x ∧ x.isSealed = false ∧
        (x.isRoot = true ↔ c = root) := by
  have hstack := hs.stacked
  have hcons := openBlocks_eq_cons hb
  rw [hcons] at hstack
  obtain ⟨inner, root, outer, hsplit, hchain, hinner, hroot⟩ :=
    hstack.ancestors_eq hs.good.arena.parents
  rw [← hcons] at hsplit
  refine ⟨inner, root, outer, hsplit, hchain, fun c hc => ?_⟩
  have hopen : c ∈ s.openBlocks := by
    rw [hsplit]
    rcases List.mem_append.1 hc with hc | hc
    · exact List.mem_append_left _ hc
    · rw [List.mem_singleton.1 hc]
      exact List.mem_append_right _ List.mem_cons_self
  obtain ⟨x, hx, hunsealed⟩ := hs.good.opened c hopen
  refine ⟨x, hx, hunsealed, ?_⟩
  have hparent : s.arena.parent? c = x.parent := Arena.parent?_eq hx
  unfold IR.Block.isRoot
  rw [Option.isNone_iff_eq_none, ← hparent]
  constructor
  · intro hnone
    rcases List.mem_append.1 hc with hc | hc
    · exact absurd hnone (hinner c hc)
    · exact List.mem_singleton.1 hc
  · rintro rfl
    exact hroot

/-- Wherever a session looks up a name, it starts at the innermost open block and searches the open
blocks in the order of the stack, up to and with the first root. These blocks are not sealed, and no
block is open twice. -/
theorem lookups_search_open_blocks (names : SymbolTable) (steps : List Step) :
    (∀ s, ((Watched.steps names steps).code.run s).2 = s.run names steps) ∧
      ∀ l ∈ (Watched.steps names steps).lookups {},
        l.session.current? = some l.start ∧ l.session.openBlocks.Nodup ∧
        (l.found? names = l.searched.findSome? fun b =>
          l.session.arena.findInBlock? b (names.resolve l.ident.name)) ∧
        ∃ inner root outer, l.session.openBlocks = inner ++ root :: outer ∧
          l.searched = inner ++ [root] ∧
          ∀ b ∈ l.searched, ∃ x, l.session.arena.block? b = some x ∧ x.isSealed = false ∧
            (x.isRoot = true ↔ b = root) := by
  refine ⟨Watched.run_steps names steps, fun l hl => ?_⟩
  obtain ⟨hreachable, hcurrent⟩ := Watched.orderly_steps steps {} .start l hl
  obtain ⟨inner, root, outer, hstack, hchain, hblocks⟩ := hreachable.ancestors_current hcurrent
  refine ⟨hcurrent, hreachable.good.distinct, rfl, inner, root, outer, hstack, hchain, ?_⟩
  unfold Lookup.searched
  rw [hchain]
  exact hblocks

/-- The loose statement `x` leaves a root open. In the module `function f() { x }` after it, `x` is
searched for in the body of the function, in the body of the module and in its unit block, and no
further, though the root is open below them. -/
theorem lookup_below_loose_root :
    let names : SymbolTable := ⟨["x", "f"]⟩
    let use : Statement := .expression (.identifier ⟨⟨0⟩, .synthetic⟩) .synthetic
    let f : FunctionDecl := ⟨⟨⟨1⟩, .synthetic⟩, [], [], none, ⟨[use], .synthetic⟩, .synthetic⟩
    let steps : List Step := [.statement use, .module ⟨[.functionDecl f], .synthetic⟩]
    ∃ l ∈ (Watched.steps names steps).lookups {},
      l.session.openBlocks = [⟨3⟩, ⟨2⟩, ⟨1⟩, ⟨0⟩] ∧ l.searched = [⟨3⟩, ⟨2⟩, ⟨1⟩] ∧
        l.session.current? = some l.start ∧ l.session.openBlocks.Nodup ∧
        ∃ x, l.session.arena.block? ⟨1⟩ = some x ∧ x.isSealed = false ∧ x.isRoot = true := by
  intro names use f steps
  have hmem : ([⟨3⟩, ⟨2⟩, ⟨1⟩, ⟨0⟩], [⟨3⟩, ⟨2⟩, ⟨1⟩]) ∈
      ((Watched.steps names steps).lookups {}).map
        fun l => (l.session.openBlocks, l.searched) := by decide +kernel
  obtain ⟨l, hl, heq⟩ := List.mem_map.1 hmem
  obtain ⟨hopen, hsearched⟩ := Prod.mk.inj heq
  obtain ⟨hcurrent, hdistinct, _, inner, root, outer, _, hchain, hblocks⟩ :=
    (lookups_search_open_blocks names steps).2 l hl
  obtain ⟨x, hx, hunsealed, hroot⟩ := hblocks ⟨1⟩ (by rw [hsearched]; simp)
  have hlast : (⟨1⟩ : BlockId) = root := by
    have hends := congrArg List.getLast? (hsearched.symm.trans hchain)
    simpa using hends
  exact ⟨l, hl, hopen, hsearched, hcurrent, hdistinct, x, hx, hunsealed, hroot.2 hlast⟩

end BlockLowering
