import BlockLowering.Proofs.Diagnostics
import BlockLowering.Proofs.Shift

/-!
# Two sessions in step

Two sessions that lower the same trees do the same things, one after the other. `Lockstep` lists what
a relation between their states has to do for this: every single operation of lowering keeps it, and
the second session gets the numbers of the first, shifted. By one mutual induction over the syntax
every piece of lowering then keeps the relation (`Lockstep.expression` to `Lockstep.statementList`).

The relation may depend on the blocks that were made but not opened yet. Two parameters say what it
can rely on. If it is `strict`, names and annotations are looked up only where they are known.
Functions are declared only in states that are `deep`; the inside of a new block always is.
-/

namespace BlockLowering

open IR Diagnostic Source Session

section

variable {names : SymbolTable} {R R' : Session → Session → Prop} {s t : Session}
  {α α' β β' : Type} {x : Lower α} {x' : Lower α'} {f : α → Lower β} {f' : α' → Lower β'}
  {g : α → α'} {k : β → β'}

/-- `x` and `x'`, started in `s` and `t`, end in related states, and the second result is the image
of the first. -/
def Twin (R : Session → Session → Prop) (s t : Session) (x : Lower α) (x' : Lower α') (g : α → α') :
    Prop :=
  (x'.run t).1 = g (x.run s).1 ∧ R (x.run s).2 (x'.run t).2

theorem Twin.pure {a : α} {a' : α'} (h : R s t) (ha : a' = g a) :
    Twin R s t (pure a) (pure a') g := ⟨ha, h⟩

/-- In a sequence the second parts start in related states, with related results. -/
theorem Twin.bind {mid mid' : α → Session → Prop} (hs : s.Good names anyNode)
    (hx : Does names anyNode 0 s x mid) (hx' : After s x mid') (htwin : Twin R s t x x' g)
    (hf : ∀ a s' t', s'.Good names anyNode → s.Frame 0 s' → mid a s' → mid' a s' → R s' t' →
      Twin R' s' t' (f a) (f' (g a)) k) :
    Twin R' s t (x >>= f) (x' >>= f') k := by
  obtain ⟨hs', hst⟩ := hx.1.good_frame hs
  obtain ⟨hval, hR⟩ := htwin
  have h := hf _ _ _ hs' hst hx.2 hx' hR
  unfold Twin at h ⊢
  rw [Lower.run_bind, Lower.run_bind, hval]
  exact h

end

/-- What makes a relation between two sessions hold in lockstep. The list holds the blocks of the
first session that are still to be opened. -/
structure Lockstep (names names' : SymbolTable) (r : Shift) (strict : Prop) (deep : Session → Prop)
    (rel : List BlockId → Session → Session → Prop) : Prop where
  currentBlock {p s t} (hs : s.Good names anyNode) (h : rel p s t) :
    Twin (rel p) s t Lower.currentBlock Lower.currentBlock (BlockId.shift r)
  reject {p s t} (h : rel p s t) (construct : String) (span : Span) :
    Twin (rel p) s t (Lower.reject construct span) (Lower.reject construct span) id
  resolveName {p s t} (hs : s.Good names anyNode) (h : rel p s t) (name : Ident)
    (known : strict → s.env.Has (names.resolve name.name)) :
    Twin (rel p) s t (Lower.resolveName names name) (Lower.resolveName names' name)
      (Option.map (DeclRef.shift r))
  ascription {p s t} (h : rel p s t) (written : Option Ascription)
    (known : strict → ∀ a ∈ written, a.Known names s.env.types) :
    Twin (rel p) s t (Lower.ascription? names written) (Lower.ascription? names' written) id
  freshTemp {p s t b} (hs : s.Good names anyNode) (h : rel p s t) (hb : s.current? = some b)
    (span : Span) :
    Twin (rel p) s t (Lower.freshTemp b span) (Lower.freshTemp (b.shift r) span) (DeclId.shift r)
  addDecl {p s t b kind} (hs : s.Good names anyNode) (h : rel p s t) (hb : s.current? = some b)
    (hkind : kind = .localVar ∨ kind = .param ∨ kind = .function ∧ deep s) (name : Ident)
    (type : Option TypeRef) (span : Span) :
    Twin (rel p) s t (Lower.addDecl b (names.resolve name.name) type kind span)
      (Lower.addDecl (b.shift r) (names'.resolve name.name) type kind span) (DeclId.shift r)
  linkHoisted {p s t b} (hs : s.Good names anyNode) (h : rel p s t) (hb : s.current? = some b)
    (hdeep : deep s) (name : Ident) (d : DeclId) :
    Twin (rel p) s t (Lower.linkHoisted b (names.resolve name.name) d)
      (Lower.linkHoisted (b.shift r) (names'.resolve name.name) (d.shift r)) id
  createChild {p s t b} (hs : s.Good names anyNode) (h : rel p s t) (hb : s.current? = some b)
    (span : Span) :
    Twin (rel (((Lower.createChild b span).run s).1 :: p)) s t (Lower.createChild b span)
      (Lower.createChild (b.shift r) span) (BlockId.shift r)
  addStmt {p s t b} (hs : s.Good names anyNode) (h : rel p s t) (hb : s.current? = some b)
    (stmt : Stmt) :
    Twin (rel p) s t (Lower.addStmt b stmt) (Lower.addStmt (b.shift r) (stmt.shift r)) id
  openBlock {p s t b c} (hs : s.Good names anyNode) (h : rel p s t) (hb : s.current? = some b)
    (hc : s.MayOpen c) (hp : s.arena.parent? c = some b) :
    Twin (rel p) s t (Lower.openBlock c) (Lower.openBlock (c.shift r)) id
  /-- A block is left that was opened in states that were related. -/
  closeBlock {p q s t u v b c} (hu : u.Good names anyNode) (h : rel p s t)
    (hb : s.current? = some b) (hc : s.MayOpen c)
    (frame : Frame s.arena.blocks.length ((Lower.openBlock c).run s).2 u) (h' : rel p u v)
    (hq : p ⊆ c :: q) :
    Twin (rel q) u v (Lower.closeBlock c) (Lower.closeBlock (c.shift r)) id
  deep_frame {p s t s'} (h : rel p s t) (hdeep : deep s) (frame : s.Frame 0 s') : deep s'
  deep_openBlock {p s t c} (h : rel p s t) (hc : s.MayOpen c) :
    deep ((Lower.openBlock c).run s).2

namespace Lockstep

variable {names names' : SymbolTable} {r : Shift} {strict : Prop} {deep : Session → Prop}
  {rel : List BlockId → Session → Session → Prop} {R : Session → Session → Prop}
  {p q : List BlockId} {s t : Session} {b c : BlockId} {β β' : Type} {k : β → β'}

/-! ## Sequences -/

section

variable (L : Lockstep names names' r strict deep rel) (hs : s.Good names anyNode) (h : rel p s t)

include L hs h

theorem bind_currentBlock {f : BlockId → Lower β} {f' : BlockId → Lower β'}
    (hf : ∀ b s' t', s'.Good names anyNode → s.Frame 0 s' → s'.current? = some b →
      s'.env = s.env → rel p s' t' → Twin R s' t' (f b) (f' (b.shift r)) k) :
    Twin R s t (Lower.currentBlock >>= f) (Lower.currentBlock >>= f') k :=
  .bind hs does_currentBlock (quiet_currentBlock hs) (L.currentBlock hs h)
    fun b s' t' hs' hst hb q hrel => hf b s' t' hs' hst hb q.env hrel

theorem bind_freshTemp (hb : s.current? = some b) (span : Span) {f : DeclId → Lower β}
    {f' : DeclId → Lower β'}
    (hf : ∀ d s' t', s'.Good names anyNode → s.Frame 0 s' → s'.arena.Sees b d → s'.env = s.env →
      rel p s' t' → Twin R s' t' (f d) (f' (d.shift r)) k) :
    Twin R s t (Lower.freshTemp b span >>= f) (Lower.freshTemp (b.shift r) span >>= f') k :=
  .bind hs (does_freshTemp hs hb span) (quiet_freshTemp hs hb span) (L.freshTemp hs h hb span)
    fun d s' t' hs' hst hd q hrel => hf d s' t' hs' hst hd q.env hrel

theorem bind_linkHoisted (hb : s.current? = some b) (hdeep : deep s) (name : Ident) (d : DeclId)
    {f : Unit → Lower β} {f' : Unit → Lower β'}
    (hf : ∀ s' t', s'.Good names anyNode → s.Frame 0 s' → s'.env = s.env → rel p s' t' →
      Twin R s' t' (f ()) (f' ()) k) :
    Twin R s t (Lower.linkHoisted b (names.resolve name.name) d >>= f)
      (Lower.linkHoisted (b.shift r) (names'.resolve name.name) (d.shift r) >>= f') k :=
  .bind hs (does_linkHoisted hb _ d) (quiet_linkHoisted hs hb _ d)
    (L.linkHoisted hs h hb hdeep name d) fun _ s' t' hs' hst _ q hrel => hf s' t' hs' hst q.env hrel

theorem bind_createChild (hb : s.current? = some b) (span : Span) {f : BlockId → Lower β}
    {f' : BlockId → Lower β'}
    (hf : ∀ c s' t', s'.Good names anyNode → s.Frame 0 s' → FreshChild s b c s' → opensAs s c s' →
      s'.env = s.env → rel (c :: p) s' t' → Twin R s' t' (f c) (f' (c.shift r)) k) :
    Twin R s t (Lower.createChild b span >>= f) (Lower.createChild (b.shift r) span >>= f') k := by
  have hchild : After s (Lower.createChild b span) fun c s' =>
      s'.env = s.env ∧ c = ((Lower.createChild b span).run s).1 :=
    ⟨(quiet_createChild hs hb span).env, rfl⟩
  refine .bind hs (does_createChild hs hb span) hchild (L.createChild hs h hb span)
    fun c s' t' hs' hst hc hnew hrel => ?_
  obtain ⟨henv, rfl⟩ := hnew
  exact hf _ s' t' hs' hst hc.1 hc.2 henv hrel

theorem bind_addStmt (hb : s.current? = some b) (stmt : Stmt)
    (hscope : s.arena.InScope (some b) stmt.refs stmt.blocks) {f : Unit → Lower β}
    {f' : Unit → Lower β'}
    (hf : ∀ s' t', s'.Good names anyNode → s.Frame 0 s' → opensAs s () s' → s'.env = s.env →
      rel p s' t' → Twin R s' t' (f ()) (f' ()) k) :
    Twin R s t (Lower.addStmt b stmt >>= f) (Lower.addStmt (b.shift r) (stmt.shift r) >>= f') k :=
  .bind hs (does_addStmt hs hb hscope) (quiet_addStmt hs hb hscope) (L.addStmt hs h hb stmt)
    fun _ s' t' hs' hst hopen q hrel => hf s' t' hs' hst hopen q.env hrel

theorem bind_elseBlock? (hb : s.current? = some b) (branch : Option Statement)
    {f : Option BlockId → Lower β} {f' : Option BlockId → Lower β'}
    (hf : ∀ e s' t', s'.Good names anyNode → s.Frame 0 s' →
      (∀ x, e = some x → FreshChild s b x s') → opensAs s e s' → e.isSome = branch.isSome →
      s'.env = s.env → rel (e.toList ++ p) s' t' →
        Twin R s' t' (f e) (f' (e.map (BlockId.shift r))) k) :
    Twin R s t (Lower.elseBlock? b branch >>= f) (Lower.elseBlock? (b.shift r) branch >>= f')
      k := by
  cases branch with
  | none => exact hf none s t hs (.refl 0 s) (fun _ hx => by cases hx) (fun _ he => he) rfl rfl h
  | some st =>
    show Twin R s t (Lower.createChild b st.span >>= fun c => f (some c))
      (Lower.createChild (b.shift r) st.span >>= fun c => f' (some c)) k
    refine L.bind_createChild hs h hb st.span fun c s' t' hs' hst hc hopen henv hrel => ?_
    refine hf (some c) s' t' hs' hst (fun x hx => ?_) hopen rfl henv hrel
    obtain rfl := Option.some.inj hx
    exact hc

/-- A problem is reported in both sessions and there is no value. -/
theorem reject_none {α α' : Type} {g : α → α'} (construct : String) (span : Span) :
    Twin (rel p) s t (do Lower.reject construct span; return none)
      (do Lower.reject construct span; return none) (Option.map g) :=
  .bind hs (does_reject construct span) (checked_reject s construct span)
    (L.reject h construct span) fun _ _ _ _ _ _ _ hrel => .pure hrel rfl

/-- Work inside a new child. -/
theorem inBlock {body body' : Lower Unit} (hb : s.current? = some b) (hc : s.MayOpen c)
    (hp : s.arena.parent? c = some b) (hq : p ⊆ c :: q)
    (hdoes : Does names anyNode s.arena.blocks.length ((Lower.openBlock c).run s).2 body anything)
    (hbody : ∀ u v, u.Good names anyNode → u.current? = some c → u.env = s.env.enter → deep u →
      rel p u v → Twin (rel p) u v body body' id) :
    Twin (rel q) s t (Lower.inBlock c body) (Lower.inBlock (c.shift r) body') id := by
  have hopen := hs.openBlock hc
  obtain ⟨hu, hsu⟩ := hdoes.1.good_frame hopen
  have hstart := (L.openBlock hs h hb hc hp).2
  have hwork := hbody _ _ hopen rfl (env_openBlock hs hc hp hb) (L.deep_openBlock h hc) hstart
  exact L.closeBlock hu h hb hc hsu hwork.2 hq

end

/-! ## Functions -/

section

variable (L : Lockstep names names' r strict deep rel)

include L

theorem parameter (hs : s.Good names anyNode) (h : rel p s t) (hb : s.current? = some b)
    (x : Parameter) (hwf : strict → x.WellFormed names s.env.types) :
    Twin (rel p) s t (Lower.parameter names b x) (Lower.parameter names' (b.shift r) x) id := by
  obtain ⟨kind, pattern, type, initial, span⟩ := x
  unfold Lower.parameter
  cases kind with
  | optional => exact L.reject h _ _
  | rest => exact L.reject h _ _
  | positional =>
    cases initial with
    | some e => exact L.reject h _ _
    | none =>
      cases pattern with
      | array => exact L.reject h _ _
      | object => exact L.reject h _ _
      | identifier name =>
        refine .bind hs (does_ascription? hs type) (checked_ascription? s type)
          (L.ascription h type fun hstrict => (hwf hstrict).type)
          fun type' s₁ t₁ hs₁ h₁ htype _ hrel => ?_
        have hnode : anyNode (.parameter ⟨.positional, .identifier name, type, none, span⟩) :=
          trivial
        refine .bind hs₁
          (does_addDecl hs₁ (h₁.current hb) (by simp) (annotated_of_names hnode rfl htype))
          (checked_addDecl hs₁ (h₁.current hb) (by simp) (annotated_of_names hnode rfl htype))
          (L.addDecl hs₁ hrel (h₁.current hb) (.inr (.inl rfl)) name type' span)
          fun _ _ _ _ _ _ _ hrel' => .pure hrel' rfl

theorem parameters (hs : s.Good names anyNode) (h : rel p s t) (hb : s.current? = some b)
    (params : List Parameter) (hwf : strict → ∀ x ∈ params, x.WellFormed names s.env.types) :
    Twin (rel p) s t (Lower.parameters names b params) (Lower.parameters names' (b.shift r) params)
      id := by
  induction params generalizing s t with
  | nil => exact .pure h rfl
  | cons x rest ih =>
    unfold Lower.parameters
    refine .bind hs (does_parameter hs hb trivial) (checked_parameter hs hb x)
      (L.parameter hs h hb x fun hstrict => hwf hstrict x List.mem_cons_self)
      fun _ s₁ t₁ hs₁ h₁ _ hx hrel => ?_
    refine ih hs₁ hrel (h₁.current hb) fun hstrict y hy => ?_
    rw [hx.env, Env.types_declareAll]
    exact hwf hstrict y (List.mem_cons_of_mem x hy)

theorem typeParameters (h : rel p s t) (params : List TypeParameter) :
    Twin (rel p) s t (Lower.typeParameters params) (Lower.typeParameters params) id := by
  unfold Lower.typeParameters
  cases typeParamsSpan? params with
  | some span => exact L.reject h _ _
  | none => exact .pure h rfl

/-- The body of a function, as its rule asks for it. -/
theorem functionBody {statements statements' : Lower Unit} {list : List Statement}
    (hs : s.Good names anyNode) (h : rel p s t) (hb : s.current? = some b) (hc : s.MayOpen c)
    (hp : s.arena.parent? c = some b) (hq : p ⊆ c :: q) (typeParams : List TypeParameter)
    (params : List Parameter)
    (hwf : strict → (∀ x ∈ params, x.WellFormed names s.env.types) ∧ StatementsWellFormed names
      (s.env.enter.declareAll (params.flatMap (Parameter.declared names))) list)
    (hdoes : AlwaysDoes names anyNode statements)
    (hbody : ∀ u v, u.Good names anyNode → deep u → rel p u v →
      (strict → StatementsWellFormed names u.env list) →
        Twin (rel p) u v statements statements' id) :
    Twin (rel q) s t (Lower.functionBody names c typeParams params statements)
      (Lower.functionBody names' (c.shift r) typeParams params statements') id := by
  unfold Lower.functionBody
  refine .bind hs (does_typeParameters typeParams) (checked_typeParameters s typeParams)
    (L.typeParameters h typeParams) fun _ s₁ t₁ hs₁ h₁ hopen htypes hrel => ?_
  have hc₁ := hopen c hc
  have hin := hs₁.openBlock hc₁
  have hwork : Does names anyNode s₁.arena.blocks.length ((Lower.openBlock c).run s₁).2
      (do Lower.parameters names c params; statements) anything := by
    refine .bind hin (does_parameters hin rfl fun _ _ => trivial) fun _ u hu hsu _ => ?_
    exact hdoes _ u hu hsu.arena.size
  refine L.inBlock hs₁ hrel (h₁.current hb) hc₁ (h₁.arena.parent_some hp) hq hwork
    fun u v hu hcur henv hdeep huv => ?_
  rw [htypes.env] at henv
  refine .bind hu (does_parameters hu hcur fun _ _ => trivial) (checked_parameters hu hcur params)
    (L.parameters hu huv hcur params fun hstrict => ?_) fun _ u' v' hu' huu' _ hparams huv' => ?_
  · rw [henv]
    exact (hwf hstrict).1
  · refine hbody u' v' hu' (L.deep_frame huv hdeep huu') huv' fun hstrict => ?_
    rw [hparams.env, henv]
    exact (hwf hstrict).2

end

/-! ## Expressions and statements -/

/-- An expression as the first part of a sequence: it has no value in either session, or it has one
in both. -/
theorem bind_value {e : Expression} {f : Option Expr → Lower β} {f' : Option Expr → Lower β'}
    (hs : s.Good names anyNode)
    (he : Twin (rel p) s t (Lower.expression names e) (Lower.expression names' e)
      (Option.map (Expr.shift r)))
    (hnone : ∀ s' t', rel p s' t' → Twin R s' t' (f none) (f' none) k)
    (hsome : ∀ v s' t', s'.Good names anyNode → s.Frame 0 s' →
      s'.arena.InScope s'.current? v.refs v.blocks → s'.env = s.env → rel p s' t' →
        Twin R s' t' (f (some v)) (f' (some (v.shift r))) k) :
    Twin R s t (Lower.expression names e >>= f) (Lower.expression names' e >>= f') k := by
  refine .bind hs (does_expression e (covers_anyNode _) 0 s hs (Nat.zero_le _))
    (checked_expression e s hs) he fun v s' t' hs' hst hscope hchecked hrel => ?_
  cases v with
  | none => exact hnone s' t' hrel
  | some v => exact hsome v s' t' hs' hst (hscope v rfl) hchecked.env hrel

/-- The rule that a statement has to satisfy; a brace group that is a branch needs no scope. -/
def Accepted (names : SymbolTable) (branch : Bool) (st : Statement) (env : Env) : Prop :=
  if branch then StatementsWellFormed names env st.branch else st.WellFormed names env

theorem Accepted.wellFormed {branch : Bool} {st : Statement} {env : Env}
    (h : Accepted names branch st env) (hst : st.branch = [st]) : st.WellFormed names env := by
  unfold Accepted at h
  cases branch with
  | false => exact h
  | true =>
    rw [if_pos rfl, hst] at h
    exact (statementsWellFormed_cons.1 h).1

mutual

theorem expression (L : Lockstep names names' r strict deep rel) (e : Expression)
    (p : List BlockId) (s t : Session) (hs : s.Good names anyNode) (h : rel p s t)
    (hwf : strict → e.WellFormed names s.env) :
    Twin (rel p) s t (Lower.expression names e) (Lower.expression names' e)
      (Option.map (Expr.shift r)) := by
  cases e with
  | int value span =>
    simp only [Lowering.expression]
    exact .pure h rfl
  | float value span =>
    simp only [Lowering.expression]
    exact .pure h rfl
  | identifier name =>
    simp only [Lowering.expression]
    have hknown : strict → s.env.Has (names.resolve name.name) := fun hstrict => by
      cases hwf hstrict with
      | identifier known => exact known
    refine .bind hs (does_resolveName hs name) (checked_resolveName hs name)
      (L.resolveName hs h name hknown) fun x s₁ t₁ _ _ _ _ hrel => .pure hrel ?_
    cases x <;> rfl
  | binary operator left right span =>
    simp only [Lowering.expression]
    cases operator.toIR? with
    | none => exact L.reject_none hs h _ _
    | some op =>
      have hparts := fun hstrict => (Expression.wellFormed_binary.1 (hwf hstrict)).2
      refine bind_value hs (L.expression left p s t hs h fun hstrict => (hparts hstrict).1)
        (fun _ _ hrel => .pure hrel rfl) fun lhs s₁ t₁ hs₁ _ _ henv₁ h₁ => ?_
      refine bind_value hs₁
        (L.expression right p s₁ t₁ hs₁ h₁ fun hstrict => henv₁ ▸ (hparts hstrict).2)
        (fun _ _ hrel => .pure hrel rfl) fun rhs s₂ t₂ _ _ _ _ h₂ => .pure h₂ rfl
  | assignment operator left right span =>
    cases operator with
    | assign =>
      simp only [Lowering.expression]
      have hparts := fun hstrict => (Expression.wellFormed_assignment.1 (hwf hstrict)).1
      refine L.bind_currentBlock hs h fun b s₁ t₁ hs₁ _ hb henv₁ h₁ => ?_
      refine L.bind_freshTemp hs₁ h₁ hb span fun temp s₂ t₂ hs₂ f₂ htemp henv₂ h₂ => ?_
      have hb₂ := f₂.current hb
      have henv := henv₂.trans henv₁
      refine bind_value hs₂
        (L.expression right p s₂ t₂ hs₂ h₂ fun hstrict => henv ▸ (hparts hstrict).1)
        (fun _ _ hrel => .pure hrel rfl) fun value s₃ t₃ hs₃ f₃ hvalue henv₃ h₃ => ?_
      have hb₃ := f₃.current hb₂
      have htemp₃ := f₃.arena.sees htemp
      rw [hb₃] at hvalue
      have hscope := (Arena.InScope.ref (r := ⟨temp, span⟩) htemp₃).append hvalue
      refine L.bind_addStmt hs₃ h₃ hb₃ (.assign ⟨temp, span⟩ value span) hscope
        fun s₄ t₄ hs₄ f₄ _ henv₄ h₄ => ?_
      have hb₄ := f₄.current hb₃
      have henv := henv₄.trans (henv₃.trans henv)
      refine bind_value hs₄
        (L.expression left p s₄ t₄ hs₄ h₄ fun hstrict => henv ▸ (hparts hstrict).2)
        (fun _ _ hrel => .pure hrel rfl) fun target s₅ t₅ hs₅ f₅ htarget _ h₅ => ?_
      cases target with
      | ref target =>
        have hb₅ := f₅.current hb₄
        rw [hb₅] at htarget
        have htemp₅ := f₅.arena.sees (f₄.arena.sees htemp₃)
        have hscope₅ := htarget.append (.ref (r := ⟨temp, span⟩) htemp₅)
        exact L.bind_addStmt hs₅ h₅ hb₅ (.assign target (.ref ⟨temp, span⟩) span) hscope₅
          fun s₆ t₆ _ _ _ _ h₆ => .pure h₆ rfl
      | int | float | binary | func | call => exact L.reject_none hs₅ h₅ _ _
    | addAssign | subtractAssign | multiplyAssign | divideAssign | moduloAssign =>
      simp only [Lowering.expression]
      exact L.reject_none hs h _ _
  | call callee typeArgs args span =>
    simp only [Lowering.expression]
    cases ascriptionsSpan? typeArgs with
    | some place => exact L.reject_none hs h _ _
    | none =>
      have hparts := fun hstrict => (Expression.wellFormed_call.1 (hwf hstrict)).2
      refine bind_value hs (L.expression callee p s t hs h fun hstrict => (hparts hstrict).1)
        (fun _ _ hrel => .pure hrel rfl) fun value s₁ t₁ hs₁ _ _ henv₁ h₁ => ?_
      refine .bind hs₁ (does_expressions args (covers_anyNode _) 0 s₁ hs₁ (Nat.zero_le _))
        (checked_expressions args s₁ hs₁)
        (L.expressions args p s₁ t₁ hs₁ h₁ fun hstrict => henv₁ ▸ (hparts hstrict).2)
        fun values s₂ t₂ _ _ _ _ h₂ => ?_
      cases values with
      | none => exact .pure h₂ rfl
      | some values => exact .pure h₂ rfl
  | function name typeParams params result body span =>
    simp only [Lowering.expression]
    have hrule := fun hstrict => (Expression.wellFormed_function.1 (hwf hstrict)).2
    refine L.bind_currentBlock hs h fun b s₁ t₁ hs₁ _ hb henv₁ h₁ => ?_
    refine L.bind_createChild hs₁ h₁ hb body.span fun c s₂ t₂ hs₂ f₂ hc _ henv₂ h₂ => ?_
    have hbody : AlwaysDoes names anyNode (Lower.group names body) :=
      does_group body (covers_anyNode _)
    have hb₂ := f₂.current hb
    refine .bind hs₂ (does_functionBody hs₂ hc.opens (Nat.zero_le _) (fun _ _ => trivial) hbody)
      (checked_functionBody hs₂ hb₂ hc.opens hc.parent typeParams params hbody (checked_group body))
      (L.functionBody hs₂ h₂ hb₂ hc.opens hc.parent (fun _ hx => hx) typeParams params
        (fun hstrict => henv₂.trans henv₁ ▸ hrule hstrict) hbody (L.group body _))
      fun _ s₃ t₃ _ _ _ _ h₃ => .pure h₃ rfl
  | parenthesized inner span =>
    simp only [Lowering.expression]
    refine L.expression inner p s t hs h fun hstrict => ?_
    cases hwf hstrict with
    | parenthesized inner_ok => exact inner_ok
  | string | template | boolean | null | this | super | array | object | unary | logical
  | conditional | member | index | new | comma | instanceOf | typeCast =>
    simp only [Lowering.expression]
    exact L.reject_none hs h _ _

theorem expressions (L : Lockstep names names' r strict deep rel) (es : List Expression)
    (p : List BlockId) (s t : Session) (hs : s.Good names anyNode) (h : rel p s t)
    (hwf : strict → ∀ e ∈ es, e.WellFormed names s.env) :
    Twin (rel p) s t (Lower.expressions names es) (Lower.expressions names' es)
      (Option.map (Expr.shiftAll r)) := by
  cases es with
  | nil =>
    simp only [Lowering.expressions]
    exact .pure h rfl
  | cons e rest =>
    simp only [Lowering.expressions]
    refine bind_value hs (L.expression e p s t hs h fun hstrict => hwf hstrict e List.mem_cons_self)
      (fun _ _ hrel => .pure hrel rfl) fun value s₁ t₁ hs₁ _ _ henv₁ h₁ => ?_
    have hrest : strict → ∀ e ∈ rest, e.WellFormed names s₁.env := by
      intro hstrict e he
      rw [henv₁]
      exact hwf hstrict e (List.mem_cons_of_mem _ he)
    refine .bind hs₁ (does_expressions rest (covers_anyNode _) 0 s₁ hs₁ (Nat.zero_le _))
      (checked_expressions rest s₁ hs₁) (L.expressions rest p s₁ t₁ hs₁ h₁ hrest)
      fun values s₂ t₂ _ _ _ _ h₂ => ?_
    cases values with
    | none => exact .pure h₂ rfl
    | some values => exact .pure h₂ rfl

theorem initialValue (L : Lockstep names names' r strict deep rel) (e : Option Expression)
    {b : BlockId} (target : DeclRef) (span : Span) (p : List BlockId) (s t : Session)
    (hs : s.Good names anyNode) (h : rel p s t) (hb : s.current? = some b)
    (hwf : strict → ∀ x ∈ e, x.WellFormed names s.env) :
    Twin (rel p) s t (Lower.initialValue names b target span e)
      (Lower.initialValue names' (b.shift r) (target.shift r) span e) id := by
  cases e with
  | none =>
    simp only [Lowering.initialValue]
    exact .pure h rfl
  | some e =>
    simp only [Lowering.initialValue]
    refine bind_value hs (L.expression e p s t hs h fun hstrict => hwf hstrict e rfl)
      (fun _ _ hrel => .pure hrel rfl) fun value s₁ t₁ hs₁ f₁ hvalue _ h₁ => ?_
    exact L.addStmt hs₁ h₁ (f₁.current hb) (.assign target value span)

theorem variableDecl (L : Lockstep names names' r strict deep rel) (d : VariableDecl)
    (p : List BlockId) (s t : Session) (hs : s.Good names anyNode) (h : rel p s t)
    (hwf : strict → (Statement.variableDecl d).WellFormed names s.env) :
    Twin (rel p) s t (Lower.variableDecl names d) (Lower.variableDecl names' d) id := by
  obtain ⟨kind, pattern, type, initial, span⟩ := d
  cases pattern with
  | identifier name =>
    simp only [Lowering.variableDecl]
    have hparts := fun hstrict => Statement.wellFormed_variableDecl.1 (hwf hstrict)
    refine .bind hs (does_ascription? hs type) (checked_ascription? s type)
      (L.ascription h type fun hstrict => (hparts hstrict).1)
      fun type' s₁ t₁ hs₁ _ htype hc₁ h₁ => ?_
    refine L.bind_currentBlock hs₁ h₁ fun b s₂ t₂ hs₂ f₂ hb henv₂ h₂ => ?_
    have htyped : ∀ x, type' = some x → ∃ w, type = some w ∧ Names names s₂.arena w x := by
      intro x hx
      obtain ⟨w, hw, head, nameSpan, place, decl, rfl, hdecl, hname⟩ := htype x hx
      exact ⟨_, hw, head, nameSpan, place, decl, rfl, f₂.arena.typeDecl hdecl, hname⟩
    have hnode : anyNode (.statement (.variableDecl ⟨kind, .identifier name, type, initial, span⟩)) :=
      trivial
    refine .bind hs₂ (does_addDecl hs₂ hb (by simp) (annotated_of_names hnode rfl htyped))
      (checked_addDecl hs₂ hb (by simp) (annotated_of_names hnode rfl htyped))
      (L.addDecl hs₂ h₂ hb (.inl rfl) name type' span) fun d s₃ t₃ hs₃ f₃ _ hc₃ h₃ => ?_
    refine L.initialValue initial ⟨d, name.span⟩ span p s₃ t₃ hs₃ h₃ (f₃.current hb)
      fun hstrict => ?_
    rw [hc₃.env, henv₂, hc₁.env]
    exact (hparts hstrict).2
  | array | object =>
    simp only [Lowering.variableDecl]
    exact L.reject h _ _

theorem functionDecl (L : Lockstep names names' r strict deep rel) (d : FunctionDecl)
    (p : List BlockId) (s t : Session) (hs : s.Good names anyNode) (h : rel p s t) (hdeep : deep s)
    (hwf : strict → (Statement.functionDecl d).WellFormed names s.env) :
    Twin (rel p) s t (Lower.functionDecl names d) (Lower.functionDecl names' d) id := by
  obtain ⟨name, typeParams, params, result, body, span⟩ := d
  simp only [Lowering.functionDecl]
  have hrule := fun hstrict => (Statement.wellFormed_functionDecl.1 (hwf hstrict)).2
  refine L.bind_currentBlock hs h fun b s₁ t₁ hs₁ f₁ hb henv₁ h₁ => ?_
  have hdeep₁ := L.deep_frame h hdeep f₁
  have hann : ∀ x : TypeRef, none = some x → ∃ n, anyNode n ∧ s₁.arena.Annotated names
      ⟨names.resolve name.name, none, .function, b, name.span⟩ x n := by
    intro x hx
    cases hx
  refine .bind hs₁ (does_addDecl hs₁ hb (by simp) hann) (checked_addDecl hs₁ hb (by simp) hann)
    (L.addDecl hs₁ h₁ hb (.inr (.inr ⟨rfl, hdeep₁⟩)) name none name.span)
    fun d s₂ t₂ hs₂ f₂ hsees hc₂ h₂ => ?_
  have hb₂ := f₂.current hb
  refine L.bind_linkHoisted hs₂ h₂ hb₂ (L.deep_frame h₁ hdeep₁ f₂) name d
    fun s₃ t₃ hs₃ f₃ henv₃ h₃ => ?_
  have hb₃ := f₃.current hb₂
  refine L.bind_createChild hs₃ h₃ hb₃ body.span fun c s₄ t₄ hs₄ f₄ hc _ henv₄ h₄ => ?_
  have hb₄ := f₄.current hb₃
  have hsees₄ := f₄.arena.sees (f₃.arena.sees hsees)
  have hscope := (Arena.InScope.ref (r := ⟨d, name.span⟩) hsees₄).append (.block hc.parent)
  refine L.bind_addStmt hs₄ h₄ hb₄ (.assign ⟨d, name.span⟩ (.func c span) span) hscope
    fun s₅ t₅ hs₅ f₅ hopen henv₅ h₅ => ?_
  refine L.functionBody hs₅ h₅ (f₅.current hb₄) (hopen c hc.opens) (f₅.arena.parent_some hc.parent)
    (fun _ hx => hx) typeParams params (fun hstrict => ?_) (does_group body (covers_anyNode _))
    (L.group body _)
  rw [henv₅, henv₄, henv₃, hc₂.env, henv₁, Env.types_declare]
  exact hrule hstrict

theorem group (L : Lockstep names names' r strict deep rel) (g : Source.Block)
    (p : List BlockId) (s t : Session) (hs : s.Good names anyNode) (hdeep : deep s) (h : rel p s t)
    (hwf : strict → StatementsWellFormed names s.env g.statements) :
    Twin (rel p) s t (Lower.group names g) (Lower.group names' g) id := by
  obtain ⟨statements, span⟩ := g
  simp only [Lowering.group]
  exact L.statementList statements p s t hs hdeep h hwf

theorem statementAt (L : Lockstep names names' r strict deep rel) (branch : Bool)
    (st : Statement) (p : List BlockId) (s t : Session) (hs : s.Good names anyNode)
    (h : rel p s t) (hbranch : branch = true → deep s)
    (hfunction : ∀ d, st = .functionDecl d → deep s)
    (hwf : strict → Accepted names branch st s.env) :
    Twin (rel p) s t (Lower.statementAt names branch st) (Lower.statementAt names' branch st)
      id := by
  cases st with
  | variableDecl d =>
    simp only [Lowering.statementAt]
    exact L.variableDecl d p s t hs h fun hstrict => (hwf hstrict).wellFormed rfl
  | functionDecl d =>
    simp only [Lowering.statementAt]
    exact L.functionDecl d p s t hs h (hfunction d rfl) fun hstrict => (hwf hstrict).wellFormed rfl
  | namespaceDecl name members span =>
    simp only [Lowering.statementAt]
    refine L.bind_currentBlock hs h fun b s₁ t₁ hs₁ _ hb henv₁ h₁ => ?_
    refine L.bind_createChild hs₁ h₁ hb span fun c s₂ t₂ hs₂ f₂ hc _ henv₂ h₂ => ?_
    refine L.inBlock hs₂ h₂ (f₂.current hb) hc.opens hc.parent (fun _ hx => hx)
      (does_statementList members (covers_anyNode _) _ _ (hs₂.openBlock hc.opens) (Nat.le_refl _))
      fun u v hu _ henv hdeep huv => ?_
    refine L.statementList members _ u v hu hdeep huv fun hstrict => ?_
    rw [henv, henv₂, henv₁]
    cases (hwf hstrict).wellFormed rfl with
    | namespaceDecl members_ok => exact members_ok
  | expression value span =>
    simp only [Lowering.statementAt]
    have hvalue : strict → value.WellFormed names s.env := by
      intro hstrict
      cases (hwf hstrict).wellFormed rfl with
      | expression value_ok => exact value_ok
    refine bind_value hs (L.expression value p s t hs h hvalue) (fun _ _ hrel => .pure hrel rfl)
      fun v s₁ t₁ hs₁ _ hscope _ h₁ => ?_
    refine L.bind_currentBlock hs₁ h₁ fun b s₂ t₂ hs₂ _ hb _ h₂ => ?_
    exact L.addStmt hs₂ h₂ hb (.drop v span)
  | ifElse condition thenBranch elseBranch span =>
    simp only [Lowering.statementAt]
    have hrule := fun hstrict => Statement.wellFormed_ifElse.1 ((hwf hstrict).wellFormed rfl)
    refine bind_value hs (L.expression condition p s t hs h fun hstrict => (hrule hstrict).1)
      (fun _ _ hrel => .pure hrel rfl) fun cond s₁ t₁ hs₁ _ hscope henv₁ h₁ => ?_
    refine L.bind_currentBlock hs₁ h₁ fun b s₂ t₂ hs₂ f₂ hb henv₂ h₂ => ?_
    refine L.bind_createChild hs₂ h₂ hb thenBranch.span fun c s₃ t₃ hs₃ f₃ hc _ henv₃ h₃ => ?_
    have hb₃ := f₃.current hb
    refine L.bind_elseBlock? hs₃ h₃ hb₃ elseBranch
      fun e s₄ t₄ hs₄ f₄ he hopens hsome henv₄ h₄ => ?_
    have hb₄ := f₄.current hb₃
    have hcond := f₄.inScope (f₃.inScope (f₂.inScope hscope))
    rw [hb₄] at hcond
    have hbranches : s₄.arena.InScope (some b) [] (c :: e.toList) := by
      refine ⟨by simp, fun x hx => ⟨b, rfl, ?_⟩⟩
      rcases List.mem_cons.1 hx with rfl | hx
      · exact f₄.arena.parent_some hc.parent
      · exact (he x (Option.mem_toList.1 hx)).parent
    refine L.bind_addStmt hs₄ h₄ hb₄ (.ifElse cond c e span) (hbranches.append hcond)
      fun s₅ t₅ hs₅ f₅ hopen henv₅ h₅ => ?_
    have hb₅ := f₅.current hb₄
    have hc₅ := hopen c (hopens c hc.opens)
    have hparent : ∀ x ∈ c :: e.toList, s₅.arena.parent? x = some b := by
      intro x hx
      obtain ⟨_, hb', hx⟩ := hbranches.blocks x hx
      rw [hb']
      exact f₅.arena.parent_some hx
    have hthen : Does names anyNode s₅.arena.blocks.length ((Lower.openBlock c).run s₅).2
        (Lower.statementAt names true thenBranch) anything :=
      does_statementAt true thenBranch trivial (covers_anyNode _) _ _ (hs₅.openBlock hc₅)
        (Nat.le_refl _)
    -- The block of the `then` branch is closed first; the other one still waits.
    have hwaiting : e.toList ++ c :: p ⊆ c :: (e.toList ++ p) := by
      intro x hx
      simp only [List.mem_append, List.mem_cons] at hx ⊢
      tauto
    have henv : s₅.env = s.env := by rw [henv₅, henv₄, henv₃, henv₂, henv₁]
    refine .bind hs₅ (does_inBlock hs₅ hc₅ (Nat.zero_le _) hthen)
      (env_inBlock hs₅ hb₅ hc₅ (hparent c List.mem_cons_self) hthen)
      (L.inBlock hs₅ h₅ hb₅ hc₅ (hparent c List.mem_cons_self) hwaiting hthen
        fun u v hu _ hin hdeep huv => L.statementAt true thenBranch _ u v hu huv (fun _ => hdeep)
          (fun _ _ => hdeep) fun hstrict => ?_) fun _ s₆ t₆ hs₆ f₆ hopen₆ henv₆ h₆ => ?_
    · rw [hin, henv]
      exact (hrule hstrict).2.1
    refine L.elseBody e elseBranch p s₆ t₆ hs₆ h₆ (f₆.current hb₅) hsome (fun x hx => ?_)
      fun hstrict => ?_
    · have hx' := he x hx
      have hidx := hx'.index
      have hlt := hc.opens.index_lt
      refine ⟨hopen₆ x (hopen x hx'.opens) ?_, f₆.arena.parent_some (hparent x ?_)⟩
      · rintro rfl
        omega
      · rw [hx]
        simp
    · rw [henv₆, henv]
      exact (hrule hstrict).2.2
  | whileLoop condition body span =>
    simp only [Lowering.statementAt]
    have hrule := fun hstrict => Statement.wellFormed_whileLoop.1 ((hwf hstrict).wellFormed rfl)
    refine bind_value hs (L.expression condition p s t hs h fun hstrict => (hrule hstrict).1)
      (fun _ _ hrel => .pure hrel rfl) fun cond s₁ t₁ hs₁ _ hscope henv₁ h₁ => ?_
    refine L.bind_currentBlock hs₁ h₁ fun b s₂ t₂ hs₂ f₂ hb henv₂ h₂ => ?_
    refine L.bind_createChild hs₂ h₂ hb body.span fun c s₃ t₃ hs₃ f₃ hc _ henv₃ h₃ => ?_
    have hb₃ := f₃.current hb
    have hcond := f₃.inScope (f₂.inScope hscope)
    rw [hb₃] at hcond
    have hstmt := (Arena.InScope.block hc.parent).append hcond
    refine L.bind_addStmt hs₃ h₃ hb₃ (.whileLoop cond c span) hstmt
      fun s₄ t₄ hs₄ f₄ hopen henv₄ h₄ => ?_
    have hc₄ := hopen c hc.opens
    refine L.inBlock hs₄ h₄ (f₄.current hb₃) hc₄ (f₄.arena.parent_some hc.parent) (fun _ hx => hx)
      (does_statementAt true body trivial (covers_anyNode _) _ _ (hs₄.openBlock hc₄)
        (Nat.le_refl _))
      fun u v hu _ henv hdeep huv => ?_
    refine L.statementAt true body _ u v hu huv (fun _ => hdeep) (fun _ _ => hdeep)
      fun hstrict => ?_
    rw [henv, henv₄, henv₃, henv₂, henv₁]
    exact (hrule hstrict).2
  | block braces =>
    simp only [Lowering.statementAt]
    cases branch with
    | true => exact L.group braces p s t hs (hbranch rfl) h hwf
    | false =>
      refine L.bind_currentBlock hs h fun b s₁ t₁ hs₁ _ hb henv₁ h₁ => ?_
      refine L.bind_createChild hs₁ h₁ hb braces.span fun c s₂ t₂ hs₂ f₂ hc _ henv₂ h₂ => ?_
      refine L.inBlock hs₂ h₂ (f₂.current hb) hc.opens hc.parent (fun _ hx => hx)
        (does_group braces (covers_anyNode _) _ _ (hs₂.openBlock hc.opens) (Nat.le_refl _))
        fun u v hu _ henv hdeep huv => ?_
      refine L.group braces _ u v hu hdeep huv fun hstrict => ?_
      rw [henv, henv₂, henv₁]
      cases hwf hstrict with
      | block statements_ok => exact statements_ok
  | empty span =>
    simp only [Lowering.statementAt]
    exact .pure h rfl
  | classDecl | typeAlias | importDecl | exportDecl | switch | doWhile | forLoop | forOf | breakTo
  | continueTo | returnValue | throwValue | tryCatch =>
    simp only [Lowering.statementAt]
    exact L.reject h _ _

theorem elseBody (L : Lockstep names names' r strict deep rel) (e : Option BlockId)
    (branch : Option Statement) {b : BlockId} (p : List BlockId) (s t : Session)
    (hs : s.Good names anyNode) (h : rel (e.toList ++ p) s t) (hb : s.current? = some b)
    (hsome : e.isSome = branch.isSome)
    (he : ∀ x, e = some x → s.MayOpen x ∧ s.arena.parent? x = some b)
    (hwf : strict → ∀ st ∈ branch, StatementsWellFormed names s.env.enter st.branch) :
    Twin (rel p) s t (Lower.elseBody names e branch)
      (Lower.elseBody names' (e.map (BlockId.shift r)) branch) id := by
  cases branch with
  | none =>
    cases e with
    | none =>
      simp only [Option.map_none, Lowering.elseBody]
      exact .pure h rfl
    | some x => cases hsome
  | some st =>
    cases e with
    | none => cases hsome
    | some x =>
      simp only [Option.map_some, Lowering.elseBody]
      obtain ⟨hx, hp⟩ := he x rfl
      refine L.inBlock hs h hb hx hp (fun _ hy => hy) (does_statementAt true st trivial
        (covers_anyNode _) _ _ (hs.openBlock hx) (Nat.le_refl _)) fun u v hu _ henv hdeep huv => ?_
      refine L.statementAt true st _ u v hu huv (fun _ => hdeep) (fun _ _ => hdeep)
        fun hstrict => ?_
      rw [henv]
      exact hwf hstrict st rfl

theorem statementList (L : Lockstep names names' r strict deep rel) (sts : List Statement)
    (p : List BlockId) (s t : Session) (hs : s.Good names anyNode) (hdeep : deep s) (h : rel p s t)
    (hwf : strict → StatementsWellFormed names s.env sts) :
    Twin (rel p) s t (Lower.statementList names sts) (Lower.statementList names' sts) id := by
  cases sts with
  | nil =>
    simp only [Lowering.statementList]
    exact .pure h rfl
  | cons st rest =>
    simp only [Lowering.statementList]
    have hrule := fun hstrict => statementsWellFormed_cons.1 (hwf hstrict)
    refine .bind hs (does_statementAt false st trivial (covers_anyNode _) 0 s hs (Nat.zero_le _))
      (checked_statementAt false st s hs)
      (L.statementAt false st p s t hs h (fun _ => hdeep) (fun _ _ => hdeep)
        fun hstrict => (hrule hstrict).1) fun _ s₁ t₁ hs₁ f₁ _ hst h₁ => ?_
    refine L.statementList rest p s₁ t₁ hs₁ (L.deep_frame h hdeep f₁) h₁ fun hstrict => ?_
    rw [Checked.env hst]
    exact (hrule hstrict).2

end

end Lockstep

end BlockLowering
