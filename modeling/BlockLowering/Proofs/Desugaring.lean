import BlockLowering.Proofs.NamesInForce

/-!
# Desugaring of expressions

`Desugars` relates an expression to what lowering makes of it: the statements that it appends to the
innermost open block, and the value that is left. An assignment is lifted out of the expression: its
value goes to a temporary, the temporary to the target, and a use of the temporary stays behind.
Every expression that lowering accepts is desugared in this way (`desugars_expression`).
-/

namespace BlockLowering

open IR Diagnostic Source Session

/-! ## Appended statements -/

namespace IR.Arena

variable {a a' : Arena} {d : DeclId}

/-- The declaration is there and is a temporary. -/
def isTemporary (a : Arena) (d : DeclId) : Bool := (a.decl? d).any Decl.isTemporary

/-- A declaration stays what it is. -/
theorem Grows.isTemporary_eq {x : Decl} (g : Grows a a') (hx : a.decl? d = some x) :
    a'.isTemporary d = a.isTemporary d := by
  obtain ⟨y, hy, hxy⟩ := g.decl d x hx
  unfold Arena.isTemporary
  rw [hx, hy, Option.any_some, Option.any_some, hxy.isTemporary_eq]

theorem Grows.isTemporary (g : Grows a a') (h : a.isTemporary d = true) :
    a'.isTemporary d = true := by
  obtain ⟨x, hx, _⟩ := (Option.any_eq_true _ _).1 h
  rw [g.isTemporary_eq hx, h]

end IR.Arena

namespace Session

variable {names : SymbolTable} {src : Node → Prop} {s t u : Session} {b c : BlockId}
  {new more : List Stmt}

/-- The statements of the innermost open block. -/
def currentStmts (s : Session) : List Stmt :=
  ((s.current?.bind s.arena.block?).map Block.stmts).getD []

/-- The declaration that an identifier means, as the innermost open block sees it. -/
def means (names : SymbolTable) (s : Session) (id : Ident) : Option DeclId :=
  s.current?.bind fun b => s.arena.lookup? b (names.resolve id.name)

theorem means_eq (id : Ident) :
    s.means names id = Arena.meaning? s.bindings (names.resolve id.name) := by
  unfold means
  cases hb : s.current? with
  | none =>
    unfold bindings
    rw [hb]
    rfl
  | some b => exact lookup?_eq hb

/-- From `s` to `t` the names keep their meaning, and `new` statements are appended to the innermost
open block. -/
structure Appends (new : List Stmt) (s t : Session) : Prop where
  bindings : t.bindings = s.bindings
  stmts : t.currentStmts = s.currentStmts ++ new

theorem Appends.trans (h : Appends new s t) (h' : Appends more t u) :
    Appends (new ++ more) s u where
  bindings := h'.bindings.trans h.bindings
  stmts := by rw [h'.stmts, h.stmts, List.append_assoc]

theorem Appends.means (h : Appends new s t) : t.means names = s.means names := by
  funext id
  rw [means_eq, means_eq, h.bindings]

/-- A name never means a temporary. -/
theorem means_isTemporary {id : Ident} {d : DeclId} (h : s.means names id = some d) :
    ∃ x, s.arena.decl? d = some x ∧ s.arena.isTemporary d = false := by
  rw [means_eq] at h
  unfold Arena.meaning? at h
  obtain ⟨scope, hscope, hd⟩ := List.exists_of_findSome?_eq_some h
  obtain ⟨binding, hfound, rfl⟩ := Option.map_eq_some_iff.1 hd
  have hmem := List.mem_of_find?_eq_some hfound
  cases hb : s.current? with
  | none =>
    unfold bindings at hscope
    rw [hb] at hscope
    rw [List.mem_singleton.1 hscope] at hmem
    cases hmem
  | some b =>
    rw [bindings_eq_of_current? hb] at hscope
    obtain ⟨c, _, rfl⟩ := List.mem_map.1 hscope
    obtain ⟨d, _, hbinding⟩ := List.mem_filterMap.1 hmem
    rw [Arena.snd_of_bindingOf? hbinding]
    unfold Arena.bindingOf? at hbinding
    obtain ⟨x, hx, hnamed⟩ := Option.bind_eq_some_iff.1 hbinding
    refine ⟨x, hx, ?_⟩
    unfold Arena.isTemporary
    rw [hx, Option.any_some]
    by_contra htemp
    rw [if_pos (by simpa using htemp)] at hnamed
    cases hnamed

theorem currentStmts_eq {x : IR.Block} (hb : s.current? = some b) (hx : s.arena.block? b = some x) :
    s.currentStmts = x.stmts := by
  unfold currentStmts
  rw [hb, Option.bind_some, hx]
  rfl

/-- A block that keeps its statements. -/
theorem Appends.of_block {x y : IR.Block} (hs : s.current? = some b) (ht : t.current? = some b)
    (hx : s.arena.block? b = some x) (hy : t.arena.block? b = some y)
    (hstmts : y.stmts = x.stmts ++ new) (hbindings : t.bindings = s.bindings) :
    Appends new s t where
  bindings := hbindings
  stmts := by rw [currentStmts_eq hs hx, currentStmts_eq ht hy, hstmts]

theorem appends_addStmt (hs : s.Good names src) (hb : s.current? = some b) {stmt : Stmt}
    (h : s.arena.InScope (some b) stmt.refs stmt.blocks) :
    After s (Lower.addStmt b stmt) fun _ t => Appends [stmt] s t := by
  obtain ⟨x, hx, ho⟩ := hs.current hb
  have hbindings := bindings_addStmt hs hb h
  unfold After
  rw [Lower.run_addStmt hx ho] at hbindings ⊢
  refine .of_block (y := { x with stmts := x.stmts ++ [stmt] }) hb hb hx ?_ rfl hbindings
  show (s.arena.withStmt b stmt).block? b = _
  unfold Arena.withStmt
  rw [Arena.block?_updateBlock, if_pos rfl, hx]
  rfl

theorem appends_createChild (hs : s.Good names src) (hb : s.current? = some b) (span : Span) :
    After s (Lower.createChild b span) fun _ t => Appends [] s t := by
  obtain ⟨x, hx, _⟩ := hs.current hb
  have hlt := Arena.index_lt_of_block? hx
  have hbindings := bindings_createChild hs hb span
  unfold After
  rw [Lower.run_createChild hx] at hbindings ⊢
  refine .of_block (y := { x with children := x.children ++ [⟨s.arena.blocks.length⟩] }) hb hb hx ?_
    (by simp) hbindings
  show (s.arena.withChild b span).block? b = _
  unfold Arena.withChild
  rw [Arena.block?_updateBlock, if_pos rfl, Arena.block?_allocBlock, if_neg (by omega), hx]
  rfl

theorem appends_freshTemp (hs : s.Good names src) (hb : s.current? = some b) (span : Span) :
    After s (Lower.freshTemp b span) fun d t => Appends [] s t ∧ t.arena.isTemporary d = true := by
  obtain ⟨x, hx, ho⟩ := hs.current hb
  have hbindings := bindings_freshTemp hs hb span
  unfold After
  rw [Lower.run_freshTemp hx ho] at hbindings ⊢
  refine ⟨.of_block (y := { x with decls := x.decls ++ [⟨s.arena.decls.length⟩] }) hb hb hx ?_
    (by simp) hbindings, ?_⟩
  · show (s.arena.withDecl b (Lower.tempDecl s b span)).block? b = _
    have hx' : ({ s.arena with decls := s.arena.decls ++ [Lower.tempDecl s b span] } :
        Arena).block? b = some x := hx
    unfold Arena.withDecl
    rw [Arena.block?_updateBlock, if_pos rfl, hx']
    rfl
  · show (s.arena.withDecl b (Lower.tempDecl s b span)).isTemporary ⟨s.arena.decls.length⟩ = _
    unfold Arena.isTemporary Arena.withDecl
    rw [Arena.decl?_updateBlock, Arena.decl?_pushDecl, if_pos rfl]
    rfl

theorem appends_currentBlock (s : Session) :
    After s Lower.currentBlock fun _ t => Appends [] s t := by
  refine ⟨bindings_currentBlock s, ?_⟩
  cases hb : s.current? with
  | some b => rw [Lower.run_currentBlock_some hb, List.append_nil]
  | none =>
    have hnil : s.openBlocks = [] := List.head?_eq_none_iff.1 hb
    have hroot : (s.arena.createRoot .synthetic).1.block? ⟨s.arena.blocks.length⟩ =
        some (.fresh ⟨s.arena.blocks.length⟩ none .synthetic) :=
      (Arena.block?_allocBlock _ _ _ _).trans (if_pos rfl)
    rw [Lower.run_currentBlock_none hnil, currentStmts_eq rfl hroot]
    unfold currentStmts
    rw [hb]
    rfl

/-- Work inside a new child appends nothing to the block around it. -/
theorem appends_inBlock {body : Lower Unit} (hs : s.Good names src) (hb : s.current? = some b)
    (hc : s.MayOpen c) (hp : s.arena.parent? c = some b)
    (hbody : Does names src s.arena.blocks.length ((Lower.openBlock c).run s).2 body anything) :
    After s (Lower.inBlock c body) fun _ t => Appends [] s t := by
  have hopen := hs.openBlock hc
  obtain ⟨ht, hst⟩ := hbody.1.good_frame hopen
  obtain ⟨x, hx, _⟩ := hs.current hb
  have hlt := Arena.index_lt_of_block? hx
  have hbc := hs.arena.parents c b hp
  have hne : b ≠ c := by
    rintro rfl
    omega
  have hblock := hst.block?_closeBlock ht hne hlt hlt
  have hcur := ((hst.mono (Nat.zero_le _)).within (Nat.zero_le _) ht).current hb
  exact .of_block hb hcur hx (hblock.trans hx) (by simp) (bindings_closeBlock hs hb hc hp ht hst)

theorem appends_typeParameters (s : Session) (params : List TypeParameter) :
    After s (Lower.typeParameters params) fun _ t => Appends [] s t := by
  cases params with
  | nil => exact ⟨rfl, (List.append_nil _).symm⟩
  | cons p rest => exact ⟨rfl, (List.append_nil _).symm⟩

theorem appends_functionBody (hs : s.Good names anyNode) (hb : s.current? = some b)
    (hc : s.MayOpen c) (hp : s.arena.parent? c = some b) (typeParams : List TypeParameter)
    (params : List Parameter) {statements : Lower Unit}
    (hbody : AlwaysDoes names anyNode statements) :
    After s (Lower.functionBody names c typeParams params statements) fun _ t =>
      Appends [] s t := by
  unfold Lower.functionBody
  refine .bind hs (does_typeParameters typeParams) (appends_typeParameters s typeParams)
    fun _ t ht hst hopen htypes => ?_
  have hopened := ht.openBlock (hopen c hc)
  have hp' := hst.arena.parent_some hp
  refine htypes.trans (appends_inBlock ht (hst.current hb) (hopen c hc) hp' ?_)
  refine .bind hopened (does_parameters hopened rfl fun _ _ => trivial) fun _ u hu huv _ => ?_
  exact hbody _ u hu huv.arena.size

end Session

/-! ## Desugaring -/

mutual

/-- How many assignments an expression makes, of the forms that can be lowered. Those in the body
of a function are not its own. -/
def Source.Expression.assignments : Expression → Nat
  | .binary _ left right _ => left.assignments + right.assignments
  | .assignment _ left right _ => right.assignments + left.assignments + 1
  | .call callee _ args _ => callee.assignments + Expression.assignmentsAll args
  | .parenthesized inner _ => inner.assignments
  | _ => 0

def Source.Expression.assignmentsAll : List Expression → Nat
  | [] => 0
  | e :: rest => e.assignments + Expression.assignmentsAll rest

end

def IR.Stmt.isAssign : Stmt → Bool
  | .assign .. => true
  | _ => false

mutual

/-- What an expression becomes: statements to run first, and a value. Identifiers become uses of
what they mean, and every assignment has a temporary. -/
inductive Desugars (means : Ident → Option DeclId) (temporary : DeclId → Bool) :
    Expression → List Stmt → Expr → Prop
  | int {value span} : Desugars means temporary (.int value span) [] (.int value span)
  | float {value span} : Desugars means temporary (.float value span) [] (.float value span)
  | identifier {id d} (found : means id = some d) :
      Desugars means temporary (.identifier id) [] (.ref ⟨d, id.span⟩)
  | binary {operator op left right span l r lhs rhs} (known : operator.toIR? = some op)
      (first : Desugars means temporary left l lhs)
      (second : Desugars means temporary right r rhs) :
      Desugars means temporary (.binary operator left right span) (l ++ r) (.binary op lhs rhs span)
  | assignment {left right span l r value target temp} (fresh : temporary temp = true)
      (first : Desugars means temporary right r value)
      (second : Desugars means temporary left l (.ref target)) :
      Desugars means temporary (.assignment .assign left right span)
        (r ++ ([.assign ⟨temp, span⟩ value span] ++
          (l ++ [.assign target (.ref ⟨temp, span⟩) span]))) (.ref ⟨temp, span⟩)
  | call {callee args span l r f values} (first : Desugars means temporary callee l f)
      (rest : DesugarsAll means temporary args r values) :
      Desugars means temporary (.call callee [] args span) (l ++ r) (.call f values span)
  | function {name typeParams params result body span block} :
      Desugars means temporary (.function name typeParams params result body span) []
        (.func block span)
  | parenthesized {inner span l v} (inside : Desugars means temporary inner l v) :
      Desugars means temporary (.parenthesized inner span) l v

/-- Expressions one after another. -/
inductive DesugarsAll (means : Ident → Option DeclId) (temporary : DeclId → Bool) :
    List Expression → List Stmt → List Expr → Prop
  | nil : DesugarsAll means temporary [] [] []
  | cons {e rest l r v vs} (first : Desugars means temporary e l v)
      (others : DesugarsAll means temporary rest r vs) :
      DesugarsAll means temporary (e :: rest) (l ++ r) (v :: vs)

end

section

variable {names : SymbolTable} {means : Ident → Option DeclId}
  {temporary temporary' : DeclId → Bool}

mutual

theorem Desugars.mono (h : ∀ d, temporary d = true → temporary' d = true) {e : Expression}
    {l : List Stmt} {v : Expr} (hd : Desugars means temporary e l v) :
    Desugars means temporary' e l v := by
  cases hd with
  | int => exact .int
  | float => exact .float
  | identifier found => exact .identifier found
  | binary known first second => exact .binary known (first.mono h) (second.mono h)
  | assignment fresh first second => exact .assignment (h _ fresh) (first.mono h) (second.mono h)
  | call first rest => exact .call (first.mono h) (rest.mono h)
  | function => exact .function
  | parenthesized inside => exact .parenthesized (inside.mono h)

theorem DesugarsAll.mono (h : ∀ d, temporary d = true → temporary' d = true)
    {es : List Expression} {l : List Stmt} {vs : List Expr}
    (hd : DesugarsAll means temporary es l vs) :
    DesugarsAll means temporary' es l vs := by
  cases hd with
  | nil => exact .nil
  | cons first others => exact .cons (first.mono h) (others.mono h)

end

mutual

/-- An assignment is lifted out as two: to its temporary, and from there to its target. -/
theorem Desugars.length_eq {e : Expression} {l : List Stmt} {v : Expr}
    (hd : Desugars means temporary e l v) : l.length = 2 * e.assignments := by
  cases hd with
  | int | float | identifier | function => rfl
  | binary known first second =>
    rw [List.length_append, first.length_eq, second.length_eq, Expression.assignments]
    omega
  | assignment fresh first second =>
    simp only [List.length_append, List.length_singleton]
    rw [first.length_eq, second.length_eq, Expression.assignments]
    omega
  | call first rest =>
    rw [List.length_append, first.length_eq, rest.length_eq, Expression.assignments]
    omega
  | parenthesized inside => rw [inside.length_eq, Expression.assignments]

theorem DesugarsAll.length_eq {es : List Expression} {l : List Stmt} {vs : List Expr}
    (hd : DesugarsAll means temporary es l vs) : l.length = 2 * Expression.assignmentsAll es := by
  cases hd with
  | nil => rfl
  | cons first others =>
    rw [List.length_append, first.length_eq, others.length_eq, Expression.assignmentsAll]
    omega

end

mutual

/-- Only assignments are lifted out. -/
theorem Desugars.isAssign {e : Expression} {l : List Stmt} {v : Expr}
    (hd : Desugars means temporary e l v) : ∀ stmt ∈ l, stmt.isAssign = true := by
  cases hd with
  | int | float | identifier | function =>
    intro stmt h
    cases h
  | binary known first second =>
    exact List.forall_mem_append.2 ⟨first.isAssign, second.isAssign⟩
  | assignment fresh first second =>
    simp only [List.forall_mem_append, List.forall_mem_singleton]
    exact ⟨first.isAssign, rfl, second.isAssign, rfl⟩
  | call first rest =>
    exact List.forall_mem_append.2 ⟨first.isAssign, rest.isAssign⟩
  | parenthesized inside => exact inside.isAssign

theorem DesugarsAll.isAssign {es : List Expression} {l : List Stmt} {vs : List Expr}
    (hd : DesugarsAll means temporary es l vs) : ∀ stmt ∈ l, stmt.isAssign = true := by
  cases hd with
  | nil =>
    intro stmt h
    cases h
  | cons first others => exact List.forall_mem_append.2 ⟨first.isAssign, others.isAssign⟩

end

/-- An expression that did not fail was desugared. -/
def Desugared (names : SymbolTable) (e : Expression) (s : Session) (r : Option Expr) (t : Session) :
    Prop :=
  ∀ v, r = some v →
    ∃ lifted, Appends lifted s t ∧ Desugars (s.means names) t.arena.isTemporary e lifted v

def DesugaredAll (names : SymbolTable) (es : List Expression) (s : Session)
    (r : Option (List Expr)) (t : Session) : Prop :=
  ∀ vs, r = some vs →
    ∃ lifted, Appends lifted s t ∧ DesugarsAll (s.means names) t.arena.isTemporary es lifted vs

theorem desugared_none {e : Expression} {s t : Session} : Desugared names e s none t := by
  intro v hv
  cases hv

theorem desugaredAll_none {es : List Expression} {s t : Session} :
    DesugaredAll names es s none t := by
  intro vs hvs
  cases hvs

/-- A name that is found is the one in force. -/
theorem means_resolveName {s : Session} (hs : s.Good names anyNode) (id : Ident) :
    After s (Lower.resolveName names id) fun r t =>
      ∀ x, r = some x → Appends [] s t ∧ ∃ d, s.means names id = some d ∧ x = ⟨d, id.span⟩ := by
  unfold Lower.resolveName
  refine .bind hs does_currentBlock (appends_currentBlock s) fun b t ht _ hb happ => ?_
  refine .lookup ht ?_
  have hmeans : t.arena.lookup? b (names.resolve id.name) = s.means names id := by
    rw [Session.lookup?_eq hb, happ.bindings, means_eq]
  cases hl : t.arena.lookup? b (names.resolve id.name) with
  | some d =>
    intro x hx
    exact ⟨happ, d, hmeans.symm.trans hl, (Option.some.inj hx).symm⟩
  | none =>
    intro x hx
    cases hx

mutual

theorem desugars_expression (e : Expression) (s : Session) (hs : s.Good names anyNode) :
    After s (Lower.expression names e) (Desugared names e s) := by
  cases e with
  | int value span =>
    simp only [Lowering.expression]
    intro v hv
    cases hv
    exact ⟨[], ⟨rfl, (List.append_nil _).symm⟩, .int⟩
  | float value span =>
    simp only [Lowering.expression]
    intro v hv
    cases hv
    exact ⟨[], ⟨rfl, (List.append_nil _).symm⟩, .float⟩
  | identifier id =>
    simp only [Lowering.expression]
    refine .bind hs (does_resolveName hs id) (means_resolveName hs id) fun r t _ _ _ hr => ?_
    intro v hv
    obtain ⟨x, rfl, rfl⟩ := Option.map_eq_some_iff.1 hv
    obtain ⟨happ, d, hd, rfl⟩ := hr x rfl
    exact ⟨[], happ, .identifier hd⟩
  | binary operator left right span =>
    simp only [Lowering.expression]
    cases hop : operator.toIR? with
    | none => exact desugared_none
    | some op =>
      refine .bind hs (does_expression left (covers_anyNode _) 0 s hs (Nat.zero_le _))
        (desugars_expression left s hs) fun r t ht _ _ hl => ?_
      cases r with
      | none => exact desugared_none
      | some lhs =>
        obtain ⟨l, appl, dl⟩ := hl lhs rfl
        refine .bind ht (does_expression right (covers_anyNode _) 0 t ht (Nat.zero_le _))
          (desugars_expression right t ht) fun r' u _ htu _ hr => ?_
        cases r' with
        | none => exact desugared_none
        | some rhs =>
          obtain ⟨r, appr, dr⟩ := hr rhs rfl
          intro v hv
          cases hv
          rw [appl.means] at dr
          exact ⟨l ++ r, appl.trans appr, .binary hop (dl.mono fun _ => htu.arena.isTemporary) dr⟩
  | assignment operator left right span =>
    cases operator with
    | assign =>
      simp only [Lowering.expression]
      refine .bind hs does_currentBlock (appends_currentBlock s) fun b s₁ hs₁ _ hb a₁ => ?_
      refine .bind hs₁ (does_freshTemp hs₁ hb span) (appends_freshTemp hs₁ hb span)
        fun temp s₂ hs₂ h₂ htemp a₂ => ?_
      obtain ⟨a₂, t₂⟩ := a₂
      have a₂ := a₁.trans a₂
      refine .bind hs₂ (does_expression right (covers_anyNode _) 0 s₂ hs₂ (Nat.zero_le _))
        (desugars_expression right s₂ hs₂) fun r s₃ hs₃ h₃ hscope hr => ?_
      cases r with
      | none => exact desugared_none
      | some value =>
        obtain ⟨r, a₃, dr⟩ := hr value rfl
        have hb₃ : s₃.current? = some b := h₃.current (h₂.current hb)
        have htemp₃ := h₃.arena.sees htemp
        have hvalue := hscope value rfl
        rw [hb₃] at hvalue
        have hstmt := (Arena.InScope.ref (r := ⟨temp, span⟩) htemp₃).append hvalue
        refine .bind hs₃ (does_addStmt hs₃ hb₃ hstmt) (appends_addStmt hs₃ hb₃ hstmt)
          fun _ s₄ hs₄ h₄ _ a₄ => ?_
        have hb₄ := h₄.current hb₃
        refine .bind hs₄ (does_expression left (covers_anyNode _) 0 s₄ hs₄ (Nat.zero_le _))
          (desugars_expression left s₄ hs₄) fun r' s₅ hs₅ h₅ hscope' hl => ?_
        cases r' with
        | none => exact desugared_none
        | some v =>
          obtain ⟨l, a₅, dl⟩ := hl v rfl
          cases v with
          | ref target =>
            have hb₅ := h₅.current hb₄
            have htarget := hscope' (.ref target) rfl
            rw [hb₅] at htarget
            have htemp₅ := h₅.arena.sees (h₄.arena.sees htemp₃)
            have hstmt₅ := htarget.append (.ref (r := ⟨temp, span⟩) htemp₅)
            refine .bind hs₅ (does_addStmt hs₅ hb₅ hstmt₅) (appends_addStmt hs₅ hb₅ hstmt₅)
              fun _ s₆ _ h₆ _ a₆ => ?_
            intro v hv
            cases hv
            -- The temporary and the uses in both sides stay what they are up to the last state.
            have h₃₆ := h₃.trans (h₄.trans (h₅.trans h₆))
            have h₄₆ := h₄.trans (h₅.trans h₆)
            rw [a₂.means] at dr
            rw [((a₂.trans a₃).trans a₄).means] at dl
            refine ⟨_, a₂.trans (a₃.trans (a₄.trans (a₅.trans a₆))), .assignment ?_ ?_ ?_⟩
            · exact h₃₆.arena.isTemporary t₂
            · exact dr.mono fun _ => h₄₆.arena.isTemporary
            · exact dl.mono fun _ => h₆.arena.isTemporary
          | int | float | binary | func | call => exact desugared_none
    | addAssign | subtractAssign | multiplyAssign | divideAssign | moduloAssign =>
      simp only [Lowering.expression]
      exact desugared_none
  | call callee typeArgs args span =>
    simp only [Lowering.expression]
    cases typeArgs with
    | cons a rest => exact desugared_none
    | nil =>
      refine .bind hs (does_expression callee (covers_anyNode _) 0 s hs (Nat.zero_le _))
        (desugars_expression callee s hs) fun r t ht _ _ hf => ?_
      cases r with
      | none => exact desugared_none
      | some f =>
        obtain ⟨l, appl, df⟩ := hf f rfl
        refine .bind ht (does_expressions args (covers_anyNode _) 0 t ht (Nat.zero_le _))
          (desugars_expressions args t ht) fun r' u _ htu _ hargs => ?_
        cases r' with
        | none => exact desugared_none
        | some values =>
          obtain ⟨r, appr, dargs⟩ := hargs values rfl
          intro v hv
          cases hv
          rw [appl.means] at dargs
          exact ⟨l ++ r, appl.trans appr, .call (df.mono fun _ => htu.arena.isTemporary) dargs⟩
  | function name typeParams params result body span =>
    simp only [Lowering.expression]
    refine .bind hs does_currentBlock (appends_currentBlock s) fun b s₁ hs₁ _ hb a₁ => ?_
    refine .bind hs₁ (does_createChild hs₁ hb body.span) (appends_createChild hs₁ hb body.span)
      fun c s₂ hs₂ h₂ hc a₂ => ?_
    have hbody : AlwaysDoes names anyNode (Lower.group names body) :=
      does_group body (covers_anyNode _)
    refine .bind hs₂ (does_functionBody hs₂ hc.1.opens (Nat.zero_le _) (fun _ _ => trivial) hbody)
      (appends_functionBody hs₂ (h₂.current hb) hc.1.opens hc.1.parent typeParams params hbody)
      fun _ s₃ _ _ _ a₃ => ?_
    intro v hv
    cases hv
    exact ⟨[], a₁.trans (a₂.trans a₃), .function⟩
  | parenthesized inner span =>
    simp only [Lowering.expression]
    intro v hv
    obtain ⟨l, app, d⟩ := desugars_expression inner s hs v hv
    exact ⟨l, app, .parenthesized d⟩
  | string | template | boolean | null | this | super | array | object | unary | logical
  | conditional | member | index | new | comma | instanceOf | typeCast =>
    simp only [Lowering.expression]
    exact desugared_none

theorem desugars_expressions (es : List Expression) (s : Session) (hs : s.Good names anyNode) :
    After s (Lower.expressions names es) (DesugaredAll names es s) := by
  cases es with
  | nil =>
    simp only [Lowering.expressions]
    intro vs hvs
    cases hvs
    exact ⟨[], ⟨rfl, (List.append_nil _).symm⟩, .nil⟩
  | cons e rest =>
    simp only [Lowering.expressions]
    refine .bind hs (does_expression e (covers_anyNode _) 0 s hs (Nat.zero_le _))
      (desugars_expression e s hs) fun r t ht _ _ he => ?_
    cases r with
    | none => exact desugaredAll_none
    | some v =>
      obtain ⟨l, appl, de⟩ := he v rfl
      refine .bind ht (does_expressions rest (covers_anyNode _) 0 t ht (Nat.zero_le _))
        (desugars_expressions rest t ht) fun r' u _ htu _ hrest => ?_
      cases r' with
      | none => exact desugaredAll_none
      | some vs =>
        obtain ⟨r, appr, drest⟩ := hrest vs rfl
        intro ws hws
        cases hws
        rw [appl.means] at drest
        exact ⟨l ++ r, appl.trans appr, .cons (de.mono fun _ => htu.arena.isTemporary) drest⟩

end

end

end BlockLowering
