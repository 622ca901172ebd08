import BlockLowering.Proofs.Diagnostics
import BlockLowering.Proofs.Statements

/-!
# The roles of blocks

Lowering makes a block for every function, for every branch of an `if`, for every loop, for every
namespace and for every brace group in a list of statements. `roles` lists what these blocks are
for, in the order in which lowering makes them, so the number of a block finds its role. As long as
nothing is reported, the blocks that statements name are the bodies of functions, the branches and
the bodies of loops.
-/

namespace BlockLowering

open IR Diagnostic Source Session

/-- What a block inside the body of a module is for. -/
inductive Role where
  /-- The body of a function. -/
  | function
  /-- A branch of an `if`. -/
  | branch
  /-- The body of a loop. -/
  | loop
  /-- The members of a namespace. -/
  | members
  /-- A brace group in a list of statements. -/
  | group
deriving DecidableEq, Repr

/-- A statement names the block: it enters the block, or it makes a function of it. -/
def Role.isNamed : Role → Bool
  | function | branch | loop => true
  | members | group => false

/-! ## Roles of source trees -/

namespace Source

mutual

/-- The roles of the blocks that an expression needs. An assignment starts with its right side. -/
def Expression.roles : Expression → List Role
  | .binary _ left right _ => left.roles ++ right.roles
  | .assignment _ left right _ => right.roles ++ left.roles
  | .call callee _ args _ => callee.roles ++ expressionsRoles args
  | .function _ _ _ _ body _ => .function :: body.roles
  | .parenthesized inner _ => inner.roles
  | _ => []

def expressionsRoles : List Expression → List Role
  | [] => []
  | e :: rest => e.roles ++ expressionsRoles rest

def expressionRoles? : Option Expression → List Role
  | none => []
  | some e => e.roles

def VariableDecl.roles : VariableDecl → List Role
  | ⟨_, _, _, initial, _⟩ => expressionRoles? initial

def FunctionDecl.roles : FunctionDecl → List Role
  | ⟨_, _, _, _, body, _⟩ => .function :: body.roles

def Block.roles : Source.Block → List Role
  | ⟨statements, _⟩ => statementsRoles statements

/-- The roles of the blocks that a statement needs. Both branches of an `if` have their blocks
before the blocks inside of them. -/
def Statement.roles (branch : Bool) : Statement → List Role
  | .variableDecl decl => decl.roles
  | .functionDecl decl => decl.roles
  | .namespaceDecl _ members _ => .members :: statementsRoles members
  | .expression value _ => value.roles
  | .ifElse condition thenBranch elseBranch _ =>
    condition.roles ++ .branch :: (elseBranch.toList.map fun _ => .branch) ++
      thenBranch.roles true ++ branchRoles? elseBranch
  | .whileLoop condition body _ => condition.roles ++ .loop :: body.roles true
  | .block braces => if branch then braces.roles else .group :: braces.roles
  | _ => []

def branchRoles? : Option Statement → List Role
  | none => []
  | some st => st.roles true

def statementsRoles : List Statement → List Role
  | [] => []
  | st :: rest => st.roles false ++ statementsRoles rest

end

end Source

/-- The blocks with a named role, where the first block has the number `n`. -/
def namedFrom (n : Nat) (roles : List Role) : List BlockId :=
  (roles.zipIdx n).filterMap fun x => if x.1.isNamed then some ⟨x.2⟩ else none

theorem namedFrom_append (n : Nat) (l r : List Role) :
    namedFrom n (l ++ r) = namedFrom n l ++ namedFrom (n + l.length) r := by
  unfold namedFrom
  rw [List.zipIdx_append, List.filterMap_append]

theorem mem_namedFrom {n : Nat} {roles : List Role} {c : BlockId} :
    c ∈ namedFrom n roles ↔
      ∃ k role, roles[k]? = some role ∧ role.isNamed = true ∧ c = ⟨n + k⟩ := by
  unfold namedFrom
  rw [List.mem_filterMap]
  constructor
  · rintro ⟨⟨role, i⟩, hmem, hsome⟩
    obtain ⟨hle, hrole⟩ := List.mem_zipIdx_iff_le_and_getElem?_sub.1 hmem
    split at hsome
    · rename_i hnamed
      refine ⟨i - n, role, hrole, hnamed, ?_⟩
      rw [← Option.some.inj hsome, Nat.add_sub_cancel' hle]
    · cases hsome
  · rintro ⟨k, role, hrole, hnamed, rfl⟩
    refine ⟨(role, n + k), ?_, by rw [if_pos hnamed]⟩
    refine List.mem_zipIdx_iff_le_and_getElem?_sub.2 ⟨Nat.le_add_right n k, ?_⟩
    rw [Nat.add_sub_cancel_left]
    exact hrole

/-! ## Blocks with roles -/

/-- The blocks that statements name. -/
def IR.Arena.named (a : Arena) : List BlockId := a.code.flatMap Stmt.blocks

section

variable {names : SymbolTable} {s t u : Session} {b c : BlockId} {l r : List Role}
  {held held' : List BlockId}

/-- From `s` to `t`, unless a problem is reported, blocks with these roles are made, and statements
name the ones with a named role. The blocks that are `held` belong to a value that is in no
statement yet. -/
structure Session.Builds (roles : List Role) (held : List BlockId) (s t : Session) : Prop where
  problems : s.problems ≤ t.problems
  size : t.problems = s.problems → t.arena.blocks.length = s.arena.blocks.length + roles.length
  named : t.problems = s.problems → ∀ c, c ∈ t.arena.named ∨ c ∈ held ↔
    c ∈ s.arena.named ∨ c ∈ namedFrom s.arena.blocks.length roles

namespace Session.Builds

theorem trans (h : Builds l held s t) (h' : Builds r held' t u) :
    Builds (l ++ r) (held ++ held') s u where
  problems := Nat.le_trans h.problems h'.problems
  size hsame := by
    have hle := h.problems
    have hle' := h'.problems
    rw [h'.size (by omega), h.size (by omega), List.length_append, Nat.add_assoc]
  named hsame c := by
    have hle := h.problems
    have hle' := h'.problems
    have hfirst := h.named (by omega) c
    have hsecond := h'.named (by omega) c
    rw [h.size (by omega)] at hsecond
    rw [namedFrom_append, List.mem_append, List.mem_append]
    -- What the first part holds, the second part leaves in hand.
    rw [← or_assoc, or_right_comm, hsecond, or_right_comm, hfirst, or_assoc]

/-- After a problem nothing is claimed. -/
theorem fail (h : s.problems < t.problems) : Builds l held s t where
  problems := Nat.le_of_lt h
  size hsame := by omega
  named hsame := by omega

/-- No block is made and no statement is appended. -/
theorem of_bodies (hproblems : s.problems ≤ t.problems) (h : t.arena.bodies = s.arena.bodies) :
    Builds [] [] s t where
  problems := hproblems
  size _ := by
    have hlength := congrArg List.length h
    unfold Arena.bodies at hlength
    rwa [List.length_map, List.length_map] at hlength
  named _ c := by
    unfold Arena.named Arena.code
    rw [h]
    rfl

theorem refl (s : Session) : Builds [] [] s s := .of_bodies (Nat.le_refl _) rfl

/-- A statement takes the blocks that are held. -/
theorem append (h : Builds l held s t) (ht : t.Good names anyNode) (hb : t.current? = some b)
    (st : Stmt) (hheld : ∀ c, c ∈ st.blocks ↔ c ∈ held) :
    After t (Lower.addStmt b st) fun _ u => Builds l [] s u := by
  obtain ⟨x, hx, ho⟩ := ht.current hb
  unfold After
  rw [Lower.run_addStmt hx ho]
  constructor
  · exact h.problems
  · intro hsame
    show (t.arena.withStmt b st).blocks.length = _
    rw [Arena.length_withStmt, h.size hsame]
  · intro hsame c
    have hcode := ((Arena.code_withStmt (Arena.index_lt_of_block? hx) st).flatMap_right
      Stmt.blocks).mem_iff (a := c)
    rw [List.flatMap_cons, List.mem_append, hheld] at hcode
    show c ∈ (t.arena.withStmt b st).code.flatMap Stmt.blocks ∨ c ∈ [] ↔ _
    rw [hcode, ← h.named hsame c]
    unfold Arena.named
    simp only [List.not_mem_nil, or_false]
    exact Or.comm

end Session.Builds

/-! ## Operations -/

theorem builds_report (s : Session) (problem : Problem) :
    After s (Lower.report problem) fun _ t => Builds l held s t :=
  .fail (problems_report s problem)

/-- With a block open, asking for it changes nothing. -/
theorem After.current {α : Type} {f : BlockId → Lower α} {post : α → Session → Prop}
    (hb : s.current? = some b) (h : After s (f b) post) :
    After s (Lower.currentBlock >>= f) post := by
  unfold After
  rw [Lower.run_bind, Lower.run_currentBlock_some hb]
  exact h

theorem builds_addDecl (hs : s.Good names anyNode) (hb : s.current? = some b) {name : String}
    {type : Option TypeRef} {kind : DeclKind} {span : Span} :
    After s (Lower.addDecl b name type kind span) fun _ t => Builds [] [] s t := by
  obtain ⟨x, hx, ho⟩ := hs.current hb
  unfold After
  rw [Lower.run_addDecl hx ho]
  exact .of_bodies (Nat.le_refl _) (Arena.bodies_withDecl ..)

theorem builds_freshTemp (hs : s.Good names anyNode) (hb : s.current? = some b) (span : Span) :
    After s (Lower.freshTemp b span) fun _ t => Builds [] [] s t := by
  obtain ⟨x, hx, ho⟩ := hs.current hb
  unfold After
  rw [Lower.run_freshTemp hx ho]
  exact .of_bodies (Nat.le_refl _) (Arena.bodies_withDecl ..)

theorem builds_linkHoisted (hs : s.Good names anyNode) (hb : s.current? = some b) (name : String)
    (d : DeclId) : After s (Lower.linkHoisted b name d) fun _ t => Builds [] [] s t := by
  unfold After
  rcases hs.run_linkHoisted hb name d with hrun | ⟨x, y, hy, hfree, hrun⟩
  · rw [hrun]
    exact .refl s
  · rw [hrun]
    exact .of_bodies (Nat.le_refl _) rfl

/-- A new block is held if its role is a named one. -/
theorem builds_createChild (hs : s.Good names anyNode) (hb : s.current? = some b) (span : Span)
    (role : Role) :
    After s (Lower.createChild b span) fun c t =>
      Builds [role] (if role.isNamed then [c] else []) s t := by
  obtain ⟨x, hx, _⟩ := hs.current hb
  unfold After
  rw [Lower.run_createChild hx]
  have hcode : (s.arena.withChild b span).code = s.arena.code :=
    Arena.code_of_bodies (n := 1) (Arena.bodies_withChild ..)
  constructor
  · exact Nat.le_refl _
  · intro _
    exact Arena.length_withChild ..
  · intro _ c
    show c ∈ (s.arena.withChild b span).code.flatMap Stmt.blocks ∨ _ ↔ _
    rw [hcode]
    cases role <;> exact Iff.rfl

theorem builds_closeBlock (hs : s.Good names anyNode) (hc : s.current? = some c) :
    After s (Lower.closeBlock c) fun _ t => Builds [] [] s t := by
  unfold After
  rw [hs.run_closeBlock hc]
  exact .of_bodies (Nat.le_refl _) (Arena.bodies_withSealed ..)

theorem builds_elseBlock? (hs : s.Good names anyNode) (hb : s.current? = some b)
    (branch : Option Statement) :
    After s (Lower.elseBlock? b branch) fun r t => r.isSome = branch.isSome ∧
      Builds (branch.toList.map fun _ => .branch) r.toList s t := by
  cases branch with
  | none => exact ⟨rfl, .refl s⟩
  | some st => exact ⟨rfl, builds_createChild hs hb st.span .branch⟩

theorem builds_ascription? (names : SymbolTable) (s : Session) (written : Option Ascription) :
    After s (Lower.ascription? names written) fun _ t => Builds [] [] s t := by
  cases written with
  | none => exact .refl s
  | some a =>
    unfold Lower.ascription?
    refine .get ?_
    cases s.resolveType names a with
    | ok type => exact .refl s
    | error problem => exact builds_report s problem

theorem builds_resolveName (hs : s.Good names anyNode) (hb : s.current? = some b) (id : Ident) :
    After s (Lower.resolveName names id) fun _ t => Builds [] [] s t := by
  unfold Lower.resolveName
  refine .current hb (.lookup hs ?_)
  cases s.arena.lookup? b (names.resolve id.name) with
  | some d => exact .refl s
  | none => exact builds_report s _

theorem builds_parameter (hs : s.Good names anyNode) (hb : s.current? = some b) (p : Parameter) :
    After s (Lower.parameter names b p) fun _ t => Builds [] [] s t := by
  obtain ⟨kind, pattern, type, initial, span⟩ := p
  unfold Lower.parameter
  cases kind with
  | optional => exact builds_report s _
  | rest => exact builds_report s _
  | positional =>
    cases initial with
    | some e => exact builds_report s _
    | none =>
      cases pattern with
      | array => exact builds_report s _
      | object => exact builds_report s _
      | identifier id =>
        refine .bind hs (does_ascription? hs type) (builds_ascription? names s type)
          fun r t ht hst _ htype => ?_
        have hdecl : After t (Lower.addDecl b (names.resolve id.name) r .param span) fun _ u =>
            Builds [] [] t u := builds_addDecl ht (hst.current hb)
        exact htype.trans hdecl

theorem builds_parameters (hs : s.Good names anyNode) (hb : s.current? = some b)
    (params : List Parameter) :
    After s (Lower.parameters names b params) fun _ t => Builds [] [] s t := by
  induction params generalizing s with
  | nil => exact .refl s
  | cons p rest ih =>
    unfold Lower.parameters
    refine .bind hs (does_parameter hs hb trivial) (builds_parameter hs hb p)
      fun _ t ht hst _ hp => ?_
    exact hp.trans (ih ht (hst.current hb))

theorem builds_typeParameters (s : Session) (params : List TypeParameter) :
    After s (Lower.typeParameters params) fun _ t => Builds [] [] s t := by
  cases params with
  | nil => exact .refl s
  | cons _ _ => exact builds_report s _

theorem builds_inBlock {body : Lower Unit} (hs : s.Good names anyNode) (hc : s.MayOpen c)
    (hdoes : Does names anyNode s.arena.blocks.length ((Lower.openBlock c).run s).2 body anything)
    (hbody : ∀ t, t.Good names anyNode → t.current? = some c →
      After t body fun _ u => Builds l [] t u) :
    After s (Lower.inBlock c body) fun _ t => Builds l [] s t := by
  have hopen := hs.openBlock hc
  have hstart : Builds [] [] s ((Lower.openBlock c).run s).2 := .of_bodies (Nat.le_refl _) rfl
  have hwork := hbody _ hopen rfl
  obtain ⟨ht, hst⟩ := hdoes.1.good_frame hopen
  have hend := builds_closeBlock ht (hst.current rfl)
  have hall := (hstart.trans hwork).trans hend
  rwa [List.nil_append, List.append_nil] at hall

theorem builds_functionBody (hs : s.Good names anyNode) (hc : s.MayOpen c)
    (typeParams : List TypeParameter) (params : List Parameter) {statements : Lower Unit}
    (hdoes : AlwaysDoes names anyNode statements)
    (hbody : ∀ t, t.Good names anyNode → t.current? = some c →
      After t statements fun _ u => Builds l [] t u) :
    After s (Lower.functionBody names c typeParams params statements) fun _ t =>
      Builds l [] s t := by
  unfold Lower.functionBody
  refine .bind hs (does_typeParameters typeParams) (builds_typeParameters s typeParams)
    fun _ t ht _ hopen htypes => ?_
  have hopened := ht.openBlock (hopen c hc)
  have hwork : Does names anyNode t.arena.blocks.length ((Lower.openBlock c).run t).2
      (do Lower.parameters names c params; statements) anything := by
    refine .bind hopened (does_parameters hopened rfl fun _ _ => trivial) fun _ u hu huv _ => ?_
    exact hdoes _ u hu huv.arena.size
  have hblock := builds_inBlock (l := l) ht (hopen c hc) hwork fun u hu hcur => by
    refine .bind hu (does_parameters hu hcur fun _ _ => trivial) (builds_parameters hu hcur params)
      fun _ v hv huv _ hparams => ?_
    exact hparams.trans (hbody v hv (huv.current hcur))
  exact htypes.trans hblock

/-! ## Expressions and statements -/

/-- The blocks that a value names are held. -/
def ValueBuilds (roles : List Role) (s : Session) (r : Option Expr) (t : Session) : Prop :=
  Builds roles (r.elim [] Expr.blocks) s t

/-- A value that was made before is given up. -/
theorem Session.Builds.rejected (h : Builds l held s t) (construct : String) (span : Span) :
    After t (do Lower.reject construct span; return none) (ValueBuilds r s) :=
  .fail (Nat.lt_of_le_of_lt h.problems (problems_report t (.unsupported construct span)))

theorem Session.Builds.thenFail (h : Builds l held s t) (hlt : t.problems < u.problems) :
    Builds r held' s u :=
  .fail (Nat.lt_of_le_of_lt h.problems hlt)

-- By recursion along the code; some block is open throughout, so no root is made on the way.
mutual

theorem builds_expression (e : Expression) {b : BlockId} (s : Session) (hs : s.Good names anyNode)
    (hb : s.current? = some b) :
    After s (Lower.expression names e) (ValueBuilds e.roles s) := by
  cases e with
  | int | float =>
    simp only [Lowering.expression, Expression.roles]
    exact .refl s
  | identifier id =>
    simp only [Lowering.expression, Expression.roles]
    refine .bind hs (does_resolveName hs id) (builds_resolveName hs hb id) fun r t _ _ _ hr => ?_
    cases r with
    | none => exact hr
    | some x => exact hr
  | binary operator left right span =>
    simp only [Lowering.expression, Expression.roles]
    cases operator.toIR? with
    | none => exact (Builds.refl s).rejected _ _
    | some op =>
      refine .bindExpression hs (builds_expression left s hs hb)
        (fun t _ _ hlt => .fail hlt) fun lhs t ht hst _ hl => ?_
      refine .bindExpression ht (builds_expression right t ht (hst.current hb))
        (fun u _ _ hlt => hl.thenFail hlt) fun rhs u _ _ _ hr => ?_
      exact hl.trans hr
  | assignment operator left right span =>
    cases operator with
    | assign =>
      simp only [Lowering.expression, Expression.roles]
      refine .current hb ?_
      refine .bind hs (does_freshTemp hs hb span) (builds_freshTemp hs hb span)
        fun temp s₁ hs₁ h₁ htemp made => ?_
      have hb₁ := h₁.current hb
      refine .bindExpression hs₁ (builds_expression right s₁ hs₁ hb₁)
        (fun s₂ _ _ hlt => made.thenFail hlt) fun value s₂ hs₂ h₂ hvalue hright => ?_
      have hb₂ := h₂.current hb₁
      rw [hb₂] at hvalue
      have htemp₂ := h₂.arena.sees htemp
      have hscope := (Arena.InScope.ref (r := ⟨temp, span⟩) htemp₂).append hvalue
      refine .bind hs₂ (does_addStmt hs₂ hb₂ hscope)
        ((made.trans hright).append hs₂ hb₂ (.assign ⟨temp, span⟩ value span) fun _ => Iff.rfl)
        fun _ s₃ hs₃ h₃ _ assigned => ?_
      have hb₃ := h₃.current hb₂
      refine .bindExpression hs₃ (builds_expression left s₃ hs₃ hb₃)
        (fun s₄ _ _ hlt => assigned.thenFail hlt) fun target s₄ hs₄ h₄ htarget hleft => ?_
      have both := assigned.trans hleft
      cases target with
      | ref target =>
        have hb₄ := h₄.current hb₃
        rw [hb₄] at htarget
        have htemp₄ := h₄.arena.sees (h₃.arena.sees htemp₂)
        have hscope₄ := htarget.append (.ref (r := ⟨temp, span⟩) htemp₄)
        exact .bind hs₄ (does_addStmt hs₄ hb₄ hscope₄)
          (both.append hs₄ hb₄ (.assign target (.ref ⟨temp, span⟩) span) fun _ => Iff.rfl)
          fun _ s₅ _ _ _ hdone => hdone
      | int | float | binary | func | call => exact both.rejected _ _
    | addAssign | subtractAssign | multiplyAssign | divideAssign | moduloAssign =>
      simp only [Lowering.expression]
      exact (Builds.refl s).rejected _ _
  | call callee typeArgs args span =>
    simp only [Lowering.expression, Expression.roles]
    cases ascriptionsSpan? typeArgs with
    | some place => exact (Builds.refl s).rejected _ _
    | none =>
      refine .bindExpression hs (builds_expression callee s hs hb)
        (fun t _ _ hlt => .fail hlt) fun f t ht hst _ hc => ?_
      refine .bind ht (does_expressions args (covers_anyNode _) 0 t ht (Nat.zero_le _))
        (builds_expressions args t ht (hst.current hb)) fun r u _ _ _ hargs => ?_
      cases r with
      | none => exact hc.thenFail (hargs.2 rfl)
      | some values => exact hc.trans hargs.1
  | function name typeParams params result body span =>
    simp only [Lowering.expression, Expression.roles]
    refine .current hb ?_
    refine .bind hs (does_createChild hs hb body.span)
      (builds_createChild hs hb body.span .function) fun c s₁ hs₁ h₁ hc made => ?_
    have hbody : AlwaysDoes names anyNode (Lower.group names body) :=
      does_group body (covers_anyNode _)
    refine .bind hs₁ (does_functionBody hs₁ hc.1.opens (Nat.zero_le _) (fun _ _ => trivial) hbody)
      (builds_functionBody hs₁ hc.1.opens typeParams params hbody fun t ht hcur =>
        builds_group body t ht hcur) fun _ s₂ _ _ _ inside => ?_
    -- The new block is held while its statements are lowered.
    exact made.trans inside
  | parenthesized inner span =>
    simp only [Lowering.expression, Expression.roles]
    exact builds_expression inner s hs hb
  | string | template | boolean | null | this | super | array | object | unary | logical
  | conditional | member | index | new | comma | instanceOf | typeCast =>
    simp only [Lowering.expression]
    exact (Builds.refl s).rejected _ _

theorem builds_expressions (es : List Expression) {b : BlockId} (s : Session)
    (hs : s.Good names anyNode) (hb : s.current? = some b) :
    After s (Lower.expressions names es) fun r t =>
      Builds (expressionsRoles es) (r.elim [] Expr.blocksAll) s t ∧
        (r = none → s.problems < t.problems) := by
  cases es with
  | nil =>
    simp only [Lowering.expressions, expressionsRoles]
    exact ⟨.refl s, fun h => by cases h⟩
  | cons e rest =>
    simp only [Lowering.expressions, expressionsRoles]
    refine .bindExpression hs (builds_expression e s hs hb)
      (fun t _ _ hlt => ⟨.fail hlt, fun _ => hlt⟩) fun v t ht hst _ he => ?_
    refine .bind ht (does_expressions rest (covers_anyNode _) 0 t ht (Nat.zero_le _))
      (builds_expressions rest t ht (hst.current hb)) fun r u _ _ _ hrest => ?_
    cases r with
    | none =>
      have hlt := hrest.2 rfl
      exact ⟨he.thenFail hlt, fun _ => Nat.lt_of_le_of_lt he.problems hlt⟩
    | some vs => exact ⟨he.trans hrest.1, fun h => by cases h⟩

theorem builds_initialValue (e : Option Expression) {b : BlockId} {target : DeclRef} {span : Span}
    (s : Session) (hs : s.Good names anyNode) (hb : s.current? = some b) :
    After s (Lower.initialValue names b target span e) fun _ t =>
      Builds (expressionRoles? e) [] s t := by
  cases e with
  | none =>
    simp only [Lowering.initialValue, expressionRoles?]
    exact .refl s
  | some e =>
    simp only [Lowering.initialValue, expressionRoles?]
    refine .bindExpression hs (builds_expression e s hs hb) (fun t _ _ hlt => .fail hlt)
      fun v t ht hst _ he => ?_
    exact he.append ht (hst.current hb) (.assign target v span) fun _ => Iff.rfl

theorem builds_variableDecl (d : VariableDecl) {b : BlockId} (s : Session)
    (hs : s.Good names anyNode) (hb : s.current? = some b) :
    After s (Lower.variableDecl names d) fun _ t => Builds d.roles [] s t := by
  obtain ⟨kind, pattern, type, initial, span⟩ := d
  cases pattern with
  | identifier id =>
    simp only [Lowering.variableDecl, VariableDecl.roles]
    refine .bind hs (does_ascription? hs type) (builds_ascription? names s type)
      fun r s₁ hs₁ h₁ hr htype => ?_
    have hb₁ := h₁.current hb
    refine .current hb₁ ?_
    have hd : anyNode (.statement (.variableDecl ⟨kind, .identifier id, type, initial, span⟩)) :=
      trivial
    refine .bind hs₁ (does_addDecl hs₁ hb₁ (by simp) (annotated_of_names hd rfl hr))
      (builds_addDecl hs₁ hb₁) fun d s₂ hs₂ h₂ _ hdecl => ?_
    exact (htype.trans hdecl).trans (builds_initialValue initial s₂ hs₂ (h₂.current hb₁))
  | array | object =>
    simp only [Lowering.variableDecl]
    exact builds_report s _

theorem builds_functionDecl (d : FunctionDecl) {b : BlockId} (s : Session)
    (hs : s.Good names anyNode) (hb : s.current? = some b) :
    After s (Lower.functionDecl names d) fun _ t => Builds d.roles [] s t := by
  obtain ⟨id, typeParams, params, result, body, span⟩ := d
  simp only [Lowering.functionDecl, FunctionDecl.roles]
  refine .current hb ?_
  refine .bind hs (does_addDecl hs hb (by simp) (fun _ ht => by cases ht)) (builds_addDecl hs hb)
    fun d s₁ hs₁ h₁ hsees declared => ?_
  have hb₁ := h₁.current hb
  refine .bind hs₁ (does_linkHoisted hb₁ _ d) (builds_linkHoisted hs₁ hb₁ _ d)
    fun _ s₂ hs₂ h₂ _ linked => ?_
  have hb₂ := h₂.current hb₁
  refine .bind hs₂ (does_createChild hs₂ hb₂ body.span)
    (builds_createChild hs₂ hb₂ body.span .function) fun c s₃ hs₃ h₃ hc made => ?_
  have hb₃ := h₃.current hb₂
  have hscope : s₃.arena.InScope (some b) ([⟨d, id.span⟩] ++ []) ([] ++ [c]) :=
    (Arena.InScope.ref (h₃.arena.sees (h₂.arena.sees hsees))).append (.block hc.1.parent)
  refine .bind hs₃ (does_addStmt hs₃ hb₃ hscope)
    (((declared.trans linked).trans made).append hs₃ hb₃
      (.assign ⟨d, id.span⟩ (.func c span) span) fun _ => Iff.rfl)
    fun _ s₄ hs₄ h₄ hopen assigned => ?_
  have hbody : AlwaysDoes names anyNode (Lower.group names body) :=
    does_group body (covers_anyNode _)
  exact assigned.trans (builds_functionBody hs₄ (hopen c hc.1.opens) typeParams params hbody
    fun t ht hcur => builds_group body t ht hcur)

theorem builds_group (g : Source.Block) {b : BlockId} (s : Session) (hs : s.Good names anyNode)
    (hb : s.current? = some b) :
    After s (Lower.group names g) fun _ t => Builds g.roles [] s t := by
  obtain ⟨statements, span⟩ := g
  simp only [Lowering.group, Block.roles]
  exact builds_statementList statements s hs hb

theorem builds_statementAt (branch : Bool) (st : Statement) {b : BlockId} (s : Session)
    (hs : s.Good names anyNode) (hb : s.current? = some b) :
    After s (Lower.statementAt names branch st) fun _ t => Builds (st.roles branch) [] s t := by
  cases st with
  | variableDecl d =>
    simp only [Lowering.statementAt, Statement.roles]
    exact builds_variableDecl d s hs hb
  | functionDecl d =>
    simp only [Lowering.statementAt, Statement.roles]
    exact builds_functionDecl d s hs hb
  | namespaceDecl name members span =>
    simp only [Lowering.statementAt, Statement.roles]
    refine .current hb ?_
    refine .bind hs (does_createChild hs hb span) (builds_createChild hs hb span .members)
      fun c s₁ hs₁ h₁ hc made => ?_
    have hdoes := does_statementList members (covers_anyNode _) _ _ (hs₁.openBlock hc.1.opens)
      (Nat.le_refl _)
    exact made.trans (builds_inBlock hs₁ hc.1.opens hdoes fun t ht hcur =>
      builds_statementList members t ht hcur)
  | expression value span =>
    simp only [Lowering.statementAt, Statement.roles]
    refine .bindExpression hs (builds_expression value s hs hb) (fun t _ _ hlt => .fail hlt)
      fun v s₁ hs₁ h₁ _ hvalue => ?_
    have hb₁ := h₁.current hb
    exact .current hb₁ (hvalue.append hs₁ hb₁ (.drop v span) fun _ => Iff.rfl)
  | ifElse condition thenBranch elseBranch span =>
    simp only [Lowering.statementAt, Statement.roles]
    refine .bindExpression hs (builds_expression condition s hs hb) (fun t _ _ hlt => .fail hlt)
      fun cond s₁ hs₁ h₁ hscope hcond => ?_
    have hb₁ := h₁.current hb
    refine .current hb₁ ?_
    refine .bind hs₁ (does_createChild hs₁ hb₁ thenBranch.span)
      (builds_createChild hs₁ hb₁ thenBranch.span .branch) fun c s₂ hs₂ h₂ hc made => ?_
    have hb₂ := h₂.current hb₁
    refine .bind hs₂ (does_elseBlock? hs₂ hb₂ elseBranch) (builds_elseBlock? hs₂ hb₂ elseBranch)
      fun e s₃ hs₃ h₃ he made' => ?_
    have hb₃ := h₃.current hb₂
    have hscope₃ := h₃.inScope (h₂.inScope hscope)
    rw [hb₃] at hscope₃
    have hbranches : s₃.arena.InScope (some b) [] (c :: e.toList) := by
      refine ⟨by simp, fun x hx => ⟨b, rfl, ?_⟩⟩
      rcases List.mem_cons.1 hx with rfl | hx
      · exact h₃.arena.parent_some hc.1.parent
      · exact (he.1 x (Option.mem_toList.1 hx)).parent
    refine .bind hs₃ (does_addStmt hs₃ hb₃ (hbranches.append hscope₃))
      (((hcond.trans made).trans made'.2).append hs₃ hb₃ (.ifElse cond c e span) fun x => ?_)
      fun _ s₄ hs₄ h₄ hopen head => ?_
    · show x ∈ (c :: e.toList) ++ cond.blocks ↔ x ∈ cond.blocks ++ [c] ++ e.toList
      rw [List.append_assoc, List.mem_append, List.mem_append]
      exact Or.comm
    have hc₄ := hopen c (he.2 c hc.1.opens)
    have hthen : AlwaysDoes names anyNode (Lower.statementAt names true thenBranch) :=
      does_statementAt true thenBranch trivial (covers_anyNode _)
    have hwork := hthen _ _ (hs₄.openBlock hc₄) (Nat.le_refl _)
    refine .bind hs₄ (does_inBlock hs₄ hc₄ (Nat.zero_le _) hwork) (builds_inBlock hs₄ hc₄ hwork
      fun t ht hcur => builds_statementAt true thenBranch t ht hcur)
      fun _ s₅ hs₅ _ hopen₅ inThen => ?_
    have inElse := builds_elseBody e elseBranch made'.1 s₅ hs₅ fun x hx => by
      have hx' := he.1 x hx
      have hidx := hx'.index
      have hlt := hc.1.opens.index_lt
      refine hopen₅ x (hopen x hx'.opens) ?_
      rintro rfl
      omega
    have hall := (head.trans inThen).trans inElse
    simp only [List.append_assoc, List.cons_append, List.nil_append] at hall ⊢
    exact hall
  | whileLoop condition body span =>
    simp only [Lowering.statementAt, Statement.roles]
    refine .bindExpression hs (builds_expression condition s hs hb) (fun t _ _ hlt => .fail hlt)
      fun cond s₁ hs₁ h₁ hscope hcond => ?_
    have hb₁ := h₁.current hb
    refine .current hb₁ ?_
    refine .bind hs₁ (does_createChild hs₁ hb₁ body.span)
      (builds_createChild hs₁ hb₁ body.span .loop) fun c s₂ hs₂ h₂ hc made => ?_
    have hb₂ := h₂.current hb₁
    have hscope₂ := h₂.inScope hscope
    rw [hb₂] at hscope₂
    refine .bind hs₂ (does_addStmt hs₂ hb₂ ((Arena.InScope.block hc.1.parent).append hscope₂))
      ((hcond.trans made).append hs₂ hb₂ (.whileLoop cond c span) fun x => ?_)
      fun _ s₃ hs₃ _ hopen head => ?_
    · show x ∈ [c] ++ cond.blocks ↔ x ∈ cond.blocks ++ [c]
      rw [List.mem_append, List.mem_append]
      exact Or.comm
    have hc₃ := hopen c hc.1.opens
    have hdoes := does_statementAt true body trivial (covers_anyNode _) _ _ (hs₃.openBlock hc₃)
      (Nat.le_refl _)
    have hall := head.trans (builds_inBlock hs₃ hc₃ hdoes fun t ht hcur =>
      builds_statementAt true body t ht hcur)
    rwa [List.append_assoc] at hall
  | block braces =>
    simp only [Lowering.statementAt, Statement.roles]
    cases branch with
    | true => exact builds_group braces s hs hb
    | false =>
      refine .current hb ?_
      refine .bind hs (does_createChild hs hb braces.span)
        (builds_createChild hs hb braces.span .group) fun c s₁ hs₁ h₁ hc made => ?_
      have hdoes := does_group braces (covers_anyNode _) _ _ (hs₁.openBlock hc.1.opens)
        (Nat.le_refl _)
      exact made.trans (builds_inBlock hs₁ hc.1.opens hdoes fun t ht hcur =>
        builds_group braces t ht hcur)
  | empty span =>
    simp only [Lowering.statementAt, Statement.roles]
    exact .refl s
  | classDecl | typeAlias | importDecl | exportDecl | switch | doWhile | forLoop | forOf | breakTo
  | continueTo | returnValue | throwValue | tryCatch =>
    simp only [Lowering.statementAt]
    exact builds_report s _

theorem builds_elseBody (e : Option BlockId) (branch : Option Statement)
    (hsome : e.isSome = branch.isSome) (s : Session) (hs : s.Good names anyNode)
    (he : ∀ x, e = some x → s.MayOpen x) :
    After s (Lower.elseBody names e branch) fun _ t => Builds (branchRoles? branch) [] s t := by
  cases branch with
  | none =>
    cases e <;> simp only [Lowering.elseBody, branchRoles?] <;> exact .refl s
  | some st =>
    cases e with
    | none => cases hsome
    | some x =>
      simp only [Lowering.elseBody, branchRoles?]
      have hx := he x rfl
      have hdoes := does_statementAt true st trivial (covers_anyNode _) _ _ (hs.openBlock hx)
        (Nat.le_refl _)
      exact builds_inBlock hs hx hdoes fun t ht hcur => builds_statementAt true st t ht hcur

theorem builds_statementList (sts : List Statement) {b : BlockId} (s : Session)
    (hs : s.Good names anyNode) (hb : s.current? = some b) :
    After s (Lower.statementList names sts) fun _ t => Builds (statementsRoles sts) [] s t := by
  cases sts with
  | nil =>
    simp only [Lowering.statementList, statementsRoles]
    exact .refl s
  | cons st rest =>
    simp only [Lowering.statementList, statementsRoles]
    refine .bind hs (does_statementAt false st trivial (covers_anyNode _) 0 s hs (Nat.zero_le _))
      (builds_statementAt false st s hs hb) fun _ t ht hst _ hfirst => ?_
    exact hfirst.trans (builds_statementList rest t ht (hst.current hb))

end

end

end BlockLowering
