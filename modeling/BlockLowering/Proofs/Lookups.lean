import BlockLowering.Proofs.Primitives

/-!
# Watching names being looked up

Names are looked up in states that are gone when a step is over. `Watched` is lowering that also
lists its look-ups, each with the session in which it is made: the functions of lowering with
`Watched.resolveName` for the names that are used. To watch changes nothing: forgetting the list
gives back what a session does, from `Watched.code_expression` to `Watched.run_steps`.
-/

namespace BlockLowering

open IR Diagnostic Source

/-- A name that is looked up from a block, in a session. -/
structure Lookup where
  ident : Ident
  start : BlockId
  session : Session

namespace Lookup

/-- The look-up that resolving a name makes. -/
def ofName (id : Ident) (s : Session) : Lookup :=
  ⟨id, (Lower.currentBlock.run s).1, (Lower.currentBlock.run s).2⟩

/-- The blocks that are searched, in order. -/
def searched (l : Lookup) : List BlockId := l.session.arena.ancestors l.start

/-- The declaration that is found. -/
def found? (names : SymbolTable) (l : Lookup) : Option DeclId :=
  l.session.arena.lookup? l.start (names.resolve l.ident.name)

/-- The session when the declarations are read. -/
def after (names : SymbolTable) (l : Lookup) : Session :=
  ((Lower.lookup l.start (names.resolve l.ident.name)).run l.session).2

/-- What comes of a look-up: a reference, or a report that nothing is found. -/
def answer (names : SymbolTable) (l : Lookup) : Option DeclRef × Session :=
  match l.found? names with
  | some decl => (some ⟨decl, l.ident.span⟩, l.after names)
  | none =>
    let problem := .nameNotFound (names.resolve l.ident.name) l.ident.span
    (none, ((Lower.report problem).run (l.after names)).2)

end Lookup

/-- Lowering, with the look-ups that it makes from a state on. -/
structure Watched (α : Type) where
  code : Lower α
  lookups : Session → List Lookup

namespace Watched

instance : Monad Watched where
  pure a := ⟨pure a, fun _ => []⟩
  bind w f :=
    { code := w.code >>= fun a => (f a).code
      lookups := fun s =>
        w.lookups s ++ (f (w.code.run s).1).lookups (w.code.run s).2 }

/-- Code that looks up no names. -/
instance : MonadLift Lower Watched := ⟨fun x => ⟨x, fun _ => []⟩⟩

variable (names : SymbolTable)

def resolveName (id : Ident) : Watched (Option DeclRef) :=
  ⟨fun s => (Lookup.ofName id s).answer names, fun s => [Lookup.ofName id s]⟩

/-- The steps of a session, watched. -/
def steps : List Step → Watched Unit
  | [] => return
  | st :: rest => do
    Lowering.step names (resolveName names) st
    steps rest

/-! ## To watch changes nothing -/

section

variable {names} {α β : Type}

theorem code_bind {w : Watched α} {f : α → Watched β} {x : Lower α} {g : α → Lower β}
    (hw : w.code = x) (hf : ∀ a, (f a).code = g a) : (w >>= f).code = x >>= g := by
  subst hw
  exact congrArg (w.code >>= ·) (funext hf)

/-- To resolve a name is to make the look-up that is listed. -/
theorem code_resolveName (id : Ident) :
    (resolveName names id).code = Lower.resolveName names id := by
  funext s
  show (Lookup.ofName id s).answer names = (Lower.resolveName names id).run s
  unfold Lookup.answer Lookup.after Lookup.found? Lookup.ofName Lower.resolveName
  dsimp only
  rw [Lower.run_bind, Lower.run_bind, Lower.run_lookup_eq]
  dsimp only
  cases (Lower.currentBlock.run s).2.arena.lookup? (Lower.currentBlock.run s).1
      (names.resolve id.name) with
  | none => rfl
  | some decl => rfl

theorem code_inBlock {body : Watched Unit} {x : Lower Unit} (h : body.code = x) (block : BlockId) :
    (Lower.inBlock block body).code = Lower.inBlock block x :=
  code_bind rfl fun _ => code_bind h fun _ => rfl

theorem code_functionBody {statements : Watched Unit} {x : Lower Unit} (h : statements.code = x)
    (body : BlockId) (typeParams : List TypeParameter) (params : List Parameter) :
    (Lower.functionBody names body typeParams params statements).code =
      Lower.functionBody names body typeParams params x :=
  code_bind rfl fun _ => code_inBlock (code_bind rfl fun _ => h) body

end

-- By recursion along the syntax. Only the functions that look up names need an argument: all else
-- is lifted, and is its own code.
mutual

theorem code_expression (e : Expression) :
    (Lowering.expression names (resolveName names) e).code = Lower.expression names e := by
  cases e with
  | identifier id =>
    simp only [Lowering.expression]
    exact code_bind (code_resolveName id) fun _ => rfl
  | binary operator left right span =>
    simp only [Lowering.expression]
    cases operator.toIR? with
    | none => rfl
    | some op =>
      refine code_bind (code_expression left) fun r => ?_
      cases r with
      | none => rfl
      | some lhs =>
        refine code_bind (code_expression right) fun r => ?_
        cases r <;> rfl
  | assignment operator left right span =>
    cases operator with
    | assign =>
      simp only [Lowering.expression]
      refine code_bind rfl fun block => code_bind rfl fun temp => ?_
      refine code_bind (code_expression right) fun r => ?_
      cases r with
      | none => rfl
      | some value =>
        refine code_bind rfl fun _ => code_bind (code_expression left) fun r => ?_
        cases r with
        | none => rfl
        | some v => cases v <;> rfl
    | addAssign | subtractAssign | multiplyAssign | divideAssign | moduloAssign =>
      simp only [Lowering.expression]
      rfl
  | call callee typeArgs args span =>
    simp only [Lowering.expression]
    cases ascriptionsSpan? typeArgs with
    | some place => rfl
    | none =>
      refine code_bind (code_expression callee) fun r => ?_
      cases r with
      | none => rfl
      | some f =>
        refine code_bind (code_expressions args) fun r => ?_
        cases r <;> rfl
  | function name typeParams params result body span =>
    simp only [Lowering.expression]
    refine code_bind rfl fun parent => code_bind rfl fun block => ?_
    exact code_bind (code_functionBody (code_group body) block typeParams params) fun _ => rfl
  | parenthesized inner span =>
    simp only [Lowering.expression]
    exact code_expression inner
  | int | float | string | template | boolean | null | this | super | array | object
  | unary | logical | conditional | member | index | new | comma | instanceOf | typeCast =>
    simp only [Lowering.expression]
    rfl

theorem code_expressions (es : List Expression) :
    (Lowering.expressions names (resolveName names) es).code = Lower.expressions names es := by
  cases es with
  | nil =>
    simp only [Lowering.expressions]
    rfl
  | cons e rest =>
    simp only [Lowering.expressions]
    refine code_bind (code_expression e) fun r => ?_
    cases r with
    | none => rfl
    | some value =>
      refine code_bind (code_expressions rest) fun r => ?_
      cases r <;> rfl

theorem code_initialValue (block : BlockId) (target : DeclRef) (span : Span)
    (e : Option Expression) :
    (Lowering.initialValue names (resolveName names) block target span e).code =
      Lower.initialValue names block target span e := by
  cases e with
  | none =>
    simp only [Lowering.initialValue]
    rfl
  | some e =>
    simp only [Lowering.initialValue]
    refine code_bind (code_expression e) fun r => ?_
    cases r <;> rfl

theorem code_variableDecl (d : VariableDecl) :
    (Lowering.variableDecl names (resolveName names) d).code = Lower.variableDecl names d := by
  obtain ⟨kind, pattern, type, initial, span⟩ := d
  cases pattern with
  | identifier id =>
    simp only [Lowering.variableDecl]
    refine code_bind rfl fun type => code_bind rfl fun block => code_bind rfl fun decl => ?_
    exact code_initialValue block ⟨decl, id.span⟩ span initial
  | array | object =>
    simp only [Lowering.variableDecl]
    rfl

theorem code_functionDecl (d : FunctionDecl) :
    (Lowering.functionDecl names (resolveName names) d).code = Lower.functionDecl names d := by
  obtain ⟨id, typeParams, params, result, body, span⟩ := d
  simp only [Lowering.functionDecl]
  refine code_bind rfl fun block => code_bind rfl fun decl => code_bind rfl fun _ => ?_
  refine code_bind rfl fun bodyBlock => code_bind rfl fun _ => ?_
  exact code_functionBody (code_group body) bodyBlock typeParams params

theorem code_group (g : Source.Block) :
    (Lowering.group names (resolveName names) g).code = Lower.group names g := by
  obtain ⟨statements, span⟩ := g
  simp only [Lowering.group]
  exact code_statementList statements

theorem code_statementAt (branch : Bool) (st : Statement) :
    (Lowering.statementAt names (resolveName names) branch st).code =
      Lower.statementAt names branch st := by
  cases st with
  | variableDecl d =>
    simp only [Lowering.statementAt]
    exact code_variableDecl d
  | functionDecl d =>
    simp only [Lowering.statementAt]
    exact code_functionDecl d
  | namespaceDecl name members span =>
    simp only [Lowering.statementAt]
    refine code_bind rfl fun parent => code_bind rfl fun block => ?_
    exact code_inBlock (code_statementList members) block
  | expression value span =>
    simp only [Lowering.statementAt]
    refine code_bind (code_expression value) fun r => ?_
    cases r <;> rfl
  | ifElse condition thenBranch elseBranch span =>
    simp only [Lowering.statementAt]
    refine code_bind (code_expression condition) fun r => ?_
    cases r with
    | none => rfl
    | some cond =>
      refine code_bind rfl fun block => code_bind rfl fun thenBlock => ?_
      refine code_bind rfl fun elseBlock => code_bind rfl fun _ => ?_
      refine code_bind (code_inBlock (code_statementAt true thenBranch) thenBlock) fun _ => ?_
      exact code_elseBody elseBlock elseBranch
  | whileLoop condition body span =>
    simp only [Lowering.statementAt]
    refine code_bind (code_expression condition) fun r => ?_
    cases r with
    | none => rfl
    | some cond =>
      refine code_bind rfl fun block => code_bind rfl fun bodyBlock => code_bind rfl fun _ => ?_
      exact code_inBlock (code_statementAt true body) bodyBlock
  | block braces =>
    simp only [Lowering.statementAt]
    cases branch with
    | true => exact code_group braces
    | false =>
      refine code_bind rfl fun parent => code_bind rfl fun block => ?_
      exact code_inBlock (code_group braces) block
  | empty | classDecl | typeAlias | importDecl | exportDecl | switch | doWhile | forLoop | forOf
  | breakTo | continueTo | returnValue | throwValue | tryCatch =>
    simp only [Lowering.statementAt]
    rfl

theorem code_elseBody (e : Option BlockId) (branch : Option Statement) :
    (Lowering.elseBody names (resolveName names) e branch).code =
      Lower.elseBody names e branch := by
  cases e with
  | none =>
    simp only [Lowering.elseBody]
    rfl
  | some block =>
    cases branch with
    | none =>
      simp only [Lowering.elseBody]
      rfl
    | some st =>
      simp only [Lowering.elseBody]
      exact code_inBlock (code_statementAt true st) block

theorem code_statementList (sts : List Statement) :
    (Lowering.statementList names (resolveName names) sts).code =
      Lower.statementList names sts := by
  cases sts with
  | nil =>
    simp only [Lowering.statementList]
    rfl
  | cons st rest =>
    simp only [Lowering.statementList]
    exact code_bind (code_statementAt false st) fun _ => code_statementList rest

end

theorem code_unitBlock (unit : BlockId) (m : Module) :
    (Lowering.unitBlock names (resolveName names) unit m).code = Lower.unitBlock names unit m := by
  refine code_bind rfl fun _ => code_bind rfl fun body => ?_
  refine code_bind rfl fun s => code_bind rfl fun _ => ?_
  exact code_bind (code_inBlock (code_statementList names m.statements) body) fun _ => rfl

theorem code_module (m : Module) :
    (Lowering.module names (resolveName names) m).code = Lower.module names m := by
  refine code_bind rfl fun _ => code_bind rfl fun unit => ?_
  exact code_bind (code_inBlock (code_unitBlock names unit m) unit) fun _ => rfl

theorem code_visit (v : Visit) :
    (Lowering.visit names (resolveName names) v).code = Lower.visit names v := by
  unfold Lower.visit Lowering.visit
  by_cases hh : Lower.handles v = true
  · rw [if_pos hh, if_pos hh]
    cases v.subject with
    | module m => exact code_bind (code_module names m) fun _ => rfl
    | statement st => exact code_statementAt names false st
    | _ => rfl
  · rw [if_neg hh, if_neg hh]
    rfl

theorem code_visitAll (visits : List Visit) :
    (Lowering.visitAll names (resolveName names) visits).code = Lower.visitAll names visits := by
  induction visits with
  | nil => rfl
  | cons v rest ih => exact code_bind (code_visit names v) fun _ => ih

theorem code_step (st : Step) :
    (Lowering.step names (resolveName names) st).code = st.lower names := by
  cases st with
  | options chosen => rfl
  | module m => exact code_bind (code_module names m) fun _ => rfl
  | statement st => exact code_statementAt names false st
  | expression e => exact code_visitAll names _
  | node n => exact code_visitAll names _

/-- A watched session ends where the session ends. -/
theorem run_steps (sts : List Step) (s : Session) :
    ((steps names sts).code.run s).2 = s.run names sts := by
  induction sts generalizing s with
  | nil => rfl
  | cons st rest ih =>
    have hstep := congrArg (fun x : Lower Unit => (x.run s).2) (code_step names st)
    refine (ih _).trans ?_
    exact congrArg (Session.run names rest) hstep

end Watched

end BlockLowering
