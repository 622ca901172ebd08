import BlockLowering.Proofs.LoweringRules

/-!
# Failing expressions report once

Lowering an expression may enter the bodies of function expressions, and what is wrong there is
reported without failing the expression. Apart from that an expression reports exactly if it fails,
and then exactly once and last (`expression_reports`). The statement holds from every state.

`entered` lists the bodies that lowering an expression enters, each with the state in which it is
entered. `Accounts` says what such a list accounts for; the induction over the syntax also shows
that lowering never takes back a record (`Lower.KeepsRecords`).
-/

namespace BlockLowering

open IR Diagnostic Source

/-! ## The log -/

namespace Lower

variable {α β : Type} {x : Lower α} {f : α → Lower β}

/-- Records are only added. -/
def KeepsRecords (x : Lower α) : Prop := ∀ s, s.log.records <+: (x.run s).2.log.records

theorem Silent.keepsRecords (hx : Silent x) : KeepsRecords x := by
  intro s
  exact ⟨[], by rw [hx s, List.append_nil]⟩

theorem KeepsRecords.pure (a : α) : KeepsRecords (pure a : Lower α) := (Silent.pure a).keepsRecords

theorem KeepsRecords.bind (hx : KeepsRecords x) (hf : ∀ a, KeepsRecords (f a)) :
    KeepsRecords (x >>= f) := by
  intro s
  exact (hx s).trans (hf _ _)

/-- What follows is done only if there is a value. -/
theorem KeepsRecords.ifSome {y : Lower (Option α)} {g : Option α → Lower Unit} (hy : KeepsRecords y)
    (hnone : g none = Pure.pure ()) (hsome : ∀ a, KeepsRecords (g (some a))) :
    KeepsRecords (y >>= g) := by
  apply KeepsRecords.bind hy
  intro value
  cases value with
  | none =>
    rw [hnone]
    exact .pure ()
  | some a => exact hsome a

theorem keepsRecords_report (p : Problem) : KeepsRecords (report p) :=
  fun _ => List.prefix_append _ _

theorem keepsRecords_reject (construct : String) (span : Span) :
    KeepsRecords (reject construct span) :=
  keepsRecords_report _

theorem keepsRecords_inBlock (b : BlockId) {body : Lower Unit} (h : KeepsRecords body) :
    KeepsRecords (inBlock b body) :=
  .bind (fun _ => List.prefix_refl _) fun _ => .bind h fun _ => (silent_closeBlock b).keepsRecords

variable (names : SymbolTable)

theorem keepsRecords_ascription? (written : Option Ascription) :
    KeepsRecords (ascription? names written) := by
  cases written with
  | none => exact .pure _
  | some a =>
    intro s
    unfold ascription?
    rw [run_bind, run_get]
    cases s.resolveType names a with
    | ok type => exact List.prefix_refl _
    | error problem => exact keepsRecords_report problem s

theorem keepsRecords_parameter (body : BlockId) (p : Parameter) :
    KeepsRecords (parameter names body p) := by
  obtain ⟨kind, pattern, type, initial, span⟩ := p
  unfold parameter
  cases kind with
  | optional => exact keepsRecords_reject _ _
  | rest => exact keepsRecords_reject _ _
  | positional =>
    cases initial with
    | some e => exact keepsRecords_reject _ _
    | none =>
      cases pattern with
      | array => exact keepsRecords_reject _ _
      | object => exact keepsRecords_reject _ _
      | identifier id =>
        refine .bind (keepsRecords_ascription? names type) fun type => ?_
        exact .bind (silent_addDecl _ _ _ _ _).keepsRecords fun _ => .pure _

theorem keepsRecords_parameters (body : BlockId) (params : List Parameter) :
    KeepsRecords (parameters names body params) := by
  induction params with
  | nil => exact .pure _
  | cons p rest ih => exact .bind (keepsRecords_parameter names body p) fun _ => ih

theorem keepsRecords_typeParameters (params : List TypeParameter) :
    KeepsRecords (typeParameters params) := by
  unfold typeParameters
  cases typeParamsSpan? params with
  | some span => exact keepsRecords_reject _ span
  | none => exact .pure _

theorem keepsRecords_functionBody (body : BlockId) (typeParams : List TypeParameter)
    (params : List Parameter) {statements : Lower Unit} (h : KeepsRecords statements) :
    KeepsRecords (functionBody names body typeParams params statements) := by
  refine .bind (keepsRecords_typeParameters typeParams) fun _ => ?_
  exact keepsRecords_inBlock body (.bind (keepsRecords_parameters names body params) fun _ => h)

end Lower

/-! ## Bodies that are entered -/

/-- The parts of a function expression that lowering looks at. -/
structure FunctionCode where
  typeParams : List TypeParameter
  params : List Parameter
  body : Source.Block

mutual

/-- The outermost function expressions among those parts of an expression that lowering can come to,
in the order in which it comes to them: the right side of an assignment is lowered first. -/
def Source.Expression.functions : Expression → List FunctionCode
  | .binary _ left right _ => left.functions ++ right.functions
  | .assignment _ left right _ => right.functions ++ left.functions
  | .call callee _ args _ => callee.functions ++ functionsOfAll args
  | .function _ typeParams params _ body _ => [⟨typeParams, params, body⟩]
  | .parenthesized inner _ => inner.functions
  | _ => []

def functionsOfAll : List Expression → List FunctionCode
  | [] => []
  | e :: rest => e.functions ++ functionsOfAll rest

end

/-- The body of a function, about to be lowered into `block`. -/
structure Entry where
  start : Session
  block : BlockId
  code : FunctionCode

/-- What follows a value, if there is one. -/
def ifValue {α β : Type} (r : Option α × Session) (next : α → Session → List β) : List β :=
  match r.1 with
  | some a => next a r.2
  | none => []

section

variable (names : SymbolTable)

namespace Entry

/-- The state after the body. -/
def finish (x : Entry) : Session :=
  ((Lower.functionBody names x.block x.code.typeParams x.code.params
    (Lower.group names x.code.body)).run x.start).2

/-- What is reported in the body: type parameters, parameters and statements. -/
def reported (x : Entry) : List Record :=
  (x.finish names).log.records.drop x.start.log.records.length

end Entry

mutual

/-- The bodies that lowering an expression enters, in order. -/
def entered : Expression → Session → List Entry
  | .binary operator left right _, s =>
    match operator.toIR? with
    | none => []
    | some _ =>
      entered left s ++
        ifValue ((Lower.expression names left).run s) fun _ t => entered right t
  | .assignment operator left right span, s =>
    match operator with
    | .assign =>
      let current := Lower.currentBlock.run s
      let temp := (Lower.freshTemp current.1 span).run current.2
      entered right temp.2 ++
        ifValue ((Lower.expression names right).run temp.2) fun value t =>
          entered left
            ((Lower.addStmt current.1 (.assign ⟨temp.1, span⟩ value span)).run t).2
    | _ => []
  | .call callee typeArgs args _, s =>
    match ascriptionsSpan? typeArgs with
    | some _ => []
    | none =>
      entered callee s ++
        ifValue ((Lower.expression names callee).run s) fun _ t => enteredAll args t
  | .function _ typeParams params _ body _, s =>
    let parent := Lower.currentBlock.run s
    let block := (Lower.createChild parent.1 body.span).run parent.2
    [⟨block.2, block.1, ⟨typeParams, params, body⟩⟩]
  | .parenthesized inner _, s => entered inner s
  | _, _ => []

def enteredAll : List Expression → Session → List Entry
  | [], _ => []
  | e :: rest, s =>
    entered e s ++ ifValue ((Lower.expression names e).run s) fun _ t => enteredAll rest t

end

/-- The bodies are entered one after another: nothing is reported before the first, between two of
them, or taken back. -/
def Consecutive : List Record → List Entry → Prop
  | _, [] => True
  | before, x :: rest =>
    x.start.log.records = before ∧ (x.finish names).log.records = before ++ x.reported names ∧
      Consecutive (before ++ x.reported names) rest

/-- What is reported from `s` to `t` is what is reported in the bodies and, unless there is a value,
one more problem; the bodies are the first of the functions, and all of them if there is a value. -/
structure Accounts (bodies : List Entry) (functions : List FunctionCode) (value : Bool)
    (s t : Session) : Prop where
  consecutive : Consecutive names s.log.records bodies
  records : ∃ failure : List Problem, failure.length = (if value then 0 else 1) ∧
    t.log.records = s.log.records ++ bodies.flatMap (Entry.reported names) ++
      failure.map Problem.record
  first : bodies.map Entry.code <+: functions
  complete : value = true → bodies.map Entry.code = functions

end

section

variable {names : SymbolTable} {s t u : Session} {bodies bodies' : List Entry}
  {functions functions' : List FunctionCode} {value : Bool}

theorem consecutive_append (before : List Record) (xs ys : List Entry) :
    Consecutive names before (xs ++ ys) ↔
      Consecutive names before xs ∧
        Consecutive names (before ++ xs.flatMap (Entry.reported names)) ys := by
  induction xs generalizing before with
  | nil => simp [Consecutive]
  | cons x rest ih =>
    simp only [List.cons_append, Consecutive, ih, List.flatMap_cons, List.append_assoc, and_assoc]

namespace Accounts

theorem nothing (s : Session) : Accounts names [] [] true s s :=
  ⟨trivial, ⟨[], rfl, by simp⟩, List.prefix_refl _, fun _ => rfl⟩

/-- A problem is reported and there is no value, whatever functions there would be. -/
theorem problem (p : Problem) (s : Session) :
    Accounts names [] functions false s ((Lower.report p).run s).2 :=
  ⟨trivial, ⟨[p], rfl, by simp [Lower.report, Log.push]; rfl⟩, List.nil_prefix,
    fun h => absurd h Bool.false_ne_true⟩

/-- What is silent before. -/
theorem after_silent (hlog : t.log = s.log) (h : Accounts names bodies functions value t u) :
    Accounts names bodies functions value s u := by
  obtain ⟨hcon, hrec, hfirst, hcomplete⟩ := h
  rw [hlog] at hcon hrec
  exact ⟨hcon, hrec, hfirst, hcomplete⟩

/-- After a value, lowering goes on. -/
theorem seq (h : Accounts names bodies functions true s t)
    (h' : Accounts names bodies' functions' value t u) :
    Accounts names (bodies ++ bodies') (functions ++ functions') value s u := by
  obtain ⟨failure, hnone, ht⟩ := h.records
  obtain rfl : failure = [] := List.length_eq_zero_iff.1 hnone
  rw [List.map_nil, List.append_nil] at ht
  have hcodes := h.complete rfl
  refine ⟨?_, ?_, ?_, ?_⟩
  · rw [consecutive_append, ← ht]
    exact ⟨h.consecutive, h'.consecutive⟩
  · obtain ⟨failure, hlength, hu⟩ := h'.records
    refine ⟨failure, hlength, ?_⟩
    rw [hu, ht, List.flatMap_append]
    simp only [List.append_assoc]
  · rw [List.map_append, hcodes]
    exact (List.prefix_append_right_inj functions).2 h'.first
  · intro hvalue
    rw [List.map_append, hcodes, h'.complete hvalue]

/-- After a failure, the functions that would have come next are not entered. -/
theorem stop (h : Accounts names bodies functions false s t) (more : List FunctionCode) :
    Accounts names (bodies ++ []) (functions ++ more) false s t := by
  rw [List.append_nil]
  exact ⟨h.consecutive, h.records, h.first.trans (List.prefix_append _ _),
    fun hvalue => absurd hvalue Bool.false_ne_true⟩

/-- What was reported before stays. -/
theorem keepsRecords (h : Accounts names bodies functions value s t) :
    s.log.records <+: t.log.records := by
  obtain ⟨failure, _, ht⟩ := h.records
  rw [ht, List.append_assoc]
  exact List.prefix_append _ _

end Accounts

/-! ## Rules for values -/

variable {α β : Type} {x : Lower (Option α)} {f : Option α → Lower (Option β)}

variable (names) in
/-- From `s`, the report of `x` is accounted for by the bodies and the failure, if it fails. -/
def Accounted (x : Lower (Option α)) (s : Session) (bodies : List Entry)
    (functions : List FunctionCode) : Prop :=
  Accounts names bodies functions (x.run s).1.isSome s (x.run s).2

namespace Accounted

theorem pure (a : α) (s : Session) : Accounted names (pure (some a)) s [] [] := .nothing s

theorem reject (construct : String) (span : Span) (s : Session) (functions : List FunctionCode) :
    Accounted names (do Lower.reject construct span; return (none : Option α)) s [] functions :=
  .problem _ s

theorem bind_silent {γ : Type} {y : Lower γ} {g : γ → Lower (Option β)} (hy : Lower.Silent y)
    (h : Accounted names (g (y.run s).1) (y.run s).2 bodies functions) :
    Accounted names (y >>= g) s bodies functions :=
  Accounts.after_silent (hy s) h

/-- A value is needed for what follows. -/
theorem bind {next : α → Session → List Entry} (hx : Accounted names x s bodies functions)
    (hnone : f none = Pure.pure none)
    (hsome : ∀ a t, Accounted names (f (some a)) t (next a t) functions') :
    Accounted names (x >>= f) s (bodies ++ ifValue (x.run s) next) (functions ++ functions') := by
  unfold Accounted at hx ⊢
  rw [Lower.run_bind]
  generalize x.run s = r at hx ⊢
  obtain ⟨_ | a, t⟩ := r
  · rw [hnone]
    exact hx.stop functions'
  · exact hx.seq (hsome a t)

/-- No body is entered after the value. -/
theorem finish (hx : Accounted names x s bodies functions) (hnone : f none = Pure.pure none)
    (hsome : ∀ a t, Accounted names (f (some a)) t [] []) :
    Accounted names (x >>= f) s bodies functions := by
  have h : Accounted names (x >>= f) s (bodies ++ ifValue (x.run s) fun _ _ => [])
      (functions ++ []) := hx.bind hnone hsome
  have hnext : ifValue (x.run s) (fun _ _ => ([] : List Entry)) = [] := by
    unfold ifValue
    cases (x.run s).1 <;> rfl
  rw [hnext, List.append_nil, List.append_nil] at h
  exact h

end Accounted

end

/-! ## Lowering -/

section

variable (names : SymbolTable)

theorem accounted_resolveName (id : Ident) (s : Session) :
    Accounted names (do return (← Lower.resolveName names id).map Expr.ref) s [] [] := by
  unfold Lower.resolveName
  simp only [bind_assoc]
  refine .bind_silent Lower.silent_currentBlock (.bind_silent (Lower.silent_lookup _ _) ?_)
  rw [Lower.run_lookup_eq]
  dsimp only
  cases (Lower.currentBlock.run s).2.arena.lookup? (Lower.currentBlock.run s).1
      (names.resolve id.name) with
  | some decl => exact .nothing _
  | none => exact .problem _ _

/-- One function expression is one body. -/
theorem accounted_function (id : Option Ident) (typeParams : List TypeParameter)
    (params : List Parameter) (result : Option Ascription) (body : Source.Block) (span : Span)
    (hbody : Lower.KeepsRecords (Lower.group names body)) (s : Session) :
    Accounted names (Lower.expression names (.function id typeParams params result body span)) s
      (entered names (.function id typeParams params result body span) s)
      [⟨typeParams, params, body⟩] := by
  rw [Lower.expression, Lowering.expression, entered]
  refine .bind_silent Lower.silent_currentBlock ?_
  refine .bind_silent (Lower.silent_createChild _ _) ?_
  generalize (Lower.createChild (Lower.currentBlock.run s).1 body.span).run
    (Lower.currentBlock.run s).2 = block
  obtain ⟨block, t⟩ := block
  have hadded := Lower.keepsRecords_functionBody names block typeParams params hbody t
  obtain ⟨added, hadded⟩ := hadded
  have hreported : Entry.reported names ⟨t, block, ⟨typeParams, params, body⟩⟩ = added := by
    unfold Entry.reported Entry.finish
    rw [← hadded, List.drop_left]
  refine ⟨⟨rfl, ?_, trivial⟩, ⟨[], rfl, ?_⟩, List.prefix_refl _, fun _ => rfl⟩
  · rw [hreported, hadded]
    rfl
  · simp only [List.flatMap_cons, List.flatMap_nil, List.append_nil, List.map_nil]
    rw [hreported, hadded]
    rfl

-- By recursion along the syntax. Expressions are accounted for, and statements need no more than
-- that nothing is taken back: that is what makes the report of a body an addition to the log.
mutual

theorem accounted_expression (e : Expression) (s : Session) :
    Accounted names (Lower.expression names e) s (entered names e s) e.functions := by
  cases e with
  | int value span => exact .pure _ s
  | float value span => exact .pure _ s
  | identifier id =>
    rw [Lower.expression, Lowering.expression]
    exact accounted_resolveName names id s
  | binary operator left right span =>
    rw [Lower.expression, Lowering.expression, entered, Expression.functions]
    cases operator.toIR? with
    | none => exact .reject _ _ s _
    | some op =>
      refine .bind (accounted_expression left s) rfl fun lhs t => ?_
      exact .finish (accounted_expression right t) rfl fun rhs u => .pure _ u
  | assignment operator left right span =>
    cases operator with
    | assign =>
      rw [Lower.expression, Lowering.expression, entered, Expression.functions]
      refine .bind_silent Lower.silent_currentBlock ?_
      refine .bind_silent (Lower.silent_freshTemp _ _) ?_
      refine .bind (accounted_expression right _) rfl fun value t => ?_
      refine .bind_silent (Lower.silent_addStmt _ _) ?_
      refine .finish (accounted_expression left _) rfl fun target u => ?_
      cases target with
      | ref target => exact .bind_silent (Lower.silent_addStmt _ _) (.pure _ _)
      | _ => exact .reject _ _ u _
    | _ => exact .reject _ _ s _
  | call callee typeArgs args span =>
    rw [Lower.expression, Lowering.expression, entered, Expression.functions]
    cases ascriptionsSpan? typeArgs with
    | some place => exact .reject _ _ s _
    | none =>
      refine .bind (accounted_expression callee s) rfl fun callee t => ?_
      exact .finish (accounted_expressions args t) rfl fun args u => .pure _ u
  | function id typeParams params result body span =>
    exact accounted_function names id typeParams params result body span (keepsRecords_group body) s
  | parenthesized inner span =>
    rw [Lower.expression, Lowering.expression, entered, Expression.functions]
    exact accounted_expression inner s
  | _ => exact .reject _ _ s _

theorem accounted_expressions (es : List Expression) (s : Session) :
    Accounted names (Lower.expressions names es) s (enteredAll names es s)
      (functionsOfAll es) := by
  cases es with
  | nil => exact .pure _ s
  | cons e rest =>
    rw [Lower.expressions, Lowering.expressions, enteredAll, functionsOfAll]
    refine .bind (accounted_expression e s) rfl fun value t => ?_
    exact .finish (accounted_expressions rest t) rfl fun values u => .pure _ u

theorem keepsRecords_initialValue (b : BlockId) (target : DeclRef) (span : Span)
    (initial : Option Expression) :
    Lower.KeepsRecords (Lower.initialValue names b target span initial) := by
  cases initial with
  | none => exact .pure _
  | some e =>
    rw [Lower.initialValue, Lowering.initialValue]
    apply Lower.KeepsRecords.ifSome (fun s => (accounted_expression e s).keepsRecords) rfl
    intro value
    exact (Lower.silent_addStmt _ _).keepsRecords

theorem keepsRecords_variableDecl (d : VariableDecl) :
    Lower.KeepsRecords (Lower.variableDecl names d) := by
  obtain ⟨kind, pattern, type, initial, span⟩ := d
  cases pattern with
  | identifier id =>
    rw [Lower.variableDecl, Lowering.variableDecl]
    refine .bind (Lower.keepsRecords_ascription? names type) fun type => ?_
    refine .bind Lower.silent_currentBlock.keepsRecords fun b => ?_
    refine .bind (Lower.silent_addDecl _ _ _ _ _).keepsRecords fun decl => ?_
    exact keepsRecords_initialValue b _ span initial
  | _ => exact Lower.keepsRecords_reject _ _

theorem keepsRecords_functionDecl (d : FunctionDecl) :
    Lower.KeepsRecords (Lower.functionDecl names d) := by
  obtain ⟨id, typeParams, params, result, body, span⟩ := d
  rw [Lower.functionDecl, Lowering.functionDecl]
  refine .bind Lower.silent_currentBlock.keepsRecords fun b => ?_
  refine .bind (Lower.silent_addDecl _ _ _ _ _).keepsRecords fun decl => ?_
  refine .bind (Lower.silent_linkHoisted _ _ _).keepsRecords fun _ => ?_
  refine .bind (Lower.silent_createChild _ _).keepsRecords fun bodyBlock => ?_
  refine .bind (Lower.silent_addStmt _ _).keepsRecords fun _ => ?_
  exact Lower.keepsRecords_functionBody names bodyBlock typeParams params (keepsRecords_group body)

theorem keepsRecords_group (braces : Source.Block) :
    Lower.KeepsRecords (Lower.group names braces) := by
  obtain ⟨statements, span⟩ := braces
  rw [Lower.group, Lowering.group]
  exact keepsRecords_statementList statements

theorem keepsRecords_statementAt (branch : Bool) (st : Statement) :
    Lower.KeepsRecords (Lower.statementAt names branch st) := by
  cases st with
  | variableDecl d =>
    rw [Lower.statementAt, Lowering.statementAt]
    exact keepsRecords_variableDecl d
  | functionDecl d =>
    rw [Lower.statementAt, Lowering.statementAt]
    exact keepsRecords_functionDecl d
  | namespaceDecl id members span =>
    rw [Lower.statementAt, Lowering.statementAt]
    refine .bind Lower.silent_currentBlock.keepsRecords fun parent => ?_
    refine .bind (Lower.silent_createChild _ _).keepsRecords fun b => ?_
    exact Lower.keepsRecords_inBlock b (keepsRecords_statementList members)
  | expression value span =>
    rw [Lower.statementAt, Lowering.statementAt]
    apply Lower.KeepsRecords.ifSome (fun s => (accounted_expression value s).keepsRecords) rfl
    intro value
    refine .bind Lower.silent_currentBlock.keepsRecords fun b => ?_
    exact (Lower.silent_addStmt b _).keepsRecords
  | ifElse condition thenBranch elseBranch span =>
    rw [Lower.statementAt, Lowering.statementAt]
    apply Lower.KeepsRecords.ifSome (fun s => (accounted_expression condition s).keepsRecords) rfl
    intro cond
    refine .bind Lower.silent_currentBlock.keepsRecords fun b => ?_
    refine .bind (Lower.silent_createChild _ _).keepsRecords fun thenBlock => ?_
    refine .bind (Lower.silent_elseBlock? _ _).keepsRecords fun elseBlock => ?_
    refine .bind (Lower.silent_addStmt _ _).keepsRecords fun _ => ?_
    have hthen := keepsRecords_statementAt true thenBranch
    refine .bind (Lower.keepsRecords_inBlock _ hthen) fun _ => ?_
    exact keepsRecords_elseBody elseBlock elseBranch
  | whileLoop condition body span =>
    rw [Lower.statementAt, Lowering.statementAt]
    apply Lower.KeepsRecords.ifSome (fun s => (accounted_expression condition s).keepsRecords) rfl
    intro cond
    refine .bind Lower.silent_currentBlock.keepsRecords fun b => ?_
    refine .bind (Lower.silent_createChild _ _).keepsRecords fun bodyBlock => ?_
    refine .bind (Lower.silent_addStmt _ _).keepsRecords fun _ => ?_
    exact Lower.keepsRecords_inBlock _ (keepsRecords_statementAt true body)
  | block braces =>
    rw [Lower.statementAt, Lowering.statementAt]
    cases branch with
    | true => exact keepsRecords_group braces
    | false =>
      refine .bind Lower.silent_currentBlock.keepsRecords fun parent => ?_
      refine .bind (Lower.silent_createChild _ _).keepsRecords fun b => ?_
      exact Lower.keepsRecords_inBlock b (keepsRecords_group braces)
  | empty span => exact .pure _
  | _ => exact Lower.keepsRecords_reject _ _

theorem keepsRecords_elseBody (b : Option BlockId) (branch : Option Statement) :
    Lower.KeepsRecords (Lower.elseBody names b branch) := by
  cases branch with
  | none => cases b <;> exact .pure _
  | some st =>
    cases b with
    | none => exact .pure _
    | some b =>
      rw [Lower.elseBody, Lowering.elseBody]
      exact Lower.keepsRecords_inBlock b (keepsRecords_statementAt true st)

theorem keepsRecords_statementList (statements : List Statement) :
    Lower.KeepsRecords (Lower.statementList names statements) := by
  cases statements with
  | nil => exact .pure _
  | cons st rest =>
    rw [Lower.statementList, Lowering.statementList]
    exact .bind (keepsRecords_statementAt false st) fun _ => keepsRecords_statementList rest

end

/-- From every state, what lowering an expression reports is what is reported in the function bodies
it enters, in order, and then exactly one problem if it fails and none if it has a value. All
functions are entered if it has a value, and the first ones if it fails. -/
theorem expression_reports (e : Expression) (s : Session) :
    let after := (Lower.expression names e).run s
    let bodies := entered names e s
    Consecutive names s.log.records bodies ∧
      (∃ failure : List Problem, failure.length = (if after.1.isSome then 0 else 1) ∧
        after.2.log.records = s.log.records ++ bodies.flatMap (Entry.reported names) ++
          failure.map Problem.record) ∧
      bodies.map Entry.code <+: e.functions ∧
      (after.1.isSome = true → bodies.map Entry.code = e.functions) ∧
      (e.functions = [] →
        after.2.log.records.length =
          s.log.records.length + (if after.1.isSome then 0 else 1)) := by
  intro after bodies
  have h := accounted_expression names e s
  refine ⟨h.consecutive, h.records, h.first, h.complete, fun hnone => ?_⟩
  obtain ⟨failure, hlength, hrecords⟩ := h.records
  have hbodies : bodies = [] := by
    have hfirst := h.first
    rw [hnone] at hfirst
    exact List.map_eq_nil_iff.1 (List.prefix_nil.1 hfirst)
  rw [hrecords, List.length_append, List.length_append, List.length_map, hlength]
  show _ + (bodies.flatMap _).length + _ = _
  rw [hbodies]
  rfl

end

end BlockLowering
