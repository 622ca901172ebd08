import BlockLowering.Proofs.Books

/-!
# A census of the IR

Where nothing is reported, nothing is lost and nothing is made twice: the statements, declarations,
expressions and blocks in the arena are as many as the nodes of the source tree that stand for them.
-/

namespace BlockLowering

open IR Source Session

/-! ## Blocks among the items -/

namespace IR

mutual

/-- Blocks are no parts of expressions, which only name them. -/
theorem Expr.count_block (e : Expr) : e.items.count .block = 0 := by
  cases e with
  | ref | int | float | func => rfl
  | binary op lhs rhs span =>
    rw [Expr.count_binary, lhs.count_block, rhs.count_block]
    rfl
  | call callee args span =>
    rw [Expr.count_call, callee.count_block, Expr.count_blockAll args]
    rfl

theorem Expr.count_blockAll (es : List Expr) : (Expr.itemsAll es).count .block = 0 := by
  cases es with
  | nil => rfl
  | cons e rest => rw [Expr.itemsAll, List.count_append, e.count_block, Expr.count_blockAll rest]

end

theorem Stmt.count_block (st : Stmt) : (st.item :: st.parts).count .block = 0 := by
  have hitem : [st.item].count .block = 0 := by cases st <;> rfl
  have hbranches : (st.branches.map Item.use).count .block = 0 := by
    apply List.count_eq_zero.2
    simp
  unfold Stmt.parts
  rw [Item.count_cons_eq, List.count_append, hitem, hbranches, st.value.count_block]

theorem Arena.count_block (a : Arena) : a.items.count .block = a.nested := by
  have hdecls : (a.decls.flatMap fun d => d.kind.items).count .block = 0 := by
    apply Item.count_flatMap_eq_zero
    intro d
    cases d.kind <;> rfl
  have hcode : (a.code.flatMap fun st => st.item :: st.parts).count .block = 0 :=
    Item.count_flatMap_eq_zero Stmt.count_block a.code
  rw [Arena.count_items, hdecls, hcode]
  exact (Nat.zero_add _).trans (Nat.mul_one _)

end IR

/-! ## Counting nodes -/

namespace Source.Module

/-- All nodes of the tree of a module, each once. -/
def nodes (m : Module) : List Node := ((Node.module m).visits everywhere).filterMap Visit.node?

def count (m : Module) (k : Kind) : Nat := ofKind k m.nodes

/-- Variable declarations with an initial value. -/
def initialized (m : Module) : Nat := m.nodes.countP Node.isInitialized

/-- `if` statements with an `else` branch. -/
def elses (m : Module) : Nat := m.nodes.countP Node.hasElse

/-- Brace groups that stand in a list of statements, and not as the branch of an `if`, as the body
of a loop or as the body of a function. -/
def freeGroups (m : Module) : Nat := (m.nodes.flatMap Node.listed).countP Statement.isGroup

end Source.Module

/-- The arena holds exactly what the module stands for. -/
structure Census (m : Module) (a : Arena) : Prop where
  ifElse : a.items.count .ifElse = m.count .ifElse
  whileLoop : a.items.count .whileLoop = m.count .whileLoop
  drop : a.items.count .drop = m.count .expressionStatement
  assign : a.items.count .assign =
    m.initialized + m.count .functionDecl + 2 * m.count .assignment
  localVar : a.items.count .localVar = m.count .variableDecl
  param : a.items.count .param = m.count .parameter
  function : a.items.count .function = m.count .functionDecl
  temporary : a.items.count .temporary = m.count .assignment
  call : a.items.count .call = m.count .call
  binary : a.items.count .binary = m.count .binary
  func : a.items.count .func = m.count .functionExpression + m.count .functionDecl
  blocks : a.blocks.length = 2 + m.count .functionDecl + m.count .functionExpression +
    m.count .namespaceDecl + m.count .whileLoop + m.count .ifElse + m.elses + m.freeGroups

section

variable {names : SymbolTable} {m : Module} {options : Options}

/-- What the source tree pays is all in the arena, together with the block of the body. -/
theorem count_lowerModule (h : (lowerModule names m options).log.records = []) {i : Item}
    (hi : i.isUse = false) :
    (lowerModule names m options).arena.items.count i = [Item.block].count i +
      (ofKinds i.kinds m.nodes + m.initialized * [Item.assign].count i +
        m.elses * [Item.block].count i + m.freeGroups * [Item.block].count i) := by
  have hstart : Reachable names anyNode { ({} : Session) with options } :=
    Reachable.start.options options
  have hbooks := books_module i hstart m
  have hproblems : (lowerModule names m options).problems = 0 := by
    unfold Session.problems
    rw [h]
    rfl
  have heven := hbooks.even hi hproblems
  unfold tally at heven
  rw [count_items_nodes] at heven
  exact heven.trans (Nat.zero_add _)

/-- A module has one root. -/
theorem roots_lowerModule (names : SymbolTable) (m : Module) (options : Options) :
    (lowerModule names m options).arena.roots.length = 1 := by
  have hstart : Reachable names anyNode { ({} : Session) with options } :=
    Reachable.start.options options
  obtain ⟨hroots, hopen⟩ := addsRoots_module hstart m
  exact (hroots.roots hopen).length_eq

/-- If lowering a module reports nothing, nothing of it is lost or duplicated, under all options. -/
theorem lowerModule_census (names : SymbolTable) (m : Module) (options : Options)
    (h : (lowerModule names m options).log.records = []) :
    Census m (lowerModule names m options).arena where
  -- For most items all summands but the kinds of nodes are zero by computation.
  ifElse := (count_lowerModule h rfl).trans (Nat.zero_add _)
  whileLoop := (count_lowerModule h rfl).trans (Nat.zero_add _)
  drop := (count_lowerModule h rfl).trans (Nat.zero_add _)
  assign := by
    have hcount : (lowerModule names m options).arena.items.count .assign =
        0 + (m.count .functionDecl + (m.count .assignment + (m.count .assignment + 0)) +
          m.initialized * 1 + m.elses * 0 + m.freeGroups * 0) := count_lowerModule h rfl
    omega
  localVar := (count_lowerModule h rfl).trans (Nat.zero_add _)
  param := (count_lowerModule h rfl).trans (Nat.zero_add _)
  function := (count_lowerModule h rfl).trans (Nat.zero_add _)
  temporary := (count_lowerModule h rfl).trans (Nat.zero_add _)
  call := (count_lowerModule h rfl).trans (Nat.zero_add _)
  binary := (count_lowerModule h rfl).trans (Nat.zero_add _)
  func := (count_lowerModule h rfl).trans (Nat.zero_add _)
  blocks := by
    have hcount : (lowerModule names m options).arena.items.count .block =
        1 + (m.count .functionDecl + (m.count .functionExpression + (m.count .namespaceDecl +
          (m.count .whileLoop + (m.count .ifElse + 0)))) +
          m.initialized * 0 + m.elses * 1 + m.freeGroups * 1) := count_lowerModule h rfl
    have hroots := roots_lowerModule names m options
    have hall := (lowerModule names m options).arena.nested_add_roots
    rw [Arena.count_block] at hcount
    omega

/-- `function f(p) { while (p) { if (p) x = p + 1; else { { f(p); } } } }` after `let x = 1;`: every
form of statement is counted, and the inner one of the two brace groups in the `else` branch has a
block of its own. -/
theorem census_of_nested_statements :
    let names : SymbolTable := ⟨["x", "f", "p"]⟩
    let x : Ident := ⟨⟨0⟩, .synthetic⟩
    let f : Ident := ⟨⟨1⟩, .synthetic⟩
    let p : Ident := ⟨⟨2⟩, .synthetic⟩
    let start : Statement :=
      .variableDecl ⟨.letBinding, .identifier x, none, some (.int 1 .synthetic), .synthetic⟩
    let store : Expression := .assignment .assign (.identifier x)
      (.binary .add (.identifier p) (.int 1 .synthetic) .synthetic) .synthetic
    let call : Expression := .call (.identifier f) [] [.identifier p] .synthetic
    let inner : Statement := .block ⟨[.expression call .synthetic], .synthetic⟩
    let test : Statement := .ifElse (.identifier p) (.expression store .synthetic)
      (some (.block ⟨[inner], .synthetic⟩)) .synthetic
    let loop : Statement := .whileLoop (.identifier p) (.block ⟨[test], .synthetic⟩) .synthetic
    let declaration : Statement := .functionDecl ⟨f, [],
      [⟨.positional, .identifier p, none, none, .synthetic⟩], none, ⟨[loop], .synthetic⟩, .synthetic⟩
    let m : Module := ⟨[start, declaration], .synthetic⟩
    (lowerModule names m {}).log.records = [] ∧ Census m (lowerModule names m {}).arena ∧
      m.freeGroups = 1 := by
  intro names x f p start store call inner test loop declaration m
  have hsilent : (lowerModule names m {}).log.records = [] := by decide +kernel
  have hfree : m.freeGroups = 1 := by decide +kernel
  exact ⟨hsilent, lowerModule_census names m {} hsilent, hfree⟩

end

end BlockLowering
