import BlockLowering.Proofs.ArenaLinks
import BlockLowering.Proofs.Statements

/-!
# Items

An item is one piece of the IR: a declaration, a statement or a node of an expression, each without
its parts, a block inside another, or a place that names a block. `Arena.items` lists what an arena
holds, and `Node.items` what lowering makes of a node of a source tree, without what it makes of the
nodes below it. `tally` counts an item over all nodes of a tree.
-/

namespace BlockLowering

open IR Source

inductive Item where
  | ifElse | whileLoop | drop | assign
  | localVar | param | function | temporary
  | call | binary | func
  /-- A block inside another. -/
  | block
  /-- A place that names the block. -/
  | use (block : BlockId)
deriving DecidableEq, Repr

def Item.isUse : Item → Bool
  | use _ => true
  | _ => false

theorem Item.count_use {i : Item} (h : i.isUse = false) (b : BlockId) : [use b].count i = 0 := by
  cases i with
  | use => cases h
  | _ => rfl

theorem Item.count_cons_eq (x : Item) (l : List Item) (i : Item) :
    (x :: l).count i = [x].count i + l.count i := by
  show ([x] ++ l).count i = _
  rw [List.count_append]

/-- The form of `count_cons_eq` that stops at the last item. -/
theorem Item.count_cons_cons (x y : Item) (l : List Item) (i : Item) :
    (x :: y :: l).count i = [x].count i + (y :: l).count i := count_cons_eq x (y :: l) i

theorem Item.count_flatMap_eq_zero {α : Type} {f : α → List Item} {i : Item}
    (h : ∀ x, (f x).count i = 0) (l : List α) : (l.flatMap f).count i = 0 := by
  induction l with
  | nil => rfl
  | cons x rest ih => rw [List.flatMap_cons, List.count_append, h, ih]

/-! ## Items of the IR -/

namespace IR

/-- A placeholder stands for no declaration of the program. -/
def DeclKind.items : DeclKind → List Item
  | .localVar => [.localVar]
  | .param => [.param]
  | .function => [.function]
  | .temporary => [.temporary]
  | .placeholder _ => []

mutual

def Expr.items : Expr → List Item
  | .ref .. | .int .. | .float .. => []
  | .binary _ lhs rhs _ => .binary :: (lhs.items ++ rhs.items)
  | .func body _ => [.func, .use body]
  | .call callee args _ => .call :: (callee.items ++ Expr.itemsAll args)

def Expr.itemsAll : List Expr → List Item
  | [] => []
  | e :: rest => e.items ++ Expr.itemsAll rest

end

/-- The statement itself. -/
def Stmt.item : Stmt → Item
  | .assign .. => .assign
  | .drop .. => .drop
  | .ifElse .. => .ifElse
  | .whileLoop .. => .whileLoop

/-- What a statement is made of. -/
def Stmt.parts (st : Stmt) : List Item := st.branches.map .use ++ st.value.items

section

variable {i : Item} {lhs rhs callee : Expr} {args : List Expr} {span : Span}

theorem Expr.count_binary {op : BinaryOp} : (Expr.binary op lhs rhs span).items.count i =
    [Item.binary].count i + lhs.items.count i + rhs.items.count i := by
  rw [items, Item.count_cons_eq, List.count_append, Nat.add_assoc]

theorem Expr.count_call : (Expr.call callee args span).items.count i =
    [Item.call].count i + callee.items.count i + (Expr.itemsAll args).count i := by
  rw [items, Item.count_cons_eq, List.count_append, Nat.add_assoc]

theorem Expr.count_func {body : BlockId} : (Expr.func body span).items.count i =
    [Item.func].count i + [Item.use body].count i := by
  rw [items, Item.count_cons_eq]

theorem Stmt.count_ifElse {cond : Expr} {thenBlock : BlockId} {elseBlock : Option BlockId} :
    (Stmt.ifElse cond thenBlock elseBlock span).parts.count i =
      [Item.use thenBlock].count i + (elseBlock.toList.map Item.use).count i +
        cond.items.count i := by
  show ((Item.use thenBlock :: elseBlock.toList.map Item.use) ++ cond.items).count i = _
  rw [List.count_append, Item.count_cons_eq]

theorem Stmt.count_whileLoop {cond : Expr} {body : BlockId} :
    (Stmt.whileLoop cond body span).parts.count i =
      [Item.use body].count i + cond.items.count i := by
  show ([Item.use body] ++ cond.items).count i = _
  rw [List.count_append]

end

namespace Arena

/-- The number of blocks that are no roots. -/
def nested (a : Arena) : Nat := a.blocks.countP fun x => !x.isRoot

/-- Everything that the arena holds. -/
def items (a : Arena) : List Item :=
  a.decls.flatMap (fun d => d.kind.items) ++ a.code.flatMap (fun st => st.item :: st.parts) ++
    .replicate a.nested .block

/-- Every block can be named once. -/
def supply (a : Arena) : Item → Nat
  | .use b => if b.index < a.blocks.length then 1 else 0
  | _ => 0

variable {a a' : Arena} {b : BlockId} {i : Item}

theorem nested_add_roots (a : Arena) : a.nested + a.roots.length = a.blocks.length := by
  have hsplit := List.length_eq_countP_add_countP Block.isRoot (l := a.blocks)
  unfold nested roots
  rw [List.length_map, ← List.countP_eq_length_filter, hsplit, Nat.add_comm]
  simp

theorem count_items (a : Arena) (i : Item) : a.items.count i =
    (a.decls.flatMap fun d => d.kind.items).count i +
      (a.code.flatMap fun st => st.item :: st.parts).count i +
      a.nested * [Item.block].count i := by
  unfold items
  rw [List.count_append, List.count_append, List.count_replicate, List.count_singleton]
  split <;> simp

/-- Statements, declarations and blocks are as before. -/
theorem count_items_of_same (hdecls : a'.decls = a.decls) (hcode : a'.code = a.code)
    (hsize : a'.blocks.length = a.blocks.length) (hroots : a'.roots = a.roots) :
    a'.items.count i = a.items.count i := by
  have hnested := a.nested_add_roots
  have hnested' := a'.nested_add_roots
  rw [hroots, hsize] at hnested'
  rw [count_items, count_items, hdecls, hcode, Nat.add_right_cancel (hnested'.trans hnested.symm)]

theorem count_items_withSealed (a : Arena) (b : BlockId) :
    (a.withSealed b).items.count i = a.items.count i := by
  refine count_items_of_same rfl ?_ (length_withSealed a b) (roots_withSealed a b)
  unfold code
  rw [bodies_withSealed]

theorem count_items_createRoot (a : Arena) (span : Span) :
    (a.createRoot span).1.items.count i = a.items.count i := by
  have hcode : (a.createRoot span).1.code = a.code :=
    code_of_bodies (n := 1) (bodies_allocBlock a none span)
  have hnested := a.nested_add_roots
  have hnested' := (a.createRoot span).1.nested_add_roots
  have hsize : (a.createRoot span).1.blocks.length = a.blocks.length + 1 :=
    length_allocBlock a none span
  rw [roots_createRoot, List.length_append, List.length_singleton, hsize] at hnested'
  rw [count_items, count_items, hcode, show (a.createRoot span).1.nested = a.nested by omega]
  rfl

theorem count_items_withChild (a : Arena) (b : BlockId) (span : Span) :
    (a.withChild b span).items.count i = a.items.count i + [Item.block].count i := by
  have hcode : (a.withChild b span).code = a.code :=
    code_of_bodies (n := 1) (bodies_withChild a b span)
  have hnested := a.nested_add_roots
  have hnested' := (a.withChild b span).nested_add_roots
  rw [roots_withChild, length_withChild] at hnested'
  rw [count_items, count_items, hcode, show (a.withChild b span).nested = a.nested + 1 by omega,
    Nat.add_mul, Nat.one_mul, ← Nat.add_assoc]
  rfl

theorem count_items_withDecls (a : Arena) (b : BlockId) (ds : List Decl) :
    (a.withDecls b ds).items.count i =
      a.items.count i + (ds.flatMap fun d => d.kind.items).count i := by
  have hcode : (a.withDecls b ds).code = a.code := by
    unfold code
    rw [bodies_withDecls]
  have hnested := a.nested_add_roots
  have hnested' := (a.withDecls b ds).nested_add_roots
  rw [roots_withDecls, length_withDecls] at hnested'
  have hdecls : (a.withDecls b ds).decls = a.decls ++ ds := rfl
  rw [count_items, count_items, hcode, hdecls, List.flatMap_append, List.count_append,
    show (a.withDecls b ds).nested = a.nested by omega]
  omega

theorem count_items_withDecl (a : Arena) (b : BlockId) (d : Decl) :
    (a.withDecl b d).items.count i = a.items.count i + d.kind.items.count i := by
  have h := a.count_items_withDecls (i := i) b [d]
  rwa [List.flatMap_cons, List.flatMap_nil, List.append_nil] at h

/-- A placeholder is no item, linked or not. -/
theorem count_items_withLink {p : DeclId} {x : Decl} (hx : a.decl? p = some x)
    (hfree : x.kind = .placeholder none) (target : DeclId) :
    (a.withLink p target).items.count i = a.items.count i := by
  have hmap : (a.withLink p target).decls.map (fun d => d.kind.items) =
      a.decls.map fun d => d.kind.items := by
    apply List.ext_getElem?
    intro k
    rw [List.getElem?_map, List.getElem?_map]
    show ((a.withLink p target).decl? ⟨k⟩).map _ = (a.decl? ⟨k⟩).map _
    rw [decl?_withLink]
    by_cases hk : (⟨k⟩ : DeclId) = p
    · rw [if_pos hk, hk, hx, Option.map_some, Option.map_some, Option.map_some, hfree]
      rfl
    · rw [if_neg hk]
  rw [count_items, count_items, List.flatMap_def, hmap, ← List.flatMap_def]
  rfl

theorem count_items_withStmt (hb : b.index < a.blocks.length) (st : Stmt) :
    (a.withStmt b st).items.count i =
      a.items.count i + ([st.item].count i + st.parts.count i) := by
  have hcode := ((code_withStmt hb st).flatMap_right fun st => st.item :: st.parts).count_eq i
  rw [List.flatMap_cons, List.count_append, Item.count_cons_eq] at hcode
  have hnested := a.nested_add_roots
  have hnested' := (a.withStmt b st).nested_add_roots
  have hroots : (a.withStmt b st).roots = a.roots :=
    roots_updateBlock (fun _ => rfl) fun _ => rfl
  have hdecls : (a.withStmt b st).decls = a.decls := rfl
  rw [hroots, length_withStmt] at hnested'
  rw [count_items, count_items, hcode, hdecls,
    show (a.withStmt b st).nested = a.nested by omega]
  omega

theorem supply_mono (hsize : a.blocks.length ≤ a'.blocks.length) : a.supply i ≤ a'.supply i := by
  cases i with
  | use c =>
    show (if c.index < a.blocks.length then 1 else 0) ≤ if c.index < a'.blocks.length then 1 else 0
    split <;> split <;> omega
  | _ => exact Nat.le_refl 0

/-- A new block brings its own use. -/
theorem supply_newBlock (hsize : a'.blocks.length = a.blocks.length + 1) :
    a'.supply i = a.supply i + [Item.use ⟨a.blocks.length⟩].count i := by
  cases i with
  | use c =>
    obtain ⟨k⟩ := c
    show (if k < a'.blocks.length then 1 else 0) = (if k < a.blocks.length then 1 else 0) + _
    rw [hsize, List.count_singleton]
    simp only [beq_iff_eq, Item.use.injEq, BlockId.mk.injEq]
    split <;> split <;> split <;> omega
  | _ => rfl

end Arena

end IR

/-! ## Items of source trees -/

namespace Source

def Statement.isGroup : Statement → Bool
  | .block _ => true
  | _ => false

/-- Every brace group in a list of statements has a block. -/
def groupItems (sts : List Statement) : List Item :=
  sts.flatMap fun st => if st.isGroup then [.block] else []

/-- What becomes of every node of a kind. -/
def Kind.makes : Kind → List Item
  | .parameter => [.param]
  | .binary => [.binary]
  | .assignment => [.temporary, .assign, .assign]
  | .call => [.call]
  | .functionExpression => [.func, .block]
  | .variableDecl => [.localVar]
  | .functionDecl => [.function, .assign, .func, .block]
  | .namespaceDecl => [.block]
  | .expressionStatement => [.drop]
  | .ifElse => [.ifElse, .block]
  | .whileLoop => [.whileLoop, .block]
  | _ => []

namespace Node

/-- A variable declaration with an initial value. -/
def isInitialized : Node → Bool
  | .statement (.variableDecl decl) => decl.initial.isSome
  | _ => false

/-- An `if` with an `else` branch. -/
def hasElse : Node → Bool
  | .statement (.ifElse _ _ elseBranch _) => elseBranch.isSome
  | _ => false

/-- The statements that a node lists. The branches of an `if` and the bodies of loops stand
alone. -/
def listed : Node → List Statement
  | .module m => m.statements
  | .statement (.block group) => group.statements
  | .statement (.namespaceDecl _ members _) => members
  | .statement (.exportDecl declaration _) => [declaration]
  | .switchCase c => c.consequent
  | _ => []

/-- What becomes of a node, without the nodes below it. -/
def items (n : Node) : List Item :=
  n.kind.makes ++ (if n.isInitialized then [.assign] else []) ++
    (if n.hasElse then [.block] else []) ++ groupItems n.listed

end Node

end Source

/-- The node of a visit by kind; a traversal reaches every node by kind exactly once. -/
def Source.Visit.node? (v : Visit) : Option Node :=
  match v.hook with
  | .kind _ => some v.subject
  | _ => none

/-- How often the nodes that are visited stand for the item. -/
def tally (i : Item) (visits : List Visit) : Nat :=
  ((visits.filterMap Visit.node?).flatMap Node.items).count i

/-! ## Items by kind -/

/-- The kinds of nodes that stand for an item, each as often as one such node does. -/
def Item.kinds : Item → List Kind
  | ifElse => [.ifElse]
  | whileLoop => [.whileLoop]
  | drop => [.expressionStatement]
  | assign => [.functionDecl, .assignment, .assignment]
  | localVar => [.variableDecl]
  | param => [.parameter]
  | function => [.functionDecl]
  | temporary => [.assignment]
  | call => [.call]
  | binary => [.binary]
  | func => [.functionExpression, .functionDecl]
  | block => [.functionDecl, .functionExpression, .namespaceDecl, .whileLoop, .ifElse]
  | use _ => []

theorem count_makes (k : Kind) (i : Item) : k.makes.count i = i.kinds.count k := by
  cases i <;> cases k <;> rfl

/-- The number of nodes of a kind. -/
def ofKind (k : Kind) (nodes : List Node) : Nat := nodes.countP fun n => n.kind == k

/-- The number of nodes of some kinds, a kind that is repeated being counted again. -/
def ofKinds : List Kind → List Node → Nat
  | [], _ => 0
  | k :: rest, nodes => ofKind k nodes + ofKinds rest nodes

theorem ofKinds_nil (ks : List Kind) : ofKinds ks [] = 0 := by
  induction ks with
  | nil => rfl
  | cons k rest ih => rw [ofKinds, ih]; rfl

theorem ofKinds_cons (ks : List Kind) (n : Node) (nodes : List Node) :
    ofKinds ks (n :: nodes) = ks.count n.kind + ofKinds ks nodes := by
  induction ks with
  | nil => rfl
  | cons k rest ih =>
    have hfirst : ofKind k (n :: nodes) = ofKind k nodes + if n.kind == k then 1 else 0 :=
      List.countP_cons
    have hcount : (k :: rest).count n.kind = rest.count n.kind + if k == n.kind then 1 else 0 :=
      List.count_cons
    rw [ofKinds, ofKinds, ih, hfirst, hcount, BEq.comm (a := k)]
    omega

theorem Item.count_ite (c : Bool) (x i : Item) :
    (if c then [x] else []).count i = (if c then 1 else 0) * [x].count i := by
  cases c with
  | true => exact (Nat.one_mul _).symm
  | false => exact (Nat.zero_mul _).symm

theorem count_groupItems (sts : List Statement) (i : Item) :
    (groupItems sts).count i = sts.countP Statement.isGroup * [Item.block].count i := by
  unfold groupItems
  induction sts with
  | nil => exact (Nat.zero_mul _).symm
  | cons st rest ih =>
    rw [List.flatMap_cons, List.count_append, ih, Item.count_ite, List.countP_cons, Nat.add_mul,
      Nat.add_comm]

/-- What becomes of nodes depends on their kinds, and apart from that only on initial values, `else`
branches and the brace groups that they list. -/
theorem count_items_nodes (nodes : List Node) (i : Item) :
    (nodes.flatMap Node.items).count i = ofKinds i.kinds nodes +
      nodes.countP Node.isInitialized * [Item.assign].count i +
      nodes.countP Node.hasElse * [Item.block].count i +
      (nodes.flatMap Node.listed).countP Statement.isGroup * [Item.block].count i := by
  induction nodes with
  | nil =>
    rw [ofKinds_nil]
    simp
  | cons n rest ih =>
    have hnode : n.items.count i = i.kinds.count n.kind +
        (if n.isInitialized then 1 else 0) * [Item.assign].count i +
        (if n.hasElse then 1 else 0) * [Item.block].count i +
        n.listed.countP Statement.isGroup * [Item.block].count i := by
      unfold Node.items
      rw [List.count_append, List.count_append, List.count_append, count_makes, Item.count_ite,
        Item.count_ite, count_groupItems]
    rw [List.flatMap_cons, List.count_append, ih, hnode, ofKinds_cons, List.flatMap_cons,
      List.countP_append, List.countP_cons, List.countP_cons, Nat.add_mul, Nat.add_mul, Nat.add_mul]
    omega

section

variable {i : Item}

@[simp] theorem tally_nil : tally i [] = 0 := rfl

@[simp] theorem tally_append (l r : List Visit) : tally i (l ++ r) = tally i l + tally i r := by
  unfold tally
  rw [List.filterMap_append, List.flatMap_append, List.count_append]

@[simp] theorem tally_enterKind (n : Node) (below : List Visit) :
    tally i (enterKind everywhere n below) = n.items.count i + tally i below :=
  List.count_append

@[simp] theorem tally_enterStatement (st : Statement) (below : List Visit) :
    tally i (enterStatement everywhere st below) =
      (Node.statement st).items.count i + tally i below :=
  tally_enterKind (.statement st) below

@[simp] theorem tally_enterExpression (e : Expression) (below : List Visit) :
    tally i (enterExpression everywhere e below) =
      (Node.expression e).items.count i + tally i below :=
  tally_enterKind (.expression e) below

@[simp] theorem tally_visitIdent (id : Ident) : tally i (visitIdent everywhere id) = 0 := rfl

/-! ## Types make no items -/

theorem tally_typeName (name : TypeName) : tally i (name.inner everywhere) = 0 := by
  induction name with
  | simple head span => rfl
  | qualified head rest span ih =>
    simp only [TypeName.inner, tally_append, tally_visitIdent, tally_enterKind, ih]
    rfl

mutual

theorem tally_ascription (a : Ascription) : tally i (a.inner everywhere) = 0 := by
  cases a with
  | mk type span =>
    simp only [Ascription.inner, tally_enterKind, tally_typeExpr type]
    cases type <;> rfl

theorem tally_typeExpr (type : TypeExpr) : tally i (type.inner everywhere) = 0 := by
  cases type with
  | reference name args span =>
    simp only [TypeExpr.inner, tally_append, tally_enterKind, tally_typeName,
      tally_ascriptions args]
    rfl
  | function params result span =>
    simp only [TypeExpr.inner, tally_append, tally_enterKind, tally_typeParams params,
      tally_ascription result]
    rfl
  | array element span =>
    simp only [TypeExpr.inner, tally_enterKind, tally_ascription element]
    rfl
  | union members span =>
    simp only [TypeExpr.inner, tally_ascriptions members]

theorem tally_ascriptions (as : List Ascription) :
    tally i (innerAscriptions everywhere as) = 0 := by
  cases as with
  | nil => rfl
  | cons a rest =>
    simp only [innerAscriptions, tally_append, tally_enterKind, tally_ascription a,
      tally_ascriptions rest]
    rfl

theorem tally_typeParams (params : List FunctionTypeParam) :
    tally i (innerTypeParams everywhere params) = 0 := by
  cases params with
  | nil => rfl
  | cons p rest =>
    cases p with
    | mk name type =>
      have hname : tally i (name.toList.flatMap (visitIdent everywhere)) = 0 := by
        cases name <;> rfl
      simp only [innerTypeParams, tally_append, hname, tally_enterKind, tally_ascription type,
        tally_typeParams rest]
      rfl

end

@[simp] theorem tally_visitAscription (a : Ascription) :
    tally i (visitAscription everywhere a) = 0 := by
  unfold visitAscription
  rw [tally_enterKind, tally_ascription]
  rfl

/-- What every member of a list makes. -/
theorem tally_flatMap_eq_zero {α : Type} {f : α → List Visit} (h : ∀ x, tally i (f x) = 0)
    (l : List α) : tally i (l.flatMap f) = 0 := by
  induction l with
  | nil => rfl
  | cons x rest ih => rw [List.flatMap_cons, tally_append, h, ih]

@[simp] theorem tally_visitTypeParameter (p : TypeParameter) :
    tally i (visitTypeParameter everywhere p) = 0 := by
  unfold visitTypeParameter TypeParameter.inner
  simp only [tally_enterKind, tally_append, tally_visitIdent,
    tally_flatMap_eq_zero tally_visitAscription]
  rfl

/-! ## The cost of a tree -/

/-- How often an expression, with all nodes below it, stands for the item. -/
def Source.Expression.cost (i : Item) (e : Expression) : Nat :=
  (Node.expression e).items.count i + tally i (e.inner everywhere)

def Source.Statement.cost (i : Item) (st : Statement) : Nat :=
  (Node.statement st).items.count i + tally i (st.inner everywhere)

/-- A statement in a list or as a branch. A brace group that is no branch has a block. -/
def statementCost (i : Item) (branch : Bool) (st : Statement) : Nat :=
  (if st.isGroup && !branch then [Item.block].count i else 0) + st.cost i

def statementsCost (i : Item) (sts : List Statement) : Nat :=
  (groupItems sts).count i + tally i (innerStatements everywhere sts)

def expressionsCost (i : Item) (es : List Expression) : Nat :=
  tally i (innerExpressions everywhere es)

def parametersCost (i : Item) (params : List Parameter) : Nat :=
  tally i (innerParams everywhere params)

namespace Source.Expression

variable {left right callee inner : Expression} {args : List Expression} {span : Span}

theorem cost_binary {operator : BinaryOperator} :
    (Expression.binary operator left right span).cost i =
      [Item.binary].count i + left.cost i + right.cost i := by
  unfold cost
  simp only [Expression.inner, tally_append, tally_enterExpression, ← Nat.add_assoc]
  rfl

theorem cost_assignment {operator : AssignmentOperator} :
    (Expression.assignment operator left right span).cost i =
      [Item.temporary].count i + 2 * [Item.assign].count i + left.cost i + right.cost i := by
  have hmade : (Node.expression (.assignment operator left right span)).items =
      [.temporary, .assign, .assign] := rfl
  unfold cost
  simp only [Expression.inner, tally_append, tally_enterExpression, hmade, Item.count_cons_cons]
  omega

theorem cost_call {typeArgs : List Ascription} :
    (Expression.call callee typeArgs args span).cost i =
      [Item.call].count i + callee.cost i + expressionsCost i args := by
  unfold cost expressionsCost
  simp only [Expression.inner, tally_append, tally_enterExpression,
    tally_flatMap_eq_zero tally_visitAscription, Nat.add_zero, ← Nat.add_assoc]
  rfl

theorem cost_function {name : Option Ident} {typeParams : List TypeParameter}
    {params : List Parameter} {result : Option Ascription} {body : Source.Block} :
    (Expression.function name typeParams params result body span).cost i =
      [Item.func].count i + [Item.block].count i + parametersCost i params +
        statementsCost i body.statements := by
  have hmade : (Node.expression (.function name typeParams params result body span)).items =
      [.func, .block] := rfl
  have hbody : (Node.block body).items = groupItems body.statements := rfl
  obtain ⟨statements, place⟩ := body
  unfold cost parametersCost statementsCost
  simp only [Expression.inner, Block.inner, tally_append, tally_enterKind,
    tally_flatMap_eq_zero tally_visitIdent, tally_flatMap_eq_zero tally_visitAscription,
    tally_flatMap_eq_zero tally_visitTypeParameter, hmade, hbody, Item.count_cons_cons]
  omega

theorem cost_parenthesized : (Expression.parenthesized inner span).cost i = inner.cost i := by
  unfold cost
  simp only [Expression.inner, tally_enterExpression]
  exact Nat.zero_add _

end Source.Expression

theorem expressionsCost_cons (e : Expression) (rest : List Expression) :
    expressionsCost i (e :: rest) = e.cost i + expressionsCost i rest := by
  unfold expressionsCost
  rw [innerExpressions, tally_append, tally_enterExpression]
  rfl

theorem parametersCost_cons (p : Parameter) (rest : List Parameter) :
    parametersCost i (p :: rest) =
      [Item.param].count i + tally i (p.inner everywhere) + parametersCost i rest := by
  unfold parametersCost
  rw [innerParams, tally_append, tally_enterKind]
  rfl

theorem statementsCost_cons (st : Statement) (rest : List Statement) :
    statementsCost i (st :: rest) =
      statementCost i false st + statementsCost i rest := by
  have hgroup : (groupItems (st :: rest)).count i =
      (if st.isGroup then [Item.block].count i else 0) + (groupItems rest).count i := by
    unfold groupItems
    rw [List.flatMap_cons, List.count_append]
    split <;> rfl
  unfold statementsCost statementCost Statement.cost
  rw [Bool.not_false, Bool.and_true, hgroup, innerStatements, tally_append, tally_enterStatement]
  omega

theorem tally_module (m : Module) :
    tally i ((Node.module m).visits everywhere) = statementsCost i m.statements :=
  tally_enterKind (.module m) (innerStatements everywhere m.statements)

theorem statementCost_branch (st : Statement) : statementCost i true st = st.cost i := by
  unfold statementCost
  rw [Bool.not_true, Bool.and_false]
  exact Nat.zero_add _

theorem statementCost_of_not_group {st : Statement} (h : st.isGroup = false) (branch : Bool) :
    statementCost i branch st = st.cost i := by
  unfold statementCost
  rw [h, Bool.false_and]
  exact Nat.zero_add _

namespace Source.Statement

variable {condition value : Expression} {thenBranch body : Statement}
  {elseBranch : Option Statement} {members : List Statement} {span : Span}

theorem cost_variableDecl {kind : VariableKind} {id : Ident} {type : Option Ascription}
    {initial : Option Expression} :
    (Statement.variableDecl ⟨kind, .identifier id, type, initial, span⟩).cost i =
      [Item.localVar].count i + (initial.elim 0 fun e => [Item.assign].count i + e.cost i) := by
  have hpattern : tally i (visitPattern everywhere (.identifier id)) = 0 := rfl
  unfold cost
  simp only [Statement.inner, VariableDecl.inner, tally_append, hpattern,
    tally_flatMap_eq_zero tally_visitAscription]
  cases initial with
  | none => rfl
  | some e =>
    have hmade :
        (Node.statement (.variableDecl ⟨kind, .identifier id, type, some e, span⟩)).items =
          [.localVar, .assign] := rfl
    simp only [innerExpression?, tally_enterExpression, hmade, Item.count_cons_cons,
      Option.elim_some]
    unfold Expression.cost
    omega

theorem cost_functionDecl {name : Ident} {typeParams : List TypeParameter}
    {params : List Parameter} {result : Option Ascription} {body : Source.Block} :
    (Statement.functionDecl ⟨name, typeParams, params, result, body, span⟩).cost i =
      [Item.function].count i + [Item.assign].count i + [Item.func].count i +
        [Item.block].count i + parametersCost i params + statementsCost i body.statements := by
  have hmade :
      (Node.statement (.functionDecl ⟨name, typeParams, params, result, body, span⟩)).items =
        [.function, .assign, .func, .block] := rfl
  have hbody : (Node.block body).items = groupItems body.statements := rfl
  obtain ⟨statements, place⟩ := body
  unfold cost parametersCost statementsCost
  simp only [Statement.inner, FunctionDecl.inner, Block.inner, tally_append, tally_enterKind,
    tally_visitIdent, tally_flatMap_eq_zero tally_visitAscription,
    tally_flatMap_eq_zero tally_visitTypeParameter, hmade, hbody, Item.count_cons_cons]
  omega

theorem cost_namespaceDecl {name : Ident} :
    (Statement.namespaceDecl name members span).cost i =
      [Item.block].count i + statementsCost i members := by
  have hmade : (Node.statement (.namespaceDecl name members span)).items =
      .block :: groupItems members := rfl
  unfold cost statementsCost
  simp only [Statement.inner, tally_append, tally_visitIdent, hmade]
  rw [Item.count_cons_eq]
  omega

theorem cost_expression :
    (Statement.expression value span).cost i = [Item.drop].count i + value.cost i := by
  unfold cost
  simp only [Statement.inner, tally_enterExpression]
  rfl

theorem cost_ifElse :
    (Statement.ifElse condition thenBranch elseBranch span).cost i =
      [Item.ifElse].count i + [Item.block].count i + condition.cost i + thenBranch.cost i +
        (elseBranch.elim 0 fun st => [Item.block].count i + st.cost i) := by
  cases elseBranch with
  | none =>
    have hmade : (Node.statement (.ifElse condition thenBranch none span)).items =
        [.ifElse, .block] := rfl
    unfold cost
    simp only [Statement.inner, innerStatement?, tally_append, tally_enterExpression,
      tally_enterStatement, tally_nil, hmade, Item.count_cons_cons, Option.elim_none]
    unfold Expression.cost
    omega
  | some st =>
    have hmade : (Node.statement (.ifElse condition thenBranch (some st) span)).items =
        [.ifElse, .block, .block] := rfl
    unfold cost
    simp only [Statement.inner, innerStatement?, tally_append, tally_enterExpression,
      tally_enterStatement, hmade, Item.count_cons_cons, Option.elim_some]
    unfold Expression.cost
    omega

theorem cost_whileLoop :
    (Statement.whileLoop condition body span).cost i =
      [Item.whileLoop].count i + [Item.block].count i + condition.cost i + body.cost i := by
  have hmade : (Node.statement (.whileLoop condition body span)).items = [.whileLoop, .block] := rfl
  unfold cost
  simp only [Statement.inner, tally_append, tally_enterExpression, tally_enterStatement, hmade,
    Item.count_cons_cons]
  unfold Expression.cost
  omega

theorem cost_block (group : Source.Block) :
    (Statement.block group).cost i = statementsCost i group.statements := by
  obtain ⟨statements, place⟩ := group
  unfold cost statementsCost
  simp only [Statement.inner, Block.inner]
  rfl

end Source.Statement

end

end BlockLowering
