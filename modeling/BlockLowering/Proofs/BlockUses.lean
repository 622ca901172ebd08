import Mathlib.Data.List.Count
import Mathlib.Data.List.Nodup
import BlockLowering.Proofs.Books

/-!
# Uses of blocks

A statement names the blocks of its branches, and an expression the bodies of its functions. No node
of a source tree stands for such a use; it is made together with the block that it names. So the
books of a use never show more than one.
-/

namespace BlockLowering

open IR Source Session

/-! ## Uses in the arena -/

namespace IR

theorem count_map_use (blocks : List BlockId) (c : BlockId) :
    (blocks.map Item.use).count (.use c) = blocks.count c :=
  List.count_map_of_injective blocks Item.use (fun _ _ h => Item.use.inj h) c

mutual

theorem Expr.count_uses (c : BlockId) (e : Expr) : e.items.count (.use c) = e.blocks.count c := by
  cases e with
  | ref | int | float => rfl
  | binary op lhs rhs span =>
    rw [Expr.count_binary, lhs.count_uses c, rhs.count_uses c, Expr.blocks, List.count_append]
    exact congrArg (· + _) (Nat.zero_add _)
  | func body span =>
    rw [Expr.count_func, Expr.blocks, ← count_map_use]
    exact Nat.zero_add _
  | call callee args span =>
    rw [Expr.count_call, callee.count_uses c, Expr.count_usesAll c args, Expr.blocks,
      List.count_append]
    exact congrArg (· + _) (Nat.zero_add _)

theorem Expr.count_usesAll (c : BlockId) (es : List Expr) :
    (Expr.itemsAll es).count (.use c) = (Expr.blocksAll es).count c := by
  cases es with
  | nil => rfl
  | cons e rest =>
    rw [Expr.itemsAll, Expr.blocksAll, List.count_append, List.count_append, e.count_uses c,
      Expr.count_usesAll c rest]

end

theorem Stmt.count_uses (c : BlockId) (st : Stmt) :
    (st.item :: st.parts).count (.use c) = st.blocks.count c := by
  have hitem : [st.item].count (.use c) = 0 := by cases st <;> rfl
  unfold Stmt.parts Stmt.blocks
  rw [Item.count_cons_eq, List.count_append, List.count_append, count_map_use, hitem,
    st.value.count_uses c, Nat.zero_add]

/-- The uses among the items of an arena are the blocks that its statements name. -/
theorem Arena.count_uses (a : Arena) (c : BlockId) :
    a.items.count (.use c) = (a.code.flatMap Stmt.blocks).count c := by
  have hdecls : (a.decls.flatMap fun d => d.kind.items).count (.use c) = 0 := by
    apply Item.count_flatMap_eq_zero
    intro d
    cases d.kind <;> rfl
  have hcode : ∀ code : List Stmt, (code.flatMap fun st => st.item :: st.parts).count (.use c) =
      (code.flatMap Stmt.blocks).count c := by
    intro code
    induction code with
    | nil => rfl
    | cons st rest ih =>
      rw [List.flatMap_cons, List.flatMap_cons, List.count_append, List.count_append,
        st.count_uses, ih]
  rw [Arena.count_items, hdecls, hcode, Nat.zero_add]
  rfl

end IR

/-! ## The books of a use -/

section

variable {names : SymbolTable} {s : Session} {c : BlockId}

theorem tally_use (c : BlockId) (visits : List Visit) : tally (.use c) visits = 0 := by
  unfold tally
  rw [count_items_nodes]
  rfl

theorem statementCost_use (c : BlockId) (branch : Bool) (st : Statement) :
    statementCost (.use c) branch st = 0 := by
  have hcost : st.cost (.use c) = 0 :=
    (tally_enterStatement st (st.inner everywhere)).symm.trans (tally_use c _)
  unfold statementCost
  rw [hcost]
  split <;> rfl

theorem books_use_run (names : SymbolTable) (steps : List Step) (c : BlockId) :
    Books (.use c) 0 0 {} (Session.run names steps {}) := by
  have hkept : Kept names anyNode (fun _ => True) (Books (.use c) 0 0 {}) := by
    constructor
    · intro s chosen _ h
      have hsame : Books (.use c) 0 0 s { s with options := chosen } :=
        .of_arena (Nat.le_refl _) rfl
      exact h.trans hsame
    · intro s m hs _ h
      have hm := books_module (.use c) hs m
      rw [tally_use] at hm
      exact h.trans hm
    · intro s st hs _ _ h
      have hst := books_statementAt (.use c) false st s hs.good
      rw [statementCost_use] at hst
      exact h.trans hst
  exact hkept.run .start (.refl _) (fun _ _ => trivial) fun _ _ _ _ => covers_anyNode _

theorem count_use_le_one (names : SymbolTable) (steps : List Step) (c : BlockId) :
    (Session.run names steps {}).arena.items.count (.use c) ≤ 1 := by
  have hbooks := (books_use_run names steps c).covered
  have hstart : ({} : Session).arena.items.count (.use c) = 0 := rfl
  have hsupply : (Session.run names steps {}).arena.supply (.use c) ≤ 1 := by
    show (if c.index < _ then 1 else 0) ≤ 1
    split <;> omega
  omega

/-- Whatever a session is asked to do, the blocks that the statements of a block name, at any depth
of their expressions, are children of that block, and no two places name the same block. -/
theorem run_blocks_named_once (names : SymbolTable) (steps : List Step) :
    let a := (Session.run names steps {}).arena
    (∀ b x, a.block? b = some x → ∀ st ∈ x.stmts, ∀ c ∈ st.blocks,
      a.parent? c = some b ∧ c ∈ x.children) ∧
    (a.code.flatMap Stmt.blocks).Nodup := by
  intro a
  have hreach := reachable_run names steps
  constructor
  · intro b x hx st hst c hc
    obtain ⟨b', hb', hparent⟩ := (hreach.good.arena.stmts b x hx st hst).blocks c hc
    obtain rfl := Option.some.inj hb'
    exact ⟨hparent, ((hreach.linked.children.children b x hx).2 c).2 hparent⟩
  · apply List.nodup_iff_count_le_one.2
    intro c
    rw [← Arena.count_uses]
    exact count_use_le_one names steps c

end

end BlockLowering
