import Mathlib.Algebra.BigOperators.Group.List.Basic
import BlockLowering.Proofs.ArenaLinks
import BlockLowering.Proofs.ListedLines

/-!
# Listings show the whole tree

A listing follows the children of blocks through the arena. `Preorder` is the order in which it
comes to them, as a relation: it has a result only if every child is there and the walk ends. Where
the links between blocks agree, the walk from the roots exists (`exists_preorder`), passes every
block once (`Preorder.perm_blocks`) and is what the recursion of the listing writes, up to the first
line that is too deep (`Preorder.mapM_blockLines`). So there is a listing exactly if no line is too
deep (`list_eq_error_iff`).
-/

namespace BlockLowering.IR.Arena

variable {a : Arena} {b c : BlockId} {x : Block} {ids : List BlockId} {order : List Block}

/-- The blocks of a forest, depth first: a block, then the forest of its children, then the rest. -/
inductive Preorder (a : Arena) : List BlockId → List Block → Prop
  | nil : Preorder a [] []
  | cons {b : BlockId} {x : Block} {rest : List BlockId} {below after : List Block}
      (block : a.block? b = some x) (children : Preorder a x.children below)
      (others : Preorder a rest after) : Preorder a (b :: rest) (x :: (below ++ after))

/-- The number of blocks around a block. -/
def depth (a : Arena) (b : BlockId) : Nat := (a.ancestors b).tail.length

theorem depth_of_parent? (h : a.ParentsBelow) {p : BlockId} (hp : a.parent? b = some p) :
    a.depth b = a.depth p + 1 := by
  unfold depth
  rw [ancestors_eq_cons h hp, List.tail_cons]
  unfold ancestors
  rw [chain_succ, List.tail_cons, List.length_cons]

theorem depth_of_root (h : a.parent? b = none) : a.depth b = 0 := by
  unfold depth
  rw [ancestors_eq_singleton h]
  rfl

/-- Blocks keep their depth. -/
theorem Grows.depth {a' : Arena} (g : a.Grows a') (ha : a.ParentsBelow) (ha' : a'.ParentsBelow)
    (hb : b.index < a.blocks.length) : a'.depth b = a.depth b := by
  unfold Arena.depth
  rw [ancestors_congr ha ha' g.parent hb g.size]

namespace ChildrenListed

variable (h : a.ChildrenListed)
include h

theorem parent?_of_mem (hx : a.block? b = some x) (hc : c ∈ x.children) : a.parent? c = some b :=
  ((h.children b x hx).2 c).1 hc

/-- Children are in the arena, after their parent. -/
theorem index_of_mem (hx : a.block? b = some x) (hc : c ∈ x.children) :
    b.index < c.index ∧ c.index < a.blocks.length := by
  have hparent := h.parent?_of_mem hx hc
  exact ⟨h.parents c b hparent, index_lt_of_parent? hparent⟩

/-- The walk ends: the numbers grow from parent to child, and there are finitely many. -/
theorem exists_preorder (hids : ∀ b ∈ ids, b.index < a.blocks.length) :
    ∃ order, a.Preorder ids order := by
  suffices hbound : ∀ n, ∀ ids : List BlockId,
      (∀ b ∈ ids, b.index < a.blocks.length ∧ a.blocks.length ≤ b.index + n) →
        ∃ order, a.Preorder ids order by
    apply hbound a.blocks.length ids
    intro b hb
    have hlt := hids b hb
    omega
  intro n
  induction n with
  | zero =>
    intro ids hids
    cases ids with
    | nil => exact ⟨[], .nil⟩
    | cons b rest =>
      have hb := hids b List.mem_cons_self
      omega
  | succ n ih =>
    intro ids
    induction ids with
    | nil => exact fun _ => ⟨[], .nil⟩
    | cons b rest ihrest =>
      intro hids
      have hb := hids b List.mem_cons_self
      obtain ⟨x, hx⟩ : ∃ x, a.block? b = some x := ⟨_, List.getElem?_eq_getElem hb.1⟩
      obtain ⟨below, hbelow⟩ := ih x.children fun c hc => by
        have hindex := h.index_of_mem hx hc
        omega
      obtain ⟨after, hafter⟩ := ihrest fun c hc => hids c (List.mem_cons_of_mem _ hc)
      exact ⟨_, .cons hx hbelow hafter⟩

/-- A block stands at its number. -/
theorem block?_id (hx : x ∈ a.blocks) : a.block? x.id = some x := by
  obtain ⟨i, hi, hget⟩ := List.mem_iff_getElem.1 hx
  have hblock : a.block? ⟨i⟩ = some x := by
    rw [← hget]
    exact List.getElem?_eq_getElem hi
  rw [h.ids _ _ hblock, hblock]

/-- The blocks in the order of the arena. -/
theorem enumerates_blocks :
    Enumerates BlockId.index (fun c => c.index < a.blocks.length) (a.blocks.map Block.id) := by
  have hids : a.blocks.map Block.id = (List.range a.blocks.length).map BlockId.mk := by
    apply List.ext_getElem
    · rw [List.length_map, List.length_map, List.length_range]
    · intro i hi _
      rw [List.length_map] at hi
      rw [List.getElem_map, List.getElem_map, List.getElem_range]
      exact h.ids ⟨i⟩ _ (List.getElem?_eq_getElem hi)
  rw [hids]
  constructor
  · rw [List.pairwise_map]
    exact List.pairwise_lt_range
  · intro c
    rw [List.mem_map]
    constructor
    · rintro ⟨i, hi, rfl⟩
      exact List.mem_range.1 hi
    · intro hlt
      exact ⟨c.index, List.mem_range.2 hlt, rfl⟩

/-- The roots in the order of the arena. -/
theorem enumerates_roots : Enumerates BlockId.index
    (fun c => c.index < a.blocks.length ∧ a.parent? c = none) a.roots := by
  constructor
  · have hsub : a.roots.Sublist (a.blocks.map Block.id) := List.filter_sublist.map _
    exact h.enumerates_blocks.1.sublist hsub
  · intro c
    unfold roots
    rw [List.mem_map]
    constructor
    · rintro ⟨x, hx, rfl⟩
      obtain ⟨hmem, hroot⟩ := List.mem_filter.1 hx
      have hblock := h.block?_id hmem
      rw [parent?_eq hblock]
      exact ⟨index_lt_of_block? hblock, Option.isNone_iff_eq_none.1 hroot⟩
    · rintro ⟨hlt, hparent⟩
      have hblock : a.block? c = some a.blocks[c.index] := List.getElem?_eq_getElem hlt
      refine ⟨_, List.mem_filter.2 ⟨List.getElem_mem hlt, ?_⟩, h.ids c _ hblock⟩
      rw [parent?_eq hblock] at hparent
      exact Option.isNone_iff_eq_none.2 hparent

end ChildrenListed

namespace Preorder

/-- What is passed is what the walk starts from and what is listed on the way. -/
theorem perm_children (hlisted : a.ChildrenListed) (h : a.Preorder ids order) :
    (order.map Block.id).Perm (ids ++ order.flatMap Block.children) := by
  induction h with
  | nil => exact .refl _
  | @cons b x rest below after hx hbelow hafter ihbelow ihafter =>
    rw [List.map_cons, hlisted.ids b x hx, List.map_append, List.flatMap_cons, List.flatMap_append,
      List.cons_append]
    refine .cons b ?_
    refine (ihbelow.append ihafter).trans ?_
    rw [List.perm_iff_count]
    intro c
    simp only [List.count_append]
    omega

/-- A block is listed as a child as often as its parent is passed. -/
theorem count_children (hlisted : a.ChildrenListed) (h : a.Preorder ids order) (c : BlockId) :
    (order.flatMap Block.children).count c =
      ((a.parent? c).map fun p => (order.map Block.id).count p).getD 0 := by
  induction h with
  | nil => cases a.parent? c <;> rfl
  | @cons b x rest below after hx hbelow hafter ihbelow ihafter =>
    have hown := (hlisted.children b x hx).count c
    rw [List.flatMap_cons, List.flatMap_append, List.count_append, List.count_append, hown, ihbelow,
      ihafter, List.map_cons, List.map_append, hlisted.ids b x hx]
    cases a.parent? c with
    | none => simp
    | some p =>
      simp only [Option.some.injEq, Option.map_some, Option.getD_some, List.count_cons,
        List.count_append, beq_iff_eq]
      by_cases hp : p = b
      · rw [if_pos hp, if_pos hp.symm]
        omega
      · rw [if_neg hp, if_neg (Ne.symm hp)]
        omega

/-- The walk from the roots passes each block once. -/
theorem count_id (hlisted : a.ChildrenListed) (h : a.Preorder a.roots order) (c : BlockId) :
    (order.map Block.id).count c = if c.index < a.blocks.length then 1 else 0 := by
  -- By induction on the number: the parent of a block has a smaller one.
  induction hn : c.index using Nat.strongRecOn generalizing c with
  | ind n ih =>
    subst hn
    rw [(h.perm_children hlisted).count_eq, List.count_append, hlisted.enumerates_roots.count,
      h.count_children hlisted]
    cases hparent : a.parent? c with
    | none => simp
    | some p =>
      have hlt := hlisted.parents c p hparent
      have hc := index_lt_of_parent? hparent
      simp only [Option.map_some, Option.getD_some, reduceCtorEq, and_false, if_false]
      rw [ih p.index hlt p rfl, if_pos (by omega), if_pos hc]

theorem filterMap_block? (hlisted : a.ChildrenListed) (h : a.Preorder ids order) :
    (order.map Block.id).filterMap a.block? = order := by
  induction h with
  | nil => rfl
  | @cons b x rest below after hx hbelow hafter ihbelow ihafter =>
    rw [List.map_cons, hlisted.ids b x hx, List.filterMap_cons_some hx, List.map_append,
      List.filterMap_append, ihbelow, ihafter]

theorem perm_blocks (hlisted : a.ChildrenListed) (h : a.Preorder a.roots order) :
    order.Perm a.blocks := by
  have hids : (order.map Block.id).Perm (a.blocks.map Block.id) := by
    rw [List.perm_iff_count]
    intro c
    rw [h.count_id hlisted, hlisted.enumerates_blocks.count]
  have hblocks : (a.blocks.map Block.id).filterMap a.block? = a.blocks := by
    rw [List.filterMap_map]
    exact (List.filterMap_congr fun x hx => hlisted.block?_id hx).trans List.filterMap_some
  have hperm := hids.filterMap a.block?
  rw [h.filterMap_block? hlisted, hblocks] at hperm
  exact hperm

/-- The recursion writes the lines of the walk, each block at its depth, up to the first line that
is refused. -/
theorem mapM_blockLines (hlisted : a.ChildrenListed) (h : a.Preorder ids order) (levels d : Nat)
    (hlevels : 2 * (d + levels) = maxIndent + 1) (hdepth : ∀ b ∈ ids, a.depth b = d) :
    (ids.mapM fun b => a.block b >>= a.blockLines levels d).map List.flatten =
      (order.flatMap fun x => a.ownLines (a.depth x.id) x).mapM id := by
  induction h generalizing levels d with
  | nil => rfl
  | @cons b x rest below after hx hbelow hafter ihbelow ihafter =>
    have hblock : a.block b = .ok x := block_eq_ok.2 hx
    have hd := hdepth b List.mem_cons_self
    rw [List.mapM_cons, hblock, List.flatMap_cons, List.mapM_append, hlisted.ids b x hx, hd]
    cases levels with
    | zero =>
      -- Here the walk comes to a header that is too deep, where the recursion has stopped.
      have hheader : lineAt d (x.id.render ++ ":") = .error .tooDeep :=
        lineAt_eq_error.2 ⟨rfl, by omega⟩
      unfold ownLines
      rw [hheader]
      rfl
    | succ n =>
      have hchildren := ihbelow n (d + 1) (by omega) fun c hc => by
        rw [depth_of_parent? hlisted.parents (hlisted.parent?_of_mem hx hc), hd]
      have hothers := ihafter (n + 1) d hlevels fun c hc => hdepth c (List.mem_cons_of_mem _ hc)
      rw [List.flatMap_append, List.mapM_append, ← hchildren, ← hothers]
      show ((a.blockLines (n + 1) d x >>= _).map List.flatten : Except Refusal _) = _
      rw [blockLines]
      cases (a.ownLines d x).mapM id with
      | error reason => rfl
      | ok own =>
        cases x.children.mapM fun c => a.block c >>= a.blockLines n (d + 1) with
        | error reason => rfl
        | ok inner =>
          cases rest.mapM fun c => a.block c >>= a.blockLines (n + 1) d with
          | error reason => rfl
          | ok others =>
            exact congrArg Except.ok (List.append_assoc own inner.flatten others.flatten)

end Preorder

/-- The walk from the roots exists and passes every block once. -/
theorem ChildrenListed.exists_walk (h : a.ChildrenListed) :
    ∃ order, a.Preorder a.roots order ∧ order.Perm a.blocks := by
  obtain ⟨order, hwalk⟩ := h.exists_preorder fun b hb => ((h.enumerates_roots.2 b).1 hb).1
  exact ⟨order, hwalk, hwalk.perm_blocks h⟩

/-- Every declaration that a block lists is there. -/
theorem Linked.decl?_isSome (h : a.Linked) {d : DeclId} (hx : x ∈ a.blocks) (hd : d ∈ x.decls) :
    (a.decl? d).isSome = true := by
  have hblock := h.children.block?_id hx
  have howner := ((h.decls.decls _ _ hblock).2 d).1 hd
  obtain ⟨decl, hdecl, _⟩ := Option.map_eq_some_iff.1 howner
  rw [hdecl]
  rfl

/-- A listing joins the lines of the walk from the roots, unless one of them is refused. -/
theorem list_eq (h : a.ChildrenListed) (hwalk : a.Preorder a.roots order) :
    a.list = ((order.flatMap fun x => a.ownLines (a.depth x.id) x).mapM id).map Line.join := by
  have hroots := h.enumerates_roots.2
  have hlines := hwalk.mapM_blockLines h (maxIndent / 2 + 1) 0 (by decide)
    fun b hb => depth_of_root ((hroots b).1 hb).2
  have htree : ∀ x ∈ a.blocks, a.linesOf x.id = a.blockLines (maxIndent / 2 + 1) 0 x := by
    intro x hx
    unfold linesOf
    rw [h.block?_id hx]
  generalize a.blockLines (maxIndent / 2 + 1) 0 = tree at hlines htree
  have htrees : (a.blocks.filter Block.isRoot).mapM (fun x => a.linesOf x.id) =
      a.roots.mapM fun b => a.block b >>= tree := by
    unfold roots
    rw [List.mapM_map]
    refine mapM_congr fun x hx => ?_
    have hmem := List.mem_of_mem_filter hx
    rw [htree x hmem, Function.comp_apply, block_eq_ok.2 (h.block?_id hmem)]
    rfl
  unfold list
  rw [htrees, ← hlines]
  cases a.roots.mapM fun b => a.block b >>= tree <;> rfl

/-- A listing is refused exactly if a line of some block is too deep. -/
theorem list_eq_error_iff (h : a.Linked) {reason : Refusal} :
    a.list = .error reason ↔
      reason = .tooDeep ∧ ∃ x ∈ a.blocks, maxIndent < 2 * (a.depth x.id + x.reach) := by
  obtain ⟨order, hwalk, hperm⟩ := h.children.exists_walk
  have hmem : ∀ reason, .error reason ∈ order.flatMap (fun x => a.ownLines (a.depth x.id) x) ↔
      reason = .tooDeep ∧ ∃ x ∈ a.blocks, maxIndent < 2 * (a.depth x.id + x.reach) := by
    intro reason
    rw [List.mem_flatMap]
    constructor
    · rintro ⟨x, hx, hline⟩
      have hx := hperm.mem_iff.1 hx
      obtain ⟨hreason, hdeep⟩ := (error_mem_ownLines fun d hd => h.decl?_isSome hx hd).1 hline
      exact ⟨hreason, x, hx, hdeep⟩
    · rintro ⟨hreason, x, hx, hdeep⟩
      exact ⟨x, hperm.mem_iff.2 hx,
        (error_mem_ownLines fun d hd => h.decl?_isSome hx hd).2 ⟨hreason, hdeep⟩⟩
  rw [list_eq h.children hwalk, ← hmem]
  rcases mapM_id_cases (order.flatMap fun x => a.ownLines (a.depth x.id) x) with
    ⟨lines, hlines, hresult⟩ | ⟨first, hfirst, hresult⟩
  · rw [hresult, hlines]
    simp [Except.map]
  · rw [hresult]
    constructor
    · intro heq
      cases heq
      exact hfirst
    · intro hreason
      rw [((hmem _).1 hfirst).1, ((hmem _).1 hreason).1]
      rfl

theorem list_eq_tooDeep (h : a.Linked) (hb : b.index < a.blocks.length)
    (hdeep : maxIndent < 2 * a.depth b) : a.list = .error .tooDeep := by
  have hblock : a.block? b = some a.blocks[b.index] := List.getElem?_eq_getElem hb
  refine (list_eq_error_iff h).2 ⟨rfl, a.blocks[b.index], List.getElem_mem hb, ?_⟩
  rw [h.children.ids b _ hblock]
  omega

/-- A listing that is not refused has the lines of the walk. -/
theorem linesIn_list (h : a.ChildrenListed) (hnames : a.NamesOnOneLine)
    (hwalk : a.Preorder a.roots order) {text : String} (htext : a.list = .ok text) :
    ∃ lines : List Line, order.flatMap (fun x => a.ownLines (a.depth x.id) x) = lines.map .ok ∧
      linesIn text = lines.map Line.render := by
  rw [list_eq h hwalk] at htext
  rcases mapM_id_cases (order.flatMap fun x => a.ownLines (a.depth x.id) x) with
    ⟨lines, hlines, hresult⟩ | ⟨first, _, hresult⟩
  · rw [hresult] at htext
    cases htext
    obtain ⟨hfirst, hone, _⟩ := filter_ownLines hnames hlines
    refine ⟨lines, hlines, linesIn_intercalate hone ?_⟩
    rw [hfirst]
    intro hempty
    obtain ⟨x, _, hx⟩ := Option.map_eq_some_iff.1 hempty
    exact header_ne_empty _ x hx
  · rw [hresult] at htext
    cases htext

end BlockLowering.IR.Arena

namespace BlockLowering

open IR Arena
open Source (Statement)

/-- For every session whose names hold no line feed: all that the listing looks up is there; the
walk from the roots to children ends and passes every block once. The listing is refused exactly if
the deepest line of some block would start with more spaces than a line can. Otherwise its lines are
those of the blocks in the order of the walk; the lines that look like headers are the headers of
the blocks in that order, each as deep as there are blocks around it; and the number of lines is the
sum over all blocks. -/
theorem list_shows_all_blocks (names : SymbolTable) (steps : List Step)
    (hnames : (Session.run names steps {}).arena.NamesOnOneLine) :
    let a := (Session.run names steps {}).arena
    (∀ x ∈ a.blocks, ∀ d ∈ x.decls, (a.decl? d).isSome = true) ∧
      (a.list = .error .tooDeep ↔
        ∃ x ∈ a.blocks, maxIndent < 2 * (a.depth x.id + x.reach)) ∧
      ∃ order, a.Preorder a.roots order ∧ order.Perm a.blocks ∧
        (a.list = .error .tooDeep ∨ ∃ text, a.list = .ok text ∧
          (∃ lines : List Line,
            order.flatMap (fun x => a.ownLines (a.depth x.id) x) = lines.map .ok ∧
              linesIn text = lines.map Line.render) ∧
          (linesIn text).filter isHeader =
            order.map (fun x => indented (a.depth x.id) (x.id.render ++ ":")) ∧
          (linesIn text).length = (a.blocks.map Block.lineCount).sum) := by
  intro a
  have hlinked : a.Linked := (reachable_run names steps).linked
  obtain ⟨order, hwalk, hperm⟩ := hlinked.children.exists_walk
  refine ⟨fun x hx d hd => hlinked.decl?_isSome hx hd, ?_, order, hwalk, hperm, ?_⟩
  · rw [list_eq_error_iff hlinked]
    exact and_iff_right rfl
  · cases hlist : a.list with
    | error reason =>
      rw [((list_eq_error_iff hlinked).1 hlist).1]
      exact .inl rfl
    | ok text =>
      obtain ⟨lines, hlines, htext⟩ := linesIn_list hlinked.children hnames hwalk hlist
      refine .inr ⟨text, rfl, ⟨lines, hlines, htext⟩, ?_, ?_⟩
      · rw [htext]
        exact (filter_ownLines hnames hlines).2.2
      · have hcount := congrArg List.length hlines
        rw [List.length_flatMap, List.length_map] at hcount
        simp only [length_ownLines] at hcount
        rw [htext, List.length_map, ← hcount]
        exact (hperm.map _).sum_eq

/-- A function with a loop and a variable that is called like a header, then a statement outside of
modules: two trees of blocks. The name of the variable adds no header. -/
theorem variable_called_like_header :
    let names : SymbolTable := ⟨["f", "BLOCK 7:"]⟩
    let declaration : Statement :=
      .variableDecl ⟨.letBinding, .identifier ⟨⟨1⟩, .synthetic⟩, none, some (.int 1 .synthetic),
        .synthetic⟩
    let loop : Statement :=
      .whileLoop (.int 0 .synthetic) (.block ⟨[declaration], .synthetic⟩) .synthetic
    let f : Statement :=
      .functionDecl ⟨⟨⟨0⟩, .synthetic⟩, [], [], none, ⟨[loop], .synthetic⟩, .synthetic⟩
    let steps : List Step := [.module ⟨[f], .synthetic⟩, .statement declaration]
    let a := (Session.run names steps {}).arena
    a.NamesOnOneLine ∧ a.decls.map Decl.name = ["f", "f", "BLOCK 7:", "BLOCK 7:"] ∧
      ∃ text, a.list = .ok text ∧ (linesIn text).length = 15 ∧
        ((linesIn text).filter isHeader).Perm
          ["BLOCK 0:", "  BLOCK 1:", "    BLOCK 2:", "      BLOCK 3:", "BLOCK 4:"] := by
  intro names declaration loop f steps a
  have hnames : a.NamesOnOneLine := ⟨by decide +kernel, by decide +kernel⟩
  have hshallow : ¬∃ x ∈ a.blocks, maxIndent < 2 * (a.depth x.id + x.reach) := by decide +kernel
  have hblocks : a.blocks.map (fun x => indented (a.depth x.id) (x.id.render ++ ":")) =
      ["BLOCK 0:", "  BLOCK 1:", "    BLOCK 2:", "      BLOCK 3:", "BLOCK 4:"] := by
    decide +kernel
  obtain ⟨_, hdeep, order, _, hperm, hrefused | ⟨text, htext, _, hheaders, hlength⟩⟩ :=
    list_shows_all_blocks names steps hnames
  · exact absurd (hdeep.1 hrefused) hshallow
  · refine ⟨hnames, by decide +kernel, text, htext, ?_, ?_⟩
    · rw [hlength]
      decide +kernel
    · rw [hheaders, ← hblocks]
      exact hperm.map _

/-! ## Deep nesting -/

/-- Brace groups, each inside the one before. -/
def nestedGroups : Nat → List Statement
  | 0 => []
  | n + 1 => [.block ⟨nestedGroups n, .synthetic⟩]

section

variable {names : SymbolTable} {s : Session} {b : BlockId}

/-- Each group has a block one deeper than the group around it, and nothing is declared. -/
theorem depth_nestedGroups (n : Nat) (hs : s.Good names anyNode) (hb : s.current? = some b) :
    After s (Lower.statementList names (nestedGroups n)) fun _ t =>
      t.arena.decls = s.arena.decls ∧
        ∃ c, c.index < t.arena.blocks.length ∧ t.arena.depth c = s.arena.depth b + n := by
  induction n generalizing s b with
  | zero =>
    simp only [nestedGroups, Lowering.statementList]
    exact ⟨rfl, b, hs.known b (Session.mem_openBlocks_of_current? hb), rfl⟩
  | succ n ih =>
    obtain ⟨x, hx, _⟩ := hs.current hb
    have hchild := does_createChild (n := 0) hs hb .synthetic
    obtain ⟨hs₁, h₁⟩ := hchild.1.good_frame hs
    obtain ⟨hfresh, _⟩ := hchild.2
    have hdecls : ((Lower.createChild b .synthetic).run s).2.arena.decls = s.arena.decls := by
      rw [Lower.run_createChild hx]
      rfl
    simp only [nestedGroups, Lowering.statementList, Lowering.statementAt, Lowering.group,
      Bool.false_eq_true, if_false, monadLift_self, Lower.inBlock]
    unfold After
    simp only [Lower.run_bind, Lower.run_currentBlock_some hb]
    generalize (Lower.createChild b .synthetic).run s = r at hs₁ h₁ hfresh hdecls ⊢
    obtain ⟨c, s₁⟩ := r
    dsimp only at hs₁ h₁ hfresh hdecls ⊢
    have hopen := hs₁.openBlock hfresh.opens
    have hinner := ih hopen rfl
    have hbody := does_statementList (nestedGroups n) (covers_anyNode _) 0 _ hopen (Nat.zero_le _)
    obtain ⟨hs₂, h₂⟩ := hbody.1.good_frame hopen
    unfold After at hinner
    generalize ((Lower.statementList names (nestedGroups n)).run ((Lower.openBlock c).run s₁).2).2 =
      s₂ at hinner hs₂ h₂ ⊢
    obtain ⟨hdecls₂, e, he, hdepth⟩ := hinner
    have hclosed := hs₂.closeBlock (h₂.current rfl)
    rw [hs₂.run_closeBlock (h₂.current rfl)] at hclosed ⊢
    have hgrows := Arena.Grows.withSealed s₂.arena c
    refine ⟨hdecls₂.trans hdecls, e, Nat.lt_of_lt_of_le he hgrows.size, ?_⟩
    calc (s₂.arena.withSealed c).depth e
        = s₂.arena.depth e := hgrows.depth hs₂.arena.parents hclosed.arena.parents he
      _ = s₁.arena.depth c + n := hdepth
      _ = s₁.arena.depth b + 1 + n := by rw [depth_of_parent? hs₁.arena.parents hfresh.parent]
      _ = s.arena.depth b + (n + 1) := by
        have hold := h₁.arena.depth hs.arena.parents hs₁.arena.parents (Arena.index_lt_of_block? hx)
        omega

theorem depth_enterUnit (hs : Reachable names anyNode s) (m : Source.Module) :
    (s.enterUnit names m).arena.depth s.nextBody = 1 := by
  have hroot : (s.enterUnit names m).arena.parent? s.nextUnit = none := by
    unfold Arena.parent?
    rw [Session.block?_enterUnit, if_pos rfl]
    rfl
  rw [depth_of_parent? (hs.enterUnit m).good.arena.parents (s.parent?_enterUnit names m),
    depth_of_root hroot]

/-- A module of groups that are nested too deep has no listing. -/
theorem list_nestedGroups (names : SymbolTable) (n : Nat) (hn : maxIndent < 2 * (n + 1)) :
    let a := (Session.run names [.module ⟨nestedGroups n, .synthetic⟩] {}).arena
    a.NamesOnOneLine ∧ a.list = .error .tooDeep := by
  intro a
  let m : Source.Module := ⟨nestedGroups n, .synthetic⟩
  let s : Session := {}
  have hs : Reachable names anyNode s := reachable_initial names anyNode {}
  have hrun : a = ((s.unitStatements names m).arena.withSealed s.nextBody).withSealed s.nextUnit :=
    congrArg (fun r => r.2.arena) (run_module hs m)
  obtain ⟨hend, hframe⟩ := hs.unitStatements m
  have hinner : After (s.enterUnit names m) (Lower.statementList names (nestedGroups n)) _ :=
    depth_nestedGroups n (hs.enterUnit m).good rfl
  obtain ⟨hdecls, c, hc, hdepth⟩ := hinner
  constructor
  · have hnone : a.decls = [] := by
      rw [hrun]
      refine hdecls.trans ?_
      rw [Session.decls_enterUnit]
      cases n <;> rfl
    have htypes : a.typeScopes = [.ofBuiltins ⟨0⟩ IR.builtinTypes] := by
      rw [hrun]
      exact hframe.types
    constructor
    · rw [hnone]
      exact nofun
    · rw [htypes]
      decide
  · have hreach := reachable_run names [.module m]
    have hgrows : (s.unitStatements names m).arena.Grows a := by
      rw [hrun]
      exact (Arena.Grows.withSealed _ s.nextBody).trans (.withSealed _ s.nextUnit)
    have hdeep : a.depth c = (s.enterUnit names m).arena.depth s.nextBody + n :=
      (hgrows.depth hend.arena.parents hreach.good.arena.parents hc).trans hdepth
    refine list_eq_tooDeep hreach.linked (Nat.lt_of_lt_of_le hc hgrows.size) ?_
    rw [hdeep, depth_enterUnit hs m]
    omega

/-- With 32767 groups the innermost header would start with 65536 spaces. -/
theorem deep_groups_not_listed :
    let a := (Session.run ⟨[]⟩ [.module ⟨nestedGroups 32767, .synthetic⟩] {}).arena
    a.NamesOnOneLine ∧ a.list = .error .tooDeep :=
  list_nestedGroups ⟨[]⟩ 32767 (by decide)

end

end BlockLowering
