import BlockLowering.Proofs.ClosedScopes

/-!
# Links between blocks and declarations

A block stores its parent, and the parent lists the block among its children. A declaration stores
its owner, and the owner lists the declaration. Both links are stored twice, and lowering keeps them
in step: the lists of a block hold exactly what stores the block, each entry once and in the order
of the numbers (`Reachable.linked`).

The blocks without a parent are the units of the modules, one for each, and at most one root more
for what is lowered outside of modules.
-/

namespace BlockLowering

open IR Source Session

/-! ## Lists in order -/

/-- The list holds what has the property, each once and in the order of the numbers. -/
def Enumerates {ι : Type} (index : ι → Nat) (p : ι → Prop) (l : List ι) : Prop :=
  l.Pairwise (fun i j => index i < index j) ∧ ∀ i, i ∈ l ↔ p i

namespace Enumerates

variable {ι β : Type} {index : ι → Nat} {p q : ι → Prop} {l : List ι}

theorem nil (h : ∀ i, ¬p i) : Enumerates index p [] :=
  ⟨.nil, fun i => ⟨fun hi => (by cases hi), fun hi => absurd hi (h i)⟩⟩

theorem congr (h : Enumerates index p l) (hq : ∀ i, q i ↔ p i) : Enumerates index q l :=
  ⟨h.1, fun i => (h.2 i).trans (hq i).symm⟩

/-- A larger number goes to the end. -/
theorem push {new : ι} (h : Enumerates index p l) (hnew : ∀ i, p i → index i < index new)
    (hq : ∀ i, q i ↔ p i ∨ i = new) : Enumerates index q (l ++ [new]) := by
  constructor
  · refine List.pairwise_append.2 ⟨h.1, List.pairwise_singleton _ _, fun i hi j hj => ?_⟩
    rw [List.mem_singleton.1 hj]
    exact hnew i ((h.2 i).1 hi)
  · intro i
    rw [List.mem_append, List.mem_singleton, h.2, hq]

/-- A new entry belongs to `v`: it goes to the end of that list, and to no other. -/
theorem extend [DecidableEq ι] [DecidableEq β] {f f' : ι → Option β} {v : Option β} {b : β}
    {new : ι} (h : Enumerates index (fun i => f i = some b) l)
    (hnew : ∀ i, f i = some b → index i < index new)
    (hf : ∀ i, f' i = if i = new then v else f i) :
    Enumerates index (fun i => f' i = some b) (if v = some b then l ++ [new] else l) := by
  by_cases hv : v = some b
  · rw [if_pos hv]
    refine h.push hnew fun i => ?_
    rw [hf]
    by_cases hi : i = new
    · rw [if_pos hi]
      exact ⟨fun _ => .inr hi, fun _ => hv⟩
    · rw [if_neg hi]
      exact ⟨.inl, fun hor => hor.resolve_right hi⟩
  · rw [if_neg hv]
    refine h.congr fun i => ?_
    rw [hf]
    by_cases hi : i = new
    · rw [if_pos hi, hi]
      exact ⟨fun heq => absurd heq hv, fun hold => absurd (hnew new hold) (Nat.lt_irrefl _)⟩
    · rw [if_neg hi]

theorem count [DecidableEq ι] [DecidablePred p] (h : Enumerates index p l) (i : ι) :
    l.count i = if p i then 1 else 0 := by
  have hnodup : l.Nodup := h.1.imp fun hlt heq => by
    rw [heq] at hlt
    exact Nat.lt_irrefl _ hlt
  rw [hnodup.count]
  simp only [h.2]

end Enumerates

/-! ## Links -/

namespace IR

/-- Where a block stands among the others. -/
def Block.nesting (x : Block) : BlockId × Option BlockId × List BlockId :=
  (x.id, x.parent, x.children)

namespace Arena

variable {a a' : Arena} {b c : BlockId} {x : Block}

/-- The block that a declaration belongs to. -/
def owner? (a : Arena) (d : DeclId) : Option BlockId := (a.decl? d).map Decl.owner

/-- Blocks stand at their numbers, after their parents, and list their children. -/
structure ChildrenListed (a : Arena) : Prop where
  ids : ∀ b x, a.block? b = some x → x.id = b
  parents : a.ParentsBelow
  children : ∀ b x, a.block? b = some x →
    Enumerates BlockId.index (fun c => a.parent? c = some b) x.children

/-- Declarations belong to blocks that are there, and are listed by them. -/
structure DeclsListed (a : Arena) : Prop where
  owners : ∀ d b, a.owner? d = some b → b.index < a.blocks.length
  decls : ∀ b x, a.block? b = some x →
    Enumerates DeclId.index (fun d => a.owner? d = some b) x.decls

/-- Both sides of all links agree. -/
structure Linked (a : Arena) : Prop where
  children : a.ChildrenListed
  decls : a.DeclsListed

theorem eq_of_index_eq {n : Nat} (c : BlockId) : c = ⟨n⟩ ↔ c.index = n := by
  constructor
  · rintro rfl
    rfl
  · intro h
    rw [← h]

theorem index_lt_of_owner? {d : DeclId} (h : a.owner? d = some b) : d.index < a.decls.length := by
  obtain ⟨x, hx, _⟩ := Option.map_eq_some_iff.1 h
  exact index_lt_of_decl? hx

theorem owner?_withDecl (a : Arena) (b : BlockId) (d : Decl) (e : DeclId) :
    (a.withDecl b d).owner? e = if e = ⟨a.decls.length⟩ then some d.owner else a.owner? e := by
  show (({ a with decls := a.decls ++ [d] } : Arena).decl? e).map Decl.owner = _
  rw [decl?_pushDecl]
  by_cases he : e.index = a.decls.length
  · obtain rfl : e = ⟨a.decls.length⟩ := congrArg DeclId.mk he
    rw [if_pos rfl, if_pos rfl, Option.map_some]
  · rw [if_neg he, if_neg fun heq => he (congrArg DeclId.index heq)]
    rfl

theorem owner?_withLink (a : Arena) (p target d : DeclId) :
    (a.withLink p target).owner? d = a.owner? d := by
  unfold owner?
  rw [decl?_withLink]
  by_cases hd : d = p
  · rw [if_pos hd, Option.map_map]
    rfl
  · rw [if_neg hd]

theorem parent?_eq_nesting (a : Arena) (c : BlockId) :
    a.parent? c = ((a.block? c).map Block.nesting).bind fun place => place.2.1 := by
  unfold parent?
  cases a.block? c <;> rfl

/-- No block moves. -/
theorem ChildrenListed.of_nesting (h : a.ChildrenListed)
    (hsame : ∀ b, (a'.block? b).map Block.nesting = (a.block? b).map Block.nesting) :
    a'.ChildrenListed := by
  have hparent : ∀ c, a'.parent? c = a.parent? c := by
    intro c
    rw [parent?_eq_nesting, hsame, ← parent?_eq_nesting]
  have hold : ∀ b y, a'.block? b = some y → ∃ x, a.block? b = some x ∧ x.nesting = y.nesting := by
    intro b y hy
    have hmap := hsame b
    rw [hy, Option.map_some] at hmap
    exact Option.map_eq_some_iff.1 hmap.symm
  refine ⟨fun b y hy => ?_, fun c p hp => ?_, fun b y hy => ?_⟩
  · obtain ⟨x, hx, heq⟩ := hold b y hy
    exact (congrArg (fun place => place.1) heq).symm.trans (h.ids b x hx)
  · rw [hparent] at hp
    exact h.parents c p hp
  · obtain ⟨x, hx, heq⟩ := hold b y hy
    have hchildren : x.children = y.children := congrArg (fun place => place.2.2) heq
    rw [← hchildren]
    exact (h.children b x hx).congr fun c => by rw [hparent]

/-- One more block, which its parent lists. -/
theorem ChildrenListed.newBlock (h : a.ChildrenListed) (parent : Option BlockId) (span : Span)
    (hparent : ∀ p, parent = some p → p.index < a.blocks.length)
    (hnew : ∀ c, a'.block? c =
      if c = ⟨a.blocks.length⟩ then some (.fresh c parent span)
      else (a.block? c).map fun x => { x with
        children := if parent = some c then x.children ++ [⟨a.blocks.length⟩] else x.children }) :
    a'.ChildrenListed := by
  have hparent' : ∀ c, a'.parent? c =
      if c = ⟨a.blocks.length⟩ then parent else a.parent? c := by
    intro c
    unfold Arena.parent?
    rw [hnew]
    by_cases hc : c = ⟨a.blocks.length⟩
    · rw [if_pos hc, if_pos hc]
      rfl
    · rw [if_neg hc, if_neg hc]
      cases a.block? c <;> rfl
  have hbelow : a'.ParentsBelow := by
    intro c p hp
    rw [hparent'] at hp
    by_cases hc : c = ⟨a.blocks.length⟩
    · rw [if_pos hc] at hp
      rw [hc]
      exact hparent p hp
    · rw [if_neg hc] at hp
      exact h.parents c p hp
  refine ⟨fun b y hy => ?_, hbelow, fun b y hy => ?_⟩
  · rw [hnew] at hy
    by_cases hb : b = ⟨a.blocks.length⟩
    · rw [if_pos hb] at hy
      rw [← Option.some.inj hy]
      rfl
    · rw [if_neg hb] at hy
      obtain ⟨x, hx, rfl⟩ := Option.map_eq_some_iff.1 hy
      exact h.ids b x hx
  · rw [hnew] at hy
    by_cases hb : b = ⟨a.blocks.length⟩
    · -- Nothing is inside the new block yet.
      rw [if_pos hb] at hy
      rw [← Option.some.inj hy]
      refine .nil fun c hc => ?_
      have hlt := hbelow c b hc
      rw [hparent'] at hc
      by_cases hcb : c = ⟨a.blocks.length⟩
      · rw [hb, hcb] at hlt
        exact Nat.lt_irrefl _ hlt
      · rw [if_neg hcb] at hc
        have hold := index_lt_of_parent? hc
        rw [hb] at hlt
        exact Nat.lt_asymm hlt hold
    · rw [if_neg hb] at hy
      obtain ⟨x, hx, rfl⟩ := Option.map_eq_some_iff.1 hy
      exact (h.children b x hx).extend (fun c hc => index_lt_of_parent? hc) hparent'

/-- No declaration is made, and every new block is empty. -/
theorem DeclsListed.of_decls (h : a.DeclsListed) (hsize : a.blocks.length ≤ a'.blocks.length)
    (howner : ∀ d, a'.owner? d = a.owner? d)
    (hdecls : ∀ b y, a'.block? b = some y → (∃ x, a.block? b = some x ∧ y.decls = x.decls) ∨
      a.blocks.length ≤ b.index ∧ y.decls = []) : a'.DeclsListed := by
  refine ⟨fun d b hd => ?_, fun b y hy => ?_⟩
  · rw [howner] at hd
    exact Nat.lt_of_lt_of_le (h.owners d b hd) hsize
  · rcases hdecls b y hy with ⟨x, hx, heq⟩ | ⟨hle, heq⟩
    · rw [heq]
      exact (h.decls b x hx).congr fun d => by rw [howner]
    · rw [heq]
      refine .nil fun d hd => ?_
      rw [howner] at hd
      exact Nat.not_lt.2 hle (h.owners d b hd)

theorem DeclsListed.withDecl (h : a.DeclsListed) (hx : a.block? b = some x) {d : Decl}
    (hd : d.owner = b) : (a.withDecl b d).DeclsListed := by
  have howner := a.owner?_withDecl b d
  rw [hd] at howner
  refine ⟨fun e c he => ?_, fun c y hy => ?_⟩
  · rw [howner] at he
    rw [length_withDecl]
    by_cases hlast : e = ⟨a.decls.length⟩
    · rw [if_pos hlast] at he
      rw [← Option.some.inj he]
      exact index_lt_of_block? hx
    · rw [if_neg hlast] at he
      exact h.owners e c he
  · rw [block?_withDecl] at hy
    by_cases hc : c = b
    · rw [if_pos hc] at hy
      obtain ⟨z, hz, rfl⟩ := Option.map_eq_some_iff.1 hy
      have hlist := (h.decls c z hz).extend (fun e he => index_lt_of_owner? he) howner
      rwa [if_pos (congrArg some hc.symm)] at hlist
    · rw [if_neg hc] at hy
      have hlist := (h.decls c y hy).extend (fun e he => index_lt_of_owner? he) howner
      rwa [if_neg fun heq => hc (Option.some.inj heq).symm] at hlist

namespace Linked

theorem empty : Arena.empty.Linked where
  children :=
    ⟨fun _ _ hx => (by cases hx), fun _ _ hp => (by cases hp), fun _ _ hx => (by cases hx)⟩
  decls := ⟨fun _ _ hd => (by cases hd), fun _ _ hx => (by cases hx)⟩

/-- A block changes in other respects. -/
theorem updateBlock (h : a.Linked) {f : Block → Block} (hnesting : ∀ x, (f x).nesting = x.nesting)
    (hdecls : ∀ x, (f x).decls = x.decls) : (a.updateBlock b f).Linked := by
  refine ⟨h.children.of_nesting fun c => ?_,
    h.decls.of_decls ?_ (fun _ => rfl) fun c y hy => .inl ?_⟩
  · rw [block?_updateBlock]
    by_cases hc : c = b
    · rw [if_pos hc, Option.map_map]
      exact congrArg (fun g => (a.block? c).map g) (funext hnesting)
    · rw [if_neg hc]
  · exact Nat.le_of_eq (length_updateBlock a b f).symm
  · rw [block?_updateBlock] at hy
    by_cases hc : c = b
    · rw [if_pos hc] at hy
      obtain ⟨x, hx, rfl⟩ := Option.map_eq_some_iff.1 hy
      exact ⟨x, hx, hdecls x⟩
    · rw [if_neg hc] at hy
      exact ⟨y, hy, rfl⟩

/-- One more block, which its parent lists. -/
theorem newBlock (h : a.Linked) (parent : Option BlockId) (span : Span)
    (hparent : ∀ p, parent = some p → p.index < a.blocks.length)
    (hnew : ∀ c, a'.block? c =
      if c = ⟨a.blocks.length⟩ then some (.fresh c parent span)
      else (a.block? c).map fun x => { x with
        children := if parent = some c then x.children ++ [⟨a.blocks.length⟩] else x.children })
    (hsize : a.blocks.length ≤ a'.blocks.length) (howner : ∀ d, a'.owner? d = a.owner? d) :
    a'.Linked := by
  refine ⟨h.children.newBlock parent span hparent hnew,
    h.decls.of_decls hsize howner fun b y hy => ?_⟩
  rw [hnew] at hy
  by_cases hb : b = ⟨a.blocks.length⟩
  · rw [if_pos hb] at hy
    rw [← Option.some.inj hy, hb]
    exact .inr ⟨Nat.le_refl _, rfl⟩
  · rw [if_neg hb] at hy
    obtain ⟨x, hx, rfl⟩ := Option.map_eq_some_iff.1 hy
    exact .inl ⟨x, hx, rfl⟩

theorem createRoot (h : a.Linked) (span : Span) : (a.createRoot span).1.Linked := by
  refine h.newBlock none span (fun _ hp => ?_) (fun c => ?_) ?_ fun _ => rfl
  · cases hp
  · refine (block?_allocBlock a none span c).trans ?_
    simp [eq_of_index_eq]
  · exact (length_allocBlock a none span).symm ▸ Nat.le_succ _

theorem withChild (h : a.Linked) (hx : a.block? b = some x) (span : Span) :
    (a.withChild b span).Linked := by
  have hlt := index_lt_of_block? hx
  refine h.newBlock (some b) span (fun p hp => ?_) (fun c => ?_) ?_ fun _ => rfl
  · rw [← Option.some.inj hp]
    exact hlt
  · rw [block?_withChild hlt]
    by_cases hc : c = b
    · have hold : c ≠ ⟨a.blocks.length⟩ := fun heq =>
        Nat.ne_of_lt hlt ((eq_of_index_eq b).1 (hc ▸ heq))
      rw [if_pos hc, if_neg hold]
      simp [hc]
    · have hbc : b ≠ c := fun heq => hc heq.symm
      rw [if_neg hc]
      simp [eq_of_index_eq, hbc]
  · rw [length_withChild]
    exact Nat.le_succ _

theorem withDecl (h : a.Linked) (hx : a.block? b = some x) {d : Decl} (hd : d.owner = b) :
    (a.withDecl b d).Linked := by
  refine ⟨h.children.of_nesting fun c => ?_, h.decls.withDecl hx hd⟩
  rw [block?_withDecl]
  by_cases hc : c = b
  · rw [if_pos hc, Option.map_map]
    rfl
  · rw [if_neg hc]

theorem withLink (h : a.Linked) (p target : DeclId) : (a.withLink p target).Linked :=
  ⟨h.children.of_nesting fun _ => rfl,
    h.decls.of_decls (Nat.le_refl _) (a.owner?_withLink p target) fun _ y hy => .inl ⟨y, hy, rfl⟩⟩

theorem createTypeScope (h : a.Linked) (builtins : List String) :
    (a.createTypeScope builtins).1.Linked :=
  ⟨h.children.of_nesting fun _ => rfl,
    h.decls.of_decls (Nat.le_refl _) (fun _ => rfl) fun _ y hy => .inl ⟨y, hy, rfl⟩⟩

end Linked

end Arena

end IR

section

variable {names : SymbolTable} {src : Node → Prop} {s t u : Session} {b c : BlockId} {n : Nat}

theorem Act.linked (hs : s.Good names src) (h : Act names src s t) (hlinked : s.arena.Linked) :
    t.arena.Linked := by
  cases h with
  | report p => exact hlinked
  | openRoot hnone =>
    rw [Lower.run_currentBlock_none hnone]
    exact hlinked.createRoot .synthetic
  | temporary here span =>
    obtain ⟨x, hx, ho⟩ := hs.current here
    rw [Lower.run_freshTemp hx ho]
    exact hlinked.withDecl hx rfl
  | declare here named typed =>
    obtain ⟨x, hx, ho⟩ := hs.current here
    rw [Lower.run_addDecl hx ho]
    exact hlinked.withDecl hx rfl
  | @link b here name d =>
    rcases hs.run_linkHoisted here name d with hrun | ⟨p, x, _, _, hrun⟩
    · rw [hrun]
      exact hlinked
    · rw [hrun]
      exact hlinked.withLink p d
  | child here span =>
    obtain ⟨x, hx, _⟩ := hs.current here
    rw [Lower.run_createChild hx]
    exact hlinked.withChild hx span
  | append here inScope =>
    obtain ⟨x, hx, ho⟩ := hs.current here
    rw [Lower.run_addStmt hx ho]
    exact hlinked.updateBlock (fun _ => rfl) fun _ => rfl

/-- In every state that lowering passes through, both sides of all links agree. -/
theorem Reachable.linked (h : Reachable names src s) : s.arena.Linked := by
  induction h with
  | start => exact .empty
  | options _ _ ih => exact ih
  | types _ ih =>
    rw [run_ensureTypeScope_eq]
    split
    · exact ih.createTypeScope _
    · exact ih
  | root _ span ih => exact ih.createRoot span
  | unitBody _ _ ih => exact ih
  | act h h' ih => exact h'.linked h.good ih
  | enter _ _ ih => exact ih
  | leave h here ih =>
    rw [h.good.run_closeBlock here]
    exact ih.updateBlock (fun _ => rfl) fun _ => rfl

/-! ## Roots -/

/-- The blocks without a parent, in the order of their numbers. -/
def IR.Arena.roots (a : Arena) : List BlockId := (a.blocks.filter Block.isRoot).map Block.id

namespace IR.Arena

variable {a : Arena}

theorem roots_updateBlock {f : Block → Block} (hid : ∀ x, (f x).id = x.id)
    (hparent : ∀ x, (f x).parent = x.parent) : (a.updateBlock b f).roots = a.roots := by
  have hroot : ∀ x, (f x).isRoot = x.isRoot := fun x => congrArg Option.isNone (hparent x)
  have hlist : ∀ (blocks : List Block) (i : Nat),
      ((blocks.modify i f).filter Block.isRoot).map Block.id =
        (blocks.filter Block.isRoot).map Block.id := by
    intro blocks
    induction blocks with
    | nil => simp
    | cons x rest ih =>
      intro i
      cases i with
      | zero =>
        rw [List.modify_zero_cons, List.filter_cons, List.filter_cons, hroot]
        split
        · rw [List.map_cons, List.map_cons, hid]
        · rfl
      | succ i =>
        rw [List.modify_succ_cons, List.filter_cons, List.filter_cons]
        split
        · rw [List.map_cons, List.map_cons, ih]
        · exact ih i
  exact hlist a.blocks b.index

theorem roots_createRoot (a : Arena) (span : Span) :
    (a.createRoot span).1.roots = a.roots ++ [⟨a.blocks.length⟩] := by
  show ((a.blocks ++ [_]).filter Block.isRoot).map Block.id = _
  rw [List.filter_append, List.map_append]
  rfl

theorem roots_withChild (a : Arena) (b : BlockId) (span : Span) :
    (a.withChild b span).roots = a.roots := by
  unfold withChild
  rw [roots_updateBlock]
  · show ((a.blocks ++ [_]).filter Block.isRoot).map Block.id = _
    rw [List.filter_append, List.map_append]
    exact List.append_nil _
  · exact fun _ => rfl
  · exact fun _ => rfl

theorem roots_withDecls (a : Arena) (b : BlockId) (ds : List Decl) :
    (a.withDecls b ds).roots = a.roots :=
  roots_updateBlock (a := { a with decls := a.decls ++ ds }) (fun _ => rfl) fun _ => rfl

theorem roots_withSealed (a : Arena) (b : BlockId) : (a.withSealed b).roots = a.roots :=
  roots_updateBlock (fun _ => rfl) fun _ => rfl

end IR.Arena

/-- From `s` to `t` the new roots are the `units` and the blocks that become open. -/
def Session.AddsRoots (units : List BlockId) (s t : Session) : Prop :=
  ∃ new, t.arena.roots.Perm (units ++ (new ++ s.arena.roots)) ∧ t.openBlocks = new ++ s.openBlocks

namespace Session.AddsRoots

variable {units more : List BlockId}

theorem of_same (hroots : t.arena.roots = s.arena.roots) (hstack : t.openBlocks = s.openBlocks) :
    AddsRoots [] s t := ⟨[], hroots ▸ .refl _, hstack⟩

theorem trans (h : AddsRoots units s t) (h' : AddsRoots more t u) :
    AddsRoots (units ++ more) s u := by
  obtain ⟨new, hroots, hstack⟩ := h
  obtain ⟨new', hroots', hstack'⟩ := h'
  refine ⟨new' ++ new, ?_, by rw [hstack', hstack, List.append_assoc]⟩
  have hinner : (new' ++ t.arena.roots).Perm (units ++ (new' ++ (new ++ s.arena.roots))) :=
    (hroots.append_left new').trans (List.perm_append_comm_assoc ..)
  rw [List.append_assoc, List.append_assoc]
  exact (hroots'.trans (hinner.append_left more)).trans (List.perm_append_comm_assoc ..)

/-- If no block becomes open, only the units are new. -/
theorem roots (h : AddsRoots units s t) (hstack : t.openBlocks = s.openBlocks) :
    t.arena.roots.Perm (units ++ s.arena.roots) := by
  obtain ⟨new, hroots, hnew⟩ := h
  obtain rfl : new = [] := List.self_eq_append_left.1 (hstack.symm.trans hnew)
  exact hroots

end Session.AddsRoots

theorem Act.addsRoots (hs : s.Good names src) (h : Act names src s t) : AddsRoots [] s t := by
  cases h with
  | report p => exact .of_same rfl rfl
  | openRoot hnone =>
    rw [Lower.run_currentBlock_none hnone]
    refine ⟨[⟨s.arena.blocks.length⟩], ?_, ?_⟩
    · exact Arena.roots_createRoot s.arena .synthetic ▸ List.perm_append_comm
    · rw [hnone]
      rfl
  | temporary here span =>
    obtain ⟨x, hx, ho⟩ := hs.current here
    rw [Lower.run_freshTemp hx ho]
    exact .of_same (Arena.roots_withDecls s.arena _ [_]) rfl
  | declare here named typed =>
    obtain ⟨x, hx, ho⟩ := hs.current here
    rw [Lower.run_addDecl hx ho]
    exact .of_same (Arena.roots_withDecls s.arena _ [_]) rfl
  | @link b here name d =>
    rcases hs.run_linkHoisted here name d with hrun | ⟨p, x, _, _, hrun⟩
    · rw [hrun]
      exact .of_same rfl rfl
    · rw [hrun]
      exact .of_same rfl rfl
  | child here span =>
    obtain ⟨x, hx, _⟩ := hs.current here
    rw [Lower.run_createChild hx]
    exact .of_same (Arena.roots_withChild ..) rfl
  | append here inScope =>
    obtain ⟨x, hx, ho⟩ := hs.current here
    rw [Lower.run_addStmt hx ho]
    exact .of_same (Arena.roots_updateBlock (fun _ => rfl) fun _ => rfl) rfl

theorem Runs.addsRoots (hs : s.Good names src) (h : Runs names src n s t) : AddsRoots [] s t := by
  induction h with
  | done s => exact .of_same rfl rfl
  | act h => exact h.addsRoots hs
  | trans h _ ih ih' => exact (ih hs).trans (ih' (h.good_frame hs).1)
  | @within s t c opens _ h ih =>
    have hin := hs.openBlock opens
    obtain ⟨ht, hst⟩ := h.good_frame hin
    have hstack := hst.stack_openBlock
    have hroots := (ih hin).roots hstack
    rw [ht.run_closeBlock (hst.current rfl), hstack]
    exact ⟨[], (Arena.roots_withSealed t.arena c).symm ▸ hroots, rfl⟩

theorem addsRoots_statement (hs : s.Good names anyNode) (st : Statement) :
    AddsRoots [] s ((Lower.statement names st).run s).2 :=
  (does_statementAt false st trivial (covers_anyNode _) 0 s hs (Nat.zero_le _)).1.addsRoots hs

theorem roots_enterUnit (names : SymbolTable) (m : Module) (s : Session) :
    (s.enterUnit names m).arena.roots = s.arena.roots ++ [s.nextUnit] := by
  obtain ⟨scopes, ids, h⟩ := run_ensureTypeScope_fields s
  unfold Session.enterUnit Session.unitArena
  rw [h, Arena.roots_withChild, Arena.roots_withDecls]
  exact Arena.roots_createRoot { s.arena with typeScopes := scopes } m.span

/-- A module adds one root, its unit, and leaves no block open. -/
theorem addsRoots_module (hs : Reachable names anyNode s) (m : Module) :
    AddsRoots [((Lower.module names m).run s).1] s ((Lower.module names m).run s).2 ∧
      ((Lower.module names m).run s).2.openBlocks = s.openBlocks := by
  have hin := hs.enterUnit m
  have hbody : AddsRoots [] (s.enterUnit names m) (s.unitStatements names m) :=
    (does_statementList m.statements (covers_anyNode _) 0 _ hin.good (Nat.zero_le _)).1.addsRoots
      hin.good
  have hroots := hbody.roots (hs.openBlocks_unitStatements m)
  rw [roots_enterUnit] at hroots
  have hunit : (s.arena.roots ++ [s.nextUnit]).Perm (s.nextUnit :: s.arena.roots) :=
    List.perm_append_comm
  rw [run_module hs m]
  refine ⟨⟨[], ?_, rfl⟩, rfl⟩
  show ((Arena.withSealed _ _).withSealed _).roots.Perm _
  rw [Arena.roots_withSealed, Arena.roots_withSealed]
  exact hroots.trans hunit

/-! ## The units of a session -/

/-- The node is a module. -/
def Source.Node.isModule : Node → Bool
  | .module _ => true
  | _ => false

/-- Lower modules and statements one after another. The result is the units of the modules. -/
def Lower.pieces (names : SymbolTable) : List Node → Lower (List BlockId)
  | [] => return []
  | .module m :: rest => do
    let unit ← module names m
    let units ← pieces names rest
    return unit :: units
  | .statement st :: rest => do
    statement names st
    pieces names rest
  | _ :: rest => pieces names rest

/-- A traversal lowers its pieces. -/
theorem run_visitAll_eq (names : SymbolTable) (visits : List Visit) (s : Session) :
    ((Lower.visitAll names visits).run s).2 =
      ((Lower.pieces names ((visits.filter Lower.handles).map Visit.subject)).run s).2 := by
  induction visits generalizing s with
  | nil => rfl
  | cons v rest ih =>
    unfold Lower.visitAll Lowering.visitAll Lowering.visit
    rw [Lower.run_bind, List.filter_cons]
    by_cases hv : Lower.handles v = true
    · rw [if_pos hv, if_pos hv, List.map_cons]
      cases v.subject with
      | module m => exact ih _
      | statement st => exact ih _
      | _ => exact ih s
    · rw [if_neg hv, if_neg hv]
      exact ih s

/-- A step that does not choose options lowers its pieces. -/
theorem step_eq_pieces (names : SymbolTable) (s : Session) (step : Step)
    (hstep : ∀ chosen, step ≠ .options chosen) :
    s.step names step = ((Lower.pieces names step.pieces).run s).2 := by
  cases step with
  | options chosen => exact absurd rfl (hstep chosen)
  | module m =>
    simp only [Session.step, Lowering.step, Step.pieces, Lower.pieces, Lower.module]
    generalize Lowering.module names (Lower.resolveName names) m = lowered
    rfl
  | statement st => rfl
  | expression e => exact run_visitAll_eq names _ s
  | node tree => exact run_visitAll_eq names _ s

/-- The units of the modules that the steps lower, in order. -/
def Session.units (names : SymbolTable) : List Step → Session → List BlockId
  | [], _ => []
  | step :: rest, s =>
    ((Lower.pieces names step.pieces).run s).1 ++ units names rest (s.step names step)

section

variable (hs : Reachable names anyNode s) (ps : List Node)

include hs

theorem addsRoots_pieces :
    AddsRoots ((Lower.pieces names ps).run s).1 s ((Lower.pieces names ps).run s).2 := by
  induction ps generalizing s with
  | nil => exact .of_same rfl rfl
  | cons piece rest ih =>
    cases piece with
    | module m => exact (addsRoots_module hs m).1.trans (ih (hs.module (covers_anyNode _)))
    | statement st =>
      have hst := (does_statementAt false st trivial (covers_anyNode _) 0 s hs.good
        (Nat.zero_le _)).reachable hs
      exact (addsRoots_statement hs.good st).trans (ih hst)
    | _ => exact ih hs

/-- Modules alone leave no block open. -/
theorem openBlocks_pieces (hmodules : ∀ piece ∈ ps, piece.isModule = true) :
    ((Lower.pieces names ps).run s).2.openBlocks = s.openBlocks := by
  induction ps generalizing s with
  | nil => rfl
  | cons piece rest ih =>
    have hpiece := hmodules piece List.mem_cons_self
    have hrest : ∀ p ∈ rest, p.isModule = true := fun p hp =>
      hmodules p (List.mem_cons_of_mem piece hp)
    cases piece with
    | module m =>
      exact (ih (hs.module (covers_anyNode _)) hrest).trans (addsRoots_module hs m).2
    | _ => cases hpiece

end

theorem length_pieces (names : SymbolTable) (ps : List Node) (s : Session) :
    ((Lower.pieces names ps).run s).1.length = (ps.filter Node.isModule).length := by
  induction ps generalizing s with
  | nil => rfl
  | cons piece rest ih =>
    cases piece with
    | module m => exact congrArg (· + 1) (ih _)
    | _ => exact ih _

theorem addsRoots_run (hs : Reachable names anyNode s) (steps : List Step) :
    AddsRoots (units names steps s) s (s.run names steps) := by
  induction steps generalizing s with
  | nil => exact .of_same rfl rfl
  | cons step rest ih =>
    have hnext : Reachable names anyNode (s.step names step) := hs.step fun _ _ => covers_anyNode _
    have hstep : AddsRoots ((Lower.pieces names step.pieces).run s).1 s (s.step names step) := by
      cases step with
      | options chosen => exact .of_same rfl rfl
      | module | statement | expression | node =>
        rw [step_eq_pieces names s _ (by simp)]
        exact addsRoots_pieces hs _
    exact hstep.trans (ih hnext)

theorem openBlocks_run (hs : Reachable names anyNode s) (steps : List Step)
    (hmodules : ∀ piece ∈ steps.flatMap Step.pieces, piece.isModule = true) :
    (s.run names steps).openBlocks = s.openBlocks := by
  induction steps generalizing s with
  | nil => rfl
  | cons step rest ih =>
    rw [List.flatMap_cons] at hmodules
    have hnext : Reachable names anyNode (s.step names step) := hs.step fun _ _ => covers_anyNode _
    refine (ih hnext fun p hp => hmodules p (List.mem_append_right _ hp)).trans ?_
    cases step with
    | options chosen => rfl
    | module | statement | expression | node =>
      rw [step_eq_pieces names s _ (by simp)]
      exact openBlocks_pieces hs _ fun p hp => hmodules p (List.mem_append_left _ hp)

theorem length_units (names : SymbolTable) (steps : List Step) (s : Session) :
    (units names steps s).length = ((steps.flatMap Step.pieces).filter Node.isModule).length := by
  induction steps generalizing s with
  | nil => rfl
  | cons step rest ih =>
    unfold Session.units
    rw [List.flatMap_cons, List.filter_append, List.length_append, List.length_append, ih,
      length_pieces]

/-- Whatever a session is asked to do, its arena is linked correctly. Block `b` stands at position
`b`, after its parent. It lists every block whose parent it is and every declaration whose owner it
is exactly once, in the order of the numbers, and nothing else. The roots are the units of the
modules, one for each module that is lowered, and at most one root more, which stays open; it is not
there if only modules are lowered. -/
theorem run_linked (names : SymbolTable) (steps : List Step) :
    let s := Session.run names steps {}
    let a := s.arena
    let pieces := steps.flatMap Step.pieces
    (∀ b x, a.block? b = some x →
      x.id = b ∧ (∀ p, x.parent = some p → p.index < b.index) ∧
      x.children.Pairwise (fun c d => c.index < d.index) ∧
      (∀ c, x.children.count c = if a.parent? c = some b then 1 else 0) ∧
      x.decls.Pairwise (fun d e => d.index < e.index) ∧
      ∀ d, x.decls.count d = if a.owner? d = some b then 1 else 0) ∧
    (units names steps {}).length = (pieces.filter Node.isModule).length ∧
    ∃ implicit : Option BlockId, s.openBlocks = implicit.toList ∧
      a.roots.Perm (units names steps {} ++ implicit.toList) ∧
      ((∀ piece ∈ pieces, piece.isModule = true) → implicit = none) := by
  intro s a pieces
  have hlinked : a.Linked := (reachable_run names steps).linked
  refine ⟨fun b x hx => ?_, length_units names steps {}, ?_⟩
  · have hchildren := hlinked.children.children b x hx
    have hdecls := hlinked.decls.decls b x hx
    refine ⟨hlinked.children.ids b x hx, fun p hp => ?_, hchildren.1, hchildren.count, hdecls.1,
      hdecls.count⟩
    exact hlinked.children.parents b p ((Arena.parent?_eq hx).trans hp)
  · have hadds : AddsRoots (units names steps {}) {} s := addsRoots_run .start steps
    obtain ⟨new, hroots, hstack⟩ := hadds
    rw [List.append_nil] at hstack
    have hopen : s.openBlocks = s.openBlocks.head?.toList := by
      have hone : s.openBlocks.length ≤ 1 := (atRest_run names steps).stack
      cases hlist : s.openBlocks with
      | nil => rfl
      | cons r rest =>
        rw [hlist, List.length_cons] at hone
        rw [List.length_eq_zero_iff.1 (Nat.le_zero.1 (Nat.le_of_succ_le_succ hone))]
        rfl
    refine ⟨s.openBlocks.head?, hopen, ?_, fun hmodules => ?_⟩
    · rw [← hopen, hstack]
      exact (List.append_nil new ▸ hroots)
    · have hnil : s.openBlocks = [] := openBlocks_run .start steps hmodules
      rw [hnil]
      rfl

end

end BlockLowering
