import BlockLowering.Proofs.ArenaGrowth
import BlockLowering.Source.Node

/-!
# Well-scoped arenas

A statement of a block is in scope if every declaration that it uses stands in the block or around
it, a temporary in the block itself, and every block that it names is a child. An arena is
well-scoped if all statements are in scope and all types of declarations come from annotations.
`WellScoped.grow` reduces the proof for a larger arena to what is new in it.
-/

namespace BlockLowering

namespace IR.Expr

mutual

/-- The declarations that an expression uses, from left to right. -/
def refs : Expr → List DeclRef
  | .ref target => [target]
  | .int .. | .float .. | .func .. => []
  | .binary _ lhs rhs _ => lhs.refs ++ rhs.refs
  | .call callee args _ => callee.refs ++ refsAll args

def refsAll : List Expr → List DeclRef
  | [] => []
  | e :: rest => e.refs ++ refsAll rest

end

mutual

/-- The bodies of the functions that an expression makes. -/
def blocks : Expr → List BlockId
  | .func body _ => [body]
  | .ref .. | .int .. | .float .. => []
  | .binary _ lhs rhs _ => lhs.blocks ++ rhs.blocks
  | .call callee args _ => callee.blocks ++ blocksAll args

def blocksAll : List Expr → List BlockId
  | [] => []
  | e :: rest => e.blocks ++ blocksAll rest

end

end IR.Expr

namespace IR.Stmt

/-- The declaration that a statement assigns. -/
def target? : Stmt → Option DeclRef
  | assign target _ _ => some target
  | _ => none

/-- The expression that a statement evaluates. -/
def value : Stmt → Expr
  | assign _ value _ | drop value _ => value
  | ifElse cond _ _ _ | whileLoop cond _ _ => cond

/-- The blocks that a statement enters. -/
def branches : Stmt → List BlockId
  | ifElse _ thenBlock elseBlock _ => thenBlock :: elseBlock.toList
  | whileLoop _ body _ => [body]
  | _ => []

/-- All uses of declarations in a statement. -/
def refs (s : Stmt) : List DeclRef := s.target?.toList ++ s.value.refs

/-- All blocks that a statement names. -/
def blocks (s : Stmt) : List BlockId := s.branches ++ s.value.blocks

end IR.Stmt

/-- What a node of a source tree binds: a name at a place, perhaps with an annotation. -/
structure Source.Binding where
  name : Ident
  type : Option Ascription
  span : Span

/-- The binding of a variable declaration or a parameter with a plain name. -/
def Source.Node.binding? : Node → Option Binding
  | .statement (.variableDecl ⟨_, .identifier id, type, _, span⟩) => some ⟨id, type, span⟩
  | .parameter ⟨_, .identifier id, type, _, span⟩ => some ⟨id, type, span⟩
  | _ => none

namespace IR.Arena

open Source

variable {names : SymbolTable} {src : Node → Prop} {a a' : Arena} {b : BlockId}
  {cur : Option BlockId}

/-! ## Uses in scope -/

/-- The declaration is there, in `b` or around it; a temporary is in `b` itself. -/
def Sees (a : Arena) (b : BlockId) (d : DeclId) : Prop :=
  ∃ x, a.decl? d = some x ∧ a.Inside b x.owner ∧ (x.isTemporary = true → x.owner = b)

theorem Grows.sees {d : DeclId} (g : Grows a a') (h : a.Sees b d) : a'.Sees b d := by
  obtain ⟨x, hx, hin, htemp⟩ := h
  obtain ⟨y, hy, hxy⟩ := g.decl d x hx
  refine ⟨y, hy, ?_, ?_⟩
  · rw [hxy.owner_eq]
    exact g.inside hin
  · rw [hxy.owner_eq, hxy.isTemporary_eq]
    exact htemp

/-- Code that uses `refs` and names `blocks` may stand in the block `cur`. Where no block is open,
only code without uses and blocks may stand. -/
structure InScope (a : Arena) (cur : Option BlockId) (refs : List DeclRef)
    (blocks : List BlockId) : Prop where
  refs : ∀ r ∈ refs, ∃ b, cur = some b ∧ a.Sees b r.decl
  blocks : ∀ c ∈ blocks, ∃ b, cur = some b ∧ a.parent? c = some b

namespace InScope

theorem nil : a.InScope cur [] [] := ⟨by simp, by simp⟩

theorem append {r r' : List DeclRef} {c c' : List BlockId} (h : a.InScope cur r c)
    (h' : a.InScope cur r' c') : a.InScope cur (r ++ r') (c ++ c') where
  refs x hx := (List.mem_append.1 hx).elim (h.refs x) (h'.refs x)
  blocks x hx := (List.mem_append.1 hx).elim (h.blocks x) (h'.blocks x)

theorem ref {r : DeclRef} (h : a.Sees b r.decl) : a.InScope (some b) [r] [] where
  refs x hx := by
    rw [List.mem_singleton.1 hx]
    exact ⟨b, rfl, h⟩
  blocks := by simp

theorem block {c : BlockId} (h : a.parent? c = some b) : a.InScope (some b) [] [c] where
  refs := by simp
  blocks x hx := by
    rw [List.mem_singleton.1 hx]
    exact ⟨b, rfl, h⟩

/-- Code stays in scope in a larger arena, also if its first block is opened later. -/
theorem mono {cur' : Option BlockId} {r : List DeclRef} {c : List BlockId} (g : Grows a a')
    (hcur : ∀ b, cur = some b → cur' = some b) (h : a.InScope cur r c) : a'.InScope cur' r c where
  refs x hx := by
    obtain ⟨b, hb, hsees⟩ := h.refs x hx
    exact ⟨b, hcur b hb, g.sees hsees⟩
  blocks x hx := by
    obtain ⟨b, hb, hparent⟩ := h.blocks x hx
    exact ⟨b, hcur b hb, g.parent_some hparent⟩

end InScope

/-! ## Annotated declarations -/

/-- The declaration `x` was made for what the node `n` binds, and its type `t` is the one that the
annotation there names. -/
def Annotated (names : SymbolTable) (a : Arena) (x : Decl) (t : TypeRef) (n : Node) : Prop :=
  ∃ id place head nameSpan span type,
    n.binding? = some ⟨id, some ⟨.reference (.simple head nameSpan) [] span, place⟩, x.span⟩ ∧
      x.name = names.resolve id.name ∧ t.span = place ∧
      a.typeDecl? t.decl = some type ∧ type.name = names.resolve head.name

theorem Annotated.mono {x y : Decl} {t : TypeRef} {n : Node} (g : Grows a a') (hxy : x.Becomes y)
    (h : a.Annotated names x t n) : a'.Annotated names y t n := by
  obtain ⟨id, place, head, nameSpan, span, type, hn, hname, hplace, htype, htext⟩ := h
  refine ⟨id, place, head, nameSpan, span, type, ?_, ?_, hplace, g.typeDecl htype, htext⟩
  · rw [hxy.span_eq]
    exact hn
  · rw [hxy.name_eq]
    exact hname

/-! ## Well-scoped arenas -/

/-- Parents come before children, blocks list their own declarations, statements are in scope, and
types come from annotations at nodes with `src`. -/
structure WellScoped (names : SymbolTable) (src : Node → Prop) (a : Arena) : Prop where
  parents : a.ParentsBelow
  owners : ∀ b x, a.block? b = some x → ∀ d ∈ x.decls, ∃ y, a.decl? d = some y ∧ y.owner = b
  stmts : ∀ b x, a.block? b = some x → ∀ s ∈ x.stmts, a.InScope (some b) s.refs s.blocks
  types : ∀ x ∈ a.decls, ∀ t, x.type = some t → ∃ n, src n ∧ a.Annotated names x t n
  typeIds : ∀ t x, a.typeScope? t = some x → x.id = t

namespace WellScoped

theorem listed (h : WellScoped names src a) : a.Listed := by
  intro b x hx d hd
  obtain ⟨y, hy, _⟩ := h.owners b x hx d hd
  exact index_lt_of_decl? hy

/-- A larger arena is well-scoped if its new parts are. -/
theorem grow (h : WellScoped names src a) (g : Grows a a') (parents : a'.ParentsBelow)
    (owners : ∀ b y, a'.block? b = some y → ∀ d ∈ y.decls,
      (∃ x, a.block? b = some x ∧ d ∈ x.decls) ∨ ∃ z, a'.decl? d = some z ∧ z.owner = b)
    (stmts : ∀ b y, a'.block? b = some y → ∀ s ∈ y.stmts,
      (∃ x, a.block? b = some x ∧ s ∈ x.stmts) ∨ a'.InScope (some b) s.refs s.blocks)
    (types : ∀ y ∈ a'.decls, (∃ x ∈ a.decls, x.Becomes y) ∨
      ∀ t, y.type = some t → ∃ n, src n ∧ a'.Annotated names y t n)
    (typeIds : ∀ t x, a'.typeScope? t = some x → x.id = t) : WellScoped names src a' where
  parents := parents
  owners b y hy d hd := by
    rcases owners b y hy d hd with ⟨x, hx, hdx⟩ | hnew
    · obtain ⟨z, hz, hzb⟩ := h.owners b x hx d hdx
      obtain ⟨z', hz', hbecomes⟩ := g.decl d z hz
      exact ⟨z', hz', by rw [hbecomes.owner_eq, hzb]⟩
    · exact hnew
  stmts b y hy s hs := by
    rcases stmts b y hy s hs with ⟨x, hx, hsx⟩ | hnew
    · exact (h.stmts b x hx s hsx).mono g fun _ => id
    · exact hnew
  types y hy t ht := by
    rcases types y hy with ⟨x, hx, hxy⟩ | hnew
    · obtain ⟨n, hn, hann⟩ := h.types x hx t (by rw [← hxy.type_eq, ht])
      exact ⟨n, hn, hann.mono g hxy⟩
    · exact hnew t ht
  typeIds := typeIds

theorem empty : WellScoped names src Arena.empty where
  parents b p hp := by
    have hlt := index_lt_of_parent? hp
    simp [Arena.empty] at hlt
  owners b x hx := by simp [block?, Arena.empty] at hx
  stmts b x hx := by simp [block?, Arena.empty] at hx
  types x hx := by simp [Arena.empty] at hx
  typeIds t x hx := by simp [typeScope?, Arena.empty] at hx

theorem parentsBelow_updateBlock {f : Block → Block} (hf : ∀ x, (f x).parent = x.parent)
    (h : a.ParentsBelow) : (a.updateBlock b f).ParentsBelow := by
  intro c p hp
  rw [parent?_updateBlock hf] at hp
  exact h c p hp

theorem parentsBelow_allocBlock {parent : Option BlockId} {span : Span} (h : a.ParentsBelow)
    (hparent : ∀ p, parent = some p → p.index < a.blocks.length) :
    (a.allocBlock parent span).1.ParentsBelow := by
  intro c p hp
  rw [parent?_allocBlock] at hp
  by_cases hc : c.index = a.blocks.length
  · rw [if_pos hc] at hp
    rw [hc]
    exact hparent p hp
  · rw [if_neg hc] at hp
    exact h c p hp

/-- Changing a block so that it lists the same declarations and statements. -/
theorem updateBlock {f : Block → Block} (h : WellScoped names src a)
    (hparent : ∀ x, (f x).parent = x.parent) (hdecls : ∀ x, (f x).decls = x.decls)
    (hstmts : ∀ x, (f x).stmts = x.stmts) : WellScoped names src (a.updateBlock b f) := by
  have hold : ∀ c y, (a.updateBlock b f).block? c = some y →
      ∃ x, a.block? c = some x ∧ y.decls = x.decls ∧ y.stmts = x.stmts := by
    intro c y hy
    rw [block?_updateBlock] at hy
    by_cases hc : c = b
    · rw [if_pos hc, Option.map_eq_some_iff] at hy
      obtain ⟨x, hx, rfl⟩ := hy
      exact ⟨x, hx, hdecls x, hstmts x⟩
    · rw [if_neg hc] at hy
      exact ⟨y, hy, rfl, rfl⟩
  refine h.grow (.updateBlock hparent) (parentsBelow_updateBlock hparent h.parents) ?_ ?_
    (fun y hy => .inl ⟨y, hy, .same y⟩) h.typeIds
  · intro c y hy d hd
    obtain ⟨x, hx, hxd, _⟩ := hold c y hy
    exact .inl ⟨x, hx, hxd ▸ hd⟩
  · intro c y hy s hs
    obtain ⟨x, hx, _, hxs⟩ := hold c y hy
    exact .inl ⟨x, hx, hxs ▸ hs⟩

theorem withSealed (h : WellScoped names src a) (b : BlockId) :
    WellScoped names src (a.withSealed b) :=
  h.updateBlock (fun _ => rfl) (fun _ => rfl) fun _ => rfl

theorem withStmt {s : Stmt} (h : WellScoped names src a)
    (hs : a.InScope (some b) s.refs s.blocks) : WellScoped names src (a.withStmt b s) := by
  have g := Grows.withStmt a b s
  refine h.grow g (parentsBelow_updateBlock (fun _ => rfl) h.parents) ?_ ?_
    (fun y hy => .inl ⟨y, hy, .same y⟩) h.typeIds
  all_goals
    intro c y hy
    unfold Arena.withStmt at hy
    rw [block?_updateBlock] at hy
    by_cases hc : c = b
  · rw [if_pos hc, Option.map_eq_some_iff] at hy
    obtain ⟨x, hx, rfl⟩ := hy
    exact fun d hd => .inl ⟨x, hx, hd⟩
  · rw [if_neg hc] at hy
    exact fun d hd => .inl ⟨y, hy, hd⟩
  · rw [if_pos hc, Option.map_eq_some_iff] at hy
    obtain ⟨x, hx, rfl⟩ := hy
    intro t ht
    rcases List.mem_append.1 ht with ht | ht
    · exact .inl ⟨x, hx, ht⟩
    · rw [List.mem_singleton.1 ht, hc]
      exact .inr (hs.mono g fun _ => id)
  · rw [if_neg hc] at hy
    exact fun d hd => .inl ⟨y, hy, hd⟩

theorem withDecl {d : Decl} (h : WellScoped names src a) (howner : d.owner = b)
    (htype : ∀ t, d.type = some t → ∃ n, src n ∧ a.Annotated names d t n) :
    WellScoped names src (a.withDecl b d) := by
  have g := Grows.withDecl a b d
  refine h.grow g (parentsBelow_updateBlock (fun _ => rfl) h.parents) ?_ ?_ ?_ h.typeIds
  · intro c y hy e he
    unfold Arena.withDecl at hy
    rw [block?_updateBlock] at hy
    by_cases hc : c = b
    · rw [if_pos hc, Option.map_eq_some_iff] at hy
      obtain ⟨x, hx, rfl⟩ := hy
      rcases List.mem_append.1 he with he | he
      · exact .inl ⟨x, hx, he⟩
      · refine .inr ⟨d, ?_, by rw [howner, hc]⟩
        rw [List.mem_singleton.1 he]
        unfold Arena.withDecl
        rw [decl?_updateBlock, decl?_pushDecl, if_pos rfl]
    · rw [if_neg hc] at hy
      exact .inl ⟨y, hy, he⟩
  · intro c y hy s hs
    unfold Arena.withDecl at hy
    rw [block?_updateBlock] at hy
    by_cases hc : c = b
    · rw [if_pos hc, Option.map_eq_some_iff] at hy
      obtain ⟨x, hx, rfl⟩ := hy
      exact .inl ⟨x, hx, hs⟩
    · rw [if_neg hc] at hy
      exact .inl ⟨y, hy, hs⟩
  · intro y hy
    rcases List.mem_append.1 (show y ∈ a.decls ++ [d] from hy) with hy | hy
    · exact .inl ⟨y, hy, .same y⟩
    · rw [List.mem_singleton.1 hy]
      refine .inr fun t ht => ?_
      obtain ⟨n, hn, hann⟩ := htype t ht
      exact ⟨n, hn, hann.mono g (.same d)⟩

theorem withLink {p : DeclId} {d : Decl} (h : WellScoped names src a) (hd : a.decl? p = some d)
    (free : d.kind = .placeholder none) (target : DeclId) :
    WellScoped names src (a.withLink p target) := by
  refine h.grow (.withLink hd free target) h.parents (fun c y hy e he => .inl ⟨y, hy, he⟩)
    (fun c y hy s hs => .inl ⟨y, hy, hs⟩) ?_ h.typeIds
  intro y hy
  obtain ⟨i, hi⟩ := List.getElem?_of_mem hy
  have hy' : (a.withLink p target).decl? ⟨i⟩ = some y := hi
  rw [decl?_withLink] at hy'
  by_cases hip : (⟨i⟩ : DeclId) = p
  · rw [if_pos hip, hip, hd] at hy'
    obtain rfl := Option.some.inj hy'
    exact .inl ⟨d, List.mem_of_getElem? hd, .linked d target free⟩
  · rw [if_neg hip] at hy'
    exact .inl ⟨y, List.mem_of_getElem? hy', .same y⟩

/-- A new block lists nothing. -/
theorem allocBlock {parent : Option BlockId} {span : Span} (h : WellScoped names src a)
    (hparent : ∀ p, parent = some p → p.index < a.blocks.length) :
    WellScoped names src (a.allocBlock parent span).1 := by
  refine h.grow (.allocBlock a parent span) (parentsBelow_allocBlock h.parents hparent) ?_ ?_
    (fun y hy => .inl ⟨y, hy, .same y⟩) h.typeIds
  all_goals
    intro c y hy
    rw [block?_allocBlock] at hy
    by_cases hc : c.index = a.blocks.length
  · rw [if_pos hc] at hy
    obtain rfl := Option.some.inj hy
    exact fun d hd => absurd hd List.not_mem_nil
  · rw [if_neg hc] at hy
    exact fun d hd => .inl ⟨y, hy, hd⟩
  · rw [if_pos hc] at hy
    obtain rfl := Option.some.inj hy
    exact fun s hs => absurd hs List.not_mem_nil
  · rw [if_neg hc] at hy
    exact fun s hs => .inl ⟨y, hy, hs⟩

theorem withChild {span : Span} (h : WellScoped names src a) (hb : b.index < a.blocks.length) :
    WellScoped names src (a.withChild b span) :=
  (h.allocBlock fun _ hp => Option.some.inj hp ▸ hb).updateBlock (fun _ => rfl) (fun _ => rfl)
    fun _ => rfl

theorem createTypeScope (h : WellScoped names src a) (builtins : List String) :
    WellScoped names src (a.createTypeScope builtins).1 := by
  refine h.grow (.createTypeScope a builtins) h.parents
    (fun c y hy d hd => .inl ⟨y, hy, hd⟩) (fun c y hy s hs => .inl ⟨y, hy, hs⟩)
    (fun y hy => .inl ⟨y, hy, .same y⟩) ?_
  intro t x hx
  unfold Arena.createTypeScope typeScope? at hx
  rw [getElem?_append_singleton] at hx
  by_cases ht : t.index = a.typeScopes.length
  · rw [if_pos ht] at hx
    obtain rfl := Option.some.inj hx
    rw [← ht]
    rfl
  · rw [if_neg ht] at hx
    exact h.typeIds t x hx

end WellScoped

end IR.Arena

end BlockLowering
