import BlockLowering.Proofs.ScopeChain

/-!
# How an arena grows

The operations that the arena does not refuse are named here by their results, and each is described
by what it does to the look-ups `block?`, `decl?` and `parent?`. All of them let the arena grow
(`Grows`): blocks keep their parents, declarations stay but for the linking of a free placeholder,
and type scopes stay.
-/

namespace BlockLowering.IR

/-- What a declaration may turn into: a free placeholder may be linked, and nothing else changes. -/
inductive Decl.Becomes : Decl → Decl → Prop
  | same (d : Decl) : Becomes d d
  | linked (d : Decl) (target : DeclId) (free : d.kind = .placeholder none) :
      Becomes d { d with kind := .placeholder (some target) }

namespace Decl.Becomes

variable {d e f : Decl}

theorem name_eq (h : d.Becomes e) : e.name = d.name := by cases h <;> rfl

theorem type_eq (h : d.Becomes e) : e.type = d.type := by cases h <;> rfl

theorem owner_eq (h : d.Becomes e) : e.owner = d.owner := by cases h <;> rfl

theorem span_eq (h : d.Becomes e) : e.span = d.span := by cases h <;> rfl

theorem isTemporary_eq (h : d.Becomes e) : e.isTemporary = d.isTemporary := by
  cases h with
  | same => rfl
  | linked target free =>
    unfold Decl.isTemporary
    rw [free]
    rfl

theorem trans (h : d.Becomes e) (h' : e.Becomes f) : d.Becomes f := by
  cases h with
  | same => exact h'
  | linked target free =>
    cases h' with
    | same => exact .linked d target free
    | linked _ again => cases again

end Decl.Becomes

/-- What an open block may turn into: its lists get longer, and nothing else changes. -/
structure Block.Extends (x y : Block) : Prop where
  id : y.id = x.id
  parent : y.parent = x.parent
  span : y.span = x.span
  isSealed : y.isSealed = x.isSealed
  decls : x.decls <+: y.decls
  children : x.children <+: y.children
  stmts : x.stmts <+: y.stmts

namespace Block.Extends

theorem refl (x : Block) : x.Extends x :=
  ⟨rfl, rfl, rfl, rfl, List.prefix_rfl, List.prefix_rfl, List.prefix_rfl⟩

theorem trans {x y z : Block} (h : x.Extends y) (h' : y.Extends z) : x.Extends z where
  id := h'.id.trans h.id
  parent := h'.parent.trans h.parent
  span := h'.span.trans h.span
  isSealed := h'.isSealed.trans h.isSealed
  decls := h.decls.trans h'.decls
  children := h.children.trans h'.children
  stmts := h.stmts.trans h'.stmts

end Block.Extends

namespace Arena

variable {a a' a'' : Arena} {b c : BlockId} {block : Block}

theorem getElem?_append_singleton {α : Type} (l : List α) (x : α) (i : Nat) :
    (l ++ [x])[i]? = if i = l.length then some x else l[i]? := by
  by_cases h : i = l.length
  · rw [if_pos h, h, List.getElem?_concat_length]
  · rw [if_neg h]
    by_cases hlt : i < l.length
    · rw [List.getElem?_append_left hlt]
    · rw [List.getElem?_eq_none (by rw [List.length_append]; simp; omega),
        List.getElem?_eq_none (by omega)]

theorem parent?_eq (h : a.block? b = some block) : a.parent? b = block.parent := by
  unfold parent?
  rw [h]
  rfl

theorem index_lt_of_block? (h : a.block? b = some block) : b.index < a.blocks.length :=
  (List.getElem?_eq_some_iff.1 h).1

/-! ## Results of the operations -/

/-- One more statement at the end of a block. -/
def withStmt (a : Arena) (b : BlockId) (stmt : Stmt) : Arena :=
  a.updateBlock b fun block => { block with stmts := block.stmts ++ [stmt] }

/-- One more declaration, listed at the end of a block. -/
def withDecl (a : Arena) (b : BlockId) (d : Decl) : Arena :=
  ({ a with decls := a.decls ++ [d] } : Arena).updateBlock b fun block =>
    { block with decls := block.decls ++ [⟨a.decls.length⟩] }

/-- One more block, listed as a child of another. -/
def withChild (a : Arena) (b : BlockId) (span : Span) : Arena :=
  (a.allocBlock (some b) span).1.updateBlock b fun block =>
    { block with children := block.children ++ [⟨a.blocks.length⟩] }

/-- A block that is complete. -/
def withSealed (a : Arena) (b : BlockId) : Arena :=
  a.updateBlock b fun block => { block with isSealed := true }

/-- A placeholder that leads to a function. -/
def withLink (a : Arena) (placeholder target : DeclId) : Arena :=
  { a with
    decls := a.decls.modify placeholder.index fun d => { d with kind := .placeholder (some target) } }

theorem addStmt_eq (h : a.block? b = some block) (ho : block.isSealed = false) (stmt : Stmt) :
    a.addStmt b stmt = .ok (a.withStmt b stmt) := by
  unfold addStmt withStmt
  rw [h]
  simp only [ho]
  rfl

theorem addDecl_eq (h : a.block? b = some block) (ho : block.isSealed = false) (name : String)
    (type : Option TypeRef) (kind : DeclKind) (span : Span) :
    a.addDecl b name type kind span =
      (a.withDecl b ⟨name, type, kind, b, span⟩, .ok ⟨a.decls.length⟩) := by
  have h' : ({ a with decls := a.decls ++ [⟨name, type, kind, b, span⟩] } : Arena).block? b =
      some block := h
  unfold addDecl withDecl
  simp only [h', ho]
  rfl

theorem block?_allocBlock (a : Arena) (parent : Option BlockId) (span : Span) (c : BlockId) :
    (a.allocBlock parent span).1.block? c =
      if c.index = a.blocks.length then some (.fresh c parent span) else a.block? c := by
  unfold allocBlock block?
  rw [getElem?_append_singleton]
  by_cases h : c.index = a.blocks.length
  · rw [if_pos h, if_pos h, ← h]
  · rw [if_neg h, if_neg h]

@[simp] theorem length_allocBlock (a : Arena) (parent : Option BlockId) (span : Span) :
    (a.allocBlock parent span).1.blocks.length = a.blocks.length + 1 := by
  unfold allocBlock
  rw [List.length_append]
  rfl

/-- A child is made inside any block that is there, and inside the very block that is being made. -/
theorem createChild_of_le (h : b.index ≤ a.blocks.length) (span : Span) :
    a.createChild b span = (a.withChild b span, .ok ⟨a.blocks.length⟩) := by
  obtain ⟨x, hx⟩ : ∃ x, (a.allocBlock (some b) span).1.block? b = some x :=
    ⟨_, List.getElem?_eq_getElem (by rw [length_allocBlock]; omega)⟩
  unfold createChild withChild
  simp only [hx]
  rfl

theorem createChild_eq (h : a.block? b = some block) (span : Span) :
    a.createChild b span = (a.withChild b span, .ok ⟨a.blocks.length⟩) :=
  createChild_of_le (Nat.le_of_lt (index_lt_of_block? h)) span

theorem sealBlock_eq (h : a.block? b = some block) : a.sealBlock b = .ok (a.withSealed b) := by
  unfold sealBlock withSealed
  rw [h]

theorem linkPlaceholder_eq {p : DeclId} {d : Decl} (h : a.decl? p = some d)
    (free : d.kind = .placeholder none) (target : DeclId) :
    a.linkPlaceholder p target = .ok (a.withLink p target, true) := by
  have hp : d.isPlaceholder = true := by
    unfold Decl.isPlaceholder
    rw [free]
  unfold linkPlaceholder withLink
  rw [h]
  simp only [hp]
  rfl

/-! ## Refusals -/

theorem createChild_unknown (h : a.blocks.length < b.index) (span : Span) :
    a.createChild b span =
      ((a.allocBlock (some b) span).1, .error (.unknown (a.blocks.length + 1) b.index)) := by
  have hx : (a.allocBlock (some b) span).1.block? b = none :=
    List.getElem?_eq_none (by rw [length_allocBlock]; omega)
  unfold createChild
  simp only [hx, length_allocBlock]

theorem addDecl_unknown (h : a.block? b = none) (name : String) (type : Option TypeRef)
    (kind : DeclKind) (span : Span) :
    a.addDecl b name type kind span =
      ({ a with decls := a.decls ++ [⟨name, type, kind, b, span⟩] },
        .error (.unknown a.blocks.length b.index)) := by
  have h' : ({ a with decls := a.decls ++ [⟨name, type, kind, b, span⟩] } : Arena).block? b =
      none := h
  unfold addDecl
  simp only [h']

theorem addDecl_sealed (h : a.block? b = some block) (hs : block.isSealed = true) (name : String)
    (type : Option TypeRef) (kind : DeclKind) (span : Span) :
    a.addDecl b name type kind span =
      ({ a with decls := a.decls ++ [⟨name, type, kind, b, span⟩] },
        .error (.sealedToDecls block.id)) := by
  have h' : ({ a with decls := a.decls ++ [⟨name, type, kind, b, span⟩] } : Arena).block? b =
      some block := h
  unfold addDecl
  simp only [h', hs, if_true]

theorem addStmt_unknown (h : a.block? b = none) (stmt : Stmt) :
    a.addStmt b stmt = .error (.unknown a.blocks.length b.index) := by
  unfold addStmt
  rw [h]

theorem addStmt_sealed (h : a.block? b = some block) (hs : block.isSealed = true) (stmt : Stmt) :
    a.addStmt b stmt = .error (.sealedToStmts block.id) := by
  unfold addStmt
  rw [h]
  exact if_pos hs

theorem sealBlock_unknown (h : a.block? b = none) :
    a.sealBlock b = .error (.unknown a.blocks.length b.index) := by
  unfold sealBlock
  rw [h]

/-! ## Look-ups after an operation -/

@[simp] theorem block?_updateBlock (a : Arena) (b : BlockId) (f : Block → Block) (c : BlockId) :
    (a.updateBlock b f).block? c = if c = b then (a.block? c).map f else a.block? c := by
  unfold updateBlock block?
  rw [List.getElem?_modify]
  obtain ⟨i⟩ := b
  obtain ⟨j⟩ := c
  simp only [BlockId.mk.injEq]
  by_cases h : i = j
  · simp [h]
  · have h' : ¬ j = i := fun e => h e.symm
    simp [h, h']

@[simp] theorem decl?_updateBlock (a : Arena) (b : BlockId) (f : Block → Block) (d : DeclId) :
    (a.updateBlock b f).decl? d = a.decl? d := rfl

@[simp] theorem length_updateBlock (a : Arena) (b : BlockId) (f : Block → Block) :
    (a.updateBlock b f).blocks.length = a.blocks.length := by
  unfold updateBlock
  rw [List.length_modify]

theorem parent?_updateBlock {f : Block → Block} (hf : ∀ x, (f x).parent = x.parent) :
    (a.updateBlock b f).parent? c = a.parent? c := by
  unfold parent?
  rw [block?_updateBlock]
  by_cases h : c = b
  · rw [if_pos h]
    cases a.block? c with
    | none => rfl
    | some block => exact hf block
  · rw [if_neg h]

theorem parent?_allocBlock (a : Arena) (parent : Option BlockId) (span : Span) (c : BlockId) :
    (a.allocBlock parent span).1.parent? c =
      if c.index = a.blocks.length then parent else a.parent? c := by
  unfold parent?
  rw [block?_allocBlock]
  by_cases h : c.index = a.blocks.length
  · rw [if_pos h, if_pos h]
    rfl
  · rw [if_neg h, if_neg h]

theorem decl?_pushDecl (a : Arena) (x : Decl) (d : DeclId) :
    ({ a with decls := a.decls ++ [x] } : Arena).decl? d =
      if d.index = a.decls.length then some x else a.decl? d :=
  getElem?_append_singleton a.decls x d.index

theorem index_lt_of_decl? {d : DeclId} {x : Decl} (h : a.decl? d = some x) :
    d.index < a.decls.length :=
  (List.getElem?_eq_some_iff.1 h).1

theorem decl?_withLink (a : Arena) (p target d : DeclId) :
    (a.withLink p target).decl? d =
      if d = p then (a.decl? d).map fun x => { x with kind := .placeholder (some target) }
      else a.decl? d := by
  unfold withLink decl?
  rw [List.getElem?_modify]
  obtain ⟨i⟩ := p
  obtain ⟨j⟩ := d
  simp only [DeclId.mk.injEq]
  by_cases h : i = j
  · simp [h]
  · have h' : ¬ j = i := fun e => h e.symm
    simp [h, h']

theorem block?_withStmt (a : Arena) (b : BlockId) (stmt : Stmt) (c : BlockId) :
    (a.withStmt b stmt).block? c =
      if c = b then (a.block? c).map fun x => { x with stmts := x.stmts ++ [stmt] }
      else a.block? c :=
  block?_updateBlock a b _ c

theorem block?_withDecl (a : Arena) (b : BlockId) (d : Decl) (c : BlockId) :
    (a.withDecl b d).block? c =
      if c = b then (a.block? c).map fun x => { x with decls := x.decls ++ [⟨a.decls.length⟩] }
      else a.block? c :=
  block?_updateBlock { a with decls := a.decls ++ [d] } b _ c

theorem block?_withSealed (a : Arena) (b c : BlockId) :
    (a.withSealed b).block? c =
      if c = b then (a.block? c).map fun x => { x with isSealed := true } else a.block? c :=
  block?_updateBlock a b _ c

theorem block?_withChild (hb : b.index < a.blocks.length) (span : Span) (c : BlockId) :
    (a.withChild b span).block? c =
      if c = b then (a.block? c).map fun x => { x with children := x.children ++ [⟨a.blocks.length⟩] }
      else if c.index = a.blocks.length then some (.fresh c (some b) span)
      else a.block? c := by
  unfold withChild
  rw [block?_updateBlock, block?_allocBlock]
  by_cases hc : c = b
  · rw [if_pos hc, if_pos hc, if_neg (by rw [hc]; omega)]
  · rw [if_neg hc, if_neg hc]

@[simp] theorem length_withStmt (a : Arena) (b : BlockId) (stmt : Stmt) :
    (a.withStmt b stmt).blocks.length = a.blocks.length := length_updateBlock ..

@[simp] theorem length_withDecl (a : Arena) (b : BlockId) (d : Decl) :
    (a.withDecl b d).blocks.length = a.blocks.length := length_updateBlock ..

@[simp] theorem length_withSealed (a : Arena) (b : BlockId) :
    (a.withSealed b).blocks.length = a.blocks.length := length_updateBlock ..

@[simp] theorem length_withChild (a : Arena) (b : BlockId) (span : Span) :
    (a.withChild b span).blocks.length = a.blocks.length + 1 := by
  unfold withChild
  rw [length_updateBlock, length_allocBlock]

@[simp] theorem decls_withDecl (a : Arena) (b : BlockId) (d : Decl) :
    (a.withDecl b d).decls = a.decls ++ [d] := rfl

/-! ## Growth -/

/-- Nothing is lost from `a` to `a'`. -/
structure Grows (a a' : Arena) : Prop where
  size : a.blocks.length ≤ a'.blocks.length
  parent : ∀ b : BlockId, b.index < a.blocks.length → a'.parent? b = a.parent? b
  decl : ∀ d x, a.decl? d = some x → ∃ y, a'.decl? d = some y ∧ x.Becomes y
  typeScope : ∀ t x, a.typeScope? t = some x → a'.typeScope? t = some x

namespace Grows

theorem refl (a : Arena) : Grows a a where
  size := Nat.le_refl _
  parent _ _ := rfl
  decl _ x h := ⟨x, h, .same x⟩
  typeScope _ _ h := h

theorem trans (h : Grows a a') (h' : Grows a' a'') : Grows a a'' where
  size := Nat.le_trans h.size h'.size
  parent b hb := by rw [h'.parent b (Nat.lt_of_lt_of_le hb h.size), h.parent b hb]
  decl d x hx := by
    obtain ⟨y, hy, hxy⟩ := h.decl d x hx
    obtain ⟨z, hz, hyz⟩ := h'.decl d y hy
    exact ⟨z, hz, hxy.trans hyz⟩
  typeScope t x hx := h'.typeScope t x (h.typeScope t x hx)

theorem parent_some {p : BlockId} (h : Grows a a') (hp : a.parent? b = some p) :
    a'.parent? b = some p := by
  rw [h.parent b (index_lt_of_parent? hp), hp]

theorem inside (h : Grows a a') (hi : a.Inside b c) : a'.Inside b c :=
  hi.mono fun _ _ => h.parent_some

theorem typeDecl {t : TypeDeclId} {x : TypeDecl} (h : Grows a a') (hx : a.typeDecl? t = some x) :
    a'.typeDecl? t = some x := by
  unfold typeDecl? at *
  rw [Option.bind_eq_some_iff] at *
  obtain ⟨scope, hscope, hx⟩ := hx
  exact ⟨scope, h.typeScope _ _ hscope, hx⟩

theorem updateBlock {f : Block → Block} (hf : ∀ x, (f x).parent = x.parent) :
    Grows a (a.updateBlock b f) where
  size := Nat.le_of_eq (length_updateBlock a b f).symm
  parent _ _ := parent?_updateBlock hf
  decl _ x h := ⟨x, h, .same x⟩
  typeScope _ _ h := h

theorem allocBlock (a : Arena) (parent : Option BlockId) (span : Span) :
    Grows a (a.allocBlock parent span).1 where
  size := by simp
  parent b hb := by rw [parent?_allocBlock, if_neg (by omega)]
  decl _ x h := ⟨x, h, .same x⟩
  typeScope _ _ h := h

theorem pushDecl (a : Arena) (x : Decl) : Grows a { a with decls := a.decls ++ [x] } where
  size := Nat.le_refl _
  parent _ _ := rfl
  decl d y h := by
    have hlt := index_lt_of_decl? h
    refine ⟨y, ?_, .same y⟩
    rw [decl?_pushDecl, if_neg (by omega), h]
  typeScope _ _ h := h

theorem withStmt (a : Arena) (b : BlockId) (stmt : Stmt) : Grows a (a.withStmt b stmt) :=
  updateBlock fun _ => rfl

theorem withDecl (a : Arena) (b : BlockId) (d : Decl) : Grows a (a.withDecl b d) :=
  (pushDecl a d).trans (updateBlock fun _ => rfl)

theorem withSealed (a : Arena) (b : BlockId) : Grows a (a.withSealed b) :=
  updateBlock fun _ => rfl

theorem withLink {p : DeclId} {d : Decl} (h : a.decl? p = some d)
    (free : d.kind = .placeholder none) (target : DeclId) : Grows a (a.withLink p target) where
  size := Nat.le_refl _
  parent _ _ := rfl
  decl e x hx := by
    rw [decl?_withLink]
    by_cases he : e = p
    · rw [if_pos he, hx]
      rw [he, h] at hx
      obtain rfl := Option.some.inj hx
      exact ⟨_, rfl, .linked d target free⟩
    · rw [if_neg he]
      exact ⟨x, hx, .same x⟩
  typeScope _ _ h := h

theorem createTypeScope (a : Arena) (builtins : List String) :
    Grows a (a.createTypeScope builtins).1 where
  size := Nat.le_refl _
  parent _ _ := rfl
  decl _ x hx := ⟨x, hx, .same x⟩
  typeScope t x hx := by
    have hlt := (List.getElem?_eq_some_iff.1 hx).1
    unfold Arena.createTypeScope typeScope?
    rw [getElem?_append_singleton, if_neg (by omega)]
    exact hx

end Grows

/-! ## Changes at one block -/

/-- Of the blocks in `a` only `b` changes, and it is only extended. -/
structure ExtendsAt (b : BlockId) (a a' : Arena) : Prop where
  grows : Grows a a'
  own : ∀ x, a.block? b = some x → ∃ y, a'.block? b = some y ∧ x.Extends y
  others : ∀ c : BlockId, c.index < a.blocks.length → c ≠ b → a'.block? c = a.block? c
  types : a'.typeScopes = a.typeScopes

namespace ExtendsAt

theorem trans (h : ExtendsAt b a a') (h' : ExtendsAt b a' a'') : ExtendsAt b a a'' where
  grows := h.grows.trans h'.grows
  own x hx := by
    obtain ⟨y, hy, hxy⟩ := h.own x hx
    obtain ⟨z, hz, hyz⟩ := h'.own y hy
    exact ⟨z, hz, hxy.trans hyz⟩
  others c hc hb := by
    rw [h'.others c (Nat.lt_of_lt_of_le hc h.grows.size) hb, h.others c hc hb]
  types := h'.types.trans h.types

theorem updateBlock {f : Block → Block} (hf : ∀ x : Block, x.Extends (f x)) :
    ExtendsAt b a (a.updateBlock b f) where
  grows := .updateBlock fun x => (hf x).parent
  own x hx := by
    refine ⟨f x, ?_, hf x⟩
    rw [block?_updateBlock, if_pos rfl, hx]
    rfl
  others c _ hc := by rw [block?_updateBlock, if_neg hc]
  types := rfl

theorem allocBlock (a : Arena) (parent : Option BlockId) (span : Span) (b : BlockId) :
    ExtendsAt b a (a.allocBlock parent span).1 where
  grows := .allocBlock a parent span
  own x hx := by
    have hlt := index_lt_of_block? hx
    refine ⟨x, ?_, .refl x⟩
    rw [block?_allocBlock, if_neg (by omega), hx]
  others c hc _ := by rw [block?_allocBlock, if_neg (by omega)]
  types := rfl

theorem pushDecl (a : Arena) (d : Decl) (b : BlockId) :
    ExtendsAt b a { a with decls := a.decls ++ [d] } where
  grows := .pushDecl a d
  own x hx := ⟨x, hx, .refl x⟩
  others _ _ _ := rfl
  types := rfl

theorem withStmt (a : Arena) (b : BlockId) (stmt : Stmt) : ExtendsAt b a (a.withStmt b stmt) :=
  updateBlock fun x => { Block.Extends.refl x with stmts := List.prefix_append _ _ }

theorem withDecl (a : Arena) (b : BlockId) (d : Decl) : ExtendsAt b a (a.withDecl b d) :=
  (pushDecl a d b).trans <|
    updateBlock fun x => { Block.Extends.refl x with decls := List.prefix_append _ _ }

theorem withChild (a : Arena) (b : BlockId) (span : Span) : ExtendsAt b a (a.withChild b span) :=
  (allocBlock a (some b) span b).trans <|
    updateBlock fun x => { Block.Extends.refl x with children := List.prefix_append _ _ }

theorem withLink {p : DeclId} {d : Decl} (h : a.decl? p = some d)
    (free : d.kind = .placeholder none) (target : DeclId) (b : BlockId) :
    ExtendsAt b a (a.withLink p target) where
  grows := .withLink h free target
  own x hx := ⟨x, hx, .refl x⟩
  others _ _ _ := rfl
  types := rfl

end ExtendsAt

end Arena

end BlockLowering.IR
