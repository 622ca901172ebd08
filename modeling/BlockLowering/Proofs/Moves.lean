import BlockLowering.Proofs.Primitives
import BlockLowering.Proofs.WellScoped

/-!
# What lowering can do to a session

`Act` lists the single actions of lowering, all at the innermost open block; `Runs` closes them under
sequence and under work inside a block that is opened for it and closed again. `Reachable` holds of
every state on the way of a session, also with blocks still open.

1. Every reachable state is `Good`: its arena is well-scoped and its open blocks are there, distinct
   and not sealed (`Reachable.good`).
2. A run keeps everything but the innermost open block and new blocks (`Runs.frame`).
-/

namespace BlockLowering

open IR Diagnostic Source

namespace Session

/-- The block can be opened: it is new, not yet open, and a root or a child of the innermost open
block. -/
structure MayOpen (s : Session) (c : BlockId) : Prop where
  closed : c ∉ s.openBlocks
  fresh : ∃ parent span, s.arena.block? c = some (.fresh c parent span) ∧
    (parent = none ∨ parent = s.current?)

/-- The open blocks are there, distinct and not sealed, in a well-scoped arena. -/
structure Good (names : SymbolTable) (src : Node → Prop) (s : Session) : Prop where
  arena : s.arena.WellScoped names src
  opened : ∀ b ∈ s.openBlocks, ∃ x, s.arena.block? b = some x ∧ x.isSealed = false
  distinct : s.openBlocks.Nodup

/-- From `s` to `t` the innermost open block of `s` and blocks from number `n` on may change; other
blocks, the types in force and the records of `s` stay. With no block open, one root may be opened. -/
structure Frame (n : Nat) (s t : Session) : Prop where
  arena : s.arena.Grows t.arena
  own : ∀ b x, s.current? = some b → b.index < n → s.arena.block? b = some x →
    ∃ y, t.arena.block? b = some y ∧ x.Extends y
  others : ∀ b : BlockId, b.index < n → b.index < s.arena.blocks.length → s.current? ≠ some b →
    t.arena.block? b = s.arena.block? b
  stack : t.openBlocks = s.openBlocks ∨
    s.openBlocks = [] ∧ ∃ r : BlockId, t.openBlocks = [r] ∧ s.arena.blocks.length ≤ r.index
  types : t.arena.typeScopes = s.arena.typeScopes
  typeScopes : t.typeScopes = s.typeScopes
  unitBody : t.unitBody = s.unitBody
  log : s.log.records <+: t.log.records

variable {names : SymbolTable} {src : Node → Prop} {s t u : Session} {b c : BlockId} {n : Nat}

theorem mem_openBlocks_of_current? (h : s.current? = some b) : b ∈ s.openBlocks :=
  List.mem_of_head? h

theorem openBlocks_eq_cons (h : s.current? = some b) : s.openBlocks = b :: s.openBlocks.tail := by
  obtain ⟨rest, hrest⟩ := List.head?_eq_some_iff.1 h
  rw [hrest]
  rfl

theorem MayOpen.index_lt (h : s.MayOpen c) : c.index < s.arena.blocks.length := by
  obtain ⟨_, _, hx, _⟩ := h.fresh
  exact Arena.index_lt_of_block? hx

theorem current?_eq_none (h : s.openBlocks = []) : s.current? = none := by
  unfold current?
  rw [h]
  rfl

/-- The innermost open block is there and takes additions. -/
theorem Good.current (hs : s.Good names src) (h : s.current? = some b) :
    ∃ x, s.arena.block? b = some x ∧ x.isSealed = false :=
  hs.opened b (mem_openBlocks_of_current? h)

/-- Names are looked up without a fault. -/
theorem Good.run_lookup (hs : s.Good names src) (b : BlockId) (name : String) :
    (Lower.lookup b name).run s = (s.arena.lookup? b name, s) :=
  Lower.run_lookup hs.arena.listed b name

/-- At the innermost open block, placeholders are linked without a fault. -/
theorem Good.run_linkHoisted_eq (hs : s.Good names src) (hb : s.current? = some b) (name : String)
    (d : DeclId) :
    (Lower.linkHoisted b name d).run s =
      ((), match s.freePlaceholder? b name with
        | some p => { s with arena := s.arena.withLink p d }
        | none => s) := by
  obtain ⟨x, hx, _⟩ := hs.current hb
  have hnil : Lower.refusedToLink s b name = [] := by
    unfold Lower.refusedToLink
    rw [Lower.refusedAround_eq_nil hs.arena.listed hs.arena.parents hx, ite_self]
  have hrun := Lower.run_linkHoisted_eq b name d s
  rw [hnil, Session.withRefused_nil] at hrun
  exact hrun

/-- Linking changes at most one placeholder, which was free. -/
theorem Good.run_linkHoisted (hs : s.Good names src) (hb : s.current? = some b) (name : String)
    (d : DeclId) :
    (Lower.linkHoisted b name d).run s = ((), s) ∨
      ∃ p x, s.arena.decl? p = some x ∧ x.kind = .placeholder none ∧
        (Lower.linkHoisted b name d).run s = ((), { s with arena := s.arena.withLink p d }) := by
  rw [hs.run_linkHoisted_eq hb]
  cases hp : s.freePlaceholder? b name with
  | none => exact .inl rfl
  | some p =>
    obtain ⟨x, hx, _, hfree⟩ := Lower.freePlaceholder?_spec hp
    exact .inr ⟨p, x, hx, hfree, rfl⟩

namespace Frame

theorem refl (n : Nat) (s : Session) : Frame n s s where
  arena := .refl _
  own _ x _ _ hx := ⟨x, hx, .refl x⟩
  others _ _ _ _ := rfl
  stack := .inl rfl
  types := rfl
  typeScopes := rfl
  unitBody := rfl
  log := List.prefix_rfl

theorem current (h : Frame n s t) (hb : s.current? = some b) : t.current? = some b := by
  rcases h.stack with hst | ⟨hs, _⟩
  · unfold current?
    rw [hst]
    exact hb
  · rw [current?_eq_none hs] at hb
    cases hb

theorem trans (h : Frame n s t) (h' : Frame n t u) : Frame n s u where
  arena := h.arena.trans h'.arena
  own b x hb hn hx := by
    obtain ⟨y, hy, hxy⟩ := h.own b x hb hn hx
    obtain ⟨z, hz, hyz⟩ := h'.own b y (h.current hb) hn hy
    exact ⟨z, hz, hxy.trans hyz⟩
  others b hn hlt hb := by
    rw [← h.others b hn hlt hb]
    refine h'.others b hn (Nat.lt_of_lt_of_le hlt h.arena.size) fun ht => ?_
    rcases h.stack with hst | ⟨_, r, hr, hle⟩
    · unfold current? at hb ht
      rw [hst] at ht
      exact hb ht
    · unfold current? at ht
      rw [hr] at ht
      obtain rfl := Option.some.inj ht
      omega
  stack := by
    rcases h.stack with hst | ⟨hs, r, hr, hle⟩
    · rcases h'.stack with hst' | ⟨ht, r, hr, hle⟩
      · exact .inl (hst'.trans hst)
      · exact .inr ⟨hst ▸ ht, r, hr, Nat.le_trans h.arena.size hle⟩
    · rcases h'.stack with hst' | ⟨ht, _⟩
      · exact .inr ⟨hs, r, hst'.trans hr, hle⟩
      · rw [hr] at ht
        cases ht
  types := h'.types.trans h.types
  typeScopes := h'.typeScopes.trans h.typeScopes
  unitBody := h'.unitBody.trans h.unitBody
  log := h.log.trans h'.log

/-- A frame that holds more blocks fixed also holds fewer fixed. -/
theorem mono {m : Nat} (h : Frame n s t) (hm : m ≤ n) : Frame m s t where
  arena := h.arena
  own b x hb hlt := h.own b x hb (Nat.lt_of_lt_of_le hlt hm)
  others b hlt := h.others b (Nat.lt_of_lt_of_le hlt hm)
  stack := h.stack
  types := h.types
  typeScopes := h.typeScopes
  unitBody := h.unitBody
  log := h.log

/-- A change at the innermost open block alone. -/
theorem ofExtendsAt (hb : s.current? = some b) (e : s.arena.ExtendsAt b t.arena)
    (hstack : t.openBlocks = s.openBlocks) (htypes : t.typeScopes = s.typeScopes)
    (hunit : t.unitBody = s.unitBody) (hlog : t.log = s.log) : Frame n s t where
  arena := e.grows
  own c x hc _ hx := by
    obtain rfl := Option.some.inj (hb.symm.trans hc)
    exact e.own x hx
  others c _ hlt hc := by
    refine e.others c hlt fun h => hc ?_
    rw [h, hb]
  stack := .inl hstack
  types := e.types
  typeScopes := htypes
  unitBody := hunit
  log := hlog ▸ List.prefix_rfl

end Frame

/-- A change at one block alone keeps the open blocks open. -/
theorem Good.ofExtendsAt (hs : s.Good names src) (ht : t.arena.WellScoped names src)
    (e : s.arena.ExtendsAt b t.arena) (hstack : t.openBlocks = s.openBlocks) :
    t.Good names src where
  arena := ht
  opened c hc := by
    obtain ⟨x, hx, hopen⟩ := hs.opened c (hstack ▸ hc)
    by_cases hcb : c = b
    · subst hcb
      obtain ⟨y, hy, hxy⟩ := e.own x hx
      exact ⟨y, hy, by rw [hxy.isSealed, hopen]⟩
    · exact ⟨x, by rw [e.others c (Arena.index_lt_of_block? hx) hcb, hx], hopen⟩
  distinct := hstack ▸ hs.distinct

end Session

/-! ## Actions, runs and reachable states -/

open Session

/-- One action of lowering, at the innermost open block. -/
inductive Act (names : SymbolTable) (src : Node → Prop) : Session → Session → Prop
  | report (s : Session) (p : Problem) : Act names src s ((Lower.report p).run s).2
  /-- With no block open, a root is opened. -/
  | openRoot {s : Session} (none : s.openBlocks = []) :
      Act names src s (Lower.currentBlock.run s).2
  | temporary {s : Session} {b : BlockId} (here : s.current? = some b) (span : Span) :
      Act names src s ((Lower.freshTemp b span).run s).2
  /-- A type comes from an annotation. -/
  | declare {s : Session} {b : BlockId} (here : s.current? = some b) {name : String}
      {type : Option TypeRef} {kind : DeclKind} {span : Span} (named : kind ≠ .temporary)
      (typed : ∀ t, type = some t →
        ∃ n, src n ∧ s.arena.Annotated names ⟨name, type, kind, b, span⟩ t n) :
      Act names src s ((Lower.addDecl b name type kind span).run s).2
  | link {s : Session} {b : BlockId} (here : s.current? = some b) (name : String) (d : DeclId) :
      Act names src s ((Lower.linkHoisted b name d).run s).2
  | child {s : Session} {b : BlockId} (here : s.current? = some b) (span : Span) :
      Act names src s ((Lower.createChild b span).run s).2
  /-- Only statements in scope are appended. -/
  | append {s : Session} {b : BlockId} (here : s.current? = some b) {stmt : Stmt}
      (inScope : s.arena.InScope (some b) stmt.refs stmt.blocks) :
      Act names src s ((Lower.addStmt b stmt).run s).2

/-- Actions in sequence. Work inside a block opens the block first and closes it afterwards; the
blocks that are opened have numbers from `n` on. -/
inductive Runs (names : SymbolTable) (src : Node → Prop) (n : Nat) : Session → Session → Prop
  | done (s : Session) : Runs names src n s s
  | act {s t : Session} (h : Act names src s t) : Runs names src n s t
  | trans {s t u : Session} (h : Runs names src n s t) (h' : Runs names src n t u) :
      Runs names src n s u
  | within {s t : Session} {c : BlockId} (opens : s.MayOpen c) (new : n ≤ c.index)
      (h : Runs names src n ((Lower.openBlock c).run s).2 t) :
      Runs names src n s ((Lower.closeBlock c).run t).2

/-- The states that a session passes through, from the empty one on: between steps, inside a module
and inside any statement or expression. -/
inductive Reachable (names : SymbolTable) (src : Node → Prop) : Session → Prop
  | start : Reachable names src {}
  | options {s : Session} (h : Reachable names src s) (chosen : Options) :
      Reachable names src { s with options := chosen }
  | types {s : Session} (h : Reachable names src s) :
      Reachable names src (Lower.ensureTypeScope.run s).2
  | root {s : Session} (h : Reachable names src s) (span : Span) :
      Reachable names src ((Lower.createRoot span).run s).2
  | unitBody {s : Session} (h : Reachable names src s) (body : Option BlockId) :
      Reachable names src { s with unitBody := body }
  | act {s t : Session} (h : Reachable names src s) (h' : Act names src s t) :
      Reachable names src t
  | enter {s : Session} {c : BlockId} (h : Reachable names src s) (opens : s.MayOpen c) :
      Reachable names src ((Lower.openBlock c).run s).2
  | leave {s : Session} {c : BlockId} (h : Reachable names src s) (here : s.current? = some c) :
      Reachable names src ((Lower.closeBlock c).run s).2

section

variable {names : SymbolTable} {src : Node → Prop} {s t : Session} {b c : BlockId} {n : Nat}

/-- Every action keeps a state good and touches at most the innermost open block. -/
theorem Act.good_frame (hs : s.Good names src) (h : Act names src s t) :
    t.Good names src ∧ s.Frame n t := by
  cases h with
  | report p =>
    exact ⟨⟨hs.arena, hs.opened, hs.distinct⟩,
      { Frame.refl n s with log := List.prefix_append _ _ }⟩
  | openRoot hnone =>
    have hg := Arena.Grows.allocBlock s.arena none .synthetic
    rw [Lower.run_currentBlock_none hnone]
    refine ⟨⟨hs.arena.allocBlock (by simp), ?_, by simp⟩, ?_⟩
    · intro b hb
      rw [List.mem_singleton.1 hb]
      refine ⟨.fresh ⟨s.arena.blocks.length⟩ none .synthetic, ?_, rfl⟩
      exact (Arena.block?_allocBlock _ _ _ _).trans (if_pos rfl)
    · refine { Frame.refl n s with
        arena := hg, own := ?_, others := ?_, stack := .inr ⟨hnone, _, rfl, Nat.le_refl _⟩ }
      · intro b x hb
        rw [current?_eq_none hnone] at hb
        cases hb
      · intro b _ hlt _
        exact (Arena.block?_allocBlock _ _ _ _).trans (if_neg (by omega))
  | @temporary b here span =>
    obtain ⟨x, hx, ho⟩ := hs.current here
    have e := Arena.ExtendsAt.withDecl s.arena b (Lower.tempDecl s b span)
    rw [Lower.run_freshTemp hx ho]
    exact ⟨hs.ofExtendsAt (hs.arena.withDecl rfl fun t ht => by cases ht) e rfl,
      .ofExtendsAt here e rfl rfl rfl rfl⟩
  | @declare b here name type kind span named typed =>
    obtain ⟨x, hx, ho⟩ := hs.current here
    have e := Arena.ExtendsAt.withDecl s.arena b ⟨name, type, kind, b, span⟩
    rw [Lower.run_addDecl hx ho]
    exact ⟨hs.ofExtendsAt (hs.arena.withDecl rfl typed) e rfl,
      .ofExtendsAt here e rfl rfl rfl rfl⟩
  | @link b here name d =>
    rcases hs.run_linkHoisted here name d with h | ⟨p, x, hx, hfree, h⟩
    · rw [h]
      exact ⟨hs, Frame.refl n s⟩
    · have e := Arena.ExtendsAt.withLink hx hfree d b
      rw [h]
      exact ⟨hs.ofExtendsAt (hs.arena.withLink hx hfree d) e rfl,
        .ofExtendsAt here e rfl rfl rfl rfl⟩
  | @child b here span =>
    obtain ⟨x, hx, ho⟩ := hs.current here
    have e := Arena.ExtendsAt.withChild s.arena b span
    rw [Lower.run_createChild hx]
    exact ⟨hs.ofExtendsAt (hs.arena.withChild (Arena.index_lt_of_block? hx)) e rfl,
      .ofExtendsAt here e rfl rfl rfl rfl⟩
  | @append b here stmt inScope =>
    obtain ⟨x, hx, ho⟩ := hs.current here
    have e := Arena.ExtendsAt.withStmt s.arena b stmt
    rw [Lower.run_addStmt hx ho]
    exact ⟨hs.ofExtendsAt (hs.arena.withStmt inScope) e rfl, .ofExtendsAt here e rfl rfl rfl rfl⟩

theorem Session.Good.openBlock (hs : s.Good names src) (h : s.MayOpen c) :
    ((Lower.openBlock c).run s).2.Good names src where
  arena := hs.arena
  opened b hb := by
    rcases List.mem_cons.1 hb with rfl | hb
    · obtain ⟨_, _, hx, _⟩ := h.fresh
      exact ⟨_, hx, rfl⟩
    · exact hs.opened b hb
  distinct := List.nodup_cons.2 ⟨h.closed, hs.distinct⟩

/-- Closing the innermost open block takes it from the stack and seals it. -/
theorem Session.Good.run_closeBlock (hs : s.Good names src) (h : s.current? = some c) :
    (Lower.closeBlock c).run s =
      ((), { s with openBlocks := s.openBlocks.tail, arena := s.arena.withSealed c }) := by
  obtain ⟨x, hx, _⟩ := hs.current h
  exact Lower.run_closeBlock hx (openBlocks_eq_cons h)

theorem Session.Good.log_closeBlock (hs : s.Good names src) (h : s.current? = some c) :
    ((Lower.closeBlock c).run s).2.log = s.log := by
  rw [hs.run_closeBlock h]

theorem Session.Good.closeBlock (hs : s.Good names src) (h : s.current? = some c) :
    ((Lower.closeBlock c).run s).2.Good names src := by
  have hcons : s.openBlocks = c :: s.openBlocks.tail := openBlocks_eq_cons h
  have hnodup := hs.distinct
  rw [hcons, List.nodup_cons] at hnodup
  rw [hs.run_closeBlock h]
  refine ⟨hs.arena.withSealed c, ?_, hnodup.2⟩
  intro b hb
  obtain ⟨x, hx, ho⟩ := hs.opened b (List.mem_of_mem_tail hb)
  have hne : b ≠ c := fun e => hnodup.1 (e ▸ hb)
  refine ⟨x, ?_, ho⟩
  show (s.arena.withSealed c).block? b = some x
  unfold Arena.withSealed
  rw [Arena.block?_updateBlock, if_neg hne, hx]

theorem Session.Frame.stack_openBlock (h : Frame n ((Lower.openBlock c).run s).2 t) :
    t.openBlocks = c :: s.openBlocks :=
  h.stack.resolve_right fun h => by cases h.1

/-- Work inside a new block leaves all older blocks as they are. -/
theorem Session.Frame.block?_closeBlock (ht : t.Good names src)
    (h : Frame n ((Lower.openBlock c).run s).2 t) (hne : b ≠ c) (hn : b.index < n)
    (hlt : b.index < s.arena.blocks.length) :
    ((Lower.closeBlock c).run t).2.arena.block? b = s.arena.block? b := by
  rw [ht.run_closeBlock (h.current rfl)]
  show (t.arena.withSealed c).block? b = s.arena.block? b
  unfold Arena.withSealed
  rw [Arena.block?_updateBlock, if_neg hne]
  exact h.others b hn hlt fun e => hne (Option.some.inj e).symm

theorem Session.Frame.within (hn : n ≤ c.index) (ht : t.Good names src)
    (h : Frame n ((Lower.openBlock c).run s).2 t) :
    Frame n s ((Lower.closeBlock c).run t).2 := by
  have hkeep : ∀ b : BlockId, b.index < n → b.index < s.arena.blocks.length →
      ((Lower.closeBlock c).run t).2.arena.block? b = s.arena.block? b := by
    intro b hb hlt
    refine h.block?_closeBlock ht (fun e => ?_) hb hlt
    rw [e] at hb
    omega
  have hstack := h.stack_openBlock
  rw [ht.run_closeBlock (h.current rfl)] at hkeep ⊢
  exact {
    arena := h.arena.trans (.withSealed t.arena c)
    own := fun b x _ hb hx =>
      ⟨x, (hkeep b hb (Arena.index_lt_of_block? hx)).trans hx, .refl x⟩
    others := fun b hb hlt _ => hkeep b hb hlt
    stack := .inl (by rw [hstack]; rfl)
    types := h.types
    typeScopes := h.typeScopes
    unitBody := h.unitBody
    log := h.log }

theorem Runs.good_frame (hs : s.Good names src) (h : Runs names src n s t) :
    t.Good names src ∧ s.Frame n t := by
  induction h with
  | done s => exact ⟨hs, Frame.refl n s⟩
  | act h => exact h.good_frame hs
  | trans _ _ ih ih' =>
    obtain ⟨ht, hst⟩ := ih hs
    obtain ⟨hu, htu⟩ := ih' ht
    exact ⟨hu, hst.trans htu⟩
  | within opens new _ ih =>
    obtain ⟨ht, hst⟩ := ih (hs.openBlock opens)
    exact ⟨ht.closeBlock (hst.current rfl), hst.within new ht⟩

theorem Runs.mono {m : Nat} (h : Runs names src n s t) (hm : m ≤ n) : Runs names src m s t := by
  induction h with
  | done s => exact .done s
  | act h => exact .act h
  | trans _ _ ih ih' => exact .trans ih ih'
  | within opens new _ ih => exact .within opens (Nat.le_trans hm new) ih

/-! ## Reachable states -/

theorem Reachable.good (h : Reachable names src s) : s.Good names src := by
  induction h with
  | start => exact ⟨.empty, by simp, by simp⟩
  | options _ _ ih => exact ⟨ih.arena, ih.opened, ih.distinct⟩
  | @types s _ ih =>
    show (if s.typeScopes.isEmpty then
      { s with
        arena := (s.arena.createTypeScope s.options.builtinTypes).1
        typeScopes := [(s.arena.createTypeScope s.options.builtinTypes).2] }
      else s).Good names src
    split
    · exact ⟨ih.arena.createTypeScope _, ih.opened, ih.distinct⟩
    · exact ih
  | @root s _ span ih =>
    refine ⟨ih.arena.allocBlock (by simp), ?_, ih.distinct⟩
    intro b hb
    obtain ⟨x, hx, ho⟩ := ih.opened b hb
    have hlt := Arena.index_lt_of_block? hx
    exact ⟨x, (Arena.block?_allocBlock _ _ _ _).trans ((if_neg (by omega)).trans hx), ho⟩
  | unitBody _ _ ih => exact ⟨ih.arena, ih.opened, ih.distinct⟩
  | act _ h' ih => exact (h'.good_frame (n := 0) ih).1
  | enter _ opens ih => exact ih.openBlock opens
  | leave _ here ih => exact ih.closeBlock here

/-- A run leads from reachable states to reachable states. -/
theorem Runs.reachable (h : Runs names src n s t) (hs : Reachable names src s) :
    Reachable names src t := by
  induction h with
  | done s => exact hs
  | act h => exact hs.act h
  | trans _ _ ih ih' => exact ih' (ih hs)
  | @within s t c opens _ h ih =>
    have hin := hs.enter opens
    have hcur : t.current? = some c := (h.good_frame hin.good).2.current rfl
    exact (ih hin).leave hcur

end

end BlockLowering
