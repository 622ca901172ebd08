import BlockLowering.Proofs.Lowering

/-!
# Invariants of sessions

Facts about all states that lowering passes through, each by one induction over what lowering can do:

1. nothing is refused and no block is closed out of turn (`Reachable.faults`);
2. every open block is a root or lies right inside the next open block (`Reachable.stacked`);
3. the counter for temporaries counts the temporaries that there are (`Reachable.temporaries`);
4. every declaration is owned by a block that is there (`Reachable.owned`).

While a block is open, lowering makes no new roots (`Runs.parent?_ne_none`).
-/

namespace BlockLowering

open IR Diagnostic Source Session

section

variable {names : SymbolTable} {src : Node → Prop} {s t : Session} {b c : BlockId} {n : Nat}

/-! ## Options and faults -/

/-- No action touches the options or meets a fault. -/
theorem Act.options_faults (hs : s.Good names src) (h : Act names src s t) :
    t.options = s.options ∧ t.faults = s.faults := by
  cases h with
  | report p => exact ⟨rfl, rfl⟩
  | openRoot hnone =>
    rw [Lower.run_currentBlock_none hnone]
    exact ⟨rfl, rfl⟩
  | temporary here span =>
    obtain ⟨x, hx, ho⟩ := hs.current here
    rw [Lower.run_freshTemp hx ho]
    exact ⟨rfl, rfl⟩
  | declare here named typed =>
    obtain ⟨x, hx, ho⟩ := hs.current here
    rw [Lower.run_addDecl hx ho]
    exact ⟨rfl, rfl⟩
  | @link b here name d =>
    rcases hs.run_linkHoisted here name d with h | ⟨p, x, _, _, h⟩
    · rw [h]
      exact ⟨rfl, rfl⟩
    · rw [h]
      exact ⟨rfl, rfl⟩
  | child here span =>
    obtain ⟨x, hx, _⟩ := hs.current here
    rw [Lower.run_createChild hx]
    exact ⟨rfl, rfl⟩
  | append here inScope =>
    obtain ⟨x, hx, ho⟩ := hs.current here
    rw [Lower.run_addStmt hx ho]
    exact ⟨rfl, rfl⟩

theorem Session.Good.closeBlock_options_faults (hs : s.Good names src) (h : s.current? = some c) :
    ((Lower.closeBlock c).run s).2.options = s.options ∧
      ((Lower.closeBlock c).run s).2.faults = s.faults := by
  rw [hs.run_closeBlock h]
  exact ⟨rfl, rfl⟩

theorem Runs.options_faults (hs : s.Good names src) (h : Runs names src n s t) :
    t.options = s.options ∧ t.faults = s.faults := by
  induction h with
  | done s => exact ⟨rfl, rfl⟩
  | act h => exact h.options_faults hs
  | trans h _ ih ih' =>
    obtain ⟨ho, hf⟩ := ih hs
    obtain ⟨ho', hf'⟩ := ih' (h.good_frame hs).1
    exact ⟨ho'.trans ho, hf'.trans hf⟩
  | within opens _ h ih =>
    have hin := hs.openBlock opens
    obtain ⟨ht, hst⟩ := h.good_frame hin
    obtain ⟨ho, hf⟩ := ih hin
    obtain ⟨ho', hf'⟩ := ht.closeBlock_options_faults (hst.current rfl)
    exact ⟨ho'.trans ho, hf'.trans hf⟩

/-- What the first module of a session sets up. -/
theorem run_ensureTypeScope_eq (s : Session) :
    (Lower.ensureTypeScope.run s).2 =
      if s.typeScopes.isEmpty then
        { s with
          arena := (s.arena.createTypeScope s.options.builtinTypes).1
          typeScopes := [(s.arena.createTypeScope s.options.builtinTypes).2] }
      else s := rfl

/-- No state that lowering passes through has met a fault. -/
theorem Reachable.faults (h : Reachable names src s) : s.faults = [] := by
  induction h with
  | start => rfl
  | options _ _ ih => exact ih
  | types _ ih =>
    rw [run_ensureTypeScope_eq]
    split
    · exact ih
    · exact ih
  | root _ _ ih => exact ih
  | unitBody _ _ ih => exact ih
  | act h h' ih => exact (h'.options_faults h.good).2.trans ih
  | enter _ _ ih => exact ih
  | leave h here ih => exact (h.good.closeBlock_options_faults here).2.trans ih

/-! ## The stack of open blocks -/

/-- Every block of the stack is a root or lies right inside the next block of the stack. -/
def IR.Arena.Stacked (a : Arena) : List BlockId → Prop
  | [] => True
  | b :: rest => (a.parent? b = none ∨ a.parent? b = rest.head?) ∧ a.Stacked rest

/-- Blocks that are there keep their parents, so a stack of them stays one. -/
theorem IR.Arena.Grows.stacked {a a' : Arena} {stack : List BlockId} (g : a.Grows a')
    (known : ∀ b ∈ stack, b.index < a.blocks.length) (h : a.Stacked stack) : a'.Stacked stack := by
  induction stack with
  | nil => trivial
  | cons b rest ih =>
    obtain ⟨hb, hrest⟩ := h
    have hparent := g.parent b (known b List.mem_cons_self)
    refine ⟨?_, ih (fun c hc => known c (List.mem_cons_of_mem b hc)) hrest⟩
    rw [hparent]
    exact hb

theorem Session.Good.known (hs : s.Good names src) :
    ∀ b ∈ s.openBlocks, b.index < s.arena.blocks.length := by
  intro b hb
  obtain ⟨x, hx, _⟩ := hs.opened b hb
  exact Arena.index_lt_of_block? hx

theorem Act.stacked (hs : s.Good names src) (h : Act names src s t)
    (hstack : s.arena.Stacked s.openBlocks) : t.arena.Stacked t.openBlocks := by
  obtain ⟨_, hst⟩ := h.good_frame (n := 0) hs
  rcases hst.stack with hsame | ⟨hnil, _⟩
  · rw [hsame]
    exact hst.arena.stacked hs.known hstack
  · -- Only the first root is opened by an action: it has no parent.
    cases h with
    | openRoot =>
      rw [Lower.run_currentBlock_none hnil]
      refine ⟨.inl ?_, trivial⟩
      exact (Arena.parent?_allocBlock _ _ _ _).trans (if_pos rfl)
    | report p =>
      show s.arena.Stacked s.openBlocks
      exact hstack
    | temporary here | declare here | link here | child here | append here =>
      rw [current?_eq_none hnil] at here
      cases here

theorem Session.MayOpen.stacked (h : s.MayOpen c) (hstack : s.arena.Stacked s.openBlocks) :
    s.arena.Stacked (c :: s.openBlocks) := by
  obtain ⟨parent, span, hx, hp⟩ := h.fresh
  refine ⟨?_, hstack⟩
  rw [Arena.parent?_eq hx]
  exact hp

/-- Open blocks always lie inside each other, up to a root. -/
theorem Reachable.stacked (h : Reachable names src s) : s.arena.Stacked s.openBlocks := by
  induction h with
  | start => trivial
  | options _ _ ih => exact ih
  | @types s h ih =>
    rw [run_ensureTypeScope_eq]
    split
    · exact (Arena.Grows.createTypeScope s.arena _).stacked h.good.known ih
    · exact ih
  | @root s h span ih =>
    exact (Arena.Grows.allocBlock s.arena none span).stacked h.good.known ih
  | unitBody _ _ ih => exact ih
  | act h h' ih => exact h'.stacked h.good ih
  | enter _ opens ih => exact opens.stacked ih
  | @leave s c h here ih =>
    rw [h.good.run_closeBlock here]
    have hcons := openBlocks_eq_cons here
    have hrest : s.arena.Stacked s.openBlocks.tail := by
      rw [hcons] at ih
      exact ih.2
    refine (Arena.Grows.withSealed s.arena c).stacked (fun b hb => ?_) hrest
    exact h.good.known b (List.mem_of_mem_tail hb)

/-! ## Temporaries -/

/-- The number of temporaries in the arena. -/
def IR.Arena.temporaries (a : Arena) : Nat := a.decls.countP Decl.isTemporary

theorem IR.Arena.temporaries_withDecl (a : Arena) (b : BlockId) (d : Decl) :
    (a.withDecl b d).temporaries = a.temporaries + if d.isTemporary then 1 else 0 := by
  unfold Arena.temporaries
  rw [Arena.decls_withDecl, List.countP_append, List.countP_singleton]

/-- Linking a placeholder makes no temporary. -/
theorem IR.Arena.temporaries_withLink {a : Arena} {p : DeclId} {x : Decl}
    (hx : a.decl? p = some x) (free : x.kind = .placeholder none) (target : DeclId) :
    (a.withLink p target).temporaries = a.temporaries := by
  have hmap : (a.withLink p target).decls.map Decl.isTemporary = a.decls.map Decl.isTemporary := by
    apply List.ext_getElem?
    intro i
    rw [List.getElem?_map, List.getElem?_map]
    show ((a.withLink p target).decl? ⟨i⟩).map _ = (a.decl? ⟨i⟩).map _
    rw [Arena.decl?_withLink]
    by_cases hi : (⟨i⟩ : DeclId) = p
    · rw [if_pos hi, hi, hx]
      exact congrArg some (Decl.Becomes.linked x target free).isTemporary_eq
    · rw [if_neg hi]
  have hcount : ∀ l : List Decl,
      l.countP Decl.isTemporary = (l.map Decl.isTemporary).countP id := by
    intro l
    rw [List.countP_map]
    rfl
  unfold Arena.temporaries
  rw [hcount, hmap, ← hcount]

theorem Act.temporaries (hs : s.Good names src) (h : Act names src s t)
    (hcount : s.nextTemp = s.arena.temporaries) : t.nextTemp = t.arena.temporaries := by
  cases h with
  | report p => exact hcount
  | openRoot hnone =>
    rw [Lower.run_currentBlock_none hnone]
    exact hcount
  | @temporary b here span =>
    obtain ⟨x, hx, ho⟩ := hs.current here
    rw [Lower.run_freshTemp hx ho]
    show s.nextTemp + 1 = (s.arena.withDecl b (Lower.tempDecl s b span)).temporaries
    rw [Arena.temporaries_withDecl, hcount]
    rfl
  | @declare b here name type kind span named typed =>
    obtain ⟨x, hx, ho⟩ := hs.current here
    rw [Lower.run_addDecl hx ho]
    have hnot : (Decl.mk name type kind b span).isTemporary = false := by
      simpa [Decl.isTemporary] using named
    show s.nextTemp = (s.arena.withDecl b ⟨name, type, kind, b, span⟩).temporaries
    rw [Arena.temporaries_withDecl, hnot, hcount]
    rfl
  | @link b here name d =>
    rcases hs.run_linkHoisted here name d with h | ⟨p, x, hx, hfree, h⟩
    · rw [h]
      exact hcount
    · rw [h]
      exact hcount.trans (Arena.temporaries_withLink hx hfree d).symm
  | child here span =>
    obtain ⟨x, hx, _⟩ := hs.current here
    rw [Lower.run_createChild hx]
    exact hcount
  | append here inScope =>
    obtain ⟨x, hx, ho⟩ := hs.current here
    rw [Lower.run_addStmt hx ho]
    exact hcount

/-- Temporaries are numbered without gaps. -/
theorem Reachable.temporaries (h : Reachable names src s) : s.nextTemp = s.arena.temporaries := by
  induction h with
  | start => rfl
  | options _ _ ih => exact ih
  | types _ ih =>
    rw [run_ensureTypeScope_eq]
    split
    · exact ih
    · exact ih
  | root _ _ ih => exact ih
  | unitBody _ _ ih => exact ih
  | act h h' ih => exact h'.temporaries h.good ih
  | enter _ _ ih => exact ih
  | leave h here ih =>
    rw [h.good.run_closeBlock here]
    exact ih

/-! ## Owners -/

/-- Every declaration is owned by a block that is there. -/
def IR.Arena.Owned (a : Arena) : Prop :=
  ∀ d x, a.decl? d = some x → x.owner.index < a.blocks.length

theorem IR.Arena.Owned.withDecl {a : Arena} {x : IR.Block} {d : Decl} (h : a.Owned)
    (hx : a.block? b = some x) (hd : d.owner = b) : (a.withDecl b d).Owned := by
  intro e y hy
  rw [Arena.length_withDecl]
  have hy' := (Arena.decl?_pushDecl a d e).symm.trans hy
  by_cases he : e.index = a.decls.length
  · rw [if_pos he] at hy'
    rw [← Option.some.inj hy', hd]
    exact Arena.index_lt_of_block? hx
  · rw [if_neg he] at hy'
    exact h e y hy'

theorem Act.owned (hs : s.Good names src) (h : Act names src s t) (howned : s.arena.Owned) :
    t.arena.Owned := by
  have hsize := (h.good_frame (n := 0) hs).2.arena.size
  have hsame : t.arena.decls = s.arena.decls → t.arena.Owned := by
    intro hdecls d x hx
    unfold Arena.decl? at hx
    rw [hdecls] at hx
    exact Nat.lt_of_lt_of_le (howned d x hx) hsize
  cases h with
  | report p => exact howned
  | openRoot hnone =>
    refine hsame ?_
    rw [Lower.run_currentBlock_none hnone]
    rfl
  | temporary here span =>
    obtain ⟨x, hx, ho⟩ := hs.current here
    rw [Lower.run_freshTemp hx ho]
    exact howned.withDecl hx rfl
  | declare here named typed =>
    obtain ⟨x, hx, ho⟩ := hs.current here
    rw [Lower.run_addDecl hx ho]
    exact howned.withDecl hx rfl
  | @link b here name d =>
    rcases hs.run_linkHoisted here name d with hrun | ⟨p, x, hx, hfree, hrun⟩
    · rw [hrun]
      exact howned
    · rw [hrun]
      intro e y hy
      have hy' := (Arena.decl?_withLink s.arena p d e).symm.trans hy
      by_cases he : e = p
      · rw [if_pos he, he, hx] at hy'
        rw [← Option.some.inj hy']
        exact howned p x hx
      · rw [if_neg he] at hy'
        exact howned e y hy'
  | child here span =>
    refine hsame ?_
    obtain ⟨x, hx, _⟩ := hs.current here
    rw [Lower.run_createChild hx]
    rfl
  | append here inScope =>
    refine hsame ?_
    obtain ⟨x, hx, ho⟩ := hs.current here
    rw [Lower.run_addStmt hx ho]
    rfl

theorem Reachable.owned (h : Reachable names src s) : s.arena.Owned := by
  induction h with
  | start =>
    intro d x hx
    cases hx
  | options _ _ ih => exact ih
  | types _ ih =>
    rw [run_ensureTypeScope_eq]
    split
    · exact ih
    · exact ih
  | @root s _ span ih =>
    intro d x hx
    exact Nat.lt_of_lt_of_le (ih d x hx) (Arena.Grows.allocBlock s.arena none span).size
  | unitBody _ _ ih => exact ih
  | act h h' ih => exact h'.owned h.good ih
  | enter _ _ ih => exact ih
  | leave h here ih =>
    rw [h.good.run_closeBlock here]
    intro d x hx
    rw [Arena.length_withSealed]
    exact ih d x hx

/-! ## New blocks -/

/-- The number of blocks stays, or the last block is new and has a parent. -/
theorem Act.blocks_length (hs : s.Good names src) (h : Act names src s t)
    (hb : s.current? = some b) :
    t.arena.blocks.length = s.arena.blocks.length ∨
      t.arena.blocks.length = s.arena.blocks.length + 1 ∧
        t.arena.parent? ⟨s.arena.blocks.length⟩ = some b := by
  cases h with
  | report p => exact .inl rfl
  | openRoot hnone =>
    rw [current?_eq_none hnone] at hb
    cases hb
  | @temporary e here span =>
    obtain ⟨x, hx, ho⟩ := hs.current here
    rw [Lower.run_freshTemp hx ho]
    exact .inl (Arena.length_withDecl ..)
  | declare here named typed =>
    obtain ⟨x, hx, ho⟩ := hs.current here
    rw [Lower.run_addDecl hx ho]
    exact .inl (Arena.length_withDecl ..)
  | @link e here name d =>
    rcases hs.run_linkHoisted here name d with h | ⟨p, x, _, _, h⟩
    · rw [h]
      exact .inl rfl
    · rw [h]
      exact .inl rfl
  | @child e here span =>
    obtain rfl := Option.some.inj (hb.symm.trans here)
    have hparent := (freshChild_run hs here span).parent
    obtain ⟨x, hx, _⟩ := hs.current here
    rw [Lower.run_createChild hx] at hparent ⊢
    exact .inr ⟨Arena.length_withChild .., hparent⟩
  | append here inScope =>
    obtain ⟨x, hx, ho⟩ := hs.current here
    rw [Lower.run_addStmt hx ho]
    exact .inl (Arena.length_withStmt ..)

/-- While a block is open, every new block gets a parent. -/
theorem Runs.parent?_ne_none (hs : s.Good names src) (h : Runs names src n s t)
    (hb : s.current? = some b) :
    ∀ c : BlockId, s.arena.blocks.length ≤ c.index → c.index < t.arena.blocks.length →
      t.arena.parent? c ≠ none := by
  induction h generalizing b with
  | done s =>
    intro c hnew hlt
    omega
  | @act s t h =>
    intro c hnew hlt
    rcases h.blocks_length hs hb with hsame | ⟨hsize, hparent⟩
    · omega
    · obtain rfl : c = ⟨s.arena.blocks.length⟩ := by
        obtain ⟨i⟩ := c
        simp only [BlockId.mk.injEq]
        have hnew' : s.arena.blocks.length ≤ i := hnew
        have hlt' : i < t.arena.blocks.length := hlt
        omega
      rw [hparent]
      exact Option.some_ne_none b
  | @trans s t u h h' ih ih' =>
    intro c hnew hlt
    obtain ⟨ht, hst⟩ := h.good_frame hs
    obtain ⟨_, htu⟩ := h'.good_frame ht
    by_cases hc : c.index < t.arena.blocks.length
    · rw [htu.arena.parent c hc]
      exact ih hs hb c hnew hc
    · exact ih' ht (hst.current hb) c (by omega) hlt
  | @within s t e opens _ h ih =>
    intro c hnew hlt
    have hin := hs.openBlock opens
    obtain ⟨ht, hst⟩ := h.good_frame hin
    rw [ht.run_closeBlock (hst.current rfl)] at hlt ⊢
    have hlt' : c.index < t.arena.blocks.length := by simpa using hlt
    have hkeep := (Arena.Grows.withSealed t.arena e).parent c hlt'
    show (t.arena.withSealed e).parent? c ≠ none
    rw [hkeep]
    exact ih hin rfl c hnew hlt'

end

end BlockLowering
