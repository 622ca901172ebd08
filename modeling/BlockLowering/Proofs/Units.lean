import BlockLowering.Proofs.Invariants
import BlockLowering.Proofs.Scoping

/-!
# Units

Lowering a module is lowering its statements, with fixed work before and after: `enterUnit` makes the
unit block, its placeholders and the body block, and opens both blocks; `leaveUnit` closes them
(`run_module`). Both are given by their results, so later proofs look at the statements only.
-/

namespace BlockLowering

open IR Source Session

namespace IR

/-- Consecutive declaration numbers. -/
def DeclId.range (start count : Nat) : List DeclId := (List.range' start count).map DeclId.mk

namespace Arena

variable {a : Arena} {b : BlockId}

/-- More declarations, listed at the end of a block. -/
def withDecls (a : Arena) (b : BlockId) (ds : List Decl) : Arena :=
  ({ a with decls := a.decls ++ ds } : Arena).updateBlock b fun x =>
    { x with decls := x.decls ++ DeclId.range a.decls.length ds.length }

theorem block?_withDecls (a : Arena) (b : BlockId) (ds : List Decl) (c : BlockId) :
    (a.withDecls b ds).block? c =
      if c = b then (a.block? c).map fun x =>
        { x with decls := x.decls ++ DeclId.range a.decls.length ds.length }
      else a.block? c :=
  block?_updateBlock { a with decls := a.decls ++ ds } b _ c

@[simp] theorem length_withDecls (a : Arena) (b : BlockId) (ds : List Decl) :
    (a.withDecls b ds).blocks.length = a.blocks.length := length_updateBlock ..

theorem withDecls_nil (a : Arena) (b : BlockId) : a.withDecls b [] = a := by
  have hid :
      (fun x : Block => { x with decls := x.decls ++ DeclId.range a.decls.length 0 }) = id := by
    funext x
    simp [DeclId.range]
  unfold withDecls updateBlock
  simp only [List.length_nil, hid, List.append_nil]
  rw [List.modify_id]

/-- The declarations may be made one after the other. -/
theorem withDecls_withDecl (a : Arena) (b : BlockId) (d : Decl) (ds : List Decl) :
    (a.withDecl b d).withDecls b ds = a.withDecls b (d :: ds) := by
  have hlist : ∀ x : Block,
      x.decls ++ [⟨a.decls.length⟩] ++ DeclId.range (a.decls ++ [d]).length ds.length =
        x.decls ++ DeclId.range a.decls.length (ds.length + 1) := by
    intro x
    simp [DeclId.range, List.range'_succ]
  unfold withDecl withDecls updateBlock
  simp only [List.modify_modify_eq, List.append_assoc, List.singleton_append, List.length_cons]
  congr 2
  funext x
  exact congrArg (fun l => { x with decls := l }) (hlist x)

end Arena

end IR

section

variable {names : SymbolTable} {src : Node → Prop} {s t : Session} {b : BlockId} {x : IR.Block}

/-! ## Placeholders -/

/-- The placeholder for a function before its declaration is reached. -/
def placeholderFor (names : SymbolTable) (unit : BlockId) (target : Option DeclId) (id : Ident) :
    Decl :=
  ⟨names.resolve id.name, none, .placeholder target, unit, id.span⟩

/-- The declarations that a unit block starts with. -/
def Source.Module.placeholders (names : SymbolTable) (options : Options) (unit : BlockId)
    (m : Module) : List Decl :=
  if options.hoisting then m.functionNames.map (placeholderFor names unit none) else []

/-- Placeholders are no temporaries. -/
theorem isTemporary_placeholders {options : Options} {m : Module} {d : Decl}
    (h : d ∈ m.placeholders names options b) : d.isTemporary = false := by
  unfold Module.placeholders at h
  split at h
  · obtain ⟨id, _, rfl⟩ := List.mem_map.1 h
    rfl
  · cases h

namespace Lower

theorem run_hoist (h : s.arena.block? b = some x) (ho : x.isSealed = false) (ids : List Ident) :
    (hoist names b ids).run s =
      ((), { s with arena := s.arena.withDecls b (ids.map (placeholderFor names b none)) }) := by
  induction ids generalizing s x with
  | nil =>
    rw [List.map_nil, Arena.withDecls_nil]
    rfl
  | cons id rest ih =>
    unfold hoist
    rw [run_bind, run_addDecl h ho]
    obtain ⟨y, hy, hopen⟩ : ∃ y, (s.arena.withDecl b (placeholderFor names b none id)).block? b =
        some y ∧ y.isSealed = false := by
      rw [Arena.block?_withDecl, if_pos rfl, h]
      exact ⟨_, rfl, ho⟩
    have hrest := ih (s := { s with arena := s.arena.withDecl b (placeholderFor names b none id) })
      hy hopen
    rw [List.map_cons, ← Arena.withDecls_withDecl]
    exact hrest

theorem run_placeholders (h : s.arena.block? b = some x) (ho : x.isSealed = false) (m : Module) :
    (placeholders names b m.functionNames).run s =
      ((), { s with arena := s.arena.withDecls b (m.placeholders names s.options b) }) := by
  unfold placeholders Module.placeholders
  rw [run_bind, run_get]
  by_cases hh : s.options.hoisting = true
  · simp only [if_pos hh]
    exact run_hoist h ho m.functionNames
  · simp only [if_neg hh]
    rw [Arena.withDecls_nil]
    rfl

end Lower

/-! ## Entering and leaving a unit -/

/-- A session before its first tree. -/
abbrev Session.initial (options : Options) : Session := { options }

theorem reachable_initial (names : SymbolTable) (src : Node → Prop) (options : Options) :
    Reachable names src (initial options) := .options .start options

/-- The unit block that the next module gets. -/
def Session.nextUnit (s : Session) : BlockId := ⟨s.arena.blocks.length⟩

/-- The body block that the next module gets. -/
def Session.nextBody (s : Session) : BlockId := ⟨s.arena.blocks.length + 1⟩

/-- The blocks of the next module, with their declarations, before its statements are lowered. -/
def Session.unitArena (names : SymbolTable) (m : Module) (s : Session) : Arena :=
  (((Lower.ensureTypeScope.run s).2.arena.createRoot m.span).1.withDecls s.nextUnit
    (m.placeholders names s.options s.nextUnit)).withChild s.nextUnit m.span

/-- Ready to lower the statements of a module. -/
def Session.enterUnit (names : SymbolTable) (m : Module) (s : Session) : Session :=
  { (Lower.ensureTypeScope.run s).2 with
    arena := s.unitArena names m
    openBlocks := s.nextBody :: s.nextUnit :: s.openBlocks
    unitBody := some s.nextBody }

/-- The session `s` after a module whose statements led to `t`. -/
def Session.leaveUnit (s t : Session) : Session :=
  { t with
    arena := (t.arena.withSealed s.nextBody).withSealed s.nextUnit
    openBlocks := s.openBlocks
    unitBody := s.unitBody }

/-- The first module of a session brings types into force, and nothing else. -/
theorem run_ensureTypeScope_fields (s : Session) :
    ∃ scopes ids, (Lower.ensureTypeScope.run s).2 =
      { s with arena := { s.arena with typeScopes := scopes }, typeScopes := ids } := by
  rw [run_ensureTypeScope_eq]
  split
  · exact ⟨_, _, rfl⟩
  · exact ⟨s.arena.typeScopes, s.typeScopes, rfl⟩

/-- The state inside a new root. -/
def Session.openUnit (m : Module) (s : Session) : Session :=
  ((Lower.openBlock s.nextUnit).run
    ((Lower.createRoot m.span).run (Lower.ensureTypeScope.run s).2).2).2

theorem Session.nextUnit_types (s : Session) :
    (⟨(Lower.ensureTypeScope.run s).2.arena.blocks.length⟩ : BlockId) = s.nextUnit := by
  obtain ⟨scopes, ids, h⟩ := run_ensureTypeScope_fields s
  rw [h]
  rfl

theorem Reachable.openUnit (hs : Reachable names src s) (m : Module) :
    Reachable names src (s.openUnit m) := by
  have h₁ := hs.types
  have hopen := mayOpen_createRoot h₁.good m.span
  rw [Session.nextUnit_types] at hopen
  exact (h₁.root m.span).enter hopen

/-- The unit block is new. -/
theorem Session.block?_openUnit (m : Module) (s : Session) :
    (s.openUnit m).arena.block? s.nextUnit = some (.fresh s.nextUnit none m.span) := by
  obtain ⟨scopes, ids, h⟩ := run_ensureTypeScope_fields s
  unfold Session.openUnit
  rw [h]
  exact (Arena.block?_allocBlock _ _ _ _).trans (if_pos rfl)

/-- Entering a unit, as lowering does it. -/
theorem Session.enterUnit_eq (names : SymbolTable) (m : Module) (s : Session) :
    let s₁ := ((Lower.placeholders names s.nextUnit m.functionNames).run (s.openUnit m)).2
    let s₂ := ((Lower.createChild s.nextUnit m.span).run s₁).2
    ((Lower.createChild s.nextUnit m.span).run s₁).1 = s.nextBody ∧
      s₂.unitBody = s.unitBody ∧
      ((Lower.openBlock s.nextBody).run { s₂ with unitBody := some s.nextBody }).2 =
        s.enterUnit names m := by
  have hunit := s.block?_openUnit m
  obtain ⟨scopes, ids, h⟩ := run_ensureTypeScope_fields s
  have hoptions : (s.openUnit m).options = s.options := by
    unfold Session.openUnit
    rw [h]
    rfl
  dsimp only
  rw [Lower.run_placeholders hunit rfl, hoptions]
  have hunit₁ : ((s.openUnit m).arena.withDecls s.nextUnit
      (m.placeholders names s.options s.nextUnit)).block? s.nextUnit ≠ none := by
    rw [Arena.block?_withDecls, if_pos rfl, hunit]
    simp
  obtain ⟨y, hy⟩ := Option.ne_none_iff_exists'.1 hunit₁
  rw [Lower.run_createChild hy]
  unfold Session.openUnit Session.enterUnit Session.unitArena
  rw [h]
  refine ⟨?_, rfl, rfl⟩
  show (⟨(Arena.withDecls _ _ _).blocks.length⟩ : BlockId) = s.nextBody
  rw [Arena.length_withDecls]
  exact congrArg BlockId.mk (Arena.length_allocBlock ..)

theorem Reachable.enterUnit (hs : Reachable names src s) (m : Module) :
    Reachable names src (s.enterUnit names m) := by
  obtain ⟨hbody, _, heq⟩ := s.enterUnit_eq names m
  have h₀ := hs.openUnit m
  have d₁ := does_placeholders (n := 0) h₀.good rfl m.functionNames
  have h₁ := d₁.reachable h₀
  have hb₁ := (d₁.1.good_frame h₀.good).2.current rfl
  have d₂ := does_createChild (n := 0) h₁.good hb₁ m.span
  have hopen := d₂.2.1.opens
  rw [hbody] at hopen
  rw [← heq]
  exact ((d₂.reachable h₁).unitBody (some s.nextBody)).enter ⟨hopen.closed, hopen.fresh⟩

/-! ## The arena at the start of a unit -/

/-- The unit block while the statements of its module are lowered. -/
def Session.unitAtStart (names : SymbolTable) (m : Module) (s : Session) : IR.Block :=
  { Block.fresh s.nextUnit none m.span with
    decls := DeclId.range s.arena.decls.length (m.placeholders names s.options s.nextUnit).length
    children := [s.nextBody] }

theorem Session.nextBody_ne_nextUnit (s : Session) : s.nextBody ≠ s.nextUnit := by
  intro h
  have hindex := congrArg BlockId.index h
  exact Nat.succ_ne_self _ hindex

@[simp] theorem Session.decls_enterUnit (names : SymbolTable) (m : Module) (s : Session) :
    (s.enterUnit names m).arena.decls =
      s.arena.decls ++ m.placeholders names s.options s.nextUnit := by
  obtain ⟨scopes, ids, h⟩ := run_ensureTypeScope_fields s
  unfold Session.enterUnit Session.unitArena
  rw [h]
  rfl

@[simp] theorem Session.length_enterUnit (names : SymbolTable) (m : Module) (s : Session) :
    (s.enterUnit names m).arena.blocks.length = s.arena.blocks.length + 2 := by
  obtain ⟨scopes, ids, h⟩ := run_ensureTypeScope_fields s
  unfold Session.enterUnit Session.unitArena
  rw [h, Arena.length_withChild, Arena.length_withDecls]
  exact congrArg (· + 1) (Arena.length_allocBlock ..)

theorem Session.block?_enterUnit (names : SymbolTable) (m : Module) (s : Session) (c : BlockId) :
    (s.enterUnit names m).arena.block? c =
      if c = s.nextUnit then some (s.unitAtStart names m)
      else if c = s.nextBody then some (.fresh s.nextBody (some s.nextUnit) m.span)
      else s.arena.block? c := by
  obtain ⟨scopes, ids, h⟩ := run_ensureTypeScope_fields s
  have hlength : ((({ s.arena with typeScopes := scopes } : Arena).createRoot m.span).1.withDecls
      s.nextUnit (m.placeholders names s.options s.nextUnit)).blocks.length =
        s.arena.blocks.length + 1 :=
    (Arena.length_withDecls ..).trans (Arena.length_allocBlock ..)
  have hroot : ∀ c, (({ s.arena with typeScopes := scopes } : Arena).createRoot m.span).1.block? c =
      if c.index = s.arena.blocks.length then some (.fresh c none m.span) else s.arena.block? c :=
    Arena.block?_allocBlock { s.arena with typeScopes := scopes } none m.span
  unfold Session.enterUnit Session.unitArena
  rw [h]
  show (Arena.withChild _ _ _).block? c = _
  rw [Arena.block?_withChild (by rw [hlength]; exact Nat.lt_succ_self _), Arena.block?_withDecls,
    hlength, hroot]
  by_cases hunit : c = s.nextUnit
  · have hindex : c.index = s.arena.blocks.length := by
      rw [hunit]
      rfl
    rw [if_pos hunit, if_pos hunit, if_pos hunit, if_pos hindex, hunit]
    rfl
  · rw [if_neg hunit, if_neg hunit, if_neg hunit]
    by_cases hbody : c = s.nextBody
    · have hindex : c.index = s.arena.blocks.length + 1 := by
        rw [hbody]
        rfl
      rw [if_pos hbody, if_pos hindex, hbody]
    · have hindex : c.index ≠ s.arena.blocks.length + 1 := fun e => hbody (by
        unfold Session.nextBody
        rw [← e])
      have hindex' : c.index ≠ s.arena.blocks.length := fun e => hunit (by
        unfold Session.nextUnit
        rw [← e])
      rw [if_neg hbody, if_neg hindex, if_neg hindex']

theorem Session.parent?_enterUnit (names : SymbolTable) (m : Module) (s : Session) :
    (s.enterUnit names m).arena.parent? s.nextBody = some s.nextUnit := by
  have hbody : (s.enterUnit names m).arena.block? s.nextBody =
      some (.fresh s.nextBody (some s.nextUnit) m.span) := by
    rw [Session.block?_enterUnit, if_neg s.nextBody_ne_nextUnit, if_pos rfl]
  exact Arena.parent?_eq hbody

/-- The statements of the next module. -/
def Session.unitStatements (names : SymbolTable) (m : Module) (s : Session) : Session :=
  ((Lower.statementList names m.statements).run (s.enterUnit names m)).2

theorem Reachable.unitStatements (hs : Reachable names anyNode s) (m : Module) :
    (s.unitStatements names m).Good names anyNode ∧
      Frame (s.arena.blocks.length + 2) (s.enterUnit names m) (s.unitStatements names m) := by
  have h := hs.enterUnit m
  have hsize : s.arena.blocks.length + 2 ≤ (s.enterUnit names m).arena.blocks.length :=
    Nat.le_of_eq (s.length_enterUnit names m).symm
  exact (does_statementList m.statements (covers_anyNode _) _ _ h.good hsize).1.good_frame h.good

theorem Reachable.openBlocks_unitStatements (hs : Reachable names anyNode s) (m : Module) :
    (s.unitStatements names m).openBlocks = s.nextBody :: s.nextUnit :: s.openBlocks :=
  (hs.unitStatements m).2.stack.resolve_right fun h => by cases h.1

/-- Lowering a module is entering its unit, lowering its statements and leaving the unit. -/
theorem run_module (hs : Reachable names anyNode s) (m : Module) :
    (Lower.module names m).run s = (s.nextUnit, s.leaveUnit (s.unitStatements names m)) := by
  obtain ⟨hbody, houter, heq⟩ := s.enterUnit_eq names m
  obtain ⟨ht, hst⟩ := hs.unitStatements m
  have hstack := hs.openBlocks_unitStatements m
  have hcur : (s.unitStatements names m).current? = some s.nextBody := hst.current rfl
  have hclosed := ht.closeBlock hcur
  have hmodule : (Lower.module names m).run s = (s.nextUnit, ((Lower.closeBlock s.nextUnit).run
      ((Lower.unitBlock names s.nextUnit m).run (s.openUnit m)).2).2) := by
    unfold Session.openUnit
    rw [← Session.nextUnit_types]
    rfl
  rw [hmodule, Lower.run_unitBlock]
  dsimp only
  rw [hbody, houter]
  have hwork : ((Lower.inBlock s.nextBody (Lower.statementList names m.statements)).run
      { ((Lower.createChild s.nextUnit m.span).run
        ((Lower.placeholders names s.nextUnit m.functionNames).run (s.openUnit m)).2).2 with
        unitBody := some s.nextBody }).2 =
      ((Lower.closeBlock s.nextBody).run (s.unitStatements names m)).2 := by
    unfold Session.unitStatements
    rw [← heq]
    rfl
  rw [hwork]
  rw [ht.run_closeBlock hcur] at hclosed ⊢
  have hgood : ({ s.unitStatements names m with
      openBlocks := (s.unitStatements names m).openBlocks.tail
      arena := (s.unitStatements names m).arena.withSealed s.nextBody
      unitBody := s.unitBody } : Session).Good names anyNode :=
    ⟨hclosed.arena, hclosed.opened, hclosed.distinct⟩
  have hcur' : ({ s.unitStatements names m with
      openBlocks := (s.unitStatements names m).openBlocks.tail
      arena := (s.unitStatements names m).arena.withSealed s.nextBody
      unitBody := s.unitBody } : Session).current? = some s.nextUnit := by
    unfold Session.current?
    rw [hstack]
    rfl
  rw [hgood.run_closeBlock hcur', hstack]
  rfl

/-! ## The arena after a unit -/

theorem Session.block?_leaveUnit (s t : Session) (c : BlockId) :
    (s.leaveUnit t).arena.block? c =
      if c = s.nextUnit ∨ c = s.nextBody then
        (t.arena.block? c).map fun x => { x with isSealed := true }
      else t.arena.block? c := by
  show ((t.arena.withSealed s.nextBody).withSealed s.nextUnit).block? c = _
  rw [Arena.block?_withSealed, Arena.block?_withSealed]
  have hne := s.nextBody_ne_nextUnit
  by_cases hunit : c = s.nextUnit
  · have hbody : c ≠ s.nextBody := fun h => hne (h.symm.trans hunit)
    rw [if_pos hunit, if_neg hbody, if_pos (.inl hunit)]
  · rw [if_neg hunit]
    by_cases hbody : c = s.nextBody
    · rw [if_pos hbody, if_pos (.inr hbody)]
    · rw [if_neg hbody, if_neg (not_or.2 ⟨hunit, hbody⟩)]

/-- Lowering a module changes no block that was there before. -/
theorem block?_module (hs : Reachable names anyNode s) (m : Module) {c : BlockId}
    (hc : c.index < s.arena.blocks.length) :
    ((Lower.module names m).run s).2.arena.block? c = s.arena.block? c := by
  have hunit : c ≠ s.nextUnit := by
    rintro rfl
    exact Nat.lt_irrefl _ hc
  have hbody : c ≠ s.nextBody := by
    rintro rfl
    exact Nat.lt_irrefl _ (Nat.lt_of_succ_lt hc)
  have hkept := (hs.unitStatements m).2.others c (by omega)
    (by rw [Session.length_enterUnit]; omega) fun h => hbody (Option.some.inj h).symm
  rw [run_module hs m, Session.block?_leaveUnit, if_neg (not_or.2 ⟨hunit, hbody⟩), hkept,
    Session.block?_enterUnit, if_neg hunit, if_neg hbody]

theorem Session.parent?_leaveUnit (s t : Session) (c : BlockId) :
    (s.leaveUnit t).arena.parent? c = t.arena.parent? c := by
  unfold Session.leaveUnit Arena.withSealed
  rw [Arena.parent?_updateBlock, Arena.parent?_updateBlock]
  · exact fun _ => rfl
  · exact fun _ => rfl

/-- After a module its unit block holds the placeholders and the body, and is sealed. -/
theorem block?_module_nextUnit (hs : Reachable names anyNode s) (m : Module) :
    ((Lower.module names m).run s).2.arena.block? s.nextUnit =
      some { s.unitAtStart names m with isSealed := true } := by
  have hkept := (hs.unitStatements m).2.others s.nextUnit (Nat.lt_succ_of_lt (Nat.lt_succ_self _))
    (by rw [Session.length_enterUnit]; exact Nat.lt_succ_of_lt (Nat.lt_succ_self _))
    fun h => s.nextBody_ne_nextUnit (Option.some.inj h)
  rw [run_module hs m, Session.block?_leaveUnit, if_pos (.inl rfl), hkept, Session.block?_enterUnit,
    if_pos rfl]
  rfl

/-- A module by itself is the only unit of its session. -/
theorem lowerModule_eq (names : SymbolTable) (m : Module) (options : Options) :
    lowerModule names m options =
      (initial options).leaveUnit ((initial options).unitStatements names m) :=
  congrArg Prod.snd (run_module (reachable_initial names anyNode options) m)

end

end BlockLowering
