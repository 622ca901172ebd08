import BlockLowering.Proofs.ClosedScopes
import BlockLowering.Proofs.Mirror

/-!
# Modules that share a session

As long as the options of a session stay the same, a module is lowered there as it would be lowered by
itself: the session gets what the module alone gets, at higher numbers, and nothing that the session
had before changes (`module_isolated`).
-/

namespace BlockLowering

open IR Diagnostic Source Session

section

variable {names : SymbolTable} {options : Options} {s t : Session} {k : Placement}

/-- Every operation of lowering keeps the two sessions alike. -/
theorem mirrors_lockstep (names : SymbolTable) (hextra : k.extra = []) :
    Lockstep names names k.shift False (fun _ => True) (fun _ => Mirrors k) where
  currentBlock _ h := h.currentBlock
  reject h construct span := h.report (.unsupported construct span)
  resolveName hs h name _ := h.resolveName name fun b hb =>
    h.arena.lookup? hs.arena (hs.known b (mem_openBlocks_of_current? hb)) hextra _
  ascription h written _ := h.ascription? written
  freshTemp hs h hb span := h.freshTemp hs hb span
  addDecl hs h hb hkind name type span := by
    refine h.addDecl hs hb ?_ _ type span
    rcases hkind with rfl | rfl | ⟨rfl, _⟩
    · exact ⟨DeclKind.noConfusion, rfl⟩
    · exact ⟨DeclKind.noConfusion, rfl⟩
    · exact ⟨DeclKind.noConfusion, rfl⟩
  linkHoisted hs h _ _ _ d := h.linkHoisted hs hextra _ _ d
  createChild hs h hb span := h.createChild hs hb span
  addStmt hs h hb stmt := h.addStmt hs hb stmt
  openBlock _ h _ _ _ := h.openBlock _
  closeBlock hu h _ _ frame h' _ := h.closeBlock hu frame h'
  deep_frame _ _ _ := trivial
  deep_openBlock _ _ := trivial

/-! ## Types in force -/

/-- The session has these options, and its types, if it has any yet, are their builtin types. -/
structure Session.Fixed (options : Options) (s : Session) : Prop where
  chosen : s.options = options
  types : s.typeScopes = [] ∧ s.arena.typeScopes = [] ∨
    s.typeScopes = [⟨0⟩] ∧ s.arena.typeScopes = [.ofBuiltins ⟨0⟩ options.builtinTypes]

namespace Session.Fixed

theorem initial (options : Options) : Fixed options (initial options) := ⟨rfl, .inl ⟨rfl, rfl⟩⟩

theorem typeScopes_enterUnit (h : Fixed options s) (names : SymbolTable) (m : Module) :
    (s.enterUnit names m).typeScopes = [⟨0⟩] ∧
      (s.enterUnit names m).arena.typeScopes = [.ofBuiltins ⟨0⟩ options.builtinTypes] := by
  show (Lower.ensureTypeScope.run s).2.typeScopes = _ ∧
    (Lower.ensureTypeScope.run s).2.arena.typeScopes = _
  rw [run_ensureTypeScope_eq]
  rcases h.types with ⟨hnone, hempty⟩ | ⟨hsome, hscope⟩
  · have hif : s.typeScopes.isEmpty = true := List.isEmpty_iff.2 hnone
    rw [if_pos hif]
    unfold Arena.createTypeScope
    rw [hempty, h.chosen]
    exact ⟨rfl, rfl⟩
  · have hif : ¬s.typeScopes.isEmpty = true := by
      rw [hsome]
      decide
    rw [if_neg hif]
    exact ⟨hsome, hscope⟩

theorem statement (h : Fixed options s) (hs : s.Good names anyNode) (st : Statement) :
    Fixed options ((Lower.statement names st).run s).2 := by
  have hruns := (does_statementAt false st trivial (covers_anyNode _) 0 s hs (Nat.zero_le _)).1
  obtain ⟨_, hframe⟩ := hruns.good_frame hs
  refine ⟨(hruns.options_faults hs).1.trans h.chosen, ?_⟩
  rw [show ((Lower.statement names st).run s).2.typeScopes = s.typeScopes from hframe.typeScopes,
    show ((Lower.statement names st).run s).2.arena.typeScopes = _ from hframe.types]
  exact h.types

theorem module (h : Fixed options s) (hs : Reachable names anyNode s) (m : Module) :
    Fixed options ((Lower.module names m).run s).2 := by
  have hstart := (hs.enterUnit m).good
  have hruns := (does_statementList m.statements (covers_anyNode _) 0 _ hstart (Nat.zero_le _)).1
  obtain ⟨_, hframe⟩ := hruns.good_frame hstart
  obtain ⟨hinForce, hscopes⟩ := h.typeScopes_enterUnit names m
  have hoptions : (s.enterUnit names m).options = s.options := by
    obtain ⟨scopes, ids, hfields⟩ := run_ensureTypeScope_fields s
    unfold Session.enterUnit
    rw [hfields]
  rw [run_module hs m]
  refine ⟨(hruns.options_faults hstart).1.trans (hoptions.trans h.chosen), .inr ?_⟩
  exact ⟨hframe.typeScopes.trans hinForce, hframe.types.trans hscopes⟩

theorem run (hs : Reachable names anyNode s) (h : Fixed options s) {steps : List Step}
    (hsteps : ∀ chosen, .options chosen ∈ steps → chosen = options) :
    Fixed options (s.run names steps) := by
  have hkept : Kept names anyNode (· = options) (Fixed options) :=
    ⟨fun _ _ hchosen h => ⟨hchosen, h.types⟩, fun _ m hs _ h => h.module hs m,
      fun _ st hs _ _ h => h.statement hs.good st⟩
  exact hkept.run hs h hsteps fun _ _ _ _ => covers_anyNode _

end Session.Fixed

/-! ## One module, alone and in a session -/

/-- Where `s` puts its next module. -/
def Session.placement (s : Session) : Placement where
  shift := ⟨s.arena.blocks.length, s.arena.decls.length⟩
  temps := s.nextTemp
  extra := []
  outer := s.openBlocks
  records := s.log.records
  older := (· = s.arena.decls)

/-- Which functions get placeholders does not depend on the unit. -/
theorem placeholders_eq_map (names : SymbolTable) (options : Options) (m : Module) :
    ∃ ids : List Ident, ∀ unit,
      m.placeholders names options unit = ids.map (placeholderFor names unit none) := by
  unfold Module.placeholders
  split
  · exact ⟨m.functionNames, fun _ => rfl⟩
  · exact ⟨[], fun _ => rfl⟩

theorem DeclId.map_range_shift (r : Shift) (n : Nat) :
    (DeclId.range 0 n).map (DeclId.shift r) = DeclId.range r.decls n := by
  have hshift : DeclId.shift r ∘ DeclId.mk = DeclId.mk ∘ (r.decls + ·) := by
    funext i
    exact congrArg DeclId.mk (Nat.add_comm i r.decls)
  unfold DeclId.range
  rw [List.map_map, hshift, ← List.map_map, List.map_add_range', Nat.add_zero]

theorem shift_nextUnit (options : Options) (s : Session) :
    (initial options).nextUnit.shift s.placement.shift = s.nextUnit :=
  congrArg BlockId.mk (Nat.zero_add _)

theorem shift_nextBody (options : Options) (s : Session) :
    (initial options).nextBody.shift s.placement.shift = s.nextBody :=
  congrArg BlockId.mk (Nat.add_comm 1 _)

/-- The unit block starts with the same placeholders. -/
theorem placed_unitAtStart (h : Fixed options s) (m : Module) :
    ((initial options).unitAtStart names m).placed s.placement = s.unitAtStart names m := by
  obtain ⟨ids, hids⟩ := placeholders_eq_map names options m
  have hlist :
      (DeclId.range Arena.empty.decls.length ids.length).map (DeclId.shift s.placement.shift) =
        DeclId.range s.arena.decls.length ids.length := DeclId.map_range_shift _ _
  unfold Session.unitAtStart Block.placed Block.shift
  simp only [List.map_cons, List.map_nil, shift_nextBody, h.chosen, hids, List.length_map]
  rw [hlist, ← shift_nextUnit options s]
  rfl

theorem shifted_placeholder (h : Fixed options s) (m : Module) {d : DeclId} {x : Decl}
    (hx : ((initial options).enterUnit names m).arena.decl? d = some x) :
    ∃ y, (s.enterUnit names m).arena.decl? (d.shift s.placement.shift) = some y ∧
      Decl.Shifted s.placement.shift s.placement.temps options.tempPrefix x y := by
  obtain ⟨ids, hids⟩ := placeholders_eq_map names options m
  unfold Arena.decl? at hx ⊢
  rw [Session.decls_enterUnit, hids] at hx
  rw [Session.decls_enterUnit, h.chosen, hids]
  obtain ⟨id, hid, rfl⟩ : ∃ id, ids[d.index]? = some id ∧
      placeholderFor names (initial options).nextUnit none id = x := by
    simpa [Arena.empty] using hx
  refine ⟨placeholderFor names s.nextUnit none id, ?_, fun _ => rfl, fun htemp => ?_, rfl, rfl,
    (shift_nextUnit options s).symm, rfl⟩
  · show (s.arena.decls ++ _)[d.index + s.arena.decls.length]? = _
    rw [List.getElem?_append_right (Nat.le_add_left _ _), Nat.add_sub_cancel, List.getElem?_map,
      hid]
    rfl
  · cases htemp

/-- At the start of a unit. -/
theorem mirrors_unitArena (h : Fixed options s) (m : Module) :
    ((initial options).enterUnit names m).arena.Mirrors s.placement options.tempPrefix
      (s.enterUnit names m).arena where
  size := by
    rw [Session.length_enterUnit, Session.length_enterUnit]
    exact Nat.add_comm _ 2
  block b := by
    rw [Session.block?_enterUnit, Session.block?_enterUnit, ← shift_nextUnit options s,
      ← shift_nextBody options s]
    by_cases hb : b = (initial options).nextUnit
    · rw [if_pos hb, if_pos (congrArg _ hb), ← placed_unitAtStart h m]
      rfl
    · rw [if_neg hb, if_neg fun e => hb (BlockId.shift_injective e)]
      by_cases hb' : b = (initial options).nextBody
      · rw [if_pos hb', if_pos (congrArg _ hb')]
        rfl
      · rw [if_neg hb', if_neg fun e => hb' (BlockId.shift_injective e)]
        exact List.getElem?_eq_none (Nat.le_add_left _ _)
  count := by
    obtain ⟨ids, hids⟩ := placeholders_eq_map names options m
    rw [Session.decls_enterUnit, Session.decls_enterUnit, h.chosen, hids, hids]
    simp [Session.placement, Arena.empty, Nat.add_comm]
  decl _ _ hx := shifted_placeholder h m hx
  older := by
    rw [Session.decls_enterUnit]
    exact List.take_left
  types := by
    have halone := Fixed.initial options
    rw [(h.typeScopes_enterUnit names m).2, (halone.typeScopes_enterUnit names m).2]

theorem mirrors_enterUnit (h : Fixed options s) (m : Module) :
    Mirrors s.placement ((initial options).enterUnit names m) (s.enterUnit names m) := by
  have halone := Fixed.initial options
  obtain ⟨scopes, ids, hfields⟩ := run_ensureTypeScope_fields s
  have hunit := shift_nextUnit options s
  have hbody := shift_nextBody options s
  refine ⟨mirrors_unitArena h m, ?_, List.cons_ne_nil _ _, ?_, ?_, ?_, ?_, ?_⟩
  · show s.nextBody :: s.nextUnit :: s.openBlocks = _
    rw [← hunit, ← hbody]
    rfl
  · exact congrArg some hbody.symm
  · rw [(h.typeScopes_enterUnit names m).1, (halone.typeScopes_enterUnit names m).1]
  · show (Lower.ensureTypeScope.run s).2.nextTemp = 0 + s.nextTemp
    rw [hfields, Nat.zero_add]
  · show (Lower.ensureTypeScope.run s).2.options.tempPrefix = options.tempPrefix
    rw [hfields, ← h.chosen]
  · show (Lower.ensureTypeScope.run s).2.log.records = s.log.records ++ []
    rw [hfields, List.append_nil]

theorem mirrors_unitStatements (h : Fixed options s) (m : Module) :
    Mirrors s.placement ((initial options).unitStatements names m) (s.unitStatements names m) := by
  have hgood : ((initial options).enterUnit names m).Good names anyNode :=
    ((reachable_initial names anyNode options).enterUnit m).good
  exact ((mirrors_lockstep names rfl).statementList m.statements [] _ _ hgood trivial
    (mirrors_enterUnit h m) False.elim).2

/-- At the end of a unit. -/
theorem mirrors_module (hs : Reachable names anyNode s) (h : Fixed options s) (m : Module) :
    (lowerModule names m options).arena.Mirrors s.placement options.tempPrefix
      ((Lower.module names m).run s).2.arena := by
  have hreach := reachable_initial names anyNode options
  have hend : ((initial options).unitStatements names m).arena.Mirrors s.placement
      ((initial options).unitStatements names m).options.tempPrefix
      (s.unitStatements names m).arena := (mirrors_unitStatements h m).arena
  have hchosen : ((initial options).unitStatements names m).options = options := by
    have hmodule := ((Fixed.initial options).module hreach m).chosen
    rwa [run_module hreach m] at hmodule
  rw [hchosen] at hend
  rw [lowerModule_eq, run_module hs m]
  unfold Session.leaveUnit
  rw [← shift_nextUnit options s, ← shift_nextBody options s]
  exact (hend.withSealed _).withSealed _

/-- In the session of a single module every block but the unit has a parent. -/
theorem parent?_lowerModule (names : SymbolTable) (m : Module) (options : Options) {b : BlockId}
    (hb : b.index ≠ 0) (hlt : b.index < (lowerModule names m options).arena.blocks.length) :
    (lowerModule names m options).arena.parent? b ≠ none := by
  have hstart := ((reachable_initial names anyNode options).enterUnit m).good
  have hruns : Runs names anyNode 0 ((initial options).enterUnit names m)
      ((initial options).unitStatements names m) :=
    (does_statementList m.statements (covers_anyNode _) 0 _ hstart (Nat.zero_le _)).1
  rw [lowerModule_eq] at hlt ⊢
  rw [Session.parent?_leaveUnit]
  by_cases hone : b.index = 1
  · obtain rfl : b = (initial options).nextBody := by
      obtain ⟨i⟩ := b
      exact congrArg BlockId.mk hone
    have hparent := (initial options).parent?_enterUnit names m
    rw [(hruns.good_frame hstart).2.arena.parent_some hparent]
    exact Option.some_ne_none _
  · refine hruns.parent?_ne_none hstart rfl b ?_ ?_
    · rw [Session.length_enterUnit]
      show 0 + 2 ≤ b.index
      omega
    · simpa [Session.leaveUnit] using hlt

/-- In the session of a single module all blocks lie inside the unit. -/
theorem inside_lowerModule (names : SymbolTable) (m : Module) (options : Options) (b : BlockId)
    (hb : b.index < (lowerModule names m options).arena.blocks.length) :
    (lowerModule names m options).arena.Inside b ⟨0⟩ := by
  have hgood : (lowerModule names m options).Good names anyNode :=
    (Reachable.start.run fun _ _ _ _ => covers_anyNode _).good
  induction hn : b.index using Nat.strongRecOn generalizing b with
  | ind n ih =>
    by_cases hzero : b.index = 0
    · obtain ⟨i⟩ := b
      obtain rfl : i = 0 := hzero
      exact .self _
    · obtain ⟨p, hp⟩ := Option.ne_none_iff_exists'.1 (parent?_lowerModule names m options hzero hb)
      have hlt := hgood.arena.parents b p hp
      exact .outward hp (ih p.index (hn ▸ hlt) p (Nat.lt_trans hlt hb) rfl)

/-- Blocks of before are not touched. -/
theorem take_blocks_module (hs : Reachable names anyNode s) (m : Module) :
    ((Lower.module names m).run s).2.arena.blocks.take s.arena.blocks.length = s.arena.blocks := by
  apply List.ext_getElem?
  intro i
  rw [List.getElem?_take]
  by_cases hi : i < s.arena.blocks.length
  · rw [if_pos hi]
    exact block?_module hs m (c := ⟨i⟩) hi
  · rw [if_neg hi, List.getElem?_eq_none (Nat.le_of_not_lt hi)]

/-- The blocks of a module are its unit and what lies inside. -/
theorem inside_module_iff (hs : Reachable names anyNode s) (h : Fixed options s) (m : Module)
    {b : BlockId} (hb : b.index < ((Lower.module names m).run s).2.arena.blocks.length) :
    s.arena.blocks.length ≤ b.index ↔
      ((Lower.module names m).run s).2.arena.Inside b ⟨s.arena.blocks.length⟩ := by
  have harena : (lowerModule names m options).arena.Mirrors s.placement options.tempPrefix
      ((Lower.module names m).run s).2.arena := mirrors_module hs h m
  constructor
  · intro hnew
    have hlt : b.index - s.arena.blocks.length <
        (lowerModule names m options).arena.blocks.length := by
      have hsize : _ = _ + s.arena.blocks.length := harena.size
      omega
    have hinside := harena.inside
      (inside_lowerModule names m options ⟨b.index - s.arena.blocks.length⟩ hlt)
    have hb' : (⟨b.index - s.arena.blocks.length⟩ : BlockId).shift s.placement.shift = b :=
      congrArg BlockId.mk (Nat.sub_add_cancel hnew)
    have hunit : (⟨0⟩ : BlockId).shift s.placement.shift = ⟨s.arena.blocks.length⟩ :=
      congrArg BlockId.mk (Nat.zero_add _)
    rwa [hb', hunit] at hinside
  · intro hinside
    have hgood := (hs.module (m := m) (covers_anyNode _)).good
    exact Arena.index_le_of_inside hgood.arena.parents hinside

/-- From `s` to `t` the session gets what the session `alone` has, at higher numbers: blocks,
declarations, temporaries and diagnostics after those of `s`. -/
structure Session.Receives (s alone t : Session) : Prop where
  blocks : t.arena.blocks = s.arena.blocks ++
    alone.arena.blocks.map (Block.shift ⟨s.arena.blocks.length, s.arena.decls.length⟩ [])
  decls : ∃ new, t.arena.decls = s.arena.decls ++ new ∧
    List.Forall₂ (Decl.Shifted ⟨s.arena.blocks.length, s.arena.decls.length⟩ s.arena.temporaries
      s.options.tempPrefix) alone.arena.decls new
  log : t.log.records = s.log.records ++ alone.log.records
  types : t.arena.typeScopes = alone.arena.typeScopes
  openBlocks : t.openBlocks = s.openBlocks
  /-- The new blocks are the first of them and those inside it. -/
  inside : ∀ b : BlockId, b.index < t.arena.blocks.length →
    (s.arena.blocks.length ≤ b.index ↔ t.arena.Inside b ⟨s.arena.blocks.length⟩)

/-- Modules that share a session do not disturb each other. In a session with fixed options the next
module gets the next block as its unit; it leaves all blocks and declarations as they are and appends
what it would make alone, at higher numbers; the new blocks are the unit and those inside it. -/
theorem module_isolated (names : SymbolTable) (options : Options) (steps : List Step)
    (hsteps : ∀ chosen, .options chosen ∈ steps → chosen = options) (m : Module) :
    let s := Session.run names (.options options :: steps) {}
    ((Lower.module names m).run s).1 = ⟨s.arena.blocks.length⟩ ∧
      s.Receives (lowerModule names m options) ((Lower.module names m).run s).2 := by
  intro s
  have hs : Reachable names anyNode s := Reachable.start.run fun _ _ _ _ => covers_anyNode _
  have hfixed : Fixed options s :=
    Fixed.run (reachable_initial names anyNode options) (.initial options) hsteps
  have harena : (lowerModule names m options).arena.Mirrors s.placement options.tempPrefix
      ((Lower.module names m).run s).2.arena := mirrors_module hs hfixed m
  have hstatements : Mirrors s.placement ((initial options).unitStatements names m)
      (s.unitStatements names m) := mirrors_unitStatements hfixed m
  have hplaced : Block.placed s.placement =
      Block.shift ⟨s.arena.blocks.length, s.arena.decls.length⟩ [] := by
    funext x
    exact congrArg (fun l => Block.shift _ l x) (ite_self _)
  have hblocks := List.take_append_drop s.arena.blocks.length
    ((Lower.module names m).run s).2.arena.blocks
  have hdecls := List.take_append_drop s.arena.decls.length
    ((Lower.module names m).run s).2.arena.decls
  rw [take_blocks_module hs m] at hblocks
  rw [show List.take s.arena.decls.length _ = s.arena.decls from harena.older] at hdecls
  refine ⟨congrArg Prod.fst (run_module hs m), ?_, ⟨_, hdecls.symm, ?_⟩, ?_, harena.types, ?_, ?_⟩
  · rw [← hplaced, ← harena.drop_blocks]
    exact hblocks.symm
  · rw [← hs.temporaries, hfixed.chosen]
    exact harena.drop_decls
  · rw [run_module hs m, lowerModule_eq]
    exact hstatements.log
  · rw [run_module hs m]
    rfl
  · exact fun b hb => inside_module_iff hs hfixed m hb

/-- A module that makes a temporary, lowered twice with a variable declared in between. -/
theorem repeated_module_isolated :
    let names : SymbolTable := ⟨["x"]⟩
    let x : Ident := ⟨⟨0⟩, .synthetic⟩
    let declaration : Statement :=
      .variableDecl ⟨.letBinding, .identifier x, none, some (.int 0 .synthetic), .synthetic⟩
    let assignment : Expression :=
      .assignment .assign (.identifier x) (.int 1 .synthetic) .synthetic
    let m : Module := ⟨[declaration, .expression assignment .synthetic], .synthetic⟩
    let steps : List Step := [.module m, .statement declaration]
    let s := Session.run names (.options {} :: steps) {}
    (∀ chosen, .options chosen ∈ steps → chosen = {}) ∧ s.arena.blocks.length = 3 ∧
      s.arena.temporaries = 1 ∧
      s.Receives (lowerModule names m {}) ((Lower.module names m).run s).2 := by
  intro names x declaration assignment m steps s
  have hsteps : ∀ chosen, .options chosen ∈ steps → chosen = {} := by
    intro chosen hchosen
    simp [steps] at hchosen
  obtain ⟨_, hreceives⟩ := module_isolated names {} steps hsteps m
  have hlength : s.arena.blocks.length = 3 := by decide +kernel
  have htemporaries : s.arena.temporaries = 1 := by decide +kernel
  exact ⟨hsteps, hlength, htemporaries, hreceives⟩

end

end BlockLowering
