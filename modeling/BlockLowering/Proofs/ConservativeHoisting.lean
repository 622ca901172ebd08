import BlockLowering.Proofs.Hoisting
import BlockLowering.Proofs.Isolation

/-!
# Hoisting changes nothing that worked without it

If a module is lowered without placeholders and nothing is reported, every name of it was found inside
the body of the unit. With placeholders, which stand outside of the body, the same declarations are
found. So the module is lowered to the same code, with the placeholders in front of the table of
declarations and all other declarations moved behind them (`hoisting_conservative`).

The two sessions are run in step: the one without placeholders first, which lists no declarations in
roots (`Unhoisted`), and in `Mirrors` the other one.
-/

namespace BlockLowering

open IR Diagnostic Source Session

section

variable {names : SymbolTable} {src : Node → Prop} {s t u : Session} {b c : BlockId} {n : Nat}
  {k : Placement} {text name : String}

/-! ## Sessions without placeholders -/

/-- There are no placeholders, and no root declares anything or is the innermost open block. -/
structure Session.Unhoisted (s : Session) : Prop where
  plain : ∀ d x, s.arena.decl? d = some x → x.isPlaceholder = false
  roots : ∀ b x, s.arena.block? b = some x → x.parent = none → x.decls = []
  current : ∀ b, s.current? = some b → s.arena.parent? b ≠ none

namespace Session.Unhoisted

/-- Changes at the innermost open block. -/
theorem extend (h : s.Unhoisted) (hs : s.Good names src) (hb : s.current? = some b)
    (e : s.arena.ExtendsAt b t.arena) (hstack : t.openBlocks = s.openBlocks)
    (hnew : ∀ c : BlockId, s.arena.blocks.length ≤ c.index → c.index < t.arena.blocks.length →
      t.arena.parent? c ≠ none)
    (hplain : ∀ d x, t.arena.decl? d = some x → x.isPlaceholder = false) : t.Unhoisted where
  plain := hplain
  roots c y hy hroot := by
    have hparent : t.arena.parent? c = none := (Arena.parent?_eq hy).trans hroot
    have hlt : c.index < s.arena.blocks.length := by
      by_contra hge
      exact hnew c (Nat.le_of_not_lt hge) (Arena.index_lt_of_block? hy) hparent
    have hcb : c ≠ b := by
      rintro rfl
      rw [e.grows.parent c hlt] at hparent
      exact h.current c hb hparent
    rw [e.others c hlt hcb] at hy
    exact h.roots c y hy hroot
  current c hc := by
    have hc' : s.current? = some c := by
      unfold Session.current? at hc ⊢
      rwa [hstack] at hc
    rw [e.grows.parent c (hs.known c (mem_openBlocks_of_current? hc'))]
    exact h.current c hc'

theorem withDecl (h : s.Unhoisted) (hs : s.Good names src) (hb : s.current? = some b) {d : Decl}
    (hd : d.isPlaceholder = false) (k : Nat) :
    ({ s with arena := s.arena.withDecl b d, nextTemp := k } : Session).Unhoisted := by
  refine h.extend hs hb (.withDecl s.arena b d) rfl (fun c hge hlt => ?_) fun e x hx => ?_
  · have hlt' : c.index < (s.arena.withDecl b d).blocks.length := hlt
    rw [Arena.length_withDecl] at hlt'
    exact absurd hlt' (Nat.not_lt.2 hge)
  · have hx' := (Arena.decl?_pushDecl s.arena d e).symm.trans hx
    by_cases he : e.index = s.arena.decls.length
    · rw [if_pos he] at hx'
      rw [← Option.some.inj hx']
      exact hd
    · rw [if_neg he] at hx'
      exact h.plain e x hx'

theorem freshTemp (h : s.Unhoisted) (hs : s.Good names src) (hb : s.current? = some b)
    (span : Span) : After s (Lower.freshTemp b span) fun _ t => t.Unhoisted := by
  obtain ⟨x, hx, ho⟩ := hs.current hb
  unfold After
  rw [Lower.run_freshTemp hx ho]
  exact h.withDecl hs hb rfl _

theorem addDecl (h : s.Unhoisted) (hs : s.Good names src) (hb : s.current? = some b)
    {name : String} {type : Option TypeRef} {kind : DeclKind} {span : Span}
    (hkind : (Decl.mk name type kind b span).isPlaceholder = false) :
    After s (Lower.addDecl b name type kind span) fun _ t => t.Unhoisted := by
  obtain ⟨x, hx, ho⟩ := hs.current hb
  unfold After
  rw [Lower.run_addDecl hx ho]
  exact h.withDecl hs hb hkind _

theorem addStmt (h : s.Unhoisted) (hs : s.Good names src) (hb : s.current? = some b) (stmt : Stmt) :
    After s (Lower.addStmt b stmt) fun _ t => t.Unhoisted := by
  obtain ⟨x, hx, ho⟩ := hs.current hb
  unfold After
  rw [Lower.run_addStmt hx ho]
  refine h.extend hs hb (.withStmt s.arena b stmt) rfl (fun c hge hlt => ?_) h.plain
  have hlt' : c.index < (s.arena.withStmt b stmt).blocks.length := hlt
  rw [Arena.length_withStmt] at hlt'
  exact absurd hlt' (Nat.not_lt.2 hge)

theorem createChild (h : s.Unhoisted) (hs : s.Good names src) (hb : s.current? = some b)
    (span : Span) : After s (Lower.createChild b span) fun _ t => t.Unhoisted := by
  have hparent := (freshChild_run hs hb span).parent
  obtain ⟨x, hx, _⟩ := hs.current hb
  unfold After
  rw [Lower.run_createChild hx] at hparent ⊢
  refine h.extend hs hb (.withChild s.arena b span) rfl (fun c hge hlt => ?_) h.plain
  have hlt' : c.index < (s.arena.withChild b span).blocks.length := hlt
  rw [Arena.length_withChild] at hlt'
  obtain rfl : c = ⟨s.arena.blocks.length⟩ := by
    obtain ⟨i⟩ := c
    exact congrArg BlockId.mk (Nat.le_antisymm (Nat.le_of_lt_succ hlt') hge)
  rw [hparent]
  exact Option.some_ne_none b

theorem openBlock (h : s.Unhoisted) (hp : s.arena.parent? c = some b) :
    After s (Lower.openBlock c) fun _ t => t.Unhoisted := by
  refine ⟨h.plain, h.roots, fun d hd => ?_⟩
  obtain rfl := Option.some.inj hd
  show s.arena.parent? c ≠ none
  rw [hp]
  exact Option.some_ne_none b

theorem closeBlock (h : s.Unhoisted) (hu : u.Good names src)
    (frame : Frame n ((Lower.openBlock c).run s).2 u) (h' : u.Unhoisted) :
    After u (Lower.closeBlock c) fun _ v => v.Unhoisted := by
  have hstack := frame.stack_openBlock
  unfold After
  rw [hu.run_closeBlock (frame.current rfl), hstack]
  refine ⟨h'.plain, fun b y hy hroot => ?_, fun b hb => ?_⟩
  · have hy' := (Arena.block?_withSealed u.arena c b).symm.trans hy
    by_cases hbc : b = c
    · rw [if_pos hbc, Option.map_eq_some_iff] at hy'
      obtain ⟨z, hz, rfl⟩ := hy'
      exact h'.roots b z hz hroot
    · rw [if_neg hbc] at hy'
      exact h'.roots b y hy' hroot
  · obtain ⟨q, hq⟩ := Option.ne_none_iff_exists'.1 (h.current b hb)
    have hq' := (Arena.Grows.withSealed u.arena c).parent_some (frame.arena.parent_some hq)
    show (u.arena.withSealed c).parent? b ≠ none
    rw [hq']
    exact Option.some_ne_none q

/-- No function finds a placeholder. -/
theorem run_linkHoisted (h : s.Unhoisted) (hs : s.Good names src) (hb : s.current? = some b)
    (name : String) (d : DeclId) : (Lower.linkHoisted b name d).run s = ((), s) := by
  rw [hs.run_linkHoisted_eq hb]
  cases hp : s.freePlaceholder? b name with
  | none => rfl
  | some p =>
    obtain ⟨x, hx, _, hfree⟩ := Lower.freePlaceholder?_spec hp
    have hplain := h.plain p x hx
    unfold Decl.isPlaceholder at hplain
    rw [hfree] at hplain
    cases hplain

theorem report (h : s.Unhoisted) (problem : Problem) :
    After s (Lower.report problem) fun _ t => t.Unhoisted := ⟨h.plain, h.roots, h.current⟩

theorem resolveName (h : s.Unhoisted) (hs : s.Good names src) (hb : s.current? = some b)
    (id : Ident) : After s (Lower.resolveName names id) fun _ t => t.Unhoisted := by
  unfold Lower.resolveName After
  simp only [Lower.run_bind, Lower.run_currentBlock_some hb, hs.run_lookup]
  cases s.arena.lookup? b (names.resolve id.name) with
  | some d => exact h
  | none => exact h.report _

theorem ascription? (h : s.Unhoisted) (written : Option Ascription) :
    After s (Lower.ascription? names written) fun _ t => t.Unhoisted := by
  cases written with
  | none => exact h
  | some a =>
    unfold Lower.ascription? After
    rw [Lower.run_bind, Lower.run_get]
    cases s.resolveType names a with
    | ok type => exact h
    | error problem => exact h.report _

end Session.Unhoisted

/-! ## In step with hoisting -/

namespace IR.Arena.Mirrors

variable {a a' : Arena} {d p : DeclId}

/-- What is found without looking into a root is found at its new number. -/
theorem lookup?_some (h : a.Mirrors k text a') (ha : a.WellScoped names src)
    (hroots : ∀ b x, a.block? b = some x → x.parent = none → x.decls = [])
    (hfound : a.lookup? b name = some d) :
    a'.lookup? (b.shift k.shift) name = some (d.shift k.shift) := by
  induction hn : b.index using Nat.strongRecOn generalizing b with
  | ind n ih =>
    cases hp : a.parent? b with
    | none =>
      -- The chain ends here, and a root declares nothing.
      have hnone : a.findInBlock? b name = none := by
        unfold Arena.findInBlock?
        cases hx : a.block? b with
        | none => rfl
        | some x =>
          have hdecls := hroots b x hx ((parent?_eq hx).symm.trans hp)
          show x.decls.find? _ = none
          rw [hdecls]
          rfl
      unfold Arena.lookup? at hfound
      rw [ancestors_eq_singleton hp, List.findSome?_singleton, hnone] at hfound
      cases hfound
    | some q =>
      have hlt := ha.parents b q hp
      have hb := index_lt_of_parent? hp
      have hcons : a'.ancestors (b.shift k.shift) =
          b.shift k.shift :: a'.ancestors (q.shift k.shift) := by
        rw [h.ancestors ha.parents hb, h.ancestors ha.parents (Nat.lt_trans hlt hb),
          ancestors_eq_cons ha.parents hp, List.map_cons]
      have hfind := h.findInBlock? ha (.inl (hp ▸ Option.some_ne_none q)) name
      unfold Arena.lookup? at hfound ⊢
      rw [ancestors_eq_cons ha.parents hp, List.findSome?_cons] at hfound
      rw [hcons, List.findSome?_cons, hfind]
      cases hcase : a.findInBlock? b name with
      | some e =>
        rw [hcase] at hfound
        exact congrArg (fun o => o.map (DeclId.shift k.shift)) hfound
      | none =>
        rw [hcase] at hfound
        exact ih q.index (hn ▸ hlt) hfound rfl

/-- The older part may change. -/
theorem linkOlder (h : a.Mirrors k text a') (holder : ∀ l, k.older l)
    (hp : p.index < k.shift.decls) (target : DeclId) : a.Mirrors k text (a'.withLink p target) where
  size := h.size
  block := h.block
  count := by
    unfold Arena.withLink
    rw [List.length_modify, h.count]
  decl d x hx := by
    obtain ⟨y, hy, hxy⟩ := h.decl d x hx
    have hne : d.shift k.shift ≠ p := by
      rintro rfl
      exact Nat.not_lt.2 (Nat.le_add_left _ _) hp
    refine ⟨y, ?_, hxy⟩
    rw [decl?_withLink, if_neg hne, hy]
  older := holder _
  types := h.types

/-- A placeholder is older than everything that mirrors declarations without placeholders. -/
theorem index_lt_of_placeholder {y : Decl} (h : a.Mirrors k text a')
    (hplain : ∀ d x, a.decl? d = some x → x.isPlaceholder = false) (hy : a'.decl? p = some y)
    (hfree : y.kind = .placeholder none) : p.index < k.shift.decls := by
  by_contra hge
  have hlt := index_lt_of_decl? hy
  rw [h.count] at hlt
  have hd : p.index - k.shift.decls < a.decls.length := by omega
  obtain ⟨z, hz, hxz⟩ := h.decl ⟨p.index - k.shift.decls⟩ _ (List.getElem?_eq_getElem hd)
  have hp : (⟨p.index - k.shift.decls⟩ : DeclId).shift k.shift = p :=
    congrArg DeclId.mk (Nat.sub_add_cancel (Nat.le_of_not_lt hge))
  rw [hp, hy] at hz
  obtain rfl := Option.some.inj hz
  have hkind := hxz.kind
  have hnot := hplain ⟨p.index - k.shift.decls⟩ _ (List.getElem?_eq_getElem hd)
  unfold Decl.isPlaceholder at hnot
  rw [hfree] at hkind
  cases hcase : (a.decls[p.index - k.shift.decls]).kind with
  | placeholder target =>
    rw [hcase] at hnot
    cases hnot
  | _ =>
    rw [hcase] at hkind
    cases hkind

end IR.Arena.Mirrors

/-- A link in the session with placeholders changes nothing that mirrors the other session. -/
theorem Session.Mirrors.linkHoisted_unhoisted (h : Mirrors k s t) (hs : s.Good names src)
    (hplain : s.Unhoisted) (hb : s.current? = some b) (holder : ∀ l, k.older l) (name : String)
    (d : DeclId) :
    Twin (Mirrors k) s t (Lower.linkHoisted b name d)
      (Lower.linkHoisted (b.shift k.shift) name (d.shift k.shift)) id := by
  have hread := h.withRefused [] (Lower.refusedToLink t (b.shift k.shift) name)
  rw [Session.withRefused_nil] at hread
  unfold Twin
  rw [hplain.run_linkHoisted hs hb, Lower.run_linkHoisted_eq]
  cases hp : t.freePlaceholder? (b.shift k.shift) name with
  | none => exact ⟨rfl, hread⟩
  | some p =>
    obtain ⟨y, hy, _, hfree⟩ := Lower.freePlaceholder?_spec hp
    have hlt := h.arena.index_lt_of_placeholder hplain.plain hy hfree
    exact ⟨rfl, hread.of_arena (h.arena.linkOlder holder hlt _)⟩

/-- The twins keep a property of the first session too. -/
theorem Twin.and {α α' : Type} {R : Session → Session → Prop} {P : Session → Prop} {x : Lower α}
    {x' : Lower α'} {g : α → α'} (h : Twin R s t x x' g) (hx : After s x fun _ s' => P s') :
    Twin (fun s t => R s t ∧ P s) s t x x' g := ⟨h.1, h.2, hx⟩

/-- As long as all names are known without placeholders, the sessions stay alike. -/
theorem unhoisted_lockstep (names : SymbolTable) (holder : ∀ l, k.older l) :
    Lockstep names names k.shift True (fun _ => True)
      (fun _ s t => Mirrors k s t ∧ s.Unhoisted) where
  currentBlock _ h := by
    obtain ⟨b, hb⟩ := h.1.exists_current
    refine h.1.currentBlock.and ?_
    unfold After
    rw [Lower.run_currentBlock_some hb]
    exact h.2
  reject h construct span := (h.1.report _).and (h.2.report _)
  resolveName hs h name known := by
    obtain ⟨b, hb⟩ := h.1.exists_current
    obtain ⟨d, hd⟩ := Option.isSome_iff_exists.1 ((has_iff_lookup? hb).1 (known trivial))
    refine (h.1.resolveName name fun c hc => ?_).and (h.2.resolveName hs hb name)
    obtain rfl := Option.some.inj (hb.symm.trans hc)
    rw [hd]
    exact h.1.arena.lookup?_some hs.arena h.2.roots hd
  ascription h written _ := (h.1.ascription? written).and (h.2.ascription? written)
  freshTemp hs h hb span := (h.1.freshTemp hs hb span).and (h.2.freshTemp hs hb span)
  addDecl hs h hb hkind name type span := by
    rcases hkind with rfl | rfl | ⟨rfl, _⟩
    · exact (h.1.addDecl hs hb ⟨DeclKind.noConfusion, rfl⟩ _ type span).and (h.2.addDecl hs hb rfl)
    · exact (h.1.addDecl hs hb ⟨DeclKind.noConfusion, rfl⟩ _ type span).and (h.2.addDecl hs hb rfl)
    · exact (h.1.addDecl hs hb ⟨DeclKind.noConfusion, rfl⟩ _ type span).and (h.2.addDecl hs hb rfl)
  linkHoisted hs h hb _ _ d := by
    refine (h.1.linkHoisted_unhoisted hs h.2 hb holder _ d).and ?_
    unfold After
    rw [h.2.run_linkHoisted hs hb]
    exact h.2
  createChild hs h hb span := (h.1.createChild hs hb span).and (h.2.createChild hs hb span)
  addStmt hs h hb stmt := (h.1.addStmt hs hb stmt).and (h.2.addStmt hs hb stmt)
  openBlock _ h _ _ hp := (h.1.openBlock _).and (h.2.openBlock hp)
  closeBlock hu h _ _ frame h' _ :=
    (h.1.closeBlock hu frame h'.1).and (h.2.closeBlock hu frame h'.2)
  deep_frame _ _ _ := trivial
  deep_openBlock _ _ := trivial

/-! ## A module with and without hoisting -/

/-- The options with or without hoisting. -/
abbrev Options.withHoisting (options : Options) (hoisting : Bool) : Options :=
  { options with hoisting }

/-- Where hoisting puts what a module makes: behind its placeholders, which the unit lists. -/
def Source.Module.hoistedPlacement (m : Module) : Placement where
  shift := ⟨0, m.functions.length⟩
  temps := 0
  extra := DeclId.range 0 m.functions.length
  outer := []
  records := []
  older := fun _ => True

/-- The first unit of a session has the first two blocks. -/
theorem block?_firstUnit (names : SymbolTable) (m : Module) (options : Options) (b : BlockId) :
    ((initial options).enterUnit names m).arena.block? b =
      if b = ⟨0⟩ then some ((initial options).unitAtStart names m)
      else if b = ⟨1⟩ then some (.fresh ⟨1⟩ (some ⟨0⟩) m.span)
      else none :=
  (initial options).block?_enterUnit names m b

theorem length_placeholders_hoisted (names : SymbolTable) (m : Module) (options : Options) :
    (m.placeholders names (options.withHoisting true)
      (initial (options.withHoisting true)).nextUnit).length = m.functions.length := by
  rw [placeholders_eq (s := initial (options.withHoisting true)) rfl, List.length_map]

/-- With hoisting the unit block lists the placeholders. -/
theorem placed_firstUnit (names : SymbolTable) (m : Module) (options : Options) :
    ((initial (options.withHoisting false)).unitAtStart names m).placed m.hoistedPlacement =
      (initial (options.withHoisting true)).unitAtStart names m := by
  unfold Session.unitAtStart Block.placed Block.shift
  rw [length_placeholders_hoisted]
  show Block.mk _ _ (DeclId.range 0 m.functions.length ++ []) _ _ _ _ = _
  rw [List.append_nil]
  rfl

theorem mirrors_hoistedArena (names : SymbolTable) (m : Module) (options : Options) :
    ((initial (options.withHoisting false)).enterUnit names m).arena.Mirrors m.hoistedPlacement
      options.tempPrefix ((initial (options.withHoisting true)).enterUnit names m).arena where
  size := by
    rw [Session.length_enterUnit, Session.length_enterUnit]
    rfl
  block b := by
    show ((initial (options.withHoisting true)).enterUnit names m).arena.block? b = _
    rw [block?_firstUnit, block?_firstUnit]
    by_cases hb : b = ⟨0⟩
    · rw [if_pos hb, if_pos hb, ← placed_firstUnit]
      rfl
    · rw [if_neg hb, if_neg hb]
      by_cases hb' : b = ⟨1⟩
      · rw [if_pos hb']
        rfl
      · rw [if_neg hb']
        rfl
  count := by
    rw [Session.decls_enterUnit, Session.decls_enterUnit]
    show ([] ++ m.placeholders names (options.withHoisting true) _).length = 0 + _
    rw [List.nil_append, length_placeholders_hoisted, Nat.zero_add]
    rfl
  decl d x hx := by
    unfold Arena.decl? at hx
    rw [Session.decls_enterUnit] at hx
    cases hx
  older := trivial
  types := by
    have hplain := Fixed.initial (options.withHoisting false)
    have hhoisted := Fixed.initial (options.withHoisting true)
    rw [(hplain.typeScopes_enterUnit names m).2, (hhoisted.typeScopes_enterUnit names m).2]

theorem mirrors_hoisted (names : SymbolTable) (m : Module) (options : Options) :
    Mirrors m.hoistedPlacement ((initial (options.withHoisting false)).enterUnit names m)
      ((initial (options.withHoisting true)).enterUnit names m) :=
  ⟨mirrors_hoistedArena names m options, rfl, List.cons_ne_nil _ _, rfl, rfl, rfl, rfl, rfl⟩

theorem unhoisted_enterUnit (names : SymbolTable) (m : Module) (options : Options) :
    ((initial (options.withHoisting false)).enterUnit names m).Unhoisted := by
  refine ⟨fun d x hx => ?_, fun b x hx hroot => ?_, fun b hb => ?_⟩
  · unfold Arena.decl? at hx
    rw [Session.decls_enterUnit] at hx
    cases hx
  · rw [block?_firstUnit] at hx
    by_cases hb : b = ⟨0⟩
    · rw [if_pos hb] at hx
      obtain rfl := Option.some.inj hx
      rfl
    · rw [if_neg hb] at hx
      by_cases hb' : b = ⟨1⟩
      · rw [if_pos hb'] at hx
        obtain rfl := Option.some.inj hx
        cases hroot
      · rw [if_neg hb'] at hx
        cases hx
  · obtain rfl := Option.some.inj hb
    have hparent := (initial (options.withHoisting false)).parent?_enterUnit names m
    intro hnone
    cases hnone.symm.trans hparent

/-- If nothing is reported, the statements are well-formed where they stand. -/
theorem wellFormed_of_silent {options : Options} {m : Module}
    (hsilent : (lowerModule names m options).log.records = []) :
    StatementsWellFormed names ((initial options).enterUnit names m).env m.statements := by
  have hgood : ((initial options).enterUnit names m).Good names anyNode :=
    ((reachable_initial names anyNode options).enterUnit m).good
  have hverdict := checked_statementList m.statements _ hgood
  refine hverdict.iff.1 ?_
  rw [lowerModule_eq] at hsilent
  exact congrArg List.length hsilent

/-- The module without hoisting and with hoisting: after its placeholders `links`, the second session
has what the first session has. -/
structure Session.AddsPlaceholders (names : SymbolTable) (m : Module) (plain hoisted : Session)
    (links : List (FunctionDecl × DeclId)) : Prop where
  functions : links.map Prod.fst = m.functions
  decls : hoisted.arena.decls =
    links.map (fun l => placeholderFor names ⟨0⟩ (some l.2) l.1.name) ++
      plain.arena.decls.map (Decl.shift ⟨0, m.functions.length⟩)
  targets : ∀ l ∈ links, hoisted.arena.decl? l.2 = some (functionIn names ⟨1⟩ l.1)
  size : hoisted.arena.blocks.length = plain.arena.blocks.length
  blocks : ∀ b : BlockId, hoisted.arena.block? b =
    (plain.arena.block? b).map (Block.shift ⟨0, m.functions.length⟩
      (if b = ⟨0⟩ then DeclId.range 0 m.functions.length else []))
  types : hoisted.arena.typeScopes = plain.arena.typeScopes

/-- At the end of the statements. -/
theorem mirrors_hoistedStatements {options : Options} {m : Module}
    (hsilent : (lowerModule names m (options.withHoisting false)).log.records = []) :
    Mirrors m.hoistedPlacement ((initial (options.withHoisting false)).unitStatements names m)
      ((initial (options.withHoisting true)).unitStatements names m) := by
  have hgood : ((initial (options.withHoisting false)).enterUnit names m).Good names anyNode :=
    ((reachable_initial names anyNode _).enterUnit m).good
  have hlockstep := unhoisted_lockstep (k := m.hoistedPlacement) names fun _ => trivial
  exact (hlockstep.statementList m.statements [] _ _ hgood trivial
    ⟨mirrors_hoisted names m options, unhoisted_enterUnit names m options⟩
    fun _ => wellFormed_of_silent hsilent).2.1

/-- At the end of the module. -/
theorem mirrors_lowerModule {options : Options} {m : Module}
    (hsilent : (lowerModule names m (options.withHoisting false)).log.records = []) :
    ∃ text, (lowerModule names m (options.withHoisting false)).arena.Mirrors m.hoistedPlacement text
      (lowerModule names m (options.withHoisting true)).arena := by
  have hend := (mirrors_hoistedStatements hsilent).arena
  rw [lowerModule_eq, lowerModule_eq]
  exact ⟨_, (hend.withSealed ⟨1⟩).withSealed ⟨0⟩⟩

theorem eq_map_shift {r : Shift} {l l' : List Decl}
    (h : List.Forall₂ (Decl.Shifted r 0 text) l l') : l' = l.map (Decl.shift r) := by
  induction h with
  | nil => rfl
  | cons hxy _ ih => rw [List.map_cons, hxy.eq_shift, ih]

/-- With hoisting, the table of declarations starts with the linked placeholders. -/
theorem decls_lowerModule (names : SymbolTable) (m : Module) (options : Options) :
    ∃ (links : List (FunctionDecl × DeclId)) (rest : List Decl), links.map Prod.fst = m.functions ∧
      (lowerModule names m (options.withHoisting true)).arena.decls =
        links.map (fun l => placeholderFor names ⟨0⟩ (some l.2) l.1.name) ++ rest ∧
      ∀ l ∈ links, (lowerModule names m (options.withHoisting true)).arena.decl? l.2 =
        some (functionIn names ⟨1⟩ l.1) := by
  have hreach := reachable_initial names anyNode (options.withHoisting true)
  have hrest : ∀ b, ¬(initial (options.withHoisting true)).Waits b := by
    rintro b ⟨_, x, hx, _⟩
    cases hx
  obtain ⟨links, hlinks, hend⟩ := hreach.exists_links hrest rfl m
  obtain ⟨rest, htable, _⟩ := hend.table
  rw [linkTable, List.map_nil, List.append_nil] at htable
  rw [lowerModule_eq]
  exact ⟨links, rest, hlinks, htable, hend.made⟩

/-- The unit is the only root of a module that is lowered by itself. -/
theorem isRoot_lowerModule {options : Options} {m : Module} {x : IR.Block}
    (hx : (lowerModule names m options).arena.block? b = some x) : x.isRoot = true ↔ b = ⟨0⟩ := by
  have hgood : (lowerModule names m options).Good names anyNode :=
    (Reachable.start.run fun _ _ _ _ => covers_anyNode _).good
  have hparent := Arena.parent?_eq hx
  unfold Block.isRoot
  rw [← hparent]
  constructor
  · intro hroot
    obtain ⟨i⟩ := b
    have hzero : i = 0 := by
      by_contra hne
      exact parent?_lowerModule names m options hne (Arena.index_lt_of_block? hx)
        (Option.isNone_iff_eq_none.1 hroot)
    rw [hzero]
  · rintro rfl
    rw [Option.isNone_iff_eq_none]
    cases hp : (lowerModule names m options).arena.parent? ⟨0⟩ with
    | none => rfl
    | some q => exact absurd (hgood.arena.parents _ q hp) (Nat.not_lt_zero _)

/-- If nothing is reported for a module without hoisting, then nothing is reported with hoisting, and
the result is the same but for the placeholders of the functions: they stand in front of all other
declarations, and the unit block lists them. -/
theorem hoisting_conservative (names : SymbolTable) (m : Module) (options : Options)
    (hsilent : (lowerModule names m (options.withHoisting false)).log.records = []) :
    (lowerModule names m (options.withHoisting true)).log.records = [] ∧
      ∃ links, AddsPlaceholders names m (lowerModule names m (options.withHoisting false))
        (lowerModule names m (options.withHoisting true)) links := by
  have hlog := (mirrors_hoistedStatements hsilent).log
  obtain ⟨text, harena⟩ := mirrors_lowerModule hsilent
  obtain ⟨links, rest, hlinks, hdecls, htargets⟩ := decls_lowerModule names m options
  have hlength : (links.map fun l => placeholderFor names ⟨0⟩ (some l.2) l.1.name).length =
      m.functions.length := by
    rw [← hlinks, List.length_map, List.length_map]
  have hbehind : rest = (lowerModule names m (options.withHoisting false)).arena.decls.map
      (Decl.shift ⟨0, m.functions.length⟩) := by
    have hdrop := eq_map_shift harena.drop_decls
    rw [hdecls] at hdrop
    exact (List.drop_left' hlength).symm.trans hdrop
  refine ⟨?_, links, hlinks, hbehind ▸ hdecls, htargets, harena.size, fun b => ?_, harena.types⟩
  · rw [lowerModule_eq] at hsilent ⊢
    exact hlog.trans hsilent
  · refine (harena.block b).trans ?_
    cases hx : (lowerModule names m (options.withHoisting false)).arena.block? b with
    | none => rfl
    | some x =>
      have hroot := isRoot_lowerModule hx
      show some (x.placed m.hoistedPlacement) = some (x.shift _ _)
      unfold Block.placed
      by_cases hb : b = ⟨0⟩
      · rw [if_pos hb, if_pos (hroot.2 hb)]
        rfl
      · rw [if_neg hb, if_neg fun h => hb (hroot.1 h)]
        rfl

/-- Two functions of one name, one of them called in between. -/
theorem called_function_hoisted :
    let names : SymbolTable := ⟨["f"]⟩
    let f : Ident := ⟨⟨0⟩, .synthetic⟩
    let declaration : Statement :=
      .functionDecl ⟨f, [], [], none, ⟨[], .synthetic⟩, .synthetic⟩
    let call : Expression := .call (.identifier f) [] [] .synthetic
    let m : Module := ⟨[declaration, .expression call .synthetic, declaration], .synthetic⟩
    let options : Options := {}
    (lowerModule names m (options.withHoisting false)).log.records = [] ∧
      (lowerModule names m (options.withHoisting false)).arena.decls.length = 2 ∧
      ∃ links, AddsPlaceholders names m (lowerModule names m (options.withHoisting false))
        (lowerModule names m (options.withHoisting true)) links := by
  intro names f declaration call m options
  have hsilent : (lowerModule names m (options.withHoisting false)).log.records = [] := by
    decide +kernel
  have hlength : (lowerModule names m (options.withHoisting false)).arena.decls.length = 2 := by
    decide +kernel
  exact ⟨hsilent, hlength, (hoisting_conservative names m options hsilent).2⟩

end

end BlockLowering
