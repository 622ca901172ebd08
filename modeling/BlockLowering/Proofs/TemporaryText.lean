import BlockLowering.Proofs.Isolation
import BlockLowering.Proofs.TemporaryNames

/-!
# The text that temporaries are named by does not matter

Names are looked up among variables, parameters, functions and placeholders, never among
temporaries. So two sessions that differ only in the names of their temporaries (`Alike`) stay that
way whatever is lowered, even if the temporaries of one of them have the names of variables of the
program. A module is lowered to the same result under any text (`lowerModule_withText`).
-/

namespace BlockLowering

open IR Diagnostic Source Session

/-! ## Arenas without the names of temporaries -/

/-- The declaration, without its name if it is a temporary. -/
def IR.Decl.unnamed (d : Decl) : Decl := if d.isTemporary then { d with name := "" } else d

/-- The arena without the names of its temporaries. -/
def IR.Arena.unnamed (a : Arena) : Arena := { a with decls := a.decls.map Decl.unnamed }

namespace IR

theorem Decl.kind_unnamed (d : Decl) : d.unnamed.kind = d.kind := by
  unfold Decl.unnamed
  split <;> rfl

theorem Decl.isTemporary_unnamed (d : Decl) : d.unnamed.isTemporary = d.isTemporary := by
  unfold Decl.isTemporary
  rw [d.kind_unnamed]

theorem Decl.unnamed_of_not_temporary {d : Decl} (h : d.isTemporary = false) : d.unnamed = d := by
  unfold Decl.unnamed
  rw [h]
  rfl

namespace Arena

variable (a : Arena)

theorem decl?_unnamed (d : DeclId) : a.unnamed.decl? d = (a.decl? d).map Decl.unnamed :=
  List.getElem?_map

/-- What a name finds has kept its name. -/
theorem declares_unnamed (name : String) : a.unnamed.declares name = a.declares name := by
  funext d
  unfold Arena.declares
  rw [decl?_unnamed]
  cases a.decl? d with
  | none => rfl
  | some x =>
    show (!x.unnamed.isTemporary && x.unnamed.name == name) = (!x.isTemporary && x.name == name)
    rw [x.isTemporary_unnamed]
    cases hx : x.isTemporary with
    | true => rfl
    | false => rw [Decl.unnamed_of_not_temporary hx]

theorem lookup?_unnamed (b : BlockId) (name : String) :
    a.unnamed.lookup? b name = a.lookup? b name := by
  have hchain : a.unnamed.ancestors b = a.ancestors b := by
    show a.unnamed.chain (a.blocks.length + 1) b = a.chain (a.blocks.length + 1) b
    generalize a.blocks.length + 1 = n
    induction n generalizing b with
    | zero => rfl
    | succ n ih =>
      have hparent : a.unnamed.parent? b = a.parent? b := rfl
      rw [Arena.chain_succ, Arena.chain_succ, hparent]
      cases a.parent? b with
      | none => rfl
      | some parent => exact congrArg (b :: ·) (ih parent)
  have hfind : (fun c => a.unnamed.findInBlock? c name) = fun c => a.findInBlock? c name := by
    funext c
    unfold Arena.findInBlock?
    rw [declares_unnamed]
    rfl
  unfold Arena.lookup?
  rw [hchain, hfind]

/-- A temporary is no placeholder, whatever its name. -/
theorem isFree_unnamed (name : String) : a.unnamed.isFree name = a.isFree name := by
  funext d
  unfold Arena.isFree
  rw [decl?_unnamed]
  cases a.decl? d with
  | none => rfl
  | some x =>
    show (x.unnamed.name == name && x.unnamed.kind == .placeholder none) =
      (x.name == name && x.kind == .placeholder none)
    cases hx : x.isTemporary with
    | false => rw [Decl.unnamed_of_not_temporary hx]
    | true =>
      have hkind : x.kind = .temporary := by simpa [Decl.isTemporary] using hx
      rw [x.kind_unnamed, hkind]
      show (_ && false) = (_ && false)
      rw [Bool.and_false, Bool.and_false]

theorem temporaries_unnamed : a.unnamed.temporaries = a.temporaries := by
  have hsame : Decl.isTemporary ∘ Decl.unnamed = Decl.isTemporary := by
    funext d
    exact d.isTemporary_unnamed
  unfold Arena.temporaries
  show (a.decls.map Decl.unnamed).countP _ = _
  rw [List.countP_map, hsame]

theorem unnamed_withDecl (b : BlockId) (d : Decl) :
    (a.withDecl b d).unnamed = a.unnamed.withDecl b d.unnamed := by
  unfold Arena.unnamed Arena.withDecl Arena.updateBlock
  simp

theorem unnamed_withLink (p target : DeclId) {x : Decl} (hx : a.decl? p = some x)
    (hfree : x.kind = .placeholder none) :
    (a.withLink p target).unnamed = a.unnamed.withLink p target := by
  have hdecls : (a.withLink p target).unnamed.decls = (a.unnamed.withLink p target).decls := by
    apply List.ext_getElem?
    intro i
    show (a.withLink p target).unnamed.decl? ⟨i⟩ = (a.unnamed.withLink p target).decl? ⟨i⟩
    rw [decl?_unnamed, decl?_withLink, decl?_withLink, decl?_unnamed]
    by_cases hi : (⟨i⟩ : DeclId) = p
    · have hplain : x.isTemporary = false := by
        unfold Decl.isTemporary
        rw [hfree]
        rfl
      rw [if_pos hi, if_pos hi, hi, hx]
      simp only [Option.map_some]
      rw [Decl.unnamed_of_not_temporary hplain]
      rfl
    · rw [if_neg hi, if_neg hi]
  exact congrArg (fun decls => { a with decls }) hdecls

end Arena

end IR

/-! ## Sessions that differ in the names of temporaries -/

section

variable {names : SymbolTable} {src : Node → Prop} {s t u v : Session} {b c : BlockId} {n : Nat}

/-- `t` is like `s`, but its temporaries may have other names. -/
structure Session.Alike (s t : Session) : Prop where
  arena : t.arena.unnamed = s.arena.unnamed
  openBlocks : t.openBlocks = s.openBlocks
  typeScopes : t.typeScopes = s.typeScopes
  nextTemp : t.nextTemp = s.nextTemp
  unitBody : t.unitBody = s.unitBody
  log : t.log = s.log

namespace Session.Alike

theorem block? (h : s.Alike t) (b : BlockId) : t.arena.block? b = s.arena.block? b :=
  congrArg (fun a => a.block? b) h.arena

theorem blocks (h : s.Alike t) : t.arena.blocks = s.arena.blocks :=
  congrArg (fun a => a.blocks) h.arena

theorem length_decls (h : s.Alike t) : t.arena.decls.length = s.arena.decls.length := by
  have hlength := congrArg (fun a => a.decls.length) h.arena
  unfold Arena.unnamed at hlength
  simpa using hlength

theorem current? (h : s.Alike t) : t.current? = s.current? := congrArg List.head? h.openBlocks

theorem lookup? (h : s.Alike t) (b : BlockId) (name : String) :
    t.arena.lookup? b name = s.arena.lookup? b name := by
  rw [← t.arena.lookup?_unnamed, h.arena, s.arena.lookup?_unnamed]

theorem freePlaceholder? (h : s.Alike t) (b : BlockId) (name : String) :
    t.freePlaceholder? b name = s.freePlaceholder? b name := by
  have haround : t.arena.declsAround b = s.arena.declsAround b :=
    congrArg (fun a => a.declsAround b) h.arena
  have hfree : t.arena.isFree name = s.arena.isFree name := by
    rw [← t.arena.isFree_unnamed, h.arena, s.arena.isFree_unnamed]
  unfold Session.freePlaceholder?
  rw [h.unitBody, haround, hfree]

/-- Both arenas change in the same way. -/
theorem of_arena (h : s.Alike t) {a a' : Arena} (ha : a'.unnamed = a.unnamed) :
    ({ s with arena := a } : Session).Alike { t with arena := a' } :=
  ⟨ha, h.openBlocks, h.typeScopes, h.nextTemp, h.unitBody, h.log⟩

theorem report (h : s.Alike t) (problem : Problem) :
    Twin Alike s t (Lower.report problem) (Lower.report problem) id := by
  refine ⟨rfl, h.arena, h.openBlocks, h.typeScopes, h.nextTemp, h.unitBody, ?_⟩
  exact congrArg (fun log => log.push problem.record) h.log

/-- The faults of two sessions are not compared. -/
theorem withRefused (h : s.Alike t) (refused refused' : List Refusal) :
    (s.withRefused refused).Alike (t.withRefused refused') :=
  ⟨h.arena, h.openBlocks, h.typeScopes, h.nextTemp, h.unitBody, h.log⟩

theorem currentBlock (h : s.Alike t) :
    Twin Alike s t Lower.currentBlock Lower.currentBlock id := by
  cases hb : s.current? with
  | some b =>
    unfold Twin
    rw [Lower.run_currentBlock_some hb, Lower.run_currentBlock_some (h.current?.trans hb)]
    exact ⟨rfl, h⟩
  | none =>
    have hnil : s.openBlocks = [] := List.head?_eq_none_iff.1 hb
    have hlength : t.arena.blocks.length = s.arena.blocks.length := congrArg List.length h.blocks
    unfold Twin
    rw [Lower.run_currentBlock_none hnil, Lower.run_currentBlock_none (h.openBlocks.trans hnil),
      hlength]
    refine ⟨rfl, ?_, rfl, h.typeScopes, h.nextTemp, h.unitBody, h.log⟩
    exact congrArg (fun a => (a.createRoot .synthetic).1) h.arena

theorem resolveName (h : s.Alike t) (name : Ident) :
    Twin Alike s t (Lower.resolveName names name) (Lower.resolveName names name) id := by
  obtain ⟨hblock, hcur⟩ := h.currentBlock
  unfold Twin Lower.resolveName
  simp only [Lower.run_bind, Lower.run_lookup_eq]
  rw [hblock, id_eq, hcur.lookup?]
  cases (Lower.currentBlock.run s).2.arena.lookup? (Lower.currentBlock.run s).1
      (names.resolve name.name) with
  | some d => exact ⟨rfl, hcur.withRefused _ _⟩
  | none => exact ⟨rfl, ((hcur.withRefused _ _).report _).2⟩

theorem ascription? (h : s.Alike t) (written : Option Ascription) :
    Twin Alike s t (Lower.ascription? names written) (Lower.ascription? names written) id := by
  cases written with
  | none => exact ⟨rfl, h⟩
  | some a =>
    have htype : t.resolveType names a = s.resolveType names a := by
      have hscopes : t.arena.typeScopes = s.arena.typeScopes :=
        congrArg (fun a => a.typeScopes) h.arena
      have hfind : t.findType? = s.findType? := by
        funext name
        unfold Session.findType? Arena.typeScope?
        rw [h.typeScopes, hscopes]
      unfold Session.resolveType
      rw [hfind]
    unfold Twin Lower.ascription?
    simp only [Lower.run_bind, Lower.run_get]
    rw [htype]
    cases s.resolveType names a with
    | ok type => exact ⟨rfl, h⟩
    | error problem => exact ⟨rfl, (h.report _).2⟩

/-- The new temporaries may have different names. -/
theorem freshTemp (h : s.Alike t) (hs : s.Good names src) (hb : s.current? = some b)
    (span : Span) :
    Twin Alike s t (Lower.freshTemp b span) (Lower.freshTemp b span) id := by
  obtain ⟨x, hx, ho⟩ := hs.current hb
  unfold Twin
  rw [Lower.run_freshTemp hx ho, Lower.run_freshTemp ((h.block? b).trans hx) ho, h.length_decls]
  refine ⟨rfl, ?_, h.openBlocks, h.typeScopes, congrArg (· + 1) h.nextTemp, h.unitBody, h.log⟩
  show (t.arena.withDecl b (Lower.tempDecl t b span)).unnamed =
    (s.arena.withDecl b (Lower.tempDecl s b span)).unnamed
  rw [Arena.unnamed_withDecl, Arena.unnamed_withDecl, h.arena]
  rfl

theorem addDecl (h : s.Alike t) (hs : s.Good names src) (hb : s.current? = some b)
    (name : String) (type : Option TypeRef) (kind : DeclKind) (span : Span) :
    Twin Alike s t (Lower.addDecl b name type kind span) (Lower.addDecl b name type kind span)
      id := by
  obtain ⟨x, hx, ho⟩ := hs.current hb
  unfold Twin
  rw [Lower.run_addDecl hx ho, Lower.run_addDecl ((h.block? b).trans hx) ho, h.length_decls]
  refine ⟨rfl, h.of_arena ?_⟩
  rw [Arena.unnamed_withDecl, Arena.unnamed_withDecl, h.arena]

theorem linkHoisted (h : s.Alike t) (b : BlockId) (name : String) (d : DeclId) :
    Twin Alike s t (Lower.linkHoisted b name d) (Lower.linkHoisted b name d) id := by
  unfold Twin
  rw [Lower.run_linkHoisted_eq, Lower.run_linkHoisted_eq, h.freePlaceholder?]
  cases hp : s.freePlaceholder? b name with
  | none => exact ⟨rfl, h.withRefused _ _⟩
  | some p =>
    obtain ⟨x, hx, _, hfree⟩ := Lower.freePlaceholder?_spec hp
    obtain ⟨y, hy, _, hfree'⟩ := Lower.freePlaceholder?_spec ((h.freePlaceholder? b name).trans hp)
    refine ⟨rfl, (h.withRefused _ _).of_arena ?_⟩
    rw [Arena.unnamed_withLink _ p d hy hfree', Arena.unnamed_withLink _ p d hx hfree, h.arena]

theorem createChild (h : s.Alike t) (hs : s.Good names src) (hb : s.current? = some b)
    (span : Span) :
    Twin Alike s t (Lower.createChild b span) (Lower.createChild b span) id := by
  obtain ⟨x, hx, _⟩ := hs.current hb
  have hlength : t.arena.blocks.length = s.arena.blocks.length := congrArg List.length h.blocks
  unfold Twin
  rw [Lower.run_createChild hx, Lower.run_createChild ((h.block? b).trans hx), hlength]
  exact ⟨rfl, h.of_arena (congrArg (fun a => a.withChild b span) h.arena)⟩

theorem addStmt (h : s.Alike t) (hs : s.Good names src) (hb : s.current? = some b) (stmt : Stmt) :
    Twin Alike s t (Lower.addStmt b stmt) (Lower.addStmt b stmt) id := by
  obtain ⟨x, hx, ho⟩ := hs.current hb
  unfold Twin
  rw [Lower.run_addStmt hx ho, Lower.run_addStmt ((h.block? b).trans hx) ho]
  exact ⟨rfl, h.of_arena (congrArg (fun a => a.withStmt b stmt) h.arena)⟩

theorem openBlock (h : s.Alike t) (c : BlockId) :
    Twin Alike s t (Lower.openBlock c) (Lower.openBlock c) id :=
  ⟨rfl, h.arena, congrArg (c :: ·) h.openBlocks, h.typeScopes, h.nextTemp, h.unitBody, h.log⟩

theorem closeBlock (h : u.Alike v) (hu : u.Good names src) (hc : u.current? = some c) :
    Twin Alike u v (Lower.closeBlock c) (Lower.closeBlock c) id := by
  obtain ⟨x, hx, _⟩ := hu.current hc
  obtain ⟨rest, hrest⟩ := List.head?_eq_some_iff.1 hc
  unfold Twin
  rw [Lower.run_closeBlock hx hrest,
    Lower.run_closeBlock ((h.block? c).trans hx) (h.openBlocks.trans hrest)]
  refine ⟨rfl, ?_, rfl, h.typeScopes, h.nextTemp, h.unitBody, h.log⟩
  exact congrArg (fun a => a.withSealed c) h.arena

end Session.Alike

/-- No operation looks at the names of temporaries. -/
theorem alike_lockstep (names : SymbolTable) :
    Lockstep names names .zero False (fun _ => True) (fun _ s t => s.Alike t) where
  currentBlock _ h := h.currentBlock
  reject h _ _ := h.report _
  resolveName _ h name _ := by
    obtain ⟨hvalue, hrel⟩ := h.resolveName name
    refine ⟨hvalue.trans ?_, hrel⟩
    cases ((Lower.resolveName names name).run _).1 <;> rfl
  ascription h written _ := h.ascription? written
  freshTemp hs h hb span := h.freshTemp hs hb span
  addDecl hs h hb _ name type span := h.addDecl hs hb _ type _ span
  linkHoisted _ h _ _ name d := h.linkHoisted _ _ d
  createChild hs h hb span := h.createChild hs hb span
  addStmt hs h hb stmt := by
    rw [Stmt.shift_zero]
    exact h.addStmt hs hb stmt
  openBlock _ h _ _ _ := h.openBlock _
  closeBlock hu _ _ _ frame h' _ := h'.closeBlock hu (frame.current rfl)
  deep_frame _ _ _ := trivial
  deep_openBlock _ _ := trivial

/-! ## A module under two texts -/

/-- The options with another text for temporaries. -/
abbrev Options.withText (options : Options) (text : String) : Options :=
  { options with tempPrefix := text }

theorem alike_unitStatements (names : SymbolTable) (m : Module) (options : Options)
    (p q : String) :
    ((initial (options.withText p)).unitStatements names m).Alike
      ((initial (options.withText q)).unitStatements names m) := by
  have hgood : ((initial (options.withText p)).enterUnit names m).Good names anyNode :=
    ((reachable_initial names anyNode _).enterUnit m).good
  have hstart : ((initial (options.withText p)).enterUnit names m).Alike
      ((initial (options.withText q)).enterUnit names m) := ⟨rfl, rfl, rfl, rfl, rfl, rfl⟩
  exact ((alike_lockstep names).statementList m.statements [] _ _ hgood trivial hstart
    fun h => h.elim).2

/-- The temporaries of a module are numbered from zero on. -/
theorem temporaryNames_lowerModule (names : SymbolTable) (m : Module) (options : Options) :
    (lowerModule names m options).arena.temporaryNames =
      (List.range (lowerModule names m options).arena.temporaries).map
        fun i => options.tempPrefix ++ toString i := by
  have hnames : (lowerModule names m options).arena.temporaryNames =
      numberedNames 0 (.replicate (lowerModule names m options).nextTemp options.tempPrefix) := by
    refine (temporaryNames_run .start [.options options, .module m]).trans ?_
    show [] ++ numberedNames 0 ([] ++ (.replicate _ options.tempPrefix ++ [])) = _
    rw [List.nil_append, List.nil_append, List.append_nil]
    rfl
  have hcount : (lowerModule names m options).arena.temporaries =
      (lowerModule names m options).nextTemp := by
    have hlength := congrArg List.length hnames
    unfold Arena.temporaryNames numberedNames at hlength
    rw [List.length_map, List.length_mapIdx, List.length_replicate] at hlength
    exact List.countP_eq_length_filter.trans hlength
  rw [hnames, hcount]
  apply List.ext_getElem
  · simp [numberedNames]
  · intro i h h'
    simp [numberedNames]

/-- A module is lowered in the same way under any two texts for temporaries: the same is reported,
and the results differ in the names of the temporaries only, which are the text in force and the
number of the temporary. -/
theorem lowerModule_withText (names : SymbolTable) (m : Module) (options : Options)
    (p q : String) :
    let s := lowerModule names m (options.withText p)
    let t := lowerModule names m (options.withText q)
    t.log = s.log ∧ t.arena.unnamed = s.arena.unnamed ∧
      s.arena.temporaryNames = (List.range s.arena.temporaries).map (fun i => p ++ toString i) ∧
      t.arena.temporaryNames = (List.range s.arena.temporaries).map (fun i => q ++ toString i) := by
  intro s t
  have halike := alike_unitStatements names m options p q
  have harena : t.arena.unnamed = s.arena.unnamed := by
    have hsealed := congrArg (fun a => (a.withSealed ⟨1⟩).withSealed ⟨0⟩) halike.arena
    show (lowerModule names m _).arena.unnamed = (lowerModule names m _).arena.unnamed
    rw [lowerModule_eq, lowerModule_eq]
    exact hsealed
  have hcount : t.arena.temporaries = s.arena.temporaries := by
    rw [← t.arena.temporaries_unnamed, harena, s.arena.temporaries_unnamed]
  refine ⟨?_, harena, temporaryNames_lowerModule names m _, ?_⟩
  · show (lowerModule names m _).log = (lowerModule names m _).log
    rw [lowerModule_eq, lowerModule_eq]
    exact halike.log
  · rw [← hcount]
    exact temporaryNames_lowerModule names m _

end

end BlockLowering
