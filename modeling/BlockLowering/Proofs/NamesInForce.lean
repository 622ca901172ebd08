import Mathlib.Data.List.Basic
import BlockLowering.Proofs.Lowering
import BlockLowering.Proofs.WellFormed

/-!
# Names in force during lowering

`Session.bindings` reads the names in force and what they mean off a session: the declarations of
the blocks around the innermost open block, by name. A name is looked up there (`meaning?_eq`). Of
all that lowering does, only declarations and opened blocks change the bindings. The names alone,
together with the types in force, are `Session.env`.
-/

namespace BlockLowering

open IR Diagnostic Source Session

namespace IR.Arena

variable {names : SymbolTable} {src : Node → Prop} {a a' : Arena} {b c : BlockId} {d : DeclId}
  {name : String}

/-! ## Bindings of blocks -/

/-- A declaration with the name by which it can be found. -/
def bindingOf? (a : Arena) (d : DeclId) : Option (String × DeclId) :=
  (a.decl? d).bind fun x => if x.isTemporary then none else some (x.name, d)

def declsIn (a : Arena) (b : BlockId) : List DeclId := ((a.block? b).map Block.decls).getD []

/-- The declarations of a block that can be found by name, in order. -/
def bindingsIn (a : Arena) (b : BlockId) : List (String × DeclId) :=
  (a.declsIn b).filterMap a.bindingOf?

/-- What a name means: the first binding in the innermost scope that has one. -/
def meaning? (scopes : List (List (String × DeclId))) (name : String) : Option DeclId :=
  scopes.findSome? fun scope => (scope.find? fun x => x.1 == name).map Prod.snd

theorem declares_eq : a.declares name d = (a.bindingOf? d).any fun x => x.1 == name := by
  unfold declares bindingOf?
  cases a.decl? d with
  | none => rfl
  | some x => cases h : x.isTemporary <;> simp [Decl.isCalled, h]

theorem snd_of_bindingOf? {x : String × DeclId} (h : a.bindingOf? d = some x) : x.2 = d := by
  unfold bindingOf? at h
  obtain ⟨y, _, hy⟩ := Option.bind_eq_some_iff.1 h
  split at hy
  · cases hy
  · rw [← Option.some.inj hy]

theorem findInBlock?_eq :
    a.findInBlock? b name = ((a.bindingsIn b).find? fun x => x.1 == name).map Prod.snd := by
  have hlist : ∀ l : List DeclId, l.find? (a.declares name) =
      ((l.filterMap a.bindingOf?).find? fun x => x.1 == name).map Prod.snd := by
    intro l
    induction l with
    | nil => rfl
    | cons d rest ih =>
      rw [List.find?_cons, List.filterMap_cons, declares_eq, ih]
      cases h : a.bindingOf? d with
      | none => rfl
      | some x =>
        have hd := snd_of_bindingOf? h
        by_cases hx : (x.1 == name) = true
        · simp [hx, hd]
        · simp [hx]
  unfold findInBlock? bindingsIn declsIn
  cases a.block? b with
  | none => rfl
  | some x => exact hlist x.decls

/-- Look-up reads the bindings of the blocks around. -/
theorem lookup?_eq : a.lookup? b name = meaning? ((a.ancestors b).map a.bindingsIn) name := by
  unfold lookup? meaning?
  rw [List.findSome?_map]
  congr
  funext c
  exact findInBlock?_eq

theorem meaning?_isSome {scopes : List (List (String × DeclId))} :
    (meaning? scopes name).isSome = true ↔
      ∃ scope ∈ scopes.map (List.map Prod.fst), name ∈ scope := by
  unfold meaning?
  simp [List.findSome?_isSome_iff]

/-- Declarations keep their names. -/
theorem Grows.bindingOf? {x : Decl} (g : Grows a a') (hx : a.decl? d = some x) :
    a'.bindingOf? d = a.bindingOf? d := by
  obtain ⟨y, hy, hxy⟩ := g.decl d x hx
  unfold Arena.bindingOf?
  rw [hx, hy]
  simp only [Option.bind_some]
  rw [hxy.isTemporary_eq, hxy.name_eq]

/-- A block that lists the same declarations, and perhaps `new` ones. -/
theorem bindingsIn_append {new : List DeclId} (ha : a.WellScoped names src) (g : Grows a a')
    (h : a'.declsIn b = a.declsIn b ++ new) :
    a'.bindingsIn b = a.bindingsIn b ++ new.filterMap a'.bindingOf? := by
  have hold : (a.declsIn b).filterMap a'.bindingOf? = (a.declsIn b).filterMap a.bindingOf? := by
    apply List.filterMap_congr
    intro d hd
    unfold declsIn at hd
    cases hx : a.block? b with
    | none => simp [hx] at hd
    | some x =>
      rw [hx] at hd
      obtain ⟨y, hy, _⟩ := ha.owners b x hx d hd
      exact g.bindingOf? hy
  unfold bindingsIn
  rw [h, List.filterMap_append, hold]

theorem bindingsIn_eq (ha : a.WellScoped names src) (g : Grows a a')
    (h : a'.block? b = a.block? b) : a'.bindingsIn b = a.bindingsIn b := by
  have happ : a'.declsIn b = a.declsIn b ++ [] := by
    unfold declsIn
    rw [h, List.append_nil]
  rw [bindingsIn_append ha g happ]
  simp

theorem bindingsIn_fresh {parent : Option BlockId} {span : Span}
    (h : a.block? b = some (.fresh c parent span)) : a.bindingsIn b = [] := by
  unfold bindingsIn declsIn
  rw [h]
  rfl

/-- A chain starts at its block and goes on with smaller numbers. -/
theorem ancestors_eq_cons_below (ha : a.ParentsBelow) (b : BlockId) :
    ∃ rest, a.ancestors b = b :: rest ∧ ∀ c ∈ rest, c.index < b.index := by
  cases hp : a.parent? b with
  | none => exact ⟨[], ancestors_eq_singleton hp, by simp⟩
  | some p =>
    refine ⟨a.ancestors p, ancestors_eq_cons ha hp, fun c hc => ?_⟩
    exact Nat.lt_of_le_of_lt (index_le_of_inside ha (inside_of_mem_chain hc)) (ha b p hp)

end IR.Arena

/-! ## Bindings in force -/

namespace Session

variable {names : SymbolTable} {src : Node → Prop} {s t : Session} {b c : BlockId} {name : String}

/-- The bindings of the open blocks, innermost first. With no block open, one will be opened. -/
def bindings (s : Session) : List (List (String × DeclId)) :=
  match s.current? with
  | none => [[]]
  | some b => (s.arena.ancestors b).map s.arena.bindingsIn

theorem bindings_eq_of_current? (hb : s.current? = some b) :
    s.bindings = (s.arena.ancestors b).map s.arena.bindingsIn := by
  unfold bindings
  rw [hb]

/-- A name is looked up in the bindings in force. -/
theorem lookup?_eq (hb : s.current? = some b) :
    s.arena.lookup? b name = Arena.meaning? s.bindings name := by
  rw [Arena.lookup?_eq, bindings_eq_of_current? hb]

/-- Where the innermost open block stays and all blocks around it keep their bindings, the bindings
in force stay. -/
theorem bindings_eq (hs : s.Good names src) (ht : t.Good names src) (g : s.arena.Grows t.arena)
    (hstack : t.openBlocks = s.openBlocks)
    (hnames : ∀ b c, s.current? = some b → c.index ≤ b.index →
      t.arena.bindingsIn c = s.arena.bindingsIn c) : t.bindings = s.bindings := by
  have hcur : t.current? = s.current? := by
    unfold current?
    rw [hstack]
  unfold bindings
  rw [hcur]
  cases hb : s.current? with
  | none => rfl
  | some b =>
    obtain ⟨x, hx, _⟩ := hs.current hb
    have hanc : t.arena.ancestors b = s.arena.ancestors b :=
      Arena.ancestors_congr hs.arena.parents ht.arena.parents g.parent
        (Arena.index_lt_of_block? hx) g.size
    simp only [hanc]
    refine List.map_congr_left fun c hc => hnames b c hb ?_
    exact Arena.index_le_of_inside hs.arena.parents (Arena.inside_of_mem_chain hc)

/-- More bindings at the end of the innermost scope. -/
def bindMore (new : List (String × DeclId)) :
    List (List (String × DeclId)) → List (List (String × DeclId))
  | [] => [new]
  | scope :: outer => (scope ++ new) :: outer

/-- A change at the innermost open block brings its new declarations into force. -/
theorem bindings_extendsAt {new : List DeclId} (hs : s.Good names src) (ht : t.Good names src)
    (hb : s.current? = some b) (e : s.arena.ExtendsAt b t.arena)
    (hstack : t.openBlocks = s.openBlocks)
    (hnew : t.arena.declsIn b = s.arena.declsIn b ++ new) :
    t.bindings = bindMore (new.filterMap t.arena.bindingOf?) s.bindings := by
  obtain ⟨x, hx, _⟩ := hs.current hb
  have hlt := Arena.index_lt_of_block? hx
  have hcur : t.current? = some b := by
    unfold current?
    rw [hstack]
    exact hb
  have hanc : t.arena.ancestors b = s.arena.ancestors b :=
    Arena.ancestors_congr hs.arena.parents ht.arena.parents e.grows.parent hlt e.grows.size
  obtain ⟨rest, hrest, hbelow⟩ := Arena.ancestors_eq_cons_below hs.arena.parents b
  have houter : rest.map t.arena.bindingsIn = rest.map s.arena.bindingsIn := by
    refine List.map_congr_left fun c hc => ?_
    have hcb := hbelow c hc
    refine Arena.bindingsIn_eq hs.arena e.grows (e.others c (by omega) ?_)
    rintro rfl
    omega
  rw [bindings_eq_of_current? hcur, bindings_eq_of_current? hb, hanc, hrest, List.map_cons,
    List.map_cons, houter, Arena.bindingsIn_append hs.arena e.grows hnew]
  rfl

/-- Inside a new child there is one more scope. -/
theorem bindings_openBlock (hs : s.Good names src) (hc : s.MayOpen c)
    (hp : s.arena.parent? c = some b) (hb : s.current? = some b) :
    ((Lower.openBlock c).run s).2.bindings = [] :: s.bindings := by
  obtain ⟨_, _, hfresh, _⟩ := hc.fresh
  have hcur : ((Lower.openBlock c).run s).2.current? = some c := rfl
  rw [bindings_eq_of_current? hcur, bindings_eq_of_current? hb]
  show (s.arena.ancestors c).map s.arena.bindingsIn = _
  rw [Arena.ancestors_eq_cons hs.arena.parents hp, List.map_cons, Arena.bindingsIn_fresh hfresh]

/-- After work inside a new child the bindings in force are those from before. -/
theorem bindings_closeBlock (hs : s.Good names src) (hb : s.current? = some b) (hc : s.MayOpen c)
    (hp : s.arena.parent? c = some b) (ht : t.Good names src)
    (h : Frame s.arena.blocks.length ((Lower.openBlock c).run s).2 t) :
    ((Lower.closeBlock c).run t).2.bindings = s.bindings := by
  have hcur := h.current rfl
  have hu := ht.closeBlock hcur
  have hg : s.arena.Grows ((Lower.closeBlock c).run t).2.arena := by
    rw [ht.run_closeBlock hcur]
    exact h.arena.trans (.withSealed t.arena c)
  have hstack : ((Lower.closeBlock c).run t).2.openBlocks = s.openBlocks := by
    rw [ht.run_closeBlock hcur, h.stack_openBlock]
    rfl
  refine bindings_eq hs hu hg hstack fun b' e hb' he => ?_
  obtain rfl := Option.some.inj (hb.symm.trans hb')
  have hbc := hs.arena.parents c b hp
  have hlt := hc.index_lt
  have hne : e ≠ c := by
    rintro rfl
    omega
  exact Arena.bindingsIn_eq hs.arena hg (h.block?_closeBlock ht hne (by omega) (by omega))

/-- Inside a new root nothing is in force. -/
theorem bindings_root {span : Span} (hb : s.current? = some b)
    (hroot : s.arena.block? b = some (.fresh c none span)) : s.bindings = [[]] := by
  rw [bindings_eq_of_current? hb, Arena.ancestors_eq_singleton (Arena.parent?_eq hroot),
    List.map_singleton, Arena.bindingsIn_fresh hroot]

/-! ## Bindings and operations -/

/-- There is always an innermost scope. -/
theorem bindings_eq_cons (s : Session) : ∃ scope outer, s.bindings = scope :: outer := by
  unfold bindings
  cases s.current? with
  | none => exact ⟨[], [], rfl⟩
  | some b =>
    unfold Arena.ancestors
    simp only [Arena.chain_succ]
    exact ⟨_, _, rfl⟩

theorem bindMore_nil (s : Session) : bindMore [] s.bindings = s.bindings := by
  obtain ⟨scope, outer, h⟩ := bindings_eq_cons s
  rw [h]
  simp [bindMore]

theorem declsIn_updateBlock {a : Arena} {f : IR.Block → IR.Block} (hf : ∀ x, (f x).decls = x.decls) :
    (a.updateBlock b f).declsIn c = a.declsIn c := by
  unfold Arena.declsIn
  rw [Arena.block?_updateBlock]
  by_cases h : c = b
  · rw [if_pos h]
    cases a.block? c with
    | none => rfl
    | some x => simp [hf]
  · rw [if_neg h]

/-- A change at the innermost open block that declares nothing. -/
theorem bindings_kept (hs : s.Good names src) (ht : t.Good names src) (hb : s.current? = some b)
    (e : s.arena.ExtendsAt b t.arena) (hstack : t.openBlocks = s.openBlocks)
    (h : t.arena.declsIn b = s.arena.declsIn b) : t.bindings = s.bindings := by
  have hnew : t.arena.declsIn b = s.arena.declsIn b ++ [] := by rw [h, List.append_nil]
  rw [bindings_extendsAt hs ht hb e hstack hnew]
  exact bindMore_nil s

theorem bindings_addStmt (hs : s.Good names src) (hb : s.current? = some b) {stmt : Stmt}
    (h : s.arena.InScope (some b) stmt.refs stmt.blocks) :
    ((Lower.addStmt b stmt).run s).2.bindings = s.bindings := by
  obtain ⟨x, hx, ho⟩ := hs.current hb
  have ht := ((does_addStmt (n := 0) hs hb h).1.good_frame hs).1
  rw [Lower.run_addStmt hx ho] at ht ⊢
  exact bindings_kept hs ht hb (.withStmt s.arena b stmt) rfl (declsIn_updateBlock fun _ => rfl)

theorem bindings_createChild (hs : s.Good names src) (hb : s.current? = some b) (span : Span) :
    ((Lower.createChild b span).run s).2.bindings = s.bindings := by
  obtain ⟨x, hx, _⟩ := hs.current hb
  have hlt := Arena.index_lt_of_block? hx
  have ht := ((does_createChild (n := 0) hs hb span).1.good_frame hs).1
  rw [Lower.run_createChild hx] at ht ⊢
  refine bindings_kept hs ht hb (.withChild s.arena b span) rfl ?_
  show (s.arena.withChild b span).declsIn b = s.arena.declsIn b
  unfold Arena.withChild
  rw [declsIn_updateBlock]
  · unfold Arena.declsIn
    rw [Arena.block?_allocBlock, if_neg (by omega)]
  · intro x
    rfl

theorem bindings_linkHoisted (hs : s.Good names src) (hb : s.current? = some b) (name : String)
    (d : DeclId) : ((Lower.linkHoisted b name d).run s).2.bindings = s.bindings := by
  have hd : Does names src 0 s (Lower.linkHoisted b name d) anything := does_linkHoisted hb name d
  have ht := (hd.1.good_frame hs).1
  rcases hs.run_linkHoisted hb name d with h | ⟨p, x, hx, hfree, h⟩
  · rw [h]
  · rw [h] at ht ⊢
    exact bindings_kept hs ht hb (.withLink hx hfree d b) rfl rfl

/-- A new declaration comes into force, unless it is a temporary. -/
theorem bindings_withDecl {x : IR.Block} {d : Decl} {n : Nat} (hs : s.Good names src)
    (hb : s.current? = some b) (hx : s.arena.block? b = some x)
    (ht : ({ s with arena := s.arena.withDecl b d, nextTemp := n } : Session).Good names src) :
    ({ s with arena := s.arena.withDecl b d, nextTemp := n } : Session).bindings =
      bindMore (if d.isTemporary then [] else [(d.name, ⟨s.arena.decls.length⟩)]) s.bindings := by
  have hdecl : (s.arena.withDecl b d).decl? ⟨s.arena.decls.length⟩ = some d := by
    unfold Arena.withDecl
    rw [Arena.decl?_updateBlock, Arena.decl?_pushDecl, if_pos rfl]
  have hnew : (s.arena.withDecl b d).declsIn b = s.arena.declsIn b ++ [⟨s.arena.decls.length⟩] := by
    have hx' : ({ s.arena with decls := s.arena.decls ++ [d] } : Arena).block? b = some x := hx
    unfold Arena.withDecl Arena.declsIn
    rw [Arena.block?_updateBlock, if_pos rfl, hx', hx]
    rfl
  have hbinding : [(⟨s.arena.decls.length⟩ : DeclId)].filterMap (s.arena.withDecl b d).bindingOf? =
      if d.isTemporary then [] else [(d.name, ⟨s.arena.decls.length⟩)] := by
    unfold Arena.bindingOf?
    rw [List.filterMap_cons, hdecl]
    cases h : d.isTemporary <;> simp [h]
  rw [bindings_extendsAt hs ht hb (.withDecl s.arena b d) rfl hnew, ← hbinding]

theorem bindings_freshTemp (hs : s.Good names src) (hb : s.current? = some b) (span : Span) :
    ((Lower.freshTemp b span).run s).2.bindings = s.bindings := by
  obtain ⟨x, hx, ho⟩ := hs.current hb
  have ht := ((does_freshTemp (n := 0) hs hb span).1.good_frame hs).1
  rw [Lower.run_freshTemp hx ho] at ht ⊢
  exact (bindings_withDecl hs hb hx ht).trans (bindMore_nil s)

theorem bindings_addDecl (hs : s.Good names src) (hb : s.current? = some b)
    {type : Option TypeRef} {kind : DeclKind} {span : Span} (hkind : kind ≠ .temporary)
    (htype : ∀ t, type = some t →
      ∃ n, src n ∧ s.arena.Annotated names ⟨name, type, kind, b, span⟩ t n) :
    ((Lower.addDecl b name type kind span).run s).2.bindings =
      bindMore [(name, ⟨s.arena.decls.length⟩)] s.bindings := by
  obtain ⟨x, hx, ho⟩ := hs.current hb
  have ht := ((does_addDecl (n := 0) hs hb hkind htype).1.good_frame hs).1
  rw [Lower.run_addDecl hx ho] at ht ⊢
  have hnamed : (⟨name, type, kind, b, span⟩ : Decl).isTemporary = false := by
    cases kind with
    | temporary => exact absurd rfl hkind
    | _ => rfl
  have h := bindings_withDecl hs hb hx ht
  rw [hnamed] at h
  exact h

/-- Opening the first root changes nothing: nothing is in force before and after. -/
theorem bindings_currentBlock (s : Session) :
    (Lower.currentBlock.run s).2.bindings = s.bindings := by
  cases hb : s.current? with
  | some b => rw [Lower.run_currentBlock_some hb]
  | none =>
    have hnil : s.openBlocks = [] := List.head?_eq_none_iff.1 hb
    have hempty : s.bindings = [[]] := by
      unfold bindings
      rw [hb]
    have hroot : (s.arena.createRoot .synthetic).1.block? ⟨s.arena.blocks.length⟩ =
        some (.fresh ⟨s.arena.blocks.length⟩ none .synthetic) :=
      (Arena.block?_allocBlock _ _ _ _).trans (if_pos rfl)
    rw [Lower.run_currentBlock_none hnil, hempty]
    exact bindings_root rfl hroot

/-! ## Names in force -/

def typeNames (s : Session) : List String :=
  s.typeScopes.flatMap fun id =>
    ((s.arena.typeScope? id).map fun scope => scope.decls.map TypeDecl.name).getD []

/-- The names in force. -/
def env (s : Session) : Env := ⟨s.typeNames, s.bindings.map (List.map Prod.fst)⟩

theorem env_eq (htypes : t.typeNames = s.typeNames) (hbindings : t.bindings = s.bindings) :
    t.env = s.env := by
  unfold env
  rw [htypes, hbindings]

theorem findType?_isSome : (s.findType? name).isSome = true ↔ name ∈ s.env.types := by
  unfold findType? env typeNames
  simp only [List.findSome?_isSome_iff, List.mem_flatMap]
  refine exists_congr fun id => and_congr_right fun _ => ?_
  cases s.arena.typeScope? id with
  | none => simp
  | some scope =>
    unfold TypeScope.find?
    simp [List.findIdx?_isSome]

/-- A name is found exactly if it is in force. -/
theorem has_iff_lookup? (hb : s.current? = some b) :
    s.env.Has name ↔ (s.arena.lookup? b name).isSome = true := by
  rw [lookup?_eq hb, Arena.meaning?_isSome]
  rfl

theorem typeNames_eq (htypes : t.arena.typeScopes = s.arena.typeScopes)
    (hscopes : t.typeScopes = s.typeScopes) : t.typeNames = s.typeNames := by
  unfold typeNames Arena.typeScope?
  rw [htypes, hscopes]

theorem declareAll_cons (types : List String) (scope : List String) (outer : List (List String))
    (new : List String) :
    (⟨types, scope :: outer⟩ : Env).declareAll new = ⟨types, (scope ++ new) :: outer⟩ := by
  unfold Env.declareAll
  induction new generalizing scope with
  | nil => simp
  | cons name rest ih =>
    rw [List.foldl_cons]
    show List.foldl Env.declare ⟨types, (scope ++ [name]) :: outer⟩ rest = _
    rw [ih]
    simp

/-- New bindings bring their names into force. -/
theorem env_bindMore {new : List (String × DeclId)} (htypes : t.typeNames = s.typeNames)
    (h : t.bindings = bindMore new s.bindings) : t.env = s.env.declareAll (new.map Prod.fst) := by
  obtain ⟨scope, outer, hs⟩ := bindings_eq_cons s
  unfold env
  rw [htypes, h, hs, List.map_cons, declareAll_cons]
  simp [bindMore]

theorem env_openBlock (hs : s.Good names src) (hc : s.MayOpen c)
    (hp : s.arena.parent? c = some b) (hb : s.current? = some b) :
    ((Lower.openBlock c).run s).2.env = s.env.enter := by
  unfold env
  rw [bindings_openBlock hs hc hp hb]
  rfl

end Session

end BlockLowering
