import Mathlib.Data.List.Nodup
import Mathlib.Data.Set.Function
import BlockLowering.Proofs.ClosedScopes

/-!
# Placeholders and their functions

While a module is lowered with hoisting, its unit block holds one placeholder for each function that
the module declares directly. The functions are reached in the order of their placeholders, so the
first free placeholder of the name is always the right one, also if names are repeated. `Linking` is
the state of the tables after some of the functions, and `Hoisted.statementList` runs it through the
body of the module.
-/

namespace BlockLowering

open IR Source Session

/-! ## The functions of a module -/

namespace Source

/-- The function that a statement declares. -/
def Statement.function? : Statement → Option FunctionDecl
  | .functionDecl decl => some decl
  | _ => none

/-- The functions that a module declares directly, in order. -/
def Module.functions (m : Module) : List FunctionDecl := m.statements.filterMap Statement.function?

theorem Module.functionNames_eq (m : Module) :
    m.functionNames = m.functions.map FunctionDecl.name := by
  unfold Module.functionNames Module.functions
  rw [List.map_filterMap]
  congr 1
  funext st
  cases st <;> rfl

end Source

/-- The declaration that is made for a function of a module. -/
def functionIn (names : SymbolTable) (body : BlockId) (f : FunctionDecl) : Decl :=
  ⟨names.resolve f.name.name, none, .function, body, f.name.span⟩

section

variable {names : SymbolTable} {s t u : Session} {b c : BlockId}

/-- At the body of its unit a function is linked to the first free placeholder of its name. -/
theorem Lower.run_linkHoisted_found {unit : BlockId} {y : IR.Block} {name : String} {p d : DeclId}
    (hs : s.Good names anyNode) (hb : s.current? = some b) (hbody : s.unitBody = some b)
    (hparent : s.arena.parent? b = some unit) (hy : s.arena.block? unit = some y)
    (hfind : y.decls.find? (s.arena.isFree name) = some p) :
    (linkHoisted b name d).run s = ((), { s with arena := s.arena.withLink p d }) := by
  have hfree : s.freePlaceholder? b name = some p := by
    unfold Session.freePlaceholder? Arena.declsAround
    rw [if_pos hbody, hparent, Option.bind_some, hy]
    exact hfind
  rw [hs.run_linkHoisted_eq hb, hfree]

/-! ## The tables after some of the functions -/

/-- The declarations of `s`, then placeholders: those of the functions `linked` lead to their
declarations, and those of the functions `free` lead nowhere yet. -/
def linkTable (names : SymbolTable) (s : Session) (linked : List (FunctionDecl × DeclId))
    (free : List FunctionDecl) : List Decl :=
  s.arena.decls ++ linked.map (fun l => placeholderFor names s.nextUnit (some l.2) l.1.name) ++
    free.map fun f => placeholderFor names s.nextUnit none f.name

/-- The functions of `linked` are declared in the body of the next unit of `s`, in this order, and
their placeholders lead to them. The placeholders of the functions `free` still lead nowhere. -/
structure Linking (names : SymbolTable) (s : Session) (linked : List (FunctionDecl × DeclId))
    (free : List FunctionDecl) (u : Session) : Prop where
  table : ∃ rest, u.arena.decls = linkTable names s linked free ++ rest ∧
    ∀ x ∈ rest, x.isPlaceholder = false
  made : ∀ l ∈ linked, u.arena.decl? l.2 = some (functionIn names s.nextBody l.1)
  only : ∀ d x, u.arena.decl? d = some x → x.kind = .function → x.owner = s.nextBody →
    d ∈ linked.map Prod.snd
  sorted : (linked.map Prod.snd).Pairwise fun d e => d.index < e.index

variable {linked : List (FunctionDecl × DeclId)} {free : List FunctionDecl} {f : FunctionDecl}

theorem decl?_of_append {a a' : Arena} {new : List Decl} (h : a'.decls = a.decls ++ new)
    {d : DeclId} {x : Decl} (hx : a.decl? d = some x) : a'.decl? d = some x := by
  unfold Arena.decl? at hx ⊢
  rw [h, List.getElem?_append_left (List.getElem?_eq_some_iff.1 hx).1, hx]

theorem decl?_append_cases {a a' : Arena} {new : List Decl} (h : a'.decls = a.decls ++ new)
    {d : DeclId} {x : Decl} (hx : a'.decl? d = some x) : a.decl? d = some x ∨ x ∈ new := by
  unfold Arena.decl? at hx ⊢
  rw [h, List.getElem?_append] at hx
  split at hx
  · exact .inl hx
  · exact .inr (List.mem_of_getElem? hx)

/-- Ordinary declarations change nothing in the links. -/
theorem Linking.adds (h : Linking names s linked free u) (hbody : u.unitBody = some s.nextBody)
    (hadds : Adds u t) : Linking names s linked free t := by
  obtain ⟨new, hnew, hordinary⟩ := hadds.decls
  refine ⟨?_, fun l hl => decl?_of_append hnew (h.made l hl), fun d x hx hkind howner => ?_,
    h.sorted⟩
  · obtain ⟨rest, hrest, hplain⟩ := h.table
    refine ⟨rest ++ new, by rw [hnew, hrest, List.append_assoc], fun x hx => ?_⟩
    rcases List.mem_append.1 hx with hx | hx
    · exact hplain x hx
    · exact (hordinary x hx).placeholder
  · rcases decl?_append_cases hnew hx with hold | hx
    · exact h.only d x hold hkind howner
    · exact absurd (howner ▸ hbody) ((hordinary x hx).function hkind)

/-- The placeholder of the next function. -/
def nextPlaceholder (s : Session) (linked : List (FunctionDecl × DeclId)) : DeclId :=
  ⟨s.arena.decls.length + linked.length⟩

theorem DeclId.range_split (start n m : Nat) :
    DeclId.range start (n + (m + 1)) =
      DeclId.range start n ++ ⟨start + n⟩ :: DeclId.range (start + n + 1) m := by
  unfold DeclId.range
  rw [← List.range'_append, List.map_append, Nat.one_mul, List.range'_succ, List.map_cons]

/-- The placeholder of the next function leads nowhere yet. -/
theorem decl?_nextPlaceholder {a : Arena} {rest : List Decl}
    (h : a.decls = linkTable names s linked (f :: free) ++ rest) :
    a.decl? (nextPlaceholder s linked) = some (placeholderFor names s.nextUnit none f.name) := by
  unfold Arena.decl? nextPlaceholder
  rw [h, linkTable, List.append_assoc, List.getElem?_append_right (by simp)]
  simp

/-- The next function finds its own placeholder: those before it are linked. -/
theorem find?_isFree {a : Arena} {rest : List Decl}
    (h : a.decls = linkTable names s linked (f :: free) ++ rest) :
    (DeclId.range s.arena.decls.length (linked.length + (free.length + 1))).find?
      (a.isFree (names.resolve f.name.name)) = some (nextPlaceholder s linked) := by
  rw [DeclId.range_split, List.find?_append]
  have hnone : (DeclId.range s.arena.decls.length linked.length).find?
      (a.isFree (names.resolve f.name.name)) = none := by
    rw [List.find?_eq_none]
    intro d hd hfree
    obtain ⟨x, hx, _, hkind⟩ := Arena.isFree_iff.1 hfree
    unfold DeclId.range at hd
    obtain ⟨i, hi, rfl⟩ := List.mem_map.1 hd
    rw [List.mem_range'_1] at hi
    unfold Arena.decl? at hx
    rw [h, linkTable, List.append_assoc, List.getElem?_append_left (by simp; omega),
      List.getElem?_append_right hi.1, List.getElem?_map, Option.map_eq_some_iff] at hx
    obtain ⟨l, _, rfl⟩ := hx
    cases hkind
  have hnext : a.isFree (names.resolve f.name.name) (nextPlaceholder s linked) = true :=
    Arena.isFree_iff.2 ⟨_, decl?_nextPlaceholder h, rfl, rfl⟩
  rw [hnone]
  show (nextPlaceholder s linked :: _).find? _ = _
  rw [List.find?_cons_of_pos hnext]

theorem modify_append_cons {α : Type} (l r : List α) (x : α) (g : α → α) :
    (l ++ x :: r).modify l.length g = l ++ g x :: r := by
  induction l with
  | nil => rfl
  | cons y l ih =>
    show y :: (l ++ x :: r).modify l.length g = y :: (l ++ g x :: r)
    rw [ih]

/-- Linking that placeholder. -/
theorem decls_withLink {a : Arena} {rest : List Decl} (d : DeclId)
    (h : a.decls = linkTable names s linked (f :: free) ++ rest) :
    (a.withLink (nextPlaceholder s linked) d).decls =
      linkTable names s (linked ++ [(f, d)]) free ++ rest := by
  have hlength : s.arena.decls.length + linked.length = (s.arena.decls ++ linked.map fun l =>
      placeholderFor names s.nextUnit (some l.2) l.1.name).length := by simp
  show a.decls.modify (s.arena.decls.length + linked.length) _ = _
  rw [h, linkTable, List.map_cons, List.append_assoc, List.cons_append, hlength, modify_append_cons]
  simp [linkTable, placeholderFor]

/-- The session after the next function is declared and its placeholder linked. -/
def linkNext (names : SymbolTable) (s : Session) (linked : List (FunctionDecl × DeclId))
    (f : FunctionDecl) (u : Session) : Session :=
  { u with
    arena := (u.arena.withDecl s.nextBody (functionIn names s.nextBody f)).withLink
      (nextPlaceholder s linked) ⟨u.arena.decls.length⟩ }

theorem Linking.extendsAt (h : Linking names s linked (f :: free) u) :
    u.arena.ExtendsAt s.nextBody (linkNext names s linked f u).arena := by
  obtain ⟨rest, hrest, _⟩ := h.table
  refine (Arena.ExtendsAt.withDecl u.arena s.nextBody (functionIn names s.nextBody f)).trans ?_
  exact .withLink (decl?_of_append rfl (decl?_nextPlaceholder hrest)) rfl _ _

theorem Linking.good (h : Linking names s linked (f :: free) u) (hu : u.Good names anyNode) :
    (linkNext names s linked f u).Good names anyNode := by
  have hdecl :
      (u.arena.withDecl s.nextBody (functionIn names s.nextBody f)).WellScoped names anyNode :=
    hu.arena.withDecl rfl fun t ht => by cases ht
  obtain ⟨rest, hrest, _⟩ := h.table
  refine hu.ofExtendsAt ?_ h.extendsAt rfl
  exact hdecl.withLink (decl?_of_append rfl (decl?_nextPlaceholder hrest)) rfl _

theorem decl?_linkNext (names : SymbolTable) (s : Session) (linked : List (FunctionDecl × DeclId))
    (f : FunctionDecl) (u : Session) (d : DeclId) :
    (linkNext names s linked f u).arena.decl? d =
      if d = nextPlaceholder s linked then
        ((u.arena.withDecl s.nextBody (functionIn names s.nextBody f)).decl? d).map fun x =>
          { x with kind := .placeholder (some ⟨u.arena.decls.length⟩) }
      else if d.index = u.arena.decls.length then some (functionIn names s.nextBody f)
      else u.arena.decl? d := by
  refine (Arena.decl?_withLink _ _ _ d).trans ?_
  by_cases hd : d = nextPlaceholder s linked
  · rw [if_pos hd, if_pos hd]
  · rw [if_neg hd, if_neg hd]
    exact Arena.decl?_pushDecl u.arena (functionIn names s.nextBody f) d

namespace Linking

/-- Functions are no placeholders, so they stay. -/
theorem decl?_function (h : Linking names s linked (f :: free) u) {d : DeclId} {x : Decl}
    (hx : u.arena.decl? d = some x) (hkind : x.kind = .function) :
    (linkNext names s linked f u).arena.decl? d = some x := by
  obtain ⟨rest, hrest, _⟩ := h.table
  have hd : d ≠ nextPlaceholder s linked := by
    rintro rfl
    rw [decl?_nextPlaceholder hrest] at hx
    rw [← Option.some.inj hx] at hkind
    cases hkind
  have hindex := Arena.index_lt_of_decl? hx
  rw [decl?_linkNext, if_neg hd, if_neg (by omega), hx]

/-- The next function is there; its placeholder is older. -/
theorem decl?_next (h : Linking names s linked (f :: free) u) :
    (linkNext names s linked f u).arena.decl? ⟨u.arena.decls.length⟩ =
      some (functionIn names s.nextBody f) := by
  obtain ⟨rest, hrest, _⟩ := h.table
  have hlt := Arena.index_lt_of_decl? (decl?_nextPlaceholder hrest)
  have hd : (⟨u.arena.decls.length⟩ : DeclId) ≠ nextPlaceholder s linked := by
    intro e
    rw [← e] at hlt
    exact Nat.lt_irrefl _ hlt
  rw [decl?_linkNext, if_neg hd, if_pos rfl]

/-- Only the next function is a new function. -/
theorem function_cases (h : Linking names s linked (f :: free) u) {d : DeclId} {x : Decl}
    (hx : (linkNext names s linked f u).arena.decl? d = some x) (hkind : x.kind = .function)
    (howner : x.owner = s.nextBody) :
    d ∈ linked.map Prod.snd ∨ d = ⟨u.arena.decls.length⟩ := by
  rw [decl?_linkNext] at hx
  by_cases hd : d = nextPlaceholder s linked
  · rw [if_pos hd, Option.map_eq_some_iff] at hx
    obtain ⟨y, _, rfl⟩ := hx
    cases hkind
  · rw [if_neg hd] at hx
    by_cases hindex : d.index = u.arena.decls.length
    · exact .inr (by rw [← hindex])
    · rw [if_neg hindex] at hx
      exact .inl (h.only d x hx hkind howner)

theorem link (h : Linking names s linked (f :: free) u) :
    Linking names s (linked ++ [(f, ⟨u.arena.decls.length⟩)]) free
      (linkNext names s linked f u) := by
  obtain ⟨rest, hrest, hplain⟩ := h.table
  have hdecls : (u.arena.withDecl s.nextBody (functionIn names s.nextBody f)).decls =
      linkTable names s linked (f :: free) ++ (rest ++ [functionIn names s.nextBody f]) := by
    rw [Arena.decls_withDecl, hrest, List.append_assoc]
  refine ⟨⟨rest ++ [functionIn names s.nextBody f], decls_withLink _ hdecls, ?_⟩, ?_, ?_, ?_⟩
  · intro x hx
    rcases List.mem_append.1 hx with hx | hx
    · exact hplain x hx
    · rw [List.mem_singleton.1 hx]
      rfl
  · intro l hl
    rcases List.mem_append.1 hl with hl | hl
    · exact h.decl?_function (h.made l hl) rfl
    · rw [List.mem_singleton.1 hl]
      exact h.decl?_next
  · intro d x hx hkind howner
    rw [List.map_append, List.mem_append]
    rcases h.function_cases hx hkind howner with hold | rfl
    · exact .inl hold
    · exact .inr List.mem_cons_self
  · rw [List.map_append, List.pairwise_append]
    refine ⟨h.sorted, List.pairwise_singleton _ _, fun d hd e he => ?_⟩
    obtain ⟨l, hl, rfl⟩ := List.mem_map.1 hd
    rw [List.mem_singleton.1 he]
    exact Arena.index_lt_of_decl? (h.made l hl)

end Linking

/-! ## Through the body of a module -/

/-- The body of the next unit of `s` is being lowered, and no statement of it is half done. -/
structure Session.InBody (names : SymbolTable) (m : Module) (s u : Session) : Prop where
  good : u.Good names anyNode
  frame : Frame (s.arena.blocks.length + 2) (s.enterUnit names m) u
  waits : ∀ b, ¬u.Waits b

namespace Session.InBody

variable {m : Module}

theorem start (hs : Reachable names anyNode s) (hrest : ∀ b, ¬s.Waits b) :
    InBody names m s (s.enterUnit names m) :=
  ⟨(hs.enterUnit m).good, .refl _ _, fun b hb => hrest b hb.of_enterUnit⟩

theorem current (h : InBody names m s u) : u.current? = some s.nextBody := h.frame.current rfl

theorem unitBody (h : InBody names m s u) : u.unitBody = some s.nextBody := h.frame.unitBody

theorem bodyOpen (h : InBody names m s u) : u.BodyOpen := by
  intro b hb
  rw [h.unitBody] at hb
  obtain rfl := Option.some.inj hb
  exact mem_openBlocks_of_current? h.current

theorem size (h : InBody names m s u) : s.arena.blocks.length + 2 ≤ u.arena.blocks.length := by
  rw [← s.length_enterUnit names m]
  exact h.frame.arena.size

theorem unit (h : InBody names m s u) :
    u.arena.block? s.nextUnit = some (s.unitAtStart names m) := by
  rw [h.frame.others s.nextUnit (Nat.lt_succ_of_lt (Nat.lt_succ_self _))
    (by rw [Session.length_enterUnit]; exact Nat.lt_succ_of_lt (Nat.lt_succ_self _))
    fun hcur => s.nextBody_ne_nextUnit (Option.some.inj hcur), Session.block?_enterUnit, if_pos rfl]

theorem parent (h : InBody names m s u) : u.arena.parent? s.nextBody = some s.nextUnit :=
  h.frame.arena.parent_some (s.parent?_enterUnit names m)

/-- One more statement. -/
theorem next {x : Lower Unit} (h : InBody names m s u)
    (hx : Does names anyNode (s.arena.blocks.length + 2) u x anything)
    (hwaits : ∀ b, ¬(x.run u).2.Waits b) : InBody names m s (x.run u).2 := by
  obtain ⟨ht, hut⟩ := hx.1.good_frame h.good
  exact ⟨ht, h.frame.trans hut, hwaits⟩

end Session.InBody

/-- In the body of the next unit of `s` the function is assigned to its declaration. -/
def Session.Assigns (s u : Session) (l : FunctionDecl × DeclId) : Prop :=
  ∃ c x, u.arena.block? s.nextBody = some x ∧
    Stmt.assign ⟨l.2, l.1.name.span⟩ (.func c l.1.span) l.1.span ∈ x.stmts

theorem Session.Assigns.frame {n : Nat} {l : FunctionDecl × DeclId} (h : s.Assigns u l)
    (hcur : u.current? = some s.nextBody) (hn : s.nextBody.index < n) (hut : Frame n u t) :
    s.Assigns t l := by
  obtain ⟨c, x, hx, hmem⟩ := h
  obtain ⟨y, hy, hxy⟩ := hut.own s.nextBody x hcur hn hx
  exact ⟨c, y, hy, hxy.stmts.subset hmem⟩

/-- The functions of `linked` are done and those of `free` are still to come. -/
structure Hoisted (names : SymbolTable) (m : Module) (s : Session)
    (linked : List (FunctionDecl × DeclId)) (free : List FunctionDecl) (u : Session) : Prop
    extends InBody names m s u, Linking names s linked free u where
  assigned : ∀ l ∈ linked, s.Assigns u l

variable {m : Module}

/-- A statement that declares no function adds ordinary declarations. -/
theorem Hoisted.statement {st : Statement} (h : Hoisted names m s linked free u)
    (hst : st.function? = none) :
    Hoisted names m s linked free ((Lower.statementAt names false st).run u).2 := by
  have hd := does_statementAt false st trivial (covers_anyNode _) _ u h.good h.size
  have hstart : Footprint u True [] u u :=
    .of_waits (fun b hb => absurd hb (h.waits b)) fun _ => h.bodyOpen
  have hend := ((footprint_lockstep names u True).statementAt false st [] u u h.good hstart
    (fun hbranch => by cases hbranch) (fun d hfun => by rw [hfun] at hst; cases hst) False.elim).2
  have hwaits : ∀ b, ¬((Lower.statementAt names false st).run u).2.Waits b := fun b hb =>
    absurd (hend.waits b hb) List.not_mem_nil
  refine ⟨h.next hd hwaits, h.toLinking.adds h.unitBody (hend.adds trivial), fun l hl => ?_⟩
  exact (h.assigned l hl).frame h.current (Nat.lt_succ_self _) (hd.1.good_frame h.good).2

/-- What remains of a function declaration once the function is declared and linked. -/
def Lower.functionRest (names : SymbolTable) (block : BlockId) (decl : DeclId) (f : FunctionDecl) :
    Lower Unit := do
  let body ← createChild block f.body.span
  addStmt block (.assign ⟨decl, f.name.span⟩ (.func body f.span) f.span)
  functionBody names body f.typeParams f.params (group names f.body)

theorem Hoisted.run_functionDecl (h : Hoisted names m s linked (f :: free) u)
    (hcount : (m.placeholders names s.options s.nextUnit).length =
      linked.length + (free.length + 1)) :
    (Lower.functionDecl names f).run u =
      (Lower.functionRest names s.nextBody ⟨u.arena.decls.length⟩ f).run
        (linkNext names s linked f u) := by
  obtain ⟨x, hx, ho⟩ := h.good.current h.current
  obtain ⟨rest, hrest, _⟩ := h.table
  have hunit : (u.arena.withDecl s.nextBody (functionIn names s.nextBody f)).block? s.nextUnit =
      some (s.unitAtStart names m) := by
    rw [Arena.block?_withDecl, if_neg s.nextBody_ne_nextUnit.symm, h.unit]
  have hdecls : (u.arena.withDecl s.nextBody (functionIn names s.nextBody f)).decls =
      linkTable names s linked (f :: free) ++ (rest ++ [functionIn names s.nextBody f]) := by
    rw [Arena.decls_withDecl, hrest, List.append_assoc]
  have hfind := find?_isFree hdecls
  have hparent := (Arena.Grows.withDecl u.arena s.nextBody
    (functionIn names s.nextBody f)).parent_some h.parent
  rw [← hcount] at hfind
  have hdecl : Does names anyNode 0 u (Lower.addDecl s.nextBody (names.resolve f.name.name) none
      .function f.name.span) fun d t => t.arena.Sees s.nextBody d :=
    does_addDecl h.good h.current (by simp) fun _ ht => by cases ht
  have hgood := (hdecl.1.good_frame h.good).1
  rw [Lower.run_addDecl hx ho] at hgood
  obtain ⟨name, typeParams, params, result, body, span⟩ := f
  have hlink : (Lower.linkHoisted s.nextBody (names.resolve name.name) ⟨u.arena.decls.length⟩).run
      { u with
        arena := u.arena.withDecl s.nextBody
          ⟨names.resolve name.name, none, .function, s.nextBody, name.span⟩ } =
      ((), linkNext names s linked ⟨name, typeParams, params, result, body, span⟩ u) :=
    Lower.run_linkHoisted_found hgood h.current h.unitBody hparent hunit hfind
  simp only [Lowering.functionDecl, monadLift_self]
  rw [Lower.run_bind, Lower.run_currentBlock_some h.current, Lower.run_bind,
    Lower.run_addDecl hx ho, Lower.run_bind, hlink]
  rfl

/-- A statement that was appended is there. -/
theorem mem_addStmt (hu : u.Good names anyNode) (hb : u.current? = some b) (stmt : Stmt) :
    ∃ x, ((Lower.addStmt b stmt).run u).2.arena.block? b = some x ∧ stmt ∈ x.stmts := by
  obtain ⟨y, hy, ho⟩ := hu.current hb
  refine ⟨{ y with stmts := y.stmts ++ [stmt] }, ?_, List.mem_append_right _ List.mem_cons_self⟩
  rw [Lower.run_addStmt hy ho]
  refine (Arena.block?_withStmt u.arena b stmt b).trans ?_
  rw [if_pos rfl, hy]
  rfl

/-- Once a function is declared and linked, only ordinary declarations are made, and no block is
left waiting that did not wait before; the function is assigned to its declaration. -/
theorem adds_functionRest (hu : u.Good names anyNode) (hb : u.current? = some b)
    (hopen : u.BodyOpen) {p : List BlockId} (hwaits : ∀ e, u.Waits e → e ∈ p) {d : DeclId}
    (hd : u.arena.Sees b d) (f : FunctionDecl) :
    After u (Lower.functionRest names b d f) fun _ t => Adds u t ∧ (∀ e, t.Waits e → e ∈ p) ∧
      ∃ c x, t.arena.block? b = some x ∧
        Stmt.assign ⟨d, f.name.span⟩ (.func c f.span) f.span ∈ x.stmts := by
  have hlt := hu.known b (mem_openBlocks_of_current? hb)
  have hchild := does_createChild (n := 0) hu hb f.body.span
  obtain ⟨hu₁, h₁⟩ := hchild.1.good_frame hu
  obtain ⟨hfresh, _⟩ := hchild.2
  have hfoot : Footprint u True p u u := .of_waits hwaits fun _ => hopen
  have hfoot₁ := hfoot.createChild hu hb f.body.span
  unfold After Lower.functionRest at *
  rw [Lower.run_bind]
  generalize (Lower.createChild b f.body.span).run u = r at *
  obtain ⟨c, u₁⟩ := r
  dsimp only at *
  have hb₁ := h₁.current hb
  have hscope := (Arena.InScope.ref (r := ⟨d, f.name.span⟩) (h₁.arena.sees hd)).append
    (.block hfresh.parent)
  have hstmt : Does names anyNode 0 u₁
      (Lower.addStmt b (.assign ⟨d, f.name.span⟩ (.func c f.span) f.span)) (opensAs u₁) :=
    does_addStmt hu₁ hb₁ hscope
  obtain ⟨hu₂, h₂⟩ := hstmt.1.good_frame hu₁
  have hopens := hstmt.2 c hfresh.opens
  have hfoot₂ := hfoot₁.addStmt hu₁ hb₁ (.assign ⟨d, f.name.span⟩ (.func c f.span) f.span)
  obtain ⟨x, hx, hmem⟩ := mem_addStmt hu₁ hb₁ (.assign ⟨d, f.name.span⟩ (.func c f.span) f.span)
  unfold After at hfoot₂
  rw [Lower.run_bind]
  generalize (Lower.addStmt b (.assign ⟨d, f.name.span⟩ (.func c f.span) f.span)).run u₁ = r at *
  obtain ⟨_, u₂⟩ := r
  dsimp only at *
  have hb₂ := h₂.current hb₁
  have hgroup : AlwaysDoes names anyNode (Lower.group names f.body) :=
    does_group f.body (covers_anyNode _)
  have hbody : Does names anyNode c.index u₂
      (Lower.functionBody names c f.typeParams f.params (Lower.group names f.body)) anything :=
    does_functionBody hu₂ hopens (Nat.le_refl c.index) (fun _ _ => trivial) hgroup
  obtain ⟨_, h₃⟩ := hbody.1.good_frame hu₂
  have hfoot₃ := ((footprint_lockstep names u True).functionBody hu₂ hfoot₂ hb₂ hopens
    (h₂.arena.parent_some hfresh.parent) (fun _ he => he) f.typeParams f.params False.elim hgroup
    ((footprint_lockstep names u True).group f.body _)).2
  obtain ⟨y, hy, hxy⟩ := h₃.own b x hb₂ (by rw [hfresh.index]; exact hlt) hx
  exact ⟨hfoot₃.adds trivial, hfoot₃.waits, c, y, hy, hxy.stmts.subset hmem⟩

/-- A function is linked to the next placeholder. -/
theorem Hoisted.function (h : Hoisted names m s linked (f :: free) u)
    (hcount : (m.placeholders names s.options s.nextUnit).length =
      linked.length + (free.length + 1)) :
    Hoisted names m s (linked ++ [(f, ⟨u.arena.decls.length⟩)]) free
      ((Lower.functionDecl names f).run u).2 := by
  have hdoes := does_functionDecl f (covers_anyNode _) _ u h.good h.size
  have hlinking := h.toLinking.link
  have hwaits : ∀ b, (linkNext names s linked f u).Waits b → b ∈ [] := fun b hb =>
    absurd (hb.of_extendsAt h.toLinking.extendsAt rfl (Arena.length_withDecl ..)) (h.waits b)
  have hsees : (linkNext names s linked f u).arena.Sees s.nextBody ⟨u.arena.decls.length⟩ :=
    ⟨_, hlinking.made _ (List.mem_append_right _ List.mem_cons_self), .self _, fun _ => rfl⟩
  have hrest := adds_functionRest (h.toLinking.good h.good) h.current h.bodyOpen hwaits hsees f
  unfold After at hrest
  rw [← h.run_functionDecl hcount] at hrest
  obtain ⟨hadds, hwaits', hassigned⟩ := hrest
  have hnone : ∀ b, ¬((Lower.functionDecl names f).run u).2.Waits b := fun b hb =>
    List.not_mem_nil (hwaits' b hb)
  refine ⟨h.next hdoes hnone, hlinking.adds h.unitBody hadds, fun l hl => ?_⟩
  rcases List.mem_append.1 hl with hl | hl
  · exact (h.assigned l hl).frame h.current (Nat.lt_succ_self _) (hdoes.1.good_frame h.good).2
  · rw [List.mem_singleton.1 hl]
    exact hassigned

/-- Through all statements: every function that they declare gets linked. -/
theorem Hoisted.statementList (sts : List Statement)
    (h : Hoisted names m s linked (sts.filterMap Statement.function?) u)
    (hcount : (m.placeholders names s.options s.nextUnit).length =
      linked.length + (sts.filterMap Statement.function?).length) :
    ∃ links, links.map Prod.fst = linked.map Prod.fst ++ sts.filterMap Statement.function? ∧
      Hoisted names m s links [] ((Lower.statementList names sts).run u).2 := by
  induction sts generalizing linked u with
  | nil =>
    refine ⟨linked, (List.append_nil _).symm, ?_⟩
    simp only [Lowering.statementList]
    exact h
  | cons st rest ih =>
    simp only [Lowering.statementList]
    rw [Lower.run_bind]
    cases hst : st.function? with
    | none =>
      rw [List.filterMap_cons_none hst] at h hcount ⊢
      exact ih (h.statement hst) hcount
    | some f =>
      obtain rfl : st = .functionDecl f := by
        cases st with
        | functionDecl d => rw [Option.some.inj hst]
        | _ => cases hst
      rw [List.filterMap_cons_some hst] at h hcount ⊢
      have hcount' : (m.placeholders names s.options s.nextUnit).length =
          (linked ++ [(f, (⟨u.arena.decls.length⟩ : DeclId))]).length +
            (rest.filterMap Statement.function?).length := by
        rw [hcount, List.length_append, List.length_cons, List.length_singleton]
        omega
      simp only [Lowering.statementAt]
      obtain ⟨links, hlinks, hend⟩ := ih (h.function hcount) hcount'
      refine ⟨links, ?_, hend⟩
      rw [hlinks]
      simp

theorem placeholders_eq (hhoist : s.options.hoisting = true) :
    m.placeholders names s.options s.nextUnit =
      m.functions.map fun f => placeholderFor names s.nextUnit none f.name := by
  unfold Module.placeholders
  rw [if_pos hhoist, Module.functionNames_eq, List.map_map]
  rfl

/-- Before the statements no function is done. -/
theorem Hoisted.start (hs : Reachable names anyNode s) (hrest : ∀ b, ¬s.Waits b)
    (hhoist : s.options.hoisting = true) :
    Hoisted names m s [] m.functions (s.enterUnit names m) := by
  have hdecls := s.decls_enterUnit names m
  rw [placeholders_eq hhoist] at hdecls
  refine ⟨.start hs hrest,
    ⟨⟨[], ?_, by simp⟩, by simp, fun d x hx hkind howner => ?_, .nil⟩, by simp⟩
  · rw [hdecls]
    simp [linkTable]
  · exfalso
    rcases decl?_append_cases hdecls hx with hold | hnew
    · have hlt := hs.owned d x hold
      rw [howner] at hlt
      exact Nat.lt_irrefl _ (Nat.lt_of_succ_lt hlt)
    · obtain ⟨f, _, rfl⟩ := List.mem_map.1 hnew
      cases hkind

/-- After the statements all functions are done. -/
theorem Reachable.exists_links (hs : Reachable names anyNode s) (hrest : ∀ b, ¬s.Waits b)
    (hhoist : s.options.hoisting = true) (m : Module) :
    ∃ links, links.map Prod.fst = m.functions ∧
      Hoisted names m s links [] (s.unitStatements names m) := by
  refine (Hoisted.start hs hrest hhoist).statementList m.statements ?_
  rw [placeholders_eq hhoist, List.length_map, List.length_nil, Nat.zero_add]
  rfl

/-! ## Every placeholder leads to its own function -/

/-- A list without repetition in its images is mapped one to one. -/
theorem bijOn_of_nodup_map {α β : Type} {l : List α} {g : α → β} (hnodup : (l.map g).Nodup) :
    Set.BijOn g {x | x ∈ l} {y | y ∈ l.map g} := by
  refine ⟨fun x hx => List.mem_map_of_mem hx, fun x hx y hy => ?_, fun y hy => List.mem_map.1 hy⟩
  exact List.inj_on_of_nodup_map hnodup hx hy

theorem map_decl?_range {a : Arena} {old new rest : List Decl} (h : a.decls = old ++ new ++ rest) :
    (DeclId.range old.length new.length).map a.decl? = new.map some := by
  apply List.ext_getElem
  · simp [DeclId.range]
  · intro i hi hi'
    have hlt : i < new.length := by simpa using hi'
    simp only [DeclId.range, List.getElem_map, List.getElem_range', Arena.decl?, h, Nat.one_mul,
      List.append_assoc]
    rw [List.getElem?_append_right (Nat.le_add_right _ _), Nat.add_sub_cancel_left,
      List.getElem?_append_left hlt, List.getElem?_eq_getElem hlt]

/-- The function that a linked placeholder leads to. -/
theorem resolveFunction?_of_placeholder {a : Arena} {unit : BlockId} {p d : DeclId} {id : Ident}
    (h : a.decl? p = some (placeholderFor names unit (some d) id)) :
    a.resolveFunction? p = some d := by
  unfold Arena.resolveFunction?
  rw [h]
  rfl

/-- Lists that correspond member by member under one pair of maps do so under another. -/
theorem map_eq_map_of_imp {α β γ δ : Type} {f : α → γ} {g : β → γ} {f' : α → δ} {g' : β → δ}
    {l : List α} {r : List β} (h : l.map f = r.map g) (himp : ∀ x y, f x = g y → f' x = g' y) :
    l.map f' = r.map g' := by
  induction l generalizing r with
  | nil =>
    cases r with
    | nil => rfl
    | cons y r => cases h
  | cons x l ih =>
    cases r with
    | nil => cases h
    | cons y r =>
      rw [List.map_cons, List.map_cons, List.cons.injEq] at h
      rw [List.map_cons, List.map_cons, himp x y h.1, ih h.2]

/-- After the next module of `s` led to `t`, with the blocks `unit` and `body`: the functions that the
module declares directly are declared in `body` as `links` say, and their placeholders in `unit` lead
there. -/
structure LinksFunctions (names : SymbolTable) (m : Module) (s t : Session) (unit body : IR.Block)
    (links : List (FunctionDecl × DeclId)) : Prop where
  atUnit : t.arena.block? s.nextUnit = some unit
  atBody : t.arena.block? s.nextBody = some body
  inside : unit.children = [s.nextBody] ∧ body.parent = some s.nextUnit
  functions : links.map Prod.fst = m.functions
  /-- One placeholder for each function, in order. -/
  placeholders : unit.decls.map t.arena.decl? =
    links.map fun l => some (placeholderFor names s.nextUnit (some l.2) l.1.name)
  targets : ∀ l ∈ links, t.arena.decl? l.2 = some (functionIn names s.nextBody l.1)
  assigned : ∀ l ∈ links,
    ∃ c, Stmt.assign ⟨l.2, l.1.name.span⟩ (.func c l.1.span) l.1.span ∈ body.stmts
  sorted : (links.map Prod.snd).Pairwise fun d e => d.index < e.index
  oneToOne : Set.BijOn t.arena.resolveFunction? {p | p ∈ unit.decls}
    {d | ∃ e x, d = some e ∧ t.arena.decl? e = some x ∧ x.kind = .function ∧ x.owner = s.nextBody}
  /-- No other new declaration is a placeholder. -/
  only : ∀ p x, s.arena.decls.length ≤ p.index → t.arena.decl? p = some x →
    (x.isPlaceholder = true ↔ p ∈ unit.decls)

namespace Linking

variable {links : List (FunctionDecl × DeclId)}

theorem length_placeholders (hlinks : links.map Prod.fst = m.functions)
    (hhoist : s.options.hoisting = true) :
    (m.placeholders names s.options s.nextUnit).length = links.length := by
  rw [placeholders_eq hhoist, List.length_map, ← hlinks, List.length_map]

/-- The unit lists the linked placeholders. -/
theorem map_decls (h : Linking names s links [] u) (hlinks : links.map Prod.fst = m.functions)
    (hhoist : s.options.hoisting = true) :
    (s.unitAtStart names m).decls.map u.arena.decl? =
      links.map fun l => some (placeholderFor names s.nextUnit (some l.2) l.1.name) := by
  obtain ⟨rest, hrest, _⟩ := h.table
  rw [linkTable, List.map_nil, List.append_nil] at hrest
  have hrange := map_decl?_range hrest
  rw [List.length_map, List.map_map] at hrange
  show (DeclId.range s.arena.decls.length
    (m.placeholders names s.options s.nextUnit).length).map _ = _
  rw [length_placeholders hlinks hhoist]
  exact hrange

/-- The placeholders of the unit and the functions of its body correspond. -/
theorem bijOn (h : Linking names s links [] u) (hlinks : links.map Prod.fst = m.functions)
    (hhoist : s.options.hoisting = true) :
    Set.BijOn u.arena.resolveFunction? {p | p ∈ (s.unitAtStart names m).decls}
      {d | ∃ e x, d = some e ∧ u.arena.decl? e = some x ∧ x.kind = .function ∧
        x.owner = s.nextBody} := by
  have htargets : (s.unitAtStart names m).decls.map u.arena.resolveFunction? =
      links.map fun l => some l.2 :=
    map_eq_map_of_imp (h.map_decls hlinks hhoist) fun _ _ => resolveFunction?_of_placeholder
  have hnodup : (links.map fun l => some l.2).Nodup := by
    have hids : (links.map Prod.snd).Nodup := h.sorted.imp fun hlt => by rintro rfl; omega
    have hsome := hids.map (Option.some_injective DeclId)
    rwa [List.map_map] at hsome
  have hbij := bijOn_of_nodup_map (htargets ▸ hnodup)
  rw [htargets] at hbij
  convert hbij using 1
  ext d
  constructor
  · rintro ⟨e, x, rfl, hx, hkind, howner⟩
    obtain ⟨l, hl, rfl⟩ := List.mem_map.1 (h.only e x hx hkind howner)
    exact List.mem_map.2 ⟨l, hl, rfl⟩
  · intro hd
    obtain ⟨l, hl, rfl⟩ := List.mem_map.1 hd
    exact ⟨l.2, _, rfl, h.made l hl, rfl, rfl⟩

/-- Of the new declarations exactly those of the unit are placeholders. -/
theorem isPlaceholder_iff (h : Linking names s links [] u)
    (hlinks : links.map Prod.fst = m.functions) (hhoist : s.options.hoisting = true) {p : DeclId}
    {x : Decl} (hp : s.arena.decls.length ≤ p.index) (hx : u.arena.decl? p = some x) :
    x.isPlaceholder = true ↔ p ∈ (s.unitAtStart names m).decls := by
  have hmap := h.map_decls hlinks hhoist
  constructor
  · intro hplaceholder
    obtain ⟨rest, hrest, hplain⟩ := h.table
    rw [linkTable, List.map_nil, List.append_nil] at hrest
    have hlt : p.index < s.arena.decls.length + links.length := by
      by_contra hge
      unfold Arena.decl? at hx
      rw [hrest, List.getElem?_append_right (by simp; omega)] at hx
      rw [hplain x (List.mem_of_getElem? hx)] at hplaceholder
      cases hplaceholder
    show p ∈ DeclId.range _ _
    rw [length_placeholders hlinks hhoist]
    exact List.mem_map.2 ⟨p.index, List.mem_range'_1.2 ⟨hp, hlt⟩, rfl⟩
  · intro hp
    have hmem : some x ∈ (s.unitAtStart names m).decls.map u.arena.decl? :=
      List.mem_map.2 ⟨p, hp, hx⟩
    rw [hmap] at hmem
    obtain ⟨l, _, hl⟩ := List.mem_map.1 hmem
    rw [← Option.some.inj hl]
    rfl

end Linking

/-- Lowering a module with hoisting, in any session. The unit block declares one placeholder for each
function that the module declares directly, in order; the `i`-th leads to the declaration of the
`i`-th function in the body of the unit; these are all placeholders and all functions there. -/
theorem module_links_functions (names : SymbolTable) (steps : List Step) (m : Module)
    (hhoist : (Session.run names steps {}).options.hoisting = true) :
    let s := Session.run names steps {}
    ((Lower.module names m).run s).1 = s.nextUnit ∧
      ∃ unit body links,
        LinksFunctions names m s ((Lower.module names m).run s).2 unit body links := by
  intro s
  have hs : Reachable names anyNode s := Reachable.start.run fun _ _ _ _ => covers_anyNode _
  obtain ⟨links, hlinks, hend⟩ := hs.exists_links (atRest_run names steps).waits hhoist m
  have hunit := block?_module_nextUnit hs m
  rw [run_module hs m] at hunit ⊢
  -- Closing the two blocks of the unit leaves the declarations as they are.
  have hdecl? : (s.leaveUnit (s.unitStatements names m)).arena.decl? =
      (s.unitStatements names m).arena.decl? := rfl
  obtain ⟨x, hx, _⟩ := hend.good.current hend.current
  have hbody : (s.leaveUnit (s.unitStatements names m)).arena.block? s.nextBody =
      some { x with isSealed := true } := by
    rw [Session.block?_leaveUnit, if_pos (.inr rfl)]
    exact congrArg (Option.map _) hx
  have hassigned : ∀ l ∈ links,
      ∃ c, Stmt.assign ⟨l.2, l.1.name.span⟩ (.func c l.1.span) l.1.span ∈ x.stmts := by
    intro l hl
    obtain ⟨c, y, hy, hmem⟩ := hend.assigned l hl
    rw [Option.some.inj (hx.symm.trans hy)]
    exact ⟨c, hmem⟩
  refine ⟨rfl, { s.unitAtStart names m with isSealed := true }, { x with isSealed := true },
    links, ?_⟩
  exact {
    atUnit := hunit
    atBody := hbody
    inside := ⟨rfl, (Arena.parent?_eq hx).symm.trans hend.parent⟩
    functions := hlinks
    placeholders := hend.toLinking.map_decls hlinks hhoist
    targets := hend.made
    assigned := hassigned
    sorted := hend.sorted
    oneToOne := hend.toLinking.bijOn hlinks hhoist
    only := fun p x hp hx => hend.toLinking.isPlaceholder_iff hlinks hhoist hp hx }

/-- Two functions of one name, after a variable that is declared outside of any module. -/
theorem repeated_function_linked_twice :
    let names : SymbolTable := ⟨["f", "x"]⟩
    let f (start : UInt64) : FunctionDecl :=
      ⟨⟨⟨0⟩, ⟨start, start + 1⟩⟩, [], [], none, ⟨[], .synthetic⟩, .synthetic⟩
    let m : Module := ⟨[.functionDecl (f 0), .functionDecl (f 10)], .synthetic⟩
    let x : Ident := ⟨⟨1⟩, .synthetic⟩
    let steps : List Step :=
      [.statement (.variableDecl ⟨.letBinding, .identifier x, none, none, .synthetic⟩)]
    let s := Session.run names steps {}
    s.options.hoisting = true ∧ ((Lower.module names m).run s).1 = ⟨1⟩ ∧
      ∃ unit body links, links.map Prod.fst = [f 0, f 10] ∧
        LinksFunctions names m s ((Lower.module names m).run s).2 unit body links := by
  intro names f m x steps s
  have hhoist : s.options.hoisting = true := by decide +kernel
  obtain ⟨hunit, unit, body, links, hlinks⟩ := module_links_functions names steps m hhoist
  have hnext : s.nextUnit = ⟨1⟩ := by decide +kernel
  exact ⟨hhoist, hunit.trans hnext, unit, body, links, hlinks.functions, hlinks⟩

end

end BlockLowering
