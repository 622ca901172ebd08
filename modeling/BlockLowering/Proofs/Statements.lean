import BlockLowering.Proofs.Desugaring
import BlockLowering.Proofs.Units
import BlockLowering.Proofs.Verdicts

/-!
# The statements of an arena

The statements of all blocks (`bodies`, `code`), and how often they assign a declaration (`writes`).
Only `addStmt` changes them: every other operation of lowering keeps the session `Still`, apart from
temporaries. In a block that is `DefinedBefore` a temporary is read only after a statement that
assigns it.
-/

namespace BlockLowering

open IR Diagnostic Source Session

/-! ## Statements and bodies -/

namespace IR

/-- The statement assigns the declaration. -/
def Stmt.assigns (d : DeclId) (st : Stmt) : Bool := st.target?.any fun r => r.decl == d

/-- The statement reads the declaration, anywhere in its expression. -/
def Stmt.reads (d : DeclId) (st : Stmt) : Bool := st.value.refs.any fun r => r.decl == d

@[simp] theorem Stmt.assigns_assign (d : DeclId) (target : DeclRef) (value : Expr) (span : Span) :
    (Stmt.assign target value span).assigns d = (target.decl == d) := rfl

theorem Stmt.exists_ref_of_assigns {d : DeclId} {st : Stmt} (h : st.assigns d = true) :
    ∃ r ∈ st.refs, r.decl = d := by
  obtain ⟨r, hr, hd⟩ := (Option.any_eq_true _ _).1 h
  refine ⟨r, ?_, eq_of_beq hd⟩
  unfold Stmt.refs
  rw [hr]
  exact List.mem_cons_self

theorem Stmt.exists_ref_of_reads {d : DeclId} {st : Stmt} (h : st.reads d = true) :
    ∃ r ∈ st.value.refs, r.decl = d := by
  obtain ⟨r, hr, hd⟩ := List.any_eq_true.1 h
  exact ⟨r, hr, eq_of_beq hd⟩

namespace Arena

variable {names : SymbolTable} {src : Node → Prop} {a a' : Arena} {b : BlockId} {d : DeclId}
  {st : Stmt} {x : IR.Block}

/-- The statements of each block. -/
def bodies (a : Arena) : List (List Stmt) := a.blocks.map Block.stmts

/-- All statements. -/
def code (a : Arena) : List Stmt := a.bodies.flatten

/-- How many statements assign the declaration. -/
def writes (a : Arena) (d : DeclId) : Nat := a.code.countP (Stmt.assigns d)

theorem stmts_mem_bodies (h : a.block? b = some x) : x.stmts ∈ a.bodies :=
  List.mem_map_of_mem (List.mem_of_getElem? h)

theorem exists_of_mem_bodies {body : List Stmt} (h : body ∈ a.bodies) :
    ∃ b x, a.block? b = some x ∧ x.stmts = body := by
  obtain ⟨x, hx, rfl⟩ := List.mem_map.1 h
  obtain ⟨i, hi⟩ := List.mem_iff_getElem?.1 hx
  exact ⟨⟨i⟩, x, hi, rfl⟩

theorem mem_code : st ∈ a.code ↔ ∃ b x, a.block? b = some x ∧ st ∈ x.stmts := by
  unfold code
  constructor
  · intro h
    obtain ⟨body, hbody, hst⟩ := List.mem_flatten.1 h
    obtain ⟨b, x, hx, rfl⟩ := exists_of_mem_bodies hbody
    exact ⟨b, x, hx, hst⟩
  · rintro ⟨b, x, hx, hst⟩
    exact List.mem_flatten.2 ⟨_, stmts_mem_bodies hx, hst⟩

theorem code_of_bodies {n : Nat} (h : a'.bodies = a.bodies ++ .replicate n []) :
    a'.code = a.code := by
  unfold code
  rw [h, List.flatten_append, List.flatten_replicate_nil, List.append_nil]

theorem writes_pos : 0 < a.writes d ↔ ∃ st ∈ a.code, st.assigns d = true := List.countP_pos_iff

/-! ## Bodies after an operation -/

theorem bodies_updateBlock {f : Block → Block} (hf : ∀ x, (f x).stmts = x.stmts) :
    (a.updateBlock b f).bodies = a.bodies := by
  apply List.ext_getElem?
  intro i
  unfold bodies updateBlock
  rw [List.getElem?_map, List.getElem?_map, List.getElem?_modify]
  cases a.blocks[i]? with
  | none => rfl
  | some x =>
    show some (if b.index = i then f x else x).stmts = some x.stmts
    split
    · rw [hf]
    · rfl

theorem bodies_allocBlock (a : Arena) (parent : Option BlockId) (span : Span) :
    (a.allocBlock parent span).1.bodies = a.bodies ++ [[]] := List.map_append

theorem bodies_withChild (a : Arena) (b : BlockId) (span : Span) :
    (a.withChild b span).bodies = a.bodies ++ [[]] := by
  unfold withChild
  rw [bodies_updateBlock, bodies_allocBlock]
  exact fun _ => rfl

theorem bodies_withDecls (a : Arena) (b : BlockId) (ds : List Decl) :
    (a.withDecls b ds).bodies = a.bodies :=
  bodies_updateBlock (a := { a with decls := a.decls ++ ds }) fun _ => rfl

theorem bodies_withDecl (a : Arena) (b : BlockId) (d : Decl) :
    (a.withDecl b d).bodies = a.bodies :=
  bodies_updateBlock (a := { a with decls := a.decls ++ [d] }) fun _ => rfl

theorem bodies_withSealed (a : Arena) (b : BlockId) : (a.withSealed b).bodies = a.bodies :=
  bodies_updateBlock fun _ => rfl

theorem code_withStmt (hb : b.index < a.blocks.length) (st : Stmt) :
    (a.withStmt b st).code.Perm (st :: a.code) := by
  have hlist : ∀ (blocks : List Block) (i : Nat), i < blocks.length →
      ((blocks.modify i fun x => { x with stmts := x.stmts ++ [st] }).map Block.stmts).flatten.Perm
        (st :: (blocks.map Block.stmts).flatten) := by
    intro blocks
    induction blocks with
    | nil => simp
    | cons x rest ih =>
      intro i hi
      cases i with
      | zero =>
        simp only [List.modify_zero_cons, List.map_cons, List.flatten_cons, List.append_assoc]
        exact List.perm_middle
      | succ i =>
        simp only [List.modify_succ_cons, List.map_cons, List.flatten_cons]
        exact ((ih i (Nat.lt_of_succ_lt_succ hi)).append_left x.stmts).trans List.perm_middle
  exact hlist a.blocks b.index hb

theorem writes_withStmt (hb : b.index < a.blocks.length) (st : Stmt) (d : DeclId) :
    (a.withStmt b st).writes d = a.writes d + if st.assigns d then 1 else 0 := by
  unfold writes
  rw [(code_withStmt hb st).countP_eq, List.countP_cons]

theorem mem_code_withStmt (hb : b.index < a.blocks.length) {st st' : Stmt} :
    st' ∈ (a.withStmt b st).code ↔ st' = st ∨ st' ∈ a.code := by
  rw [(code_withStmt hb st).mem_iff, List.mem_cons]

/-- The bodies with one more statement are the old ones, but for the one that got it. -/
theorem mem_bodies_withStmt (hx : a.block? b = some x) {body : List Stmt}
    (h : body ∈ (a.withStmt b st).bodies) : body ∈ a.bodies ∨ body = x.stmts ++ [st] := by
  obtain ⟨c, y, hy, rfl⟩ := exists_of_mem_bodies h
  rw [block?_withStmt] at hy
  by_cases hc : c = b
  · rw [if_pos hc, hc, hx] at hy
    rw [← Option.some.inj hy]
    exact .inr rfl
  · rw [if_neg hc] at hy
    exact .inl (stmts_mem_bodies hy)

/-! ## Statements in scope -/

theorem isTemporary_of_decl? {y : Decl} (h : a.decl? d = some y) :
    a.isTemporary d = y.isTemporary := by
  unfold isTemporary
  rw [h, Option.any_some]


/-- A temporary is used only in the block that owns it. -/
theorem owner_of_use (ha : a.WellScoped names src) (hx : a.block? b = some x) (hst : st ∈ x.stmts)
    {r : DeclRef} (hr : r ∈ st.refs) {y : Decl} (hy : a.decl? r.decl = some y)
    (htemp : y.isTemporary = true) : y.owner = b := by
  obtain ⟨_, hb, z, hz, _, howner⟩ := (ha.stmts b x hx st hst).refs r hr
  obtain rfl := Option.some.inj hb
  obtain rfl := Option.some.inj (hy.symm.trans hz)
  exact howner htemp

theorem exists_decl_of_use (ha : a.WellScoped names src) (hst : st ∈ a.code) {r : DeclRef}
    (hr : r ∈ st.refs) : ∃ y, a.decl? r.decl = some y := by
  obtain ⟨b, x, hx, hst⟩ := mem_code.1 hst
  obtain ⟨_, _, y, hy, _⟩ := (ha.stmts b x hx st hst).refs r hr
  exact ⟨y, hy⟩

/-- What is not declared is not assigned. -/
theorem writes_eq_zero (ha : a.WellScoped names src) (hd : a.decl? d = none) : a.writes d = 0 := by
  refine List.countP_eq_zero.2 fun st hst hassigns => ?_
  obtain ⟨r, hr, rfl⟩ := Stmt.exists_ref_of_assigns hassigns
  obtain ⟨y, hy⟩ := exists_decl_of_use ha hst hr
  rw [hd] at hy
  cases hy

/-! ## Temporaries in order -/

/-- A temporary is read only after a statement that assigns it. -/
def DefinedBefore (temporary : DeclId → Bool) (body : List Stmt) : Prop :=
  ∀ (i : Nat) (st : Stmt) (d : DeclId), body[i]? = some st → temporary d = true →
    st.reads d = true → ∃ (j : Nat) (st' : Stmt), j < i ∧ body[j]? = some st' ∧ st'.assigns d = true

theorem DefinedBefore.append {temporary : DeclId → Bool} {body : List Stmt}
    (h : DefinedBefore temporary body)
    (hst : ∀ d, temporary d = true → st.reads d = true → ∃ st' ∈ body, st'.assigns d = true) :
    DefinedBefore temporary (body ++ [st]) := by
  intro i st' d hi htemp hreads
  rw [getElem?_append_singleton] at hi
  by_cases hlast : i = body.length
  · rw [if_pos hlast] at hi
    obtain rfl := Option.some.inj hi
    obtain ⟨first, hmem, hassigns⟩ := hst d htemp hreads
    obtain ⟨j, hj⟩ := List.mem_iff_getElem?.1 hmem
    have hlt := (List.getElem?_eq_some_iff.1 hj).1
    exact ⟨j, first, hlast ▸ hlt, (List.getElem?_append_left hlt).trans hj, hassigns⟩
  · rw [if_neg hlast] at hi
    obtain ⟨j, first, hlt, hj, hassigns⟩ := h i st' d hi htemp hreads
    have hlen := (List.getElem?_eq_some_iff.1 hj).1
    exact ⟨j, first, hlt, (List.getElem?_append_left hlen).trans hj, hassigns⟩

/-- In every block temporaries are read only after they are assigned. -/
def Ordered (a : Arena) : Prop := ∀ body ∈ a.bodies, DefinedBefore a.isTemporary body

/-- In a larger arena the old bodies read the same temporaries. -/
theorem Ordered.definedBefore (h : a.Ordered) (ha : a.WellScoped names src) (g : Grows a a')
    {body : List Stmt} (hbody : body ∈ a.bodies) : DefinedBefore a'.isTemporary body := by
  intro i st d hi htemp hreads
  have hst : st ∈ a.code := List.mem_flatten.2 ⟨body, hbody, List.mem_of_getElem? hi⟩
  obtain ⟨r, hr, rfl⟩ := Stmt.exists_ref_of_reads hreads
  obtain ⟨y, hy⟩ := exists_decl_of_use ha hst (List.mem_append_right _ hr)
  rw [g.isTemporary_eq hy] at htemp
  exact h body hbody i st r.decl hi htemp hreads

/-- A temporary that is never assigned is never read. -/
theorem Ordered.reads_eq_false (h : a.Ordered) (htemp : a.isTemporary d = true)
    (hnever : a.writes d = 0) (hst : st ∈ a.code) : st.reads d = false := by
  cases hreads : st.reads d with
  | false => rfl
  | true =>
    obtain ⟨b, x, hx, hmem⟩ := mem_code.1 hst
    obtain ⟨i, hi⟩ := List.mem_iff_getElem?.1 hmem
    obtain ⟨j, first, _, hj, hassigns⟩ := h _ (stmts_mem_bodies hx) i st d hi htemp hreads
    have hfirst := mem_code.2 ⟨b, x, hx, List.mem_of_getElem? hj⟩
    have hpos := writes_pos.2 ⟨first, hfirst, hassigns⟩
    omega

/-- New blocks without statements change nothing. -/
theorem Ordered.of_bodies (h : a.Ordered) (ha : a.WellScoped names src) (g : Grows a a') {n : Nat}
    (hbodies : a'.bodies = a.bodies ++ .replicate n []) : a'.Ordered := by
  intro body hbody
  rw [hbodies] at hbody
  rcases List.mem_append.1 hbody with hold | hnew
  · exact h.definedBefore ha g hold
  · rw [(List.mem_replicate.1 hnew).2]
    intro i st d hi
    cases hi

/-- The temporaries among the uses are assigned somewhere. -/
def Written (a : Arena) (refs : List DeclRef) : Prop :=
  ∀ r ∈ refs, a.isTemporary r.decl = true → ∃ st ∈ a.code, st.assigns r.decl = true

theorem Written.append {l r : List DeclRef} (hl : a.Written l) (hr : a.Written r) :
    a.Written (l ++ r) := List.forall_mem_append.2 ⟨hl, hr⟩

theorem Written.nil : a.Written [] := by simp [Written]

/-- A statement may be appended if the temporaries that it reads are written: uses in scope at a
block are written in that block. -/
theorem Ordered.withStmt (h : a.Ordered) (ha : a.WellScoped names src) (hx : a.block? b = some x)
    (hscope : a.InScope (some b) st.refs st.blocks) (hwritten : a.Written st.value.refs) :
    (a.withStmt b st).Ordered := by
  have hgrows := Grows.withStmt a b st
  intro body hbody
  rcases mem_bodies_withStmt hx hbody with hold | rfl
  · exact h.definedBefore ha hgrows hold
  · refine (h.definedBefore ha hgrows (stmts_mem_bodies hx)).append fun d htemp hreads => ?_
    obtain ⟨r, hr, rfl⟩ := Stmt.exists_ref_of_reads hreads
    obtain ⟨_, hb, y, hy, _, howner⟩ := hscope.refs r (List.mem_append_right _ hr)
    obtain rfl := Option.some.inj hb
    rw [hgrows.isTemporary_eq hy] at htemp
    obtain ⟨first, hfirst, hassigns⟩ := hwritten r hr htemp
    obtain ⟨c, z, hz, hmem⟩ := mem_code.1 hfirst
    obtain ⟨target, htarget, hdecl⟩ := Stmt.exists_ref_of_assigns hassigns
    have hkind : y.isTemporary = true := (isTemporary_of_decl? hy).symm.trans htemp
    have hc := owner_of_use ha hz hmem htarget (hdecl ▸ hy) hkind
    rw [howner hkind] at hc
    subst hc
    obtain rfl := Option.some.inj (hx.symm.trans hz)
    exact ⟨first, hmem, hassigns⟩

end Arena

end IR

/-! ## Sessions that stand still -/

section

variable {names : SymbolTable} {src : Node → Prop} {s t u : Session} {b c : BlockId}

theorem IR.Arena.Grows.isTemporary_iff {a a' : Arena} (g : a.Grows a')
    (hnew : ∀ d x, a.decl? d = none → a'.decl? d = some x → x.isTemporary = false) (d : DeclId) :
    a'.isTemporary d = a.isTemporary d := by
  cases hx : a.decl? d with
  | some x => exact g.isTemporary_eq hx
  | none =>
    unfold Arena.isTemporary
    rw [hx]
    cases hy : a'.decl? d with
    | none => rfl
    | some y => exact hnew d y hx hy

/-- From `s` to `t` no statement is appended and no temporary is made. -/
structure Session.Still (s t : Session) : Prop where
  grows : s.arena.Grows t.arena
  bodies : ∃ n, t.arena.bodies = s.arena.bodies ++ .replicate n []
  temporary : ∀ d, t.arena.isTemporary d = s.arena.isTemporary d
  problems : s.problems ≤ t.problems

namespace Session.Still

theorem trans (h : s.Still t) (h' : t.Still u) : s.Still u where
  grows := h.grows.trans h'.grows
  bodies := by
    obtain ⟨n, hn⟩ := h.bodies
    obtain ⟨m, hm⟩ := h'.bodies
    exact ⟨n + m, by rw [hm, hn, List.append_assoc, List.replicate_append_replicate]⟩
  temporary d := (h'.temporary d).trans (h.temporary d)
  problems := Nat.le_trans h.problems h'.problems

theorem of_arena (harena : t.arena = s.arena) (hproblems : s.problems ≤ t.problems) :
    s.Still t where
  grows := harena ▸ .refl _
  bodies := ⟨0, by rw [harena]; exact (List.append_nil _).symm⟩
  temporary d := by rw [harena]
  problems := hproblems

theorem refl (s : Session) : s.Still s := .of_arena rfl (Nat.le_refl _)

/-- Declarations that are no temporaries are appended to the table. -/
theorem of_decls (grows : s.arena.Grows t.arena) {new : List Decl}
    (hdecls : t.arena.decls = s.arena.decls ++ new) (hnew : ∀ x ∈ new, x.isTemporary = false)
    (hbodies : ∃ n, t.arena.bodies = s.arena.bodies ++ .replicate n []) (hlog : t.log = s.log) :
    s.Still t where
  grows := grows
  bodies := hbodies
  temporary := by
    refine grows.isTemporary_iff fun d x hd hx => hnew x ?_
    unfold Arena.decl? at hd hx
    have hle := List.getElem?_eq_none_iff.1 hd
    rw [hdecls, List.getElem?_append_right hle] at hx
    exact List.mem_of_getElem? hx
  problems := Nat.le_of_eq (by unfold Session.problems; rw [hlog])

/-- The table of declarations stays. -/
theorem of_blocks (grows : s.arena.Grows t.arena) (hdecls : t.arena.decls = s.arena.decls)
    (hbodies : ∃ n, t.arena.bodies = s.arena.bodies ++ .replicate n []) (hlog : t.log = s.log) :
    s.Still t :=
  .of_decls grows (hdecls.trans (List.append_nil _).symm) (by simp) hbodies hlog

theorem code (h : s.Still t) : t.arena.code = s.arena.code := by
  obtain ⟨n, hn⟩ := h.bodies
  exact Arena.code_of_bodies hn

theorem writes (h : s.Still t) (d : DeclId) : t.arena.writes d = s.arena.writes d := by
  unfold Arena.writes
  rw [h.code]

end Session.Still

theorem still_report (s : Session) (p : Problem) :
    After s (Lower.report p) fun _ t => s.Still t :=
  .of_arena rfl (checked_report s p).le

theorem still_currentBlock (s : Session) : After s Lower.currentBlock fun _ t => s.Still t := by
  unfold After
  cases hb : s.current? with
  | some b =>
    rw [Lower.run_currentBlock_some hb]
    exact .refl s
  | none =>
    rw [Lower.run_currentBlock_none (List.head?_eq_none_iff.1 hb)]
    exact .of_blocks (.allocBlock s.arena none .synthetic) rfl ⟨1, Arena.bodies_allocBlock ..⟩ rfl

theorem still_addDecl (hs : s.Good names src) (hb : s.current? = some b) {name : String}
    {type : Option TypeRef} {kind : DeclKind} {span : Span} (hkind : kind ≠ .temporary) :
    After s (Lower.addDecl b name type kind span) fun d t =>
      s.Still t ∧ t.arena.isTemporary d = false := by
  obtain ⟨x, hx, ho⟩ := hs.current hb
  have hnone : s.arena.decl? ⟨s.arena.decls.length⟩ = none := List.getElem?_eq_none (Nat.le_refl _)
  unfold After
  rw [Lower.run_addDecl hx ho]
  have hstill : s.Still
      { s with arena := s.arena.withDecl b ⟨name, type, kind, b, span⟩ } := by
    refine .of_decls (.withDecl s.arena b _) (Arena.decls_withDecl ..) (fun y hy => ?_)
      ⟨0, (Arena.bodies_withDecl ..).trans (List.append_nil _).symm⟩ rfl
    rw [List.mem_singleton.1 hy]
    simpa [Decl.isTemporary] using hkind
  refine ⟨hstill, (hstill.temporary _).trans ?_⟩
  unfold Arena.isTemporary
  rw [hnone]
  rfl

theorem still_linkHoisted (hs : s.Good names src) (hb : s.current? = some b) (name : String)
    (d : DeclId) : After s (Lower.linkHoisted b name d) fun _ t => s.Still t := by
  unfold After
  rcases hs.run_linkHoisted hb name d with hrun | ⟨p, x, hx, hfree, hrun⟩
  · rw [hrun]
    exact .refl s
  · rw [hrun]
    have hgrows := Arena.Grows.withLink hx hfree d
    refine ⟨hgrows, ⟨0, (List.append_nil _).symm⟩, hgrows.isTemporary_iff ?_, Nat.le_refl _⟩
    intro e y he hy
    rw [Arena.decl?_withLink, he] at hy
    split at hy
    · cases hy
    · cases hy

theorem still_createChild (hs : s.Good names src) (hb : s.current? = some b) (span : Span) :
    After s (Lower.createChild b span) fun _ t => s.Still t := by
  obtain ⟨x, hx, _⟩ := hs.current hb
  unfold After
  rw [Lower.run_createChild hx]
  exact .of_blocks (Arena.ExtendsAt.withChild s.arena b span).grows rfl
    ⟨1, Arena.bodies_withChild ..⟩ rfl

theorem still_closeBlock (hs : s.Good names src) (hc : s.current? = some c) :
    After s (Lower.closeBlock c) fun _ t => s.Still t := by
  unfold After
  rw [hs.run_closeBlock hc]
  exact .of_blocks (.withSealed s.arena c) rfl
    ⟨0, (Arena.bodies_withSealed ..).trans (List.append_nil _).symm⟩ rfl

theorem still_elseBlock? (hs : s.Good names src) (hb : s.current? = some b)
    (branch : Option Statement) : After s (Lower.elseBlock? b branch) fun _ t => s.Still t := by
  cases branch with
  | none => exact .refl s
  | some st => exact still_createChild hs hb st.span

theorem still_ascription? (names : SymbolTable) (s : Session) (written : Option Ascription) :
    After s (Lower.ascription? names written) fun _ t => s.Still t := by
  cases written with
  | none => exact .refl s
  | some a =>
    unfold Lower.ascription?
    refine .get ?_
    cases s.resolveType names a with
    | ok type => exact .refl s
    | error problem => exact still_report s problem

theorem still_parameter (hs : s.Good names anyNode) (hb : s.current? = some b) (p : Parameter) :
    After s (Lower.parameter names b p) fun _ t => s.Still t := by
  obtain ⟨kind, pattern, type, initial, span⟩ := p
  unfold Lower.parameter
  cases kind with
  | optional => exact still_report s _
  | rest => exact still_report s _
  | positional =>
    cases initial with
    | some e => exact still_report s _
    | none =>
      cases pattern with
      | array => exact still_report s _
      | object => exact still_report s _
      | identifier id =>
        refine .bind hs (does_ascription? hs type) (still_ascription? names s type)
          fun r t ht hst _ htype => ?_
        exact htype.trans (still_addDecl ht (hst.current hb) (by simp)).1

theorem still_parameters (hs : s.Good names anyNode) (hb : s.current? = some b)
    (params : List Parameter) :
    After s (Lower.parameters names b params) fun _ t => s.Still t := by
  induction params generalizing s with
  | nil => exact .refl s
  | cons p rest ih =>
    unfold Lower.parameters
    refine .bind hs (does_parameter hs hb trivial) (still_parameter hs hb p)
      fun _ t ht hst _ hp => ?_
    exact hp.trans (ih ht (hst.current hb))

theorem still_typeParameters (s : Session) (params : List TypeParameter) :
    After s (Lower.typeParameters params) fun _ t => s.Still t := by
  cases params with
  | nil => exact .refl s
  | cons p rest => exact still_report s _

/-- A name that is found is no temporary. -/
theorem still_resolveName (hs : s.Good names anyNode) (id : Ident) :
    After s (Lower.resolveName names id) fun r t =>
      s.Still t ∧ ∀ x, r = some x → t.arena.isTemporary x.decl = false := by
  unfold Lower.resolveName
  refine .bind hs does_currentBlock (still_currentBlock s) fun b t ht _ hb hstill => ?_
  refine .lookup ht ?_
  cases hl : t.arena.lookup? b (names.resolve id.name) with
  | some d =>
    refine ⟨hstill, fun x hx => ?_⟩
    obtain rfl := Option.some.inj hx
    have hmeans : t.means names id = some d := by
      unfold means
      rw [hb]
      exact hl
    obtain ⟨_, _, htemp⟩ := means_isTemporary hmeans
    exact htemp
  | none => exact ⟨hstill.trans (still_report t _), fun _ hx => by cases hx⟩

/-! ## Appending a statement -/

/-- From `s` to `t` the statement is appended, and nothing else happens. -/
structure Session.Gets (st : Stmt) (s t : Session) : Prop where
  grows : s.arena.Grows t.arena
  code : ∀ st', st' ∈ t.arena.code ↔ st' = st ∨ st' ∈ s.arena.code
  writes : ∀ d, t.arena.writes d = s.arena.writes d + if st.assigns d then 1 else 0
  temporary : ∀ d, t.arena.isTemporary d = s.arena.isTemporary d
  problems : t.problems = s.problems

theorem gets_addStmt (hs : s.Good names src) (hb : s.current? = some b) (st : Stmt) :
    After s (Lower.addStmt b st) fun _ t => s.Gets st t := by
  obtain ⟨x, hx, ho⟩ := hs.current hb
  have hlt := Arena.index_lt_of_block? hx
  unfold After
  rw [Lower.run_addStmt hx ho]
  exact ⟨.withStmt s.arena b st, fun _ => Arena.mem_code_withStmt hlt,
    Arena.writes_withStmt hlt st, fun _ => rfl, rfl⟩

theorem ordered_addStmt (hs : s.Good names src) (hb : s.current? = some b) {st : Stmt}
    (hscope : s.arena.InScope (some b) st.refs st.blocks)
    (hwritten : s.arena.Written st.value.refs) (h : s.arena.Ordered) :
    After s (Lower.addStmt b st) fun _ t => t.arena.Ordered := by
  obtain ⟨x, hx, ho⟩ := hs.current hb
  unfold After
  rw [Lower.run_addStmt hx ho]
  exact h.withStmt hs.arena hx hscope hwritten

/-! ## Units -/

theorem IR.Arena.Grows.withDecls (a : Arena) (b : BlockId) (ds : List Decl) :
    a.Grows (a.withDecls b ds) where
  size := Nat.le_of_eq (Arena.length_withDecls a b ds).symm
  parent _ _ := Arena.parent?_updateBlock (a := { a with decls := a.decls ++ ds }) fun _ => rfl
  decl _ x hx := ⟨x, (List.getElem?_append_left (Arena.index_lt_of_decl? hx)).trans hx, .same x⟩
  typeScope _ _ h := h

theorem grows_enterUnit (names : SymbolTable) (m : Module) (s : Session) :
    s.arena.Grows (s.enterUnit names m).arena := by
  have htypes : s.arena.Grows (Lower.ensureTypeScope.run s).2.arena := by
    rw [run_ensureTypeScope_eq]
    split
    · exact .createTypeScope s.arena _
    · exact .refl _
  have hunit := (htypes.trans (.allocBlock _ none m.span)).trans
    (.withDecls _ s.nextUnit (m.placeholders names s.options s.nextUnit))
  exact hunit.trans (Arena.ExtendsAt.withChild _ s.nextUnit m.span).grows

theorem bodies_enterUnit (names : SymbolTable) (m : Module) (s : Session) :
    (s.enterUnit names m).arena.bodies = s.arena.bodies ++ [[], []] := by
  obtain ⟨scopes, ids, htypes⟩ := run_ensureTypeScope_fields s
  have hroot : (({ s.arena with typeScopes := scopes } : Arena).createRoot m.span).1.bodies =
      s.arena.bodies ++ [[]] := Arena.bodies_allocBlock _ none m.span
  unfold Session.enterUnit Session.unitArena
  rw [htypes]
  show (Arena.withChild _ _ _).bodies = _
  rw [Arena.bodies_withChild, Arena.bodies_withDecls, hroot, List.append_assoc]
  rfl

theorem still_enterUnit (names : SymbolTable) (m : Module) (s : Session) :
    s.Still (s.enterUnit names m) := by
  refine .of_decls (grows_enterUnit names m s) (s.decls_enterUnit names m)
    (fun _ => isTemporary_placeholders) ⟨2, bodies_enterUnit names m s⟩ ?_
  obtain ⟨scopes, ids, htypes⟩ := run_ensureTypeScope_fields s
  unfold Session.enterUnit
  rw [htypes]

theorem still_leaveUnit (s t : Session) : t.Still (s.leaveUnit t) := by
  refine .of_blocks ?_ rfl ⟨0, ?_⟩ rfl
  · exact (Arena.Grows.withSealed t.arena _).trans (.withSealed _ _)
  · show ((t.arena.withSealed s.nextBody).withSealed s.nextUnit).bodies = _
    rw [Arena.bodies_withSealed, Arena.bodies_withSealed]
    exact (List.append_nil _).symm

end

end BlockLowering
