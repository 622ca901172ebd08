import BlockLowering.Proofs.Lockstep

/-!
# What lowering leaves behind

A new block waits until it is opened, and it is sealed when it is closed. Statements and expressions
open and close all blocks that they make, so they leave none waiting. Apart from the functions that a
module declares directly, they only append declarations to the table: they make no placeholders and
link none.

Both are proved by running a session in step with itself (`footprint_lockstep`).
-/

namespace BlockLowering

open IR Diagnostic Source Session

/-- A declaration as statements make it: no placeholder, and no function of a unit with this body. -/
structure IR.Decl.Ordinary (body : Option BlockId) (x : Decl) : Prop where
  placeholder : x.isPlaceholder = false
  function : x.kind = .function → body ≠ some x.owner

namespace Session

/-- The block was made to be opened, and is not open yet: it is not sealed either. -/
def Waits (s : Session) (b : BlockId) : Prop :=
  b ∉ s.openBlocks ∧ ∃ x, s.arena.block? b = some x ∧ x.isSealed = false

/-- The body of the unit that is being lowered is open. -/
def BodyOpen (s : Session) : Prop := ∀ b, s.unitBody = some b → b ∈ s.openBlocks

/-- Lowering stands deeper than the body of the unit, or outside every unit. -/
def Inner (s : Session) : Prop := ∀ b, s.unitBody = some b → s.current? ≠ some b

/-- From `s` to `t` ordinary declarations are appended to the table. -/
structure Adds (s t : Session) : Prop where
  unitBody : t.unitBody = s.unitBody
  decls : ∃ new, t.arena.decls = s.arena.decls ++ new ∧ ∀ x ∈ new, x.Ordinary s.unitBody

variable {names : SymbolTable} {src : Node → Prop} {s t u : Session} {b c : BlockId} {n : Nat}

theorem Adds.refl (s : Session) : Adds s s := ⟨rfl, [], by simp, by simp⟩

theorem Adds.trans (h : Adds s t) (h' : Adds t u) : Adds s u where
  unitBody := h'.unitBody.trans h.unitBody
  decls := by
    obtain ⟨new, hnew, hordinary⟩ := h.decls
    obtain ⟨new', hnew', hordinary'⟩ := h'.decls
    refine ⟨new ++ new', by rw [hnew', hnew, List.append_assoc], fun x hx => ?_⟩
    rcases List.mem_append.1 hx with hx | hx
    · exact hordinary x hx
    · rw [← h.unitBody]
      exact hordinary' x hx

/-- Where the table of declarations stays, nothing is added. -/
theorem Adds.of_eq (hunit : t.unitBody = s.unitBody) (hdecls : t.arena.decls = s.arena.decls) :
    Adds s t := ⟨hunit, [], by rw [hdecls, List.append_nil], by simp⟩

theorem Adds.withDecl {d : Decl} (k : Nat) (hd : d.Ordinary s.unitBody) :
    Adds s { s with arena := s.arena.withDecl b d, nextTemp := k } :=
  ⟨rfl, [d], rfl, by simpa using hd⟩

theorem Inner.frame (h : s.Inner) (hbody : s.BodyOpen) (hst : s.Frame n t) : t.Inner := by
  intro b hb
  rw [hst.unitBody] at hb
  rcases hst.stack with hsame | ⟨hnil, _⟩
  · unfold current?
    rw [hsame]
    exact h b hb
  · have hmem := hbody b hb
    rw [hnil] at hmem
    cases hmem

/-- Inside a block that is opened only now, lowering stands deeper than the body of the unit. -/
theorem MayOpen.inner (hc : s.MayOpen c) (hbody : s.BodyOpen) :
    ((Lower.openBlock c).run s).2.Inner := by
  intro b hb hcur
  obtain rfl := Option.some.inj hcur
  exact hc.closed (hbody c hb)

/-- Away from the body of the unit nothing is linked. -/
theorem run_linkHoisted_of_ne (h : s.unitBody ≠ some b) (name : String) (d : DeclId) :
    (Lower.linkHoisted b name d).run s = ((), s) := by
  have hnone : s.freePlaceholder? b name = none := if_neg h
  have hnil : Lower.refusedToLink s b name = [] := if_neg h
  rw [Lower.run_linkHoisted_eq, hnone, hnil, Session.withRefused_nil]

/-- A change at one block that makes no block lets no block wait. -/
theorem Waits.of_extendsAt (e : s.arena.ExtendsAt b t.arena) (hstack : t.openBlocks = s.openBlocks)
    (hsize : t.arena.blocks.length = s.arena.blocks.length) (h : t.Waits c) : s.Waits c := by
  obtain ⟨hclosed, y, hy, ho⟩ := h
  rw [hstack] at hclosed
  have hlt : c.index < s.arena.blocks.length := hsize ▸ Arena.index_lt_of_block? hy
  refine ⟨hclosed, ?_⟩
  by_cases hcb : c = b
  · subst hcb
    obtain ⟨x, hx⟩ : ∃ x, s.arena.block? c = some x := ⟨_, List.getElem?_eq_getElem hlt⟩
    obtain ⟨z, hz, hxz⟩ := e.own x hx
    obtain rfl := Option.some.inj (hz.symm.trans hy)
    exact ⟨x, hx, hxz.isSealed ▸ ho⟩
  · exact ⟨y, e.others c hlt hcb ▸ hy, ho⟩

/-- Only a new child waits that did not wait before. -/
theorem Waits.of_createChild {x : IR.Block} (hx : s.arena.block? b = some x) {span : Span}
    (h : ({ s with arena := s.arena.withChild b span } : Session).Waits c) :
    s.Waits c ∨ c = ⟨s.arena.blocks.length⟩ := by
  obtain ⟨hclosed, y, hy, ho⟩ := h
  have hy' := (Arena.block?_withChild (Arena.index_lt_of_block? hx) span c).symm.trans hy
  by_cases hcb : c = b
  · rw [if_pos hcb, hcb, hx] at hy'
    refine .inl ⟨hclosed, x, by rw [hcb, hx], ?_⟩
    rw [← Option.some.inj hy'] at ho
    exact ho
  · by_cases hnew : c.index = s.arena.blocks.length
    · exact .inr (by rw [← hnew])
    · rw [if_neg hcb, if_neg hnew] at hy'
      exact .inl ⟨hclosed, y, hy', ho⟩

/-- A root that is opened at once does not wait. -/
theorem Waits.of_openRoot {span : Span}
    (h : ({ s with
      arena := (s.arena.createRoot span).1
      openBlocks := ⟨s.arena.blocks.length⟩ :: s.openBlocks } : Session).Waits c) : s.Waits c := by
  obtain ⟨hclosed, y, hy, ho⟩ := h
  have hy' := (Arena.block?_allocBlock s.arena none span c).symm.trans hy
  have hnew : c.index ≠ s.arena.blocks.length := fun h =>
    hclosed (by rw [← h]; exact List.mem_cons_self)
  rw [if_neg hnew] at hy'
  exact ⟨fun hc => hclosed (List.mem_cons_of_mem _ hc), y, hy', ho⟩

/-- A block that is closed does not wait. -/
theorem Waits.of_closeBlock (hstack : s.openBlocks = c :: u.openBlocks)
    (h : ({ s with openBlocks := u.openBlocks, arena := s.arena.withSealed c } : Session).Waits b) :
    s.Waits b ∧ b ≠ c := by
  obtain ⟨hclosed, y, hy, ho⟩ := h
  have hy' := (Arena.block?_withSealed s.arena c b).symm.trans hy
  have hbc : b ≠ c := by
    rintro rfl
    rw [if_pos rfl, Option.map_eq_some_iff] at hy'
    obtain ⟨x, _, rfl⟩ := hy'
    cases ho
  rw [if_neg hbc] at hy'
  refine ⟨⟨?_, y, hy', ho⟩, hbc⟩
  rw [hstack, List.mem_cons]
  exact fun hmem => hmem.elim hbc hclosed

/-! ## A session in step with itself -/

/-- Only the blocks of `p` wait. If `ordinary` declarations are asked for, all declarations since
`start` are. -/
structure Footprint (start : Session) (ordinary : Prop) (p : List BlockId) (s t : Session) :
    Prop where
  same : t = s
  waits : ∀ b, s.Waits b → b ∈ p
  body : ordinary → s.BodyOpen
  adds : ordinary → Adds start s

variable {start : Session} {ordinary : Prop} {p : List BlockId}

theorem Footprint.of_waits (h : ∀ b, s.Waits b → b ∈ p) (hbody : ordinary → s.BodyOpen) :
    Footprint s ordinary p s s := ⟨rfl, h, hbody, fun _ => .refl s⟩

theorem Footprint.extend (h : Footprint start ordinary p s t)
    (e : s.arena.ExtendsAt b u.arena) (hstack : u.openBlocks = s.openBlocks)
    (hsize : u.arena.blocks.length = s.arena.blocks.length) (hunit : u.unitBody = s.unitBody)
    (hadds : ordinary → Adds s u) : Footprint start ordinary p u u where
  same := rfl
  waits b hb := h.waits b (hb.of_extendsAt e hstack hsize)
  body ho b hb := by
    rw [hstack]
    exact h.body ho b (hunit ▸ hb)
  adds ho := (h.adds ho).trans (hadds ho)

theorem Footprint.report (h : Footprint start ordinary p s t) (problem : Problem) :
    After s (Lower.report problem) fun _ u => Footprint start ordinary p u u :=
  ⟨rfl, h.waits, h.body, fun ho => (h.adds ho).trans (.of_eq rfl rfl)⟩

theorem Footprint.currentBlock (h : Footprint start ordinary p s t) :
    After s Lower.currentBlock fun _ u => Footprint start ordinary p u u := by
  unfold After
  cases hb : s.current? with
  | some b =>
    rw [Lower.run_currentBlock_some hb]
    exact ⟨rfl, h.waits, h.body, h.adds⟩
  | none =>
    have hnil : s.openBlocks = [] := List.head?_eq_none_iff.1 hb
    rw [Lower.run_currentBlock_none hnil]
    refine ⟨rfl, fun c hc => h.waits c ?_, fun ho b hb => ?_, fun ho => ?_⟩
    · rw [← hnil] at hc
      exact hc.of_openRoot
    · have hmem := h.body ho b hb
      rw [hnil] at hmem
      cases hmem
    · exact (h.adds ho).trans (.of_eq rfl rfl)

theorem Footprint.addDecl (h : Footprint start ordinary p s t) (hs : s.Good names src)
    (hb : s.current? = some b) {name : String} {type : Option TypeRef} {kind : DeclKind}
    {span : Span} (hd : ordinary → (Decl.mk name type kind b span).Ordinary s.unitBody) :
    After s (Lower.addDecl b name type kind span) fun _ u => Footprint start ordinary p u u := by
  obtain ⟨x, hx, ho⟩ := hs.current hb
  unfold After
  rw [Lower.run_addDecl hx ho]
  exact h.extend (.withDecl s.arena b _) rfl (Arena.length_withDecl ..) rfl fun ho =>
    .withDecl s.nextTemp (hd ho)

theorem Footprint.freshTemp (h : Footprint start ordinary p s t) (hs : s.Good names src)
    (hb : s.current? = some b) (span : Span) :
    After s (Lower.freshTemp b span) fun _ u => Footprint start ordinary p u u := by
  obtain ⟨x, hx, ho⟩ := hs.current hb
  unfold After
  rw [Lower.run_freshTemp hx ho]
  refine h.extend (.withDecl s.arena b _) rfl (Arena.length_withDecl ..) rfl fun _ => ?_
  exact .withDecl (s.nextTemp + 1) ⟨rfl, fun h => by cases h⟩

theorem Footprint.addStmt (h : Footprint start ordinary p s t) (hs : s.Good names src)
    (hb : s.current? = some b) (stmt : Stmt) :
    After s (Lower.addStmt b stmt) fun _ u => Footprint start ordinary p u u := by
  obtain ⟨x, hx, ho⟩ := hs.current hb
  unfold After
  rw [Lower.run_addStmt hx ho]
  refine h.extend (.withStmt s.arena b stmt) rfl (Arena.length_withStmt ..) rfl fun _ => ?_
  exact .of_eq rfl rfl

/-- A placeholder is linked only at the body of a unit. -/
theorem Footprint.linkHoisted (h : Footprint start ordinary p s t) (hs : s.Good names src)
    (hb : s.current? = some b) (hinner : ordinary → s.Inner) (name : String) (d : DeclId) :
    After s (Lower.linkHoisted b name d) fun _ u => Footprint start ordinary p u u := by
  unfold After
  rcases hs.run_linkHoisted hb name d with hrun | ⟨q, x, hx, hfree, hrun⟩
  · rw [hrun]
    exact ⟨rfl, h.waits, h.body, h.adds⟩
  · have hrun' := hrun
    rw [hrun]
    refine h.extend (.withLink hx hfree d b) rfl rfl rfl fun ho => ?_
    have hne : s.unitBody ≠ some b := fun hunit => hinner ho b hunit hb
    rw [run_linkHoisted_of_ne hne] at hrun'
    have hsame := congrArg Prod.snd hrun'
    exact hsame ▸ .refl s

theorem Footprint.createChild (h : Footprint start ordinary p s t) (hs : s.Good names src)
    (hb : s.current? = some b) (span : Span) :
    After s (Lower.createChild b span) fun c u => Footprint start ordinary (c :: p) u u := by
  obtain ⟨x, hx, _⟩ := hs.current hb
  unfold After
  rw [Lower.run_createChild hx]
  refine ⟨rfl, fun c hc => ?_, h.body, fun ho => (h.adds ho).trans (.of_eq rfl rfl)⟩
  rcases hc.of_createChild hx with hold | rfl
  · exact List.mem_cons_of_mem _ (h.waits c hold)
  · exact List.mem_cons_self

theorem Footprint.openBlock (h : Footprint start ordinary p s t) (c : BlockId) :
    After s (Lower.openBlock c) fun _ u => Footprint start ordinary p u u where
  same := rfl
  waits b hb := h.waits b ⟨fun hmem => hb.1 (List.mem_cons_of_mem c hmem), hb.2⟩
  body ho b hb := List.mem_cons_of_mem c (h.body ho b hb)
  adds ho := (h.adds ho).trans (.of_eq rfl rfl)

theorem Footprint.closeBlock {q : List BlockId} (h : Footprint start ordinary p s t)
    (hu : u.Good names src) (frame : Frame n ((Lower.openBlock c).run s).2 u)
    (h' : Footprint start ordinary p u u) (hq : p ⊆ c :: q) :
    After u (Lower.closeBlock c) fun _ v => Footprint start ordinary q v v := by
  have hstack := frame.stack_openBlock
  unfold After
  rw [hu.run_closeBlock (frame.current rfl), hstack]
  refine ⟨rfl, fun b hb => ?_, fun ho b hb => h.body ho b (frame.unitBody ▸ hb), fun ho => ?_⟩
  · obtain ⟨hwaits, hne⟩ := hb.of_closeBlock hstack
    exact (List.mem_cons.1 (hq (h'.waits b hwaits))).resolve_left hne
  · exact (h'.adds ho).trans (.of_eq rfl rfl)

theorem Footprint.resolveName (h : Footprint start ordinary p s t) (hs : s.Good names src)
    (name : Ident) :
    After s (Lower.resolveName names name) fun _ u => Footprint start ordinary p u u := by
  have hcur := h.currentBlock
  have hdoes : Does names src 0 s Lower.currentBlock fun b t => t.current? = some b :=
    does_currentBlock
  have hgood := (hdoes.1.good_frame hs).1
  unfold After at hcur
  unfold Lower.resolveName After
  rw [Lower.run_bind, Lower.run_bind, hgood.run_lookup]
  dsimp only
  cases (Lower.currentBlock.run s).2.arena.lookup? (Lower.currentBlock.run s).1
      (names.resolve name.name) with
  | some d => exact hcur
  | none => exact hcur.report _

theorem Footprint.ascription? (h : Footprint start ordinary p s t) (written : Option Ascription) :
    After s (Lower.ascription? names written) fun _ u => Footprint start ordinary p u u := by
  have hsame : Footprint start ordinary p s s := ⟨rfl, h.waits, h.body, h.adds⟩
  cases written with
  | none => exact hsame
  | some a =>
    unfold Lower.ascription? After
    rw [Lower.run_bind, Lower.run_get]
    cases s.resolveType names a with
    | ok type => exact hsame
    | error problem => exact hsame.report _

theorem Footprint.twin {α : Type} {x : Lower α} {g : α → α} {R : Session → Session → Prop}
    (h : Footprint start ordinary p s t) (hx : After s x fun _ u => R u u) (hg : ∀ a, g a = a) :
    Twin R s t x x g := by
  obtain rfl := h.same
  exact ⟨(hg _).symm, hx⟩

/-- Every operation of lowering keeps the footprint. -/
theorem footprint_lockstep (names : SymbolTable) (start : Session) (ordinary : Prop) :
    Lockstep names names .zero False (fun s => ordinary → s.Inner) (Footprint start ordinary) where
  currentBlock _ h := h.twin h.currentBlock fun _ => rfl
  reject h _ _ := h.twin (h.report _) fun _ => rfl
  resolveName hs h name _ := h.twin (h.resolveName hs name) fun x => by cases x <;> rfl
  ascription h written _ := h.twin (h.ascription? written) fun _ => rfl
  freshTemp hs h hb span := h.twin (h.freshTemp hs hb span) fun _ => rfl
  addDecl {p s t b kind} hs h hb hkind name type span := by
    refine h.twin (h.addDecl hs hb fun ho => ?_) fun _ => rfl
    rcases hkind with rfl | rfl | ⟨rfl, hinner⟩
    · exact ⟨rfl, fun h => by cases h⟩
    · exact ⟨rfl, fun h => by cases h⟩
    · exact ⟨rfl, fun _ hunit => hinner ho b hunit hb⟩
  linkHoisted hs h hb hinner name d := h.twin (h.linkHoisted hs hb hinner _ d) fun _ => rfl
  createChild hs h hb span := h.twin (h.createChild hs hb span) fun _ => rfl
  addStmt hs h hb stmt := by
    rw [Stmt.shift_zero]
    exact h.twin (h.addStmt hs hb stmt) fun _ => rfl
  openBlock _ h _ _ _ := h.twin (h.openBlock _) fun _ => rfl
  closeBlock hu h _ _ frame h' hq := by
    obtain rfl := h'.same
    exact h'.twin (h.closeBlock hu frame h' hq) fun _ => rfl
  deep_frame h hinner frame ho := (hinner ho).frame (h.body ho) frame
  deep_openBlock h hc ho := hc.inner (h.body ho)

end Session

end BlockLowering
