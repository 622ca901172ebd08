import BlockLowering.Proofs.Moves

/-!
# Rules for lowering

`Does` says that a piece of lowering, started in some state, only `Runs` and ends with a given
condition. `Does.bind` takes a sequence apart, and each operation has one rule: what it returns and
which blocks may be opened after it. Names and annotations come last: a name that is found is seen
where it stands, and a type that is found is the one that its annotation names.
-/

namespace BlockLowering

open IR Diagnostic Source Session

/-! ## Rules -/

section

variable {names : SymbolTable} {src : Node → Prop} {n : Nat} {s : Session} {b c : BlockId}
  {α β : Type}

/-- `x`, started in `s`, runs and ends with `post`. -/
def Does (names : SymbolTable) (src : Node → Prop) (n : Nat) (s : Session) (x : Lower α)
    (post : α → Session → Prop) : Prop :=
  Runs names src n s (x.run s).2 ∧ post (x.run s).1 (x.run s).2

namespace Does

variable {x : Lower α} {f : α → Lower β} {mid mid' : α → Session → Prop}
  {post : β → Session → Prop}

theorem pure {a : α} (h : mid a s) : Does names src n s (pure a : Lower α) mid := ⟨.done s, h⟩

theorem act (h : Act names src s (x.run s).2) (hpost : mid (x.run s).1 (x.run s).2) :
    Does names src n s x mid := ⟨.act h, hpost⟩

/-- In a sequence the second part starts in a good state that the first part framed. -/
theorem bind (hs : s.Good names src) (hx : Does names src n s x mid)
    (hf : ∀ a t, t.Good names src → s.Frame n t → mid a t → Does names src n t (f a) post) :
    Does names src n s (x >>= f) post := by
  obtain ⟨hrun, hmid⟩ := hx
  obtain ⟨ht, hst⟩ := hrun.good_frame hs
  obtain ⟨hrun', hpost⟩ := hf _ _ ht hst hmid
  exact ⟨hrun.trans hrun', hpost⟩

/-- Reading the state changes nothing. -/
theorem get {f : Session → Lower β} (h : Does names src n s (f s) post) :
    Does names src n s (MonadState.get >>= f) post := h

/-- Looking up a name in a good state changes nothing. -/
theorem lookup {name : String} {f : Option DeclId → Lower β} (hs : s.Good names src)
    (h : Does names src n s (f (s.arena.lookup? b name)) post) :
    Does names src n s (Lower.lookup b name >>= f) post := by
  unfold Does
  rw [Lower.run_bind, hs.run_lookup]
  exact h

theorem imp (hx : Does names src n s x mid) (h : ∀ a t, mid a t → mid' a t) :
    Does names src n s x mid' := ⟨hx.1, h _ _ hx.2⟩

end Does

/-- `x`, started in `s`, ends with `post`. -/
def After (s : Session) (x : Lower α) (post : α → Session → Prop) : Prop :=
  post (x.run s).1 (x.run s).2

/-- In a sequence, the second part starts where the first part ends, in a good state. -/
theorem After.bind {x : Lower α} {f : α → Lower β} {mid mid' : α → Session → Prop}
    {post : β → Session → Prop} (hs : s.Good names src) (hx : Does names src 0 s x mid)
    (hx' : After s x mid')
    (hf : ∀ a t, t.Good names src → s.Frame 0 t → mid a t → mid' a t → After t (f a) post) :
    After s (x >>= f) post := by
  obtain ⟨ht, hst⟩ := hx.1.good_frame hs
  exact hf _ _ ht hst hx.2 hx'

theorem After.and {x : Lower α} {post post' : α → Session → Prop} (h : After s x post)
    (h' : After s x post') : After s x fun a t => post a t ∧ post' a t := ⟨h, h'⟩

theorem After.get {f : Session → Lower β} {post : β → Session → Prop} (h : After s (f s) post) :
    After s (MonadState.get >>= f) post := h

theorem After.lookup {name : String} {f : Option DeclId → Lower β} {post : β → Session → Prop}
    (hs : s.Good names src) (h : After s (f (s.arena.lookup? b name)) post) :
    After s (Lower.lookup b name >>= f) post := by
  unfold After
  rw [Lower.run_bind, hs.run_lookup]
  exact h

/-- Any state will do. -/
def anything {α : Type} (_ : α) (_ : Session) : Prop := True

/-- Blocks that may be opened in `s` may be opened in `t`. -/
def opensAs {α : Type} (s : Session) (_ : α) (t : Session) : Prop := ∀ c, s.MayOpen c → t.MayOpen c

theorem does_report (p : Problem) : Does names src n s (Lower.report p) (opensAs s) :=
  .act (.report s p) fun _ hc => ⟨hc.closed, hc.fresh⟩

theorem does_reject (construct : String) (span : Span) :
    Does names src n s (Lower.reject construct span) (opensAs s) :=
  does_report _

/-- A problem is reported and there is no value. -/
theorem does_reject_none (hs : s.Good names src) (construct : String) (span : Span)
    {post : Option α → Session → Prop} (hpost : ∀ t, post none t) :
    Does names src n s (do Lower.reject construct span; return none) post :=
  .bind hs (does_reject construct span) fun _ t _ _ _ => .pure (hpost t)

theorem does_currentBlock :
    Does names src n s Lower.currentBlock fun b t => t.current? = some b := by
  cases h : s.openBlocks with
  | nil =>
    refine .act (.openRoot h) ?_
    rw [Lower.run_currentBlock_none h]
    rfl
  | cons b rest =>
    have hcur : s.current? = some b := by
      unfold current?
      rw [h]
      rfl
    unfold Does
    rw [Lower.run_currentBlock_some hcur]
    exact ⟨.done s, hcur⟩

/-- A new declaration is seen in its block. -/
theorem sees_withDecl {a : Arena} {d : Decl} (h : d.owner = b) :
    (a.withDecl b d).Sees b ⟨a.decls.length⟩ := by
  refine ⟨d, ?_, by rw [h]; exact .self b, fun _ => h⟩
  unfold Arena.withDecl
  rw [Arena.decl?_updateBlock, Arena.decl?_pushDecl, if_pos rfl]

theorem does_freshTemp (hs : s.Good names src) (hb : s.current? = some b) (span : Span) :
    Does names src n s (Lower.freshTemp b span) fun d t => t.arena.Sees b d := by
  obtain ⟨x, hx, ho⟩ := hs.current hb
  refine .act (.temporary hb span) ?_
  rw [Lower.run_freshTemp hx ho]
  exact sees_withDecl rfl

theorem does_addDecl (hs : s.Good names src) (hb : s.current? = some b) {name : String}
    {type : Option TypeRef} {kind : DeclKind} {span : Span} (hkind : kind ≠ .temporary)
    (htype : ∀ t, type = some t →
      ∃ n, src n ∧ s.arena.Annotated names ⟨name, type, kind, b, span⟩ t n) :
    Does names src n s (Lower.addDecl b name type kind span) fun d t => t.arena.Sees b d := by
  obtain ⟨x, hx, ho⟩ := hs.current hb
  refine .act (.declare hb hkind htype) ?_
  rw [Lower.run_addDecl hx ho]
  exact sees_withDecl rfl

/-- An action at an open block does not keep another block from being opened. -/
theorem Act.mayOpen {t : Session} (h : Act names src s t) (hs : s.Good names src)
    (hb : s.current? = some b) (hc : s.MayOpen c) : t.MayOpen c := by
  have hf := (h.good_frame (n := s.arena.blocks.length) hs).2
  obtain ⟨parent, span, hx, hp⟩ := hc.fresh
  have hlt := hc.index_lt
  have hstack : t.openBlocks = s.openBlocks := by
    rcases hf.stack with hst | ⟨hnil, _⟩
    · exact hst
    · rw [current?_eq_none hnil] at hb
      cases hb
  have hne : s.current? ≠ some c := fun e => hc.closed (mem_openBlocks_of_current? e)
  refine ⟨hstack ▸ hc.closed, parent, span, ?_, ?_⟩
  · rw [hf.others c hlt hlt hne, hx]
  · unfold current?
    rw [hstack]
    exact hp

theorem does_addStmt (hs : s.Good names src) (hb : s.current? = some b) {stmt : Stmt}
    (h : s.arena.InScope (some b) stmt.refs stmt.blocks) :
    Does names src n s (Lower.addStmt b stmt) (opensAs s) :=
  .act (.append hb h) fun _ hc => (Act.append hb h).mayOpen hs hb hc

theorem does_linkHoisted (hb : s.current? = some b) (name : String) (d : DeclId) :
    Does names src n s (Lower.linkHoisted b name d) anything :=
  .act (.link hb name d) trivial

/-- What is known of a child right after it was made in `s`. -/
structure FreshChild (s : Session) (b : BlockId) (c : BlockId) (t : Session) : Prop where
  index : c.index = s.arena.blocks.length
  opens : t.MayOpen c
  parent : t.arena.parent? c = some b

theorem freshChild_run (hs : s.Good names src) (hb : s.current? = some b) (span : Span) :
    FreshChild s b ((Lower.createChild b span).run s).1 ((Lower.createChild b span).run s).2 := by
  obtain ⟨x, hx, _⟩ := hs.current hb
  rw [Lower.run_createChild hx]
  have hlt := Arena.index_lt_of_block? hx
  have hne : (⟨s.arena.blocks.length⟩ : BlockId) ≠ b := by
    rintro rfl
    exact Nat.lt_irrefl _ hlt
  have hblock : (s.arena.withChild b span).block? ⟨s.arena.blocks.length⟩ =
      some (.fresh ⟨s.arena.blocks.length⟩ (some b) span) := by
    unfold Arena.withChild
    rw [Arena.block?_updateBlock, if_neg hne, Arena.block?_allocBlock, if_pos rfl]
  refine ⟨rfl, ⟨?_, _, _, hblock, .inr hb.symm⟩, Arena.parent?_eq hblock⟩
  intro hmem
  obtain ⟨y, hy, _⟩ := hs.opened _ hmem
  exact Nat.lt_irrefl _ (Arena.index_lt_of_block? hy)

theorem does_createChild (hs : s.Good names src) (hb : s.current? = some b) (span : Span) :
    Does names src n s (Lower.createChild b span) fun c t =>
      FreshChild s b c t ∧ opensAs s c t :=
  .act (.child hb span)
    ⟨freshChild_run hs hb span, fun _ he => (Act.child hb span).mayOpen hs hb he⟩

/-- Work inside another block does not keep a block from being opened. -/
theorem Session.MayOpen.within {t : Session} {e : BlockId} (he : s.MayOpen e) (hne : e ≠ c)
    (ht : t.Good names src) (h : Frame s.arena.blocks.length ((Lower.openBlock c).run s).2 t) :
    ((Lower.closeBlock c).run t).2.MayOpen e := by
  obtain ⟨parent, span, hy, hp⟩ := he.fresh
  have hlt := he.index_lt
  have hblock := h.block?_closeBlock ht hne hlt hlt
  rw [ht.run_closeBlock (h.current rfl)] at hblock ⊢
  refine ⟨?_, parent, span, hblock.trans hy, ?_⟩
  · show e ∉ t.openBlocks.tail
    rw [h.stack_openBlock]
    exact he.closed
  · show parent = none ∨ parent = t.openBlocks.tail.head?
    rw [h.stack_openBlock]
    exact hp

theorem does_inBlock {body : Lower Unit} (hs : s.Good names src) (hc : s.MayOpen c)
    (hn : n ≤ c.index)
    (hbody : Does names src s.arena.blocks.length ((Lower.openBlock c).run s).2 body anything) :
    Does names src n s (Lower.inBlock c body) fun _ t =>
      ∀ e, s.MayOpen e → e ≠ c → t.MayOpen e := by
  obtain ⟨hrun, _⟩ := hbody
  have hlt := hc.index_lt
  obtain ⟨ht, hst⟩ := hrun.good_frame (hs.openBlock hc)
  exact ⟨.within hc hn (hrun.mono (by omega)), fun e he hne => he.within hne ht hst⟩

/-! ## Names and annotations -/

/-- What a name means in a block is seen there and is no temporary. -/
theorem sees_of_lookup? {a : Arena} {name : String} {d : DeclId} (ha : a.WellScoped names src)
    (h : a.lookup? b name = some d) : a.Sees b d := by
  unfold Arena.lookup? at h
  obtain ⟨c, hc, hfind⟩ := List.exists_of_findSome?_eq_some h
  unfold Arena.findInBlock? at hfind
  rw [Option.bind_eq_some_iff] at hfind
  obtain ⟨x, hx, hd⟩ := hfind
  obtain ⟨y, hy, howner⟩ := ha.owners c x hx d (List.mem_of_find?_eq_some hd)
  have hdeclares := List.find?_some hd
  unfold Arena.declares at hdeclares
  rw [hy] at hdeclares
  simp only [Decl.isCalled, Bool.and_eq_true, Bool.not_eq_true'] at hdeclares
  refine ⟨y, hy, ?_, fun htemp => ?_⟩
  · rw [howner]
    exact Arena.inside_of_mem_chain hc
  · rw [hdeclares.1] at htemp
    cases htemp

/-- A name that is found is seen at the innermost open block. -/
def refSeen (r : Option DeclRef) (t : Session) : Prop :=
  ∀ x, r = some x → ∃ b, t.current? = some b ∧ t.arena.Sees b x.decl

theorem does_resolveName (hs : s.Good names src) (id : Ident) :
    Does names src n s (Lower.resolveName names id) refSeen := by
  unfold Lower.resolveName
  refine .bind hs does_currentBlock fun b t ht _ hb => .lookup ht ?_
  cases hl : t.arena.lookup? b (names.resolve id.name) with
  | some d =>
    refine .pure fun x hx => ⟨b, hb, ?_⟩
    obtain rfl := Option.some.inj hx
    exact sees_of_lookup? ht.arena hl
  | none => exact .bind ht (does_report _) fun _ _ _ _ _ => .pure fun _ hx => by cases hx

/-- The type is the one that the annotation names. -/
def Names (names : SymbolTable) (a : Arena) (written : Ascription) (t : TypeRef) : Prop :=
  ∃ head nameSpan span type,
    written = ⟨.reference (.simple head nameSpan) [] span, t.span⟩ ∧
      a.typeDecl? t.decl = some type ∧ type.name = names.resolve head.name

theorem typeDecl?_of_findType? (hs : s.Good names src) {text : String} {d : TypeDeclId}
    (h : s.findType? text = some d) : ∃ x, s.arena.typeDecl? d = some x ∧ x.name = text := by
  unfold Session.findType? at h
  obtain ⟨id, _, hfind⟩ := List.exists_of_findSome?_eq_some h
  rw [Option.bind_eq_some_iff] at hfind
  obtain ⟨scope, hscope, hfind⟩ := hfind
  unfold TypeScope.find? at hfind
  rw [Option.map_eq_some_iff] at hfind
  obtain ⟨i, hi, rfl⟩ := hfind
  obtain ⟨hlt, hname, _⟩ := List.findIdx?_eq_some_iff_getElem.1 hi
  refine ⟨scope.decls[i], ?_, by simpa using hname⟩
  unfold Arena.typeDecl? TypeScope.get?
  rw [hs.arena.typeIds id scope hscope, hscope]
  exact List.getElem?_eq_getElem hlt

theorem names_of_resolveType (hs : s.Good names src) {written : Ascription} {t : TypeRef}
    (h : s.resolveType names written = .ok t) : Names names s.arena written t := by
  obtain ⟨type, place⟩ := written
  cases type with
  | reference name args span =>
    unfold Session.resolveType at h
    cases name with
    | qualified head rest nameSpan => simp [TypeName.isQualified] at h
    | simple head nameSpan =>
      cases args with
      | cons a rest => simp [TypeName.isQualified] at h
      | nil =>
        simp only [TypeName.isQualified, TypeName.head, List.isEmpty_nil] at h
        cases hfind : s.findType? (names.resolve head.name) with
        | none => simp [hfind] at h
        | some d =>
          simp only [hfind] at h
          cases h
          obtain ⟨x, hx, hname⟩ := typeDecl?_of_findType? hs hfind
          exact ⟨head, nameSpan, span, x, rfl, hx, hname⟩
  | function | array | union => cases h

theorem does_ascription? (hs : s.Good names src) (written : Option Ascription) :
    Does names src n s (Lower.ascription? names written) fun r t =>
      ∀ type, r = some type → ∃ x, written = some x ∧ Names names t.arena x type := by
  cases written with
  | none => exact .pure fun _ h => by cases h
  | some a =>
    unfold Lower.ascription?
    refine .get ?_
    cases hr : s.resolveType names a with
    | ok type =>
      refine .pure fun type' h => ⟨a, rfl, ?_⟩
      obtain rfl := Option.some.inj h
      exact names_of_resolveType hs hr
    | error problem =>
      exact .bind hs (does_report _) fun _ _ _ _ _ => .pure fun _ h => by cases h

/-- A declaration with the name, the annotation and the place of a binding. -/
theorem annotated_of_names {a : Arena} {node : Node} {id : Ident} {written : Option Ascription}
    {span : Span} {type : Option TypeRef} {kind : DeclKind} (hnode : src node)
    (hbinding : node.binding? = some ⟨id, written, span⟩)
    (h : ∀ t, type = some t → ∃ x, written = some x ∧ Names names a x t) (t : TypeRef)
    (ht : type = some t) :
    ∃ m, src m ∧ a.Annotated names ⟨names.resolve id.name, type, kind, b, span⟩ t m := by
  obtain ⟨x, rfl, head, nameSpan, place, decl, rfl, hdecl, hname⟩ := h t ht
  exact ⟨node, hnode, id, t.span, head, nameSpan, place, decl, hbinding, rfl, rfl, hdecl, hname⟩

end

end BlockLowering
