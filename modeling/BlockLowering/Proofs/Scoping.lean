import BlockLowering.IR.Listing
import BlockLowering.Proofs.Lowering

/-!
# Scoping of sessions

Whatever a session is asked to do, its states are reachable (`reachable_run`). Hence the arena of a
session is well-scoped: uses stand where their declarations are visible, blocks that are named are
there, and types come from the annotations of the trees that were lowered.
-/

namespace BlockLowering

open IR Source Session

/-! ## The trees of a session -/

/-- The modules and statements that a step lowers. -/
def Step.pieces : Step → List Node
  | .options _ => []
  | .module tree => [.module tree]
  | .statement tree => [.statement tree]
  | .expression tree => ((tree.visits descend).filter Lower.handles).map Visit.subject
  | .node tree => ((tree.visits descend).filter Lower.handles).map Visit.subject

/-- The node stands in a module or a statement that one of the steps lowers. -/
def Lowered (steps : List Step) (n : Node) : Prop :=
  ∃ step ∈ steps, ∃ piece ∈ step.pieces, ∃ v ∈ piece.visits everywhere, v.subject = n

section

variable {names : SymbolTable} {src : Node → Prop} {s : Session} {b c : BlockId} {n : Nat}

theorem covers_lowered {steps : List Step} {step : Step} {piece : Node} (hstep : step ∈ steps)
    (hpiece : piece ∈ step.pieces) : Covers (Lowered steps) (piece.visits everywhere) :=
  fun v hv => ⟨step, hstep, piece, hpiece, v, hv, rfl⟩

@[simp] theorem covers_visits (piece : Node) :
    Covers src (piece.visits everywhere) ↔ src piece ∧ Covers src (piece.inner everywhere) := by
  unfold Node.visits
  simp

/-! ## Modules -/

theorem Does.reachable {α : Type} {x : Lower α} {post : α → Session → Prop}
    (hx : Does names src n s x post) (hs : Reachable names src s) :
    Reachable names src (x.run s).2 := hx.1.reachable hs

theorem does_hoist (hs : s.Good names src) (hb : s.current? = some b) (ids : List Ident) :
    Does names src n s (Lower.hoist names b ids) anything := by
  induction ids generalizing s with
  | nil => exact .pure trivial
  | cons id rest ih =>
    unfold Lower.hoist
    refine .bind hs (does_addDecl hs hb (by simp) fun _ ht => by cases ht) fun _ t ht hst _ => ?_
    exact ih ht (hst.current hb)

theorem does_placeholders (hs : s.Good names src) (hb : s.current? = some b) (ids : List Ident) :
    Does names src n s (Lower.placeholders names b ids) anything := by
  unfold Lower.placeholders
  refine .get ?_
  by_cases h : s.options.hoisting = true
  · simp only [if_pos h]
    exact does_hoist hs hb ids
  · simp only [if_neg h]
    exact .pure trivial

/-- The inside of a unit block: placeholders, a new child, and the statements inside the child, which
is the body of the unit meanwhile. -/
theorem Lower.run_unitBlock (m : Module) :
    (unitBlock names b m).run s =
      let s₁ := ((placeholders names b m.functionNames).run s).2
      let s₂ := ((createChild b m.span).run s₁).2
      let body := ((createChild b m.span).run s₁).1
      let s₃ := ((inBlock body (statementList names m.statements)).run
        { s₂ with unitBody := some body }).2
      ((), { s₃ with unitBody := s₂.unitBody }) := rfl

theorem Reachable.unitBlock (hs : Reachable names src s) (hb : s.current? = some b) {m : Module}
    (h : Covers src (innerStatements everywhere m.statements)) :
    Reachable names src ((Lower.unitBlock names b m).run s).2 ∧
      ((Lower.unitBlock names b m).run s).2.current? = some b := by
  rw [Lower.run_unitBlock]
  have d₁ := does_placeholders (n := 0) hs.good hb m.functionNames
  have h₁ := d₁.reachable hs
  have hb₁ := (d₁.1.good_frame hs.good).2.current hb
  have d₂ := does_createChild (n := 0) h₁.good hb₁ m.span
  have h₂ := (d₂.reachable h₁).unitBody
    (some ((Lower.createChild b m.span).run ((Lower.placeholders names b m.functionNames).run s).2).1)
  have hb₂ := (d₂.1.good_frame h₁.good).2.current hb₁
  have hopen := d₂.2.1.opens
  have d₃ := does_inBlock (n := 0) h₂.good ⟨hopen.closed, hopen.fresh⟩ (Nat.zero_le _)
    (does_statementList m.statements h _ _ (h₂.good.openBlock ⟨hopen.closed, hopen.fresh⟩)
      (Nat.le_refl _))
  exact ⟨(d₃.reachable h₂).unitBody _, (d₃.1.good_frame h₂.good).2.current hb₂⟩

/-- A new root may be opened at once. -/
theorem mayOpen_createRoot (hs : s.Good names src) (span : Span) :
    ((Lower.createRoot span).run s).2.MayOpen ⟨s.arena.blocks.length⟩ where
  closed h := by
    obtain ⟨x, hx, _⟩ := hs.opened _ h
    exact Nat.lt_irrefl _ (Arena.index_lt_of_block? hx)
  fresh := ⟨none, span, (Arena.block?_allocBlock _ _ _ _).trans (if_pos rfl), .inl rfl⟩

theorem Reachable.module (hs : Reachable names src s) {m : Module}
    (h : Covers src (innerStatements everywhere m.statements)) :
    Reachable names src ((Lower.module names m).run s).2 := by
  have h₁ := hs.types
  have hopen := mayOpen_createRoot h₁.good m.span
  have h₂ := (h₁.root m.span).enter hopen
  obtain ⟨h₃, hcur⟩ := h₂.unitBlock rfl h
  exact h₃.leave hcur

/-! ## Sessions -/

theorem Reachable.visit (hs : Reachable names src s) {v : Visit}
    (h : Lower.handles v = true → Covers src (v.subject.visits everywhere)) :
    Reachable names src ((Lower.visit names v).run s).2 := by
  unfold Lower.visit Lowering.visit
  by_cases hv : Lower.handles v = true
  · have hcovers := (covers_visits v.subject).1 (h hv)
    rw [if_pos hv]
    cases hsub : v.subject with
    | module m =>
      rw [hsub] at hcovers
      exact hs.module hcovers.2
    | statement st =>
      rw [hsub] at hcovers
      exact (does_statementAt false st hcovers.1 hcovers.2 0 s hs.good (Nat.zero_le _)).reachable hs
    | _ => exact hs
  · rw [if_neg hv]
    exact hs

theorem Reachable.visitAll (hs : Reachable names src s) {visits : List Visit}
    (h : ∀ n ∈ (visits.filter Lower.handles).map Visit.subject, Covers src (n.visits everywhere)) :
    Reachable names src ((Lower.visitAll names visits).run s).2 := by
  induction visits generalizing s with
  | nil => exact hs
  | cons v rest ih =>
    have hv : Lower.handles v = true → Covers src (v.subject.visits everywhere) := by
      intro hh
      refine h _ (List.mem_map_of_mem (List.mem_filter.2 ⟨List.mem_cons_self, hh⟩))
    refine ih (hs.visit hv) fun n hn => h n ?_
    obtain ⟨w, hw, rfl⟩ := List.mem_map.1 hn
    obtain ⟨hmem, hh⟩ := List.mem_filter.1 hw
    exact List.mem_map_of_mem (List.mem_filter.2 ⟨List.mem_cons_of_mem v hmem, hh⟩)

theorem Reachable.step (hs : Reachable names src s) {step : Step}
    (h : ∀ piece ∈ step.pieces, Covers src (piece.visits everywhere)) :
    Reachable names src (s.step names step) := by
  cases step with
  | options chosen => exact hs.options chosen
  | module m =>
    have hm := (covers_visits _).1 (h (.module m) List.mem_cons_self)
    exact hs.module hm.2
  | statement st =>
    have hst := (covers_visits _).1 (h (.statement st) List.mem_cons_self)
    exact (does_statementAt false st hst.1 hst.2 0 s hs.good (Nat.zero_le _)).reachable hs
  | expression e => exact hs.visitAll h
  | node tree => exact hs.visitAll h

theorem Reachable.run (hs : Reachable names src s) {steps : List Step}
    (h : ∀ step ∈ steps, ∀ piece ∈ step.pieces, Covers src (piece.visits everywhere)) :
    Reachable names src (s.run names steps) := by
  induction steps generalizing s with
  | nil => exact hs
  | cons step rest ih =>
    have hstep := hs.step (h step List.mem_cons_self)
    exact ih hstep fun st hst => h st (List.mem_cons_of_mem step hst)

theorem reachable_run (names : SymbolTable) (steps : List Step) :
    Reachable names (Lowered steps) (Session.run names steps {}) :=
  Reachable.start.run fun _ hstep _ hpiece => covers_lowered hstep hpiece

/-! ## Well-scoped results -/

/-- In a well-scoped arena a use that is in scope has a declaration, by whose name it is listed. -/
theorem decl_of_inScope {a : Arena} {refs : List DeclRef} {blocks : List BlockId} {r : DeclRef}
    (ha : a.WellScoped names src) (h : a.InScope (some b) refs blocks) (hr : r ∈ refs) :
    ∃ d, a.decl? r.decl = some d ∧ a.encloses d.owner b = true ∧
      (d.isTemporary = true → d.owner = b) ∧ a.renderRef r = "ref(" ++ d.name ++ ")" := by
  obtain ⟨_, hb, d, hd, hin, htemp⟩ := h.refs r hr
  obtain rfl := Option.some.inj hb
  refine ⟨d, hd, Arena.encloses_of_inside ha.parents hin, htemp, ?_⟩
  unfold Arena.renderRef
  rw [hd]

theorem block_of_inScope {a : Arena} {refs : List DeclRef} {blocks : List BlockId}
    (h : a.InScope (some b) refs blocks) (hc : c ∈ blocks) :
    ∃ x, a.block? c = some x ∧ x.parent = some b := by
  obtain ⟨_, hb, hparent⟩ := h.blocks c hc
  obtain rfl := Option.some.inj hb
  unfold Arena.parent? at hparent
  obtain ⟨x, hx, hp⟩ := Option.bind_eq_some_iff.1 hparent
  exact ⟨x, hx, hp⟩

/-- An annotated type is there and is listed by name. -/
theorem typeDecl_of_annotated {a : Arena} {x : Decl} {t : TypeRef} {node : Node}
    (h : a.Annotated names x t node) :
    ∃ type, a.typeDecl? t.decl = some type ∧ a.renderType t = "type(" ++ type.name ++ ")" := by
  obtain ⟨_, _, _, _, _, type, _, _, _, htype, _⟩ := h
  refine ⟨type, htype, ?_⟩
  unfold Arena.renderType
  rw [htype]

/-- In the arena of a session every use in a statement of a block `b` has a declaration, in `b` or
around it and a temporary in `b` itself; every block that a statement names is a child of `b`; and
every type of a declaration is the one named by the annotation, in a tree that was lowered, of what
is declared. So uses and types are always listed by name. -/
theorem run_scoping_sound (names : SymbolTable) (steps : List Step) :
    let a := (Session.run names steps {}).arena
    (∀ b x, a.block? b = some x → ∀ stmt ∈ x.stmts,
      (∀ r ∈ stmt.refs, ∃ d, a.decl? r.decl = some d ∧ a.encloses d.owner b = true ∧
        (d.isTemporary = true → d.owner = b) ∧ a.renderRef r = "ref(" ++ d.name ++ ")") ∧
      ∀ c ∈ stmt.blocks, ∃ y, a.block? c = some y ∧ y.parent = some b) ∧
    ∀ d x, a.decl? d = some x → ∀ t, x.type = some t →
      (∃ n, Lowered steps n ∧ a.Annotated names x t n) ∧
      ∃ type, a.typeDecl? t.decl = some type ∧ a.renderType t = "type(" ++ type.name ++ ")" := by
  intro a
  have ha : a.WellScoped names (Lowered steps) := (reachable_run names steps).good.arena
  refine ⟨fun b x hx stmt hstmt => ?_, fun d x hx t ht => ?_⟩
  · have hscope := ha.stmts b x hx stmt hstmt
    exact ⟨fun r hr => decl_of_inScope ha hscope hr, fun c hc => block_of_inScope hscope hc⟩
  · obtain ⟨n, hn, hann⟩ := ha.types x (List.mem_of_getElem? hx) t ht
    exact ⟨⟨n, hn, hann⟩, typeDecl_of_annotated hann⟩

end

end BlockLowering
