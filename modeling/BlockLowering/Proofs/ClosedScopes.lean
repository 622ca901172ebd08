import BlockLowering.Proofs.Footprint
import BlockLowering.Proofs.Units

/-!
# Sessions close their scopes

Between the steps of a session no module is being lowered, at most one block is open, and every other
block is sealed (`AtRest`). Together with the invariants of all states on the way: nothing that
lowering asks for is ever refused.
-/

namespace BlockLowering

open IR Source Session

section

variable {names : SymbolTable} {src : Node → Prop} {s t : Session} {c : BlockId}

/-! ## From step to step -/

/-- A property of sessions that modules and statements made of nodes with `src` keep, and the choice
of `allowed` options. -/
structure Session.Kept (names : SymbolTable) (src : Node → Prop) (allowed : Options → Prop)
    (P : Session → Prop) : Prop where
  options : ∀ s chosen, allowed chosen → P s → P { s with options := chosen }
  module : ∀ s m, Reachable names anyNode s → Covers src (innerStatements everywhere m.statements) →
    P s → P ((Lower.module names m).run s).2
  statement : ∀ s st, Reachable names anyNode s → src (.statement st) →
    Covers src (st.inner everywhere) → P s → P ((Lower.statement names st).run s).2

namespace Session.Kept

variable {allowed : Options → Prop} {P : Session → Prop}

theorem visit (K : Kept names src allowed P) (hs : Reachable names anyNode s) (h : P s) {v : Visit}
    (hv : Lower.handles v = true → Covers src (v.subject.visits everywhere)) :
    P ((Lower.visit names v).run s).2 := by
  unfold Lower.visit Lowering.visit
  by_cases hh : Lower.handles v = true
  · have hcovers := (covers_visits v.subject).1 (hv hh)
    rw [if_pos hh]
    cases hsub : v.subject with
    | module m =>
      rw [hsub] at hcovers
      exact K.module s m hs hcovers.2 h
    | statement st =>
      rw [hsub] at hcovers
      exact K.statement s st hs hcovers.1 hcovers.2 h
    | _ => exact h
  · rw [if_neg hh]
    exact h

theorem visitAll (K : Kept names src allowed P) (hs : Reachable names anyNode s) (h : P s)
    {visits : List Visit}
    (hvisits : ∀ n ∈ (visits.filter Lower.handles).map Visit.subject,
      Covers src (n.visits everywhere)) : P ((Lower.visitAll names visits).run s).2 := by
  induction visits generalizing s with
  | nil => exact h
  | cons v rest ih =>
    refine ih (hs.visit fun _ => covers_anyNode _) (K.visit hs h fun hh => ?_) fun n hn => ?_
    · exact hvisits _ (List.mem_map_of_mem (List.mem_filter.2 ⟨List.mem_cons_self, hh⟩))
    · obtain ⟨w, hw, rfl⟩ := List.mem_map.1 hn
      obtain ⟨hmem, hh⟩ := List.mem_filter.1 hw
      exact hvisits _ (List.mem_map_of_mem (List.mem_filter.2 ⟨List.mem_cons_of_mem v hmem, hh⟩))

theorem step (K : Kept names src allowed P) (hs : Reachable names anyNode s) (h : P s)
    {step : Step} (hstep : ∀ chosen, step = .options chosen → allowed chosen)
    (hpieces : ∀ piece ∈ step.pieces, Covers src (piece.visits everywhere)) :
    P (s.step names step) := by
  cases step with
  | options chosen => exact K.options s chosen (hstep chosen rfl) h
  | module m =>
    have hm := (covers_visits _).1 (hpieces (.module m) List.mem_cons_self)
    exact K.module s m hs hm.2 h
  | statement st =>
    have hst := (covers_visits _).1 (hpieces (.statement st) List.mem_cons_self)
    exact K.statement s st hs hst.1 hst.2 h
  | expression e => exact K.visitAll hs h hpieces
  | node tree => exact K.visitAll hs h hpieces

/-- What every step keeps holds after all steps. -/
theorem run (K : Kept names src allowed P) (hs : Reachable names anyNode s) (h : P s)
    {steps : List Step} (hsteps : ∀ chosen, .options chosen ∈ steps → allowed chosen)
    (hpieces : ∀ step ∈ steps, ∀ piece ∈ step.pieces, Covers src (piece.visits everywhere)) :
    P (s.run names steps) := by
  induction steps generalizing s with
  | nil => exact h
  | cons step rest ih =>
    have hfirst := K.step hs h (fun chosen e => hsteps chosen (e ▸ List.mem_cons_self))
      (hpieces step List.mem_cons_self)
    refine ih (hs.step fun _ _ => covers_anyNode _) hfirst (fun chosen hchosen => ?_) ?_
    · exact hsteps chosen (List.mem_cons_of_mem step hchosen)
    · exact fun st hst => hpieces st (List.mem_cons_of_mem step hst)

end Session.Kept

/-! ## Sessions at rest -/

/-- Lowering is between two steps: all blocks are sealed but for the one that is open, if any. -/
structure Session.AtRest (s : Session) : Prop where
  unitBody : s.unitBody = none
  stack : s.openBlocks.length ≤ 1
  waits : ∀ b, ¬s.Waits b

theorem Session.Waits.of_enterUnit {m : Module} (h : (s.enterUnit names m).Waits c) :
    s.Waits c := by
  obtain ⟨hclosed, x, hx, ho⟩ := h
  have hopen : c ∉ s.nextBody :: s.nextUnit :: s.openBlocks := hclosed
  simp only [List.mem_cons, not_or] at hopen
  rw [Session.block?_enterUnit, if_neg hopen.2.1, if_neg hopen.1] at hx
  exact ⟨hopen.2.2, x, hx, ho⟩

theorem Session.Waits.of_leaveUnit
    (hstack : t.openBlocks = s.nextBody :: s.nextUnit :: s.openBlocks)
    (h : (s.leaveUnit t).Waits c) : t.Waits c := by
  obtain ⟨hclosed, x, hx, ho⟩ := h
  have hopen : c ∉ s.openBlocks := hclosed
  rw [Session.block?_leaveUnit] at hx
  by_cases hunit : c = s.nextUnit ∨ c = s.nextBody
  · rw [if_pos hunit, Option.map_eq_some_iff] at hx
    obtain ⟨y, _, rfl⟩ := hx
    cases ho
  · rw [if_neg hunit] at hx
    obtain ⟨hunit, hbody⟩ := not_or.1 hunit
    refine ⟨?_, x, hx, ho⟩
    simp only [hstack, List.mem_cons, not_or]
    exact ⟨hbody, hunit, hopen⟩

/-- Statements leave no block waiting. -/
theorem waits_statementList (hs : s.Good names anyNode) (h : ∀ b, ¬s.Waits b)
    (sts : List Statement) :
    After s (Lower.statementList names sts) fun _ t => ∀ b, ¬t.Waits b := by
  have hstart : Footprint s False [] s s := .of_waits (fun b hb => absurd hb (h b)) False.elim
  have hend := (footprint_lockstep names s False).statementList sts [] s s hs False.elim hstart
    False.elim
  intro b hb
  cases hend.2.waits b hb

namespace Session.AtRest

theorem statement (h : s.AtRest) (hs : s.Good names anyNode) (st : Statement) :
    ((Lower.statement names st).run s).2.AtRest := by
  have hd : Does names anyNode 0 s (Lower.statement names st) anything :=
    does_statementAt false st trivial (covers_anyNode _) 0 s hs (Nat.zero_le _)
  obtain ⟨_, hframe⟩ := hd.1.good_frame hs
  have hstart : Footprint s False [] s s := .of_waits (fun b hb => absurd hb (h.waits b)) False.elim
  have hend := (footprint_lockstep names s False).statementAt false st [] s s hs hstart
    (fun _ => False.elim) (fun _ _ => False.elim) False.elim
  refine ⟨hframe.unitBody.trans h.unitBody, ?_, fun b hb => ?_⟩
  · rcases hframe.stack with hsame | ⟨_, r, hr, _⟩
    · rw [hsame]
      exact h.stack
    · rw [hr]
      exact Nat.le_refl 1
  · cases hend.2.waits b hb

theorem module (h : s.AtRest) (hs : Reachable names anyNode s) (m : Module) :
    ((Lower.module names m).run s).2.AtRest := by
  have hwaits := waits_statementList (hs.enterUnit m).good (fun b hb => h.waits b hb.of_enterUnit)
    m.statements
  rw [run_module hs m]
  refine ⟨h.unitBody, h.stack, fun b hb => ?_⟩
  exact hwaits b (hb.of_leaveUnit (hs.openBlocks_unitStatements m))

end Session.AtRest

theorem atRest_run (names : SymbolTable) (steps : List Step) :
    (Session.run names steps {}).AtRest := by
  have hempty : ({} : Session).AtRest := by
    refine ⟨rfl, Nat.zero_le 1, ?_⟩
    rintro b ⟨_, x, hx, _⟩
    cases hx
  have hkept : Kept names anyNode (fun _ => True) AtRest :=
    ⟨fun _ _ _ h => ⟨h.unitBody, h.stack, h.waits⟩, fun _ m hs _ h => h.module hs m,
      fun _ st hs _ _ h => h.statement hs.good st⟩
  exact hkept.run .start hempty (fun _ _ => trivial) fun _ _ _ _ => covers_anyNode _

/-- Between steps exactly the open blocks are not sealed. -/
theorem Session.AtRest.isSealed_eq_false_iff (h : s.AtRest) (hs : s.Good names src) {x : IR.Block}
    (hx : s.arena.block? c = some x) : x.isSealed = false ↔ c ∈ s.openBlocks := by
  constructor
  · intro ho
    by_contra hclosed
    exact h.waits c ⟨hclosed, x, hx, ho⟩
  · intro hc
    obtain ⟨y, hy, ho⟩ := hs.opened c hc
    obtain rfl := Option.some.inj (hx.symm.trans hy)
    exact ho

/-- Between steps an open block is a root. -/
theorem Session.AtRest.openBlocks_eq (h : s.AtRest) (hs : Reachable names src s) :
    s.openBlocks = [] ∨
      ∃ r x, s.openBlocks = [r] ∧ s.arena.block? r = some x ∧ x.isRoot = true := by
  have hstack := h.stack
  have hopened := hs.good.opened
  have hstacked := hs.stacked
  cases hb : s.openBlocks with
  | nil => exact .inl rfl
  | cons r rest =>
    rw [hb] at hstack hopened hstacked
    obtain rfl : rest = [] :=
      List.length_eq_zero_iff.1 (Nat.le_zero.1 (Nat.le_of_succ_le_succ hstack))
    obtain ⟨x, hx, _⟩ := hopened r List.mem_cons_self
    have hparent : s.arena.parent? r = none := hstacked.1.elim (fun h => h) fun h => h
    rw [Arena.parent?_eq hx] at hparent
    refine .inr ⟨r, x, rfl, hx, ?_⟩
    unfold Block.isRoot
    rw [hparent]
    rfl

/-- A module that is lowered by itself leaves no block open. -/
theorem openBlocks_lowerModule (names : SymbolTable) (m : Module) (options : Options) :
    (Session.lowerModule names m options).openBlocks = [] := by
  rw [lowerModule_eq]
  rfl

/-! ## Numbers that were given out -/

/-- Every number by which the session looks something up was given out by its arena. -/
structure Session.Resolves (s : Session) : Prop where
  opened : ∀ b ∈ s.openBlocks, ∃ x, s.arena.block? b = some x
  parents : ∀ b x, s.arena.block? b = some x →
    ∀ p, x.parent = some p → ∃ y, s.arena.block? p = some y
  decls : ∀ b x, s.arena.block? b = some x → ∀ d ∈ x.decls, ∃ y, s.arena.decl? d = some y

theorem Session.Good.resolves (hs : s.Good names src) : s.Resolves where
  opened b hb := by
    obtain ⟨x, hx, _⟩ := hs.opened b hb
    exact ⟨x, hx⟩
  parents b x hx p hp := by
    have hparent : s.arena.parent? b = some p := (Arena.parent?_eq hx).trans hp
    have hlt := hs.arena.parents b p hparent
    have hb := Arena.index_lt_of_block? hx
    exact ⟨_, List.getElem?_eq_getElem (Nat.lt_trans hlt hb)⟩
  decls b x hx d hd := by
    obtain ⟨y, hy, _⟩ := hs.arena.owners b x hx d hd
    exact ⟨y, hy⟩

/-- Whatever a session is asked to do, no state on its way has met a fault: nothing is added to a
sealed block, no unknown number is read or written and no block is closed out of turn. After the
steps no module is being lowered and either no block or one root is open, and exactly the open
blocks are not sealed. So a module that is lowered by itself leaves all its blocks sealed. -/
theorem run_faultless_and_closed (names : SymbolTable) (steps : List Step) :
    (∀ u, Reachable names (Lowered steps) u → u.faults = [] ∧ u.Resolves) ∧
    (let s := Session.run names steps {}
     s.faults = [] ∧ s.unitBody = none ∧
      (s.openBlocks = [] ∨
        ∃ r x, s.openBlocks = [r] ∧ s.arena.block? r = some x ∧ x.isRoot = true) ∧
      ∀ b x, s.arena.block? b = some x → (x.isSealed = false ↔ b ∈ s.openBlocks)) ∧
    ∀ m, ∀ x ∈ (lower m names).1.blocks, x.isSealed = true := by
  refine ⟨fun u hu => ⟨hu.faults, hu.good.resolves⟩, ?_, fun m x hx => ?_⟩
  · have hs := reachable_run names steps
    have hrest := atRest_run names steps
    exact ⟨hs.faults, hrest.unitBody, hrest.openBlocks_eq hs, fun b x hx =>
      hrest.isSealed_eq_false_iff hs.good hx⟩
  · obtain ⟨i, hi⟩ := List.mem_iff_getElem?.1 hx
    have hblock : (Session.lowerModule names m {}).arena.block? ⟨i⟩ = some x := hi
    have hiff := (atRest_run names [.options {}, .module m]).isSealed_eq_false_iff
      (reachable_run names _).good hblock
    have hnone := openBlocks_lowerModule names m {}
    unfold Session.lowerModule at hnone
    rw [hnone] at hiff
    simpa using hiff

end

end BlockLowering
