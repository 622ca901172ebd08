import BlockLowering.Proofs.Attained
import BlockLowering.Proofs.ArenaLinks
import BlockLowering.Proofs.Hoisting

/-!
# Lowering changes things locally

Lowering a statement or an expression appends to the innermost open block, and beyond that it only
makes new blocks, new declarations and new records (`Session.Local`). One write reaches farther: a
function that is declared directly in the body of its unit is linked to its placeholder, which
stands in the block around. An expression without plain assignments and function expressions makes
nothing at all, unless it opens the root for code outside of modules.
-/

namespace BlockLowering

open IR Diagnostic Source Session

/-! ## Blocks -/

/-- From `s` to `t` all blocks stay but for the innermost open one, which gets more. Its new
children are new blocks. With no block open, the first new block may be a root that is open
afterwards. -/
structure Session.Local (s t : Session) : Prop where
  others : ∀ b : BlockId, b.index < s.arena.blocks.length → s.current? ≠ some b →
    t.arena.block? b = s.arena.block? b
  current : ∀ b x, s.current? = some b → s.arena.block? b = some x →
    ∃ y, t.arena.block? b = some y ∧ x.Extends y ∧
      ∀ c ∈ y.children, c ∈ x.children ∨ s.arena.blocks.length ≤ c.index
  stack : t.openBlocks = s.openBlocks ∨
    s.openBlocks = [] ∧ t.openBlocks = [⟨s.arena.blocks.length⟩] ∧
      t.arena.parent? ⟨s.arena.blocks.length⟩ = none
  types : t.arena.typeScopes = s.arena.typeScopes
  log : s.log.records <+: t.log.records

section

variable {names : SymbolTable} {src : Node → Prop} {s t u : Session} {b c : BlockId} {n : Nat}

/-- With no block open, a run makes nothing or starts with a root of its own, which stays open. -/
theorem Runs.implicitRoot (h : Runs names src n s t) (hs : s.Good names src)
    (hn : s.arena.blocks.length ≤ n) (hnil : s.openBlocks = []) :
    (t.openBlocks = [] ∧ t.arena = s.arena) ∨
      t.openBlocks = [⟨s.arena.blocks.length⟩] ∧ s.arena.blocks.length < t.arena.blocks.length ∧
        t.arena.parent? ⟨s.arena.blocks.length⟩ = none := by
  have hnone : ∀ b, s.current? ≠ some b := fun b hb => by
    rw [current?_eq_none hnil] at hb
    cases hb
  induction h with
  | done s => exact .inl ⟨hnil, rfl⟩
  | @act s t h =>
    cases h with
    | report p => exact .inl ⟨hnil, rfl⟩
    | openRoot hopen =>
      rw [Lower.run_currentBlock_none hopen]
      refine .inr ⟨rfl, ?_, ?_⟩
      · show _ < (s.arena.createRoot .synthetic).1.blocks.length
        rw [show (s.arena.createRoot .synthetic).1.blocks.length = s.arena.blocks.length + 1 from
          Arena.length_allocBlock ..]
        exact Nat.lt_succ_self _
      · exact (Arena.parent?_allocBlock s.arena none .synthetic _).trans (if_pos rfl)
    | temporary here _ => exact absurd here (hnone _)
    | declare here _ _ => exact absurd here (hnone _)
    | link here _ _ => exact absurd here (hnone _)
    | child here _ => exact absurd here (hnone _)
    | append here _ => exact absurd here (hnone _)
  | @trans s t u h h' ih ih' =>
    obtain ⟨ht, _⟩ := h.good_frame hs
    rcases ih hs hn hnil hnone with ⟨hopen, harena⟩ | ⟨hopen, hlt, hparent⟩
    · rw [← harena]
      refine ih' ht (harena ▸ hn) hopen fun b hb => ?_
      rw [current?_eq_none hopen] at hb
      cases hb
    · have hframe := (h'.good_frame ht).2
      have hstack := hframe.stack.resolve_right fun hr => by
        rw [hopen] at hr
        cases hr.1
      refine .inr ⟨hstack.trans hopen, Nat.lt_of_lt_of_le hlt hframe.arena.size, ?_⟩
      rw [hframe.arena.parent _ hlt, hparent]
  | within opens new _ _ =>
    -- Every block that is there already has a number below `n`.
    have hlt := opens.index_lt
    omega

theorem Attained.local (hs : Attained names s)
    (h : Runs names anyNode s.arena.blocks.length s t) : s.Local t where
  others b hlt hb := (h.good_frame hs.good).2.others b hlt hlt hb
  current b x hb hx := by
    have hframe := (h.good_frame hs.good).2
    obtain ⟨y, hy, hxy⟩ := hframe.own b x hb (Arena.index_lt_of_block? hx) hx
    refine ⟨y, hy, hxy, fun c hc => ?_⟩
    -- Both states list the children of the block completely.
    have hparent : t.arena.parent? c = some b :=
      (((hs.runs h).reachable.linked.children.children b y hy).2 c).1 hc
    by_cases hlt : c.index < s.arena.blocks.length
    · rw [hframe.arena.parent c hlt] at hparent
      exact .inl (((hs.reachable.linked.children.children b x hx).2 c).2 hparent)
    · exact .inr (Nat.le_of_not_lt hlt)
  stack := by
    rcases (h.good_frame hs.good).2.stack with hsame | ⟨hnil, r, hr, _⟩
    · exact .inl hsame
    · rcases h.implicitRoot hs.good (Nat.le_refl _) hnil with ⟨hopen, _⟩ | ⟨hopen, _, hparent⟩
      · rw [hr] at hopen
        cases hopen
      · exact .inr ⟨hnil, hopen, hparent⟩
  types := (h.good_frame hs.good).2.types
  log := (h.good_frame hs.good).2.log

/-! ## Declarations -/

/-- The blocks of a session. -/
def Session.blockIds (s : Session) : List BlockId := (List.range s.arena.blocks.length).map .mk

theorem Session.Waits.mem_blockIds (h : s.Waits c) : c ∈ s.blockIds := by
  obtain ⟨_, x, hx, _⟩ := h
  exact List.mem_map.2 ⟨c.index, List.mem_range.2 (Arena.index_lt_of_block? hx), rfl⟩

/-- The session in step with itself, whatever blocks are waiting. -/
theorem Attained.footprint (hs : Attained names s) : Footprint s True s.blockIds s s :=
  .of_waits (fun _ => Waits.mem_blockIds) fun _ => hs.bodyOpen

theorem Session.Adds.declsKept (h : Adds s t) : s.arena.decls <+: t.arena.decls := by
  obtain ⟨new, hnew, _⟩ := h.decls
  rw [hnew]
  exact List.prefix_append _ _

theorem Attained.adds_expression (hs : Attained names s) (e : Expression) :
    Adds s ((Lower.expression names e).run s).2 :=
  ((footprint_lockstep names s True).expression e _ s s hs.good hs.footprint False.elim).2.adds
    trivial

/-- Statements add declarations, unless they declare a function in the body of the unit. -/
theorem Attained.adds_statement (hs : Attained names s) (st : Statement)
    (hfunction : ∀ f, st = .functionDecl f → s.Inner) :
    Adds s ((Lower.statement names st).run s).2 :=
  ((footprint_lockstep names s True).statementAt false st _ s s hs.good hs.footprint
    (fun h => by cases h) (fun f hf _ => hfunction f hf) False.elim).2.adds trivial

/-- The function `f` is declared directly in the body `b` of its unit: the placeholder `p` of its
name, free until then, leads to it, and every other declaration stays. -/
structure Session.LinksFunction (names : SymbolTable) (f : FunctionDecl) (b : BlockId) (p : DeclId)
    (s t : Session) : Prop where
  body : s.unitBody = some b
  here : s.current? = some b
  free : s.arena.isFree (names.resolve f.name.name) p = true
  decls : (s.arena.withLink p ⟨s.arena.decls.length⟩).decls <+: t.arena.decls
  function : t.arena.decl? ⟨s.arena.decls.length⟩ = some (functionIn names b f)

theorem run_functionDecl_eq (hs : s.Good names src) (hb : s.current? = some b) (f : FunctionDecl) :
    (Lower.functionDecl names f).run s =
      (Lower.functionRest names b ⟨s.arena.decls.length⟩ f).run
        ((Lower.linkHoisted b (names.resolve f.name.name) ⟨s.arena.decls.length⟩).run
          { s with arena := s.arena.withDecl b (functionIn names b f) }).2 := by
  obtain ⟨x, hx, ho⟩ := hs.current hb
  obtain ⟨name, typeParams, params, result, body, span⟩ := f
  simp only [Lowering.functionDecl, monadLift_self]
  rw [Lower.run_bind, Lower.run_currentBlock_some hb, Lower.run_bind, Lower.run_addDecl hx ho,
    Lower.run_bind]
  rfl

theorem modify_append_of_lt {α : Type} {l : List α} {i : Nat} (h : i < l.length) (r : List α)
    (g : α → α) : (l ++ r).modify i g = l.modify i g ++ r := by
  induction l generalizing i with
  | nil => cases h
  | cons x l ih =>
    cases i with
    | zero => rfl
    | succ i =>
      show x :: (l ++ r).modify i g = x :: (l.modify i g ++ r)
      rw [ih (Nat.lt_of_succ_lt_succ h)]

/-- A function that is declared where the body of the unit is open. -/
theorem Attained.functionDecl (hs : Attained names s) (hunit : s.unitBody = some b)
    (hb : s.current? = some b) (f : FunctionDecl) :
    s.arena.decls <+: ((Lower.functionDecl names f).run s).2.arena.decls ∨
      ∃ p, s.LinksFunction names f b p ((Lower.functionDecl names f).run s).2 := by
  obtain ⟨x, hx, ho⟩ := hs.good.current hb
  have hdeclare : Does names anyNode 0 s
      (Lower.addDecl b (names.resolve f.name.name) none .function f.name.span)
      fun d t => t.arena.Sees b d :=
    does_addDecl hs.good hb (by simp) fun _ ht => by cases ht
  have hsees := hdeclare.2
  rw [Lower.run_addDecl hx ho] at hsees
  have hdeclared :
      Attained names { s with arena := s.arena.withDecl b (functionIn names b f) } := by
    have hruns := hs.runs hdeclare.1
    rw [Lower.run_addDecl hx ho] at hruns
    exact hruns
  have hlink : Does names anyNode 0 { s with arena := s.arena.withDecl b (functionIn names b f) }
      (Lower.linkHoisted b (names.resolve f.name.name) ⟨s.arena.decls.length⟩) anything := by
    apply does_linkHoisted
    exact hb
  have hlinked := hdeclared.runs hlink.1
  have hframe := (hlink.1.good_frame hdeclared.good).2
  have hrest := (adds_functionRest hlinked.good (hframe.current hb) hlinked.bodyOpen
    (fun _ => Waits.mem_blockIds) (hframe.arena.sees hsees) f).1.declsKept
  rw [← run_functionDecl_eq hs.good hb f] at hrest
  generalize ((Lower.functionDecl names f).run s).2 = t at hrest
  rw [hdeclared.good.run_linkHoisted_eq hb] at hrest
  cases hp : Session.freePlaceholder? { s with arena := s.arena.withDecl b (functionIn names b f) }
      b (names.resolve f.name.name) with
  | none =>
    rw [hp] at hrest
    exact .inl ((List.prefix_append _ _).trans hrest)
  | some p =>
    rw [hp] at hrest
    obtain ⟨y, hy, hname, hfree⟩ := Lower.freePlaceholder?_spec hp
    -- The new declaration is a function, so the placeholder was there before.
    have hold : s.arena.decl? p = some y := by
      have hcases : s.arena.decl? p = some y ∨ y ∈ [functionIn names b f] :=
        decl?_append_cases rfl hy
      refine hcases.resolve_right fun hnew => ?_
      rw [List.mem_singleton.1 hnew] at hfree
      cases hfree
    have hdecls : ((s.arena.withDecl b (functionIn names b f)).withLink p
        ⟨s.arena.decls.length⟩).decls =
          (s.arena.withLink p ⟨s.arena.decls.length⟩).decls ++ [functionIn names b f] :=
      modify_append_of_lt (Arena.index_lt_of_decl? hold) _ _
    obtain ⟨new, hnew⟩ := hrest
    have hnew' : t.arena.decls = ((s.arena.withLink p ⟨s.arena.decls.length⟩).decls ++
        [functionIn names b f]) ++ new := by
      rw [← hdecls]
      exact hnew.symm
    have hlength : (s.arena.withLink p ⟨s.arena.decls.length⟩).decls.length =
        s.arena.decls.length := List.length_modify ..
    refine .inr ⟨p, hunit, hb, Arena.isFree_iff.2 ⟨y, hold, hname, hfree⟩, ?_, ?_⟩
    · rw [hnew', List.append_assoc]
      exact List.prefix_append _ _
    · unfold Arena.decl?
      rw [hnew', List.append_assoc, List.getElem?_append_right (Nat.le_of_eq hlength), hlength,
        Nat.sub_self]
      rfl

/-- A statement leaves the declarations as they are, but for the one placeholder of a function that
is declared in the body of its unit. -/
theorem Attained.decls_statement (hs : Attained names s) (st : Statement) :
    s.arena.decls <+: ((Lower.statement names st).run s).2.arena.decls ∨
      ∃ f b p, st = .functionDecl f ∧
        s.LinksFunction names f b p ((Lower.statement names st).run s).2 := by
  by_cases hinner : s.Inner
  · exact .inl (hs.adds_statement st fun _ _ => hinner).declsKept
  · obtain ⟨b, hunit, hb⟩ : ∃ b, s.unitBody = some b ∧ s.current? = some b := by
      unfold Session.Inner at hinner
      simp only [not_forall, not_not] at hinner
      obtain ⟨b, hunit, hb⟩ := hinner
      exact ⟨b, hunit, hb⟩
    cases st with
    | functionDecl f =>
      have hrun : (Lower.statement names (.functionDecl f)).run s =
          (Lower.functionDecl names f).run s := by
        unfold Lower.statement Lowering.statement
        simp only [Lowering.statementAt]
      rw [hrun]
      rcases hs.functionDecl hunit hb f with hdecls | ⟨p, hlinks⟩
      · exact .inl hdecls
      · exact .inr ⟨f, b, p, rfl, hlinks⟩
    | _ => exact .inl (hs.adds_statement _ fun f hf => by cases hf).declsKept

/-! ## Passive expressions -/

/-- Neither a plain assignment nor a function expression. -/
def Source.Node.isPassive : Node → Bool
  | .expression (.assignment .assign _ _ _) => false
  | .expression (.function ..) => false
  | _ => true

/-- The expression contains no plain assignment and no function expression. -/
def Source.Expression.isPassive (e : Expression) : Bool :=
  (e.visits everywhere).all fun v => v.subject.isPassive

/-- From `s` to `t` nothing is made but the root for code outside of modules. -/
def Session.Unmoved (s t : Session) : Prop :=
  t.arena = s.arena ∧ t.openBlocks = s.openBlocks ∨
    s.openBlocks = [] ∧ t.arena = (s.arena.createRoot .synthetic).1 ∧
      t.openBlocks = [⟨s.arena.blocks.length⟩]

theorem Session.Unmoved.refl (s : Session) : s.Unmoved s := .inl ⟨rfl, rfl⟩

theorem Session.Unmoved.trans (h : s.Unmoved t) (h' : t.Unmoved u) : s.Unmoved u := by
  rcases h with ⟨harena, hopen⟩ | ⟨hnil, harena, hopen⟩
  · unfold Unmoved at h' ⊢
    rwa [harena, hopen] at h'
  · rcases h' with ⟨harena', hopen'⟩ | ⟨hnil', _⟩
    · exact .inr ⟨hnil, harena'.trans harena, hopen'.trans hopen⟩
    · rw [hopen] at hnil'
      cases hnil'

theorem unmoved_reject (s : Session) (construct : String) (span : Span) :
    After s (do Lower.reject construct span; return (none : Option Expr)) fun _ t => s.Unmoved t :=
  .inl ⟨rfl, rfl⟩

theorem unmoved_resolveName (names : SymbolTable) (s : Session) (id : Ident) :
    After s (Lower.resolveName names id) fun _ t => s.Unmoved t := by
  have hcur : After s Lower.currentBlock fun _ t => s.Unmoved t := by
    unfold After
    cases hb : s.current? with
    | some b =>
      rw [Lower.run_currentBlock_some hb]
      exact .refl s
    | none =>
      have hnil : s.openBlocks = [] := List.head?_eq_none_iff.1 hb
      rw [Lower.run_currentBlock_none hnil]
      exact .inr ⟨hnil, rfl, rfl⟩
  unfold Lower.resolveName After at *
  rw [Lower.run_bind, Lower.run_bind, Lower.run_lookup_eq]
  dsimp only
  cases (Lower.currentBlock.run s).2.arena.lookup? (Lower.currentBlock.run s).1
      (names.resolve id.name) with
  | some d => exact hcur
  | none => exact hcur

/-- In a sequence the second part starts where the first part ends. -/
theorem After.bindUnmoved {α β : Type} {x : Lower α} {f : α → Lower β}
    (hx : After s x fun _ t => s.Unmoved t)
    (hf : ∀ a t, After t (f a) fun _ u => t.Unmoved u) :
    After s (x >>= f) fun _ u => s.Unmoved u :=
  hx.trans (hf _ _)

mutual

theorem unmoved_expression (e : Expression) (s : Session)
    (he : (Node.expression e).isPassive = true)
    (h : Covers (Node.isPassive ·) (e.inner everywhere)) :
    After s (Lower.expression names e) fun _ t => s.Unmoved t := by
  cases e with
  | int | float =>
    simp only [Lowering.expression]
    exact .refl s
  | identifier id =>
    simp only [Lowering.expression]
    exact .bindUnmoved (unmoved_resolveName names s id) fun _ t => .refl t
  | binary operator left right span =>
    simp only [Lowering.expression]
    simp only [Expression.inner, covers_append, covers_enterExpression] at h
    cases operator.toIR? with
    | none => exact unmoved_reject s _ _
    | some op =>
      refine .bindUnmoved (unmoved_expression left s h.1.1 h.1.2) fun r t => ?_
      cases r with
      | none => exact .refl t
      | some lhs =>
        refine .bindUnmoved (unmoved_expression right t h.2.1 h.2.2) fun r u => ?_
        cases r <;> exact .refl u
  | assignment operator left right span =>
    cases operator with
    | assign => cases he
    | addAssign | subtractAssign | multiplyAssign | divideAssign | moduloAssign =>
      simp only [Lowering.expression]
      exact unmoved_reject s _ _
  | call callee typeArgs args span =>
    simp only [Lowering.expression]
    simp only [Expression.inner, covers_append, covers_enterExpression] at h
    cases ascriptionsSpan? typeArgs with
    | some place => exact unmoved_reject s _ _
    | none =>
      refine .bindUnmoved (unmoved_expression callee s h.1.1.1 h.1.1.2) fun r t => ?_
      cases r with
      | none => exact .refl t
      | some value =>
        refine .bindUnmoved (unmoved_expressions args t h.2) fun r u => ?_
        cases r <;> exact .refl u
  | function => cases he
  | parenthesized inner span =>
    simp only [Lowering.expression]
    simp only [Expression.inner, covers_enterExpression] at h
    exact unmoved_expression inner s h.1 h.2
  | string | template | boolean | null | this | super | array | object | unary | logical
  | conditional | member | index | new | comma | instanceOf | typeCast =>
    simp only [Lowering.expression]
    exact unmoved_reject s _ _

theorem unmoved_expressions (es : List Expression) (s : Session)
    (h : Covers (Node.isPassive ·) (innerExpressions everywhere es)) :
    After s (Lower.expressions names es) fun _ t => s.Unmoved t := by
  cases es with
  | nil =>
    simp only [Lowering.expressions]
    exact .refl s
  | cons e rest =>
    simp only [Lowering.expressions]
    simp only [innerExpressions, covers_append, covers_enterExpression] at h
    refine .bindUnmoved (unmoved_expression e s h.1.1 h.1.2) fun r t => ?_
    cases r with
    | none => exact .refl t
    | some value =>
      refine .bindUnmoved (unmoved_expressions rest t h.2) fun r u => ?_
      cases r <;> exact .refl u

end

/-! ## Statements and expressions -/

/-- In every state of a session, lowering a statement or an expression changes nothing that was
there before but the innermost open block, which gets more, and the placeholder of a function that
is declared directly in the body of its unit. A passive expression makes nothing. -/
theorem lowering_is_local (names : SymbolTable) (s : Session) (hs : Attained names s) :
    (∀ st : Statement,
      let t := ((Lower.statement names st).run s).2
      s.Local t ∧ (s.arena.decls <+: t.arena.decls ∨
        ∃ f b p, st = .functionDecl f ∧ s.LinksFunction names f b p t)) ∧
    ∀ e : Expression,
      let t := ((Lower.expression names e).run s).2
      s.Local t ∧ s.arena.decls <+: t.arena.decls ∧ (e.isPassive = true → s.Unmoved t) := by
  constructor
  · intro st
    have hruns := does_statementAt false st trivial (covers_anyNode _) _ s hs.good (Nat.le_refl _)
    exact ⟨hs.local hruns.1, hs.decls_statement st⟩
  · intro e
    have hruns := does_expression e (covers_anyNode _) _ s hs.good (Nat.le_refl _)
    refine ⟨hs.local hruns.1, (hs.adds_expression e).declsKept, fun hpassive => ?_⟩
    have hcovers : Covers (Node.isPassive ·) (e.visits everywhere) :=
      fun v hv => List.all_eq_true.1 hpassive v hv
    unfold Expression.visits at hcovers
    rw [covers_enterExpression] at hcovers
    exact unmoved_expression e s hcovers.1 hcovers.2

/-- In the body of `function f() {}` the function is linked to its placeholder, which stands in the
unit block; the call `f()` makes nothing there. -/
theorem local_in_body_of_function :
    let names : SymbolTable := ⟨["f"]⟩
    let id : Ident := ⟨⟨0⟩, .synthetic⟩
    let f : FunctionDecl := ⟨id, [], [], none, ⟨[], .synthetic⟩, .synthetic⟩
    let call : Expression := .call (.identifier id) [] [] .synthetic
    let s := (Session.run names [.options {}] {}).enterUnit names ⟨[.functionDecl f], .synthetic⟩
    let t := ((Lower.statement names (.functionDecl f)).run s).2
    let u := ((Lower.expression names call).run s).2
    Attained names s ∧ s.Local t ∧ (∃ b p, s.LinksFunction names f b p t) ∧
      t.arena.decl? ⟨0⟩ = some (placeholderFor names ⟨0⟩ (some ⟨1⟩) id) ∧
      call.isPassive = true ∧ s.Unmoved u := by
  intro names id f call s t u
  have hs : Attained names s := (attained_run names [.options {}]).enterUnit _
  obtain ⟨hstatements, hexpressions⟩ := lowering_is_local names s hs
  obtain ⟨hlocal, hdecls⟩ := hstatements (.functionDecl f)
  have hpassive : call.isPassive = true := by decide
  refine ⟨hs, hlocal, ?_, by decide +kernel, hpassive, (hexpressions call).2.2 hpassive⟩
  rcases hdecls with hprefix | ⟨f', b, p, hf, hlinks⟩
  · have hchanged : ¬s.arena.decls <+: t.arena.decls := by decide +kernel
    exact absurd hprefix hchanged
  · obtain rfl := Statement.functionDecl.inj hf
    exact ⟨b, p, hlinks⟩

end

end BlockLowering
