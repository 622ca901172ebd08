import BlockLowering.Proofs.ClosedScopes
import BlockLowering.Proofs.Reports
import BlockLowering.Proofs.Statements

/-!
# Temporaries

An assignment makes a temporary, assigns its value to the temporary and the temporary to its target.
`Tidy` says what lowering does with temporaries between two states: the old ones are assigned no more,
the new ones are assigned and read unless a problem is reported, and blocks read temporaries only
after they are assigned. While the parts of an assignment are lowered its own temporary is `Pending`.

1. A session reads a temporary only in its block and after an assignment to it; without problems all
   temporaries are assigned and read.
2. A temporary is assigned once, and a second time only where an assignment is the target of another.
-/

namespace BlockLowering

open IR Diagnostic Source Session

/-! ## Assignments as targets -/

/-- The expression is an assignment, perhaps in parentheses. -/
def Source.Expression.isAssignment : Expression → Bool
  | .assignment .assign _ _ _ => true
  | .parenthesized inner _ => inner.isAssignment
  | _ => false

/-- The node is an assignment to an assignment. -/
def Source.Node.isChained : Node → Bool
  | .expression (.assignment .assign left _ _) => left.isAssignment
  | _ => false

/-- Up to `k` assignments to one temporary are enough for the node. -/
def Allows (k : Nat) (n : Node) : Prop := n.isChained = true → 2 ≤ k

/-! ## Tidy passages -/

theorem IR.Arena.Grows.isTemporary_eq_false {a a' : Arena} {d : DeclId} (g : a.Grows a')
    (h : a'.isTemporary d = false) : a.isTemporary d = false := by
  cases hd : a.isTemporary d with
  | false => rfl
  | true =>
    rw [g.isTemporary hd] at h
    cases h

/-- What happens to the declaration `d` from `s` to `t`: an old temporary is assigned no more. A new
one is assigned at most `k` times; it is assigned and read unless a problem is reported. -/
structure Settled (k : Nat) (d : DeclId) (s t : Session) : Prop where
  old : s.arena.isTemporary d = true → t.arena.writes d = s.arena.writes d
  bound : s.arena.isTemporary d = false → t.arena.isTemporary d = true → t.arena.writes d ≤ k
  used : s.arena.isTemporary d = false → t.arena.isTemporary d = true → t.problems = s.problems →
    (∃ st ∈ t.arena.code, st.assigns d = true) ∧ ∃ st ∈ t.arena.code, st.reads d = true

/-- All declarations but the `spare` ones are settled from `s` to `t`, and blocks stay in order. -/
structure TidyBut (spare : DeclId → Prop) (k : Nat) (s t : Session) : Prop where
  grows : s.arena.Grows t.arena
  code : s.arena.code ⊆ t.arena.code
  problems : s.problems ≤ t.problems
  settled : ∀ d, ¬spare d → Settled k d s t
  ordered : s.arena.Ordered → t.arena.Ordered

abbrev Tidy (k : Nat) (s t : Session) : Prop := TidyBut (fun _ => False) k s t

section

variable {names : SymbolTable} {src : Node → Prop} {k n : Nat} {s t u : Session} {b c : BlockId}
  {d temp : DeclId} {spare spare' : DeclId → Prop}

theorem Settled.of_same (htemp : t.arena.isTemporary d = s.arena.isTemporary d)
    (hwrites : t.arena.writes d = s.arena.writes d) : Settled k d s t where
  old _ := hwrites
  bound hs ht := by
    rw [htemp, hs] at ht
    cases ht
  used hs ht := by
    rw [htemp, hs] at ht
    cases ht

/-- Only temporaries need to be settled. -/
theorem Settled.of_named (g : s.arena.Grows t.arena) (h : t.arena.isTemporary d = false) :
    Settled k d s t where
  old hs := by
    rw [g.isTemporary_eq_false h] at hs
    cases hs
  bound _ ht := by
    rw [h] at ht
    cases ht
  used _ ht := by
    rw [h] at ht
    cases ht

namespace TidyBut

theorem trans (h : TidyBut spare k s t) (h' : TidyBut spare k t u) : TidyBut spare k s u where
  grows := h.grows.trans h'.grows
  code := fun _ hst => h'.code (h.code hst)
  problems := Nat.le_trans h.problems h'.problems
  settled d hd := by
    have first := h.settled d hd
    have second := h'.settled d hd
    have hle := h.problems
    have hle' := h'.problems
    refine ⟨fun hs => ?_, fun hs hu => ?_, fun hs hu hproblems => ?_⟩
    · rw [second.old (h.grows.isTemporary hs), first.old hs]
    · cases ht : t.arena.isTemporary d with
      | true =>
        rw [second.old ht]
        exact first.bound hs ht
      | false => exact second.bound ht hu
    · cases ht : t.arena.isTemporary d with
      | true =>
        obtain ⟨⟨st, hst, hassigns⟩, st', hst', hreads⟩ := first.used hs ht (by omega)
        exact ⟨⟨st, h'.code hst, hassigns⟩, st', h'.code hst', hreads⟩
      | false => exact second.used ht hu (by omega)
  ordered ho := h'.ordered (h.ordered ho)

theorem mono (h : TidyBut spare k s t) (hspare : ∀ d, spare d → spare' d) :
    TidyBut spare' k s t :=
  { h with settled := fun d hd => h.settled d fun hs => hd (hspare d hs) }

/-- Nothing is spared if what was spared is settled. -/
theorem settle (h : TidyBut spare k s t) (hspare : ∀ d, spare d → Settled k d s t) :
    Tidy k s t := by
  refine { h with settled := fun d _ => ?_ }
  by_cases hd : spare d
  · exact hspare d hd
  · exact h.settled d hd

/-- Written temporaries stay written. -/
theorem written (h : TidyBut spare k s t) {cur : Option BlockId} {refs : List DeclRef}
    {blocks : List BlockId} (hscope : s.arena.InScope cur refs blocks) (hrefs : s.arena.Written refs) :
    t.arena.Written refs := by
  intro r hr htemp
  obtain ⟨_, _, x, hx, _⟩ := hscope.refs r hr
  rw [h.grows.isTemporary_eq hx] at htemp
  obtain ⟨st, hst, hassigns⟩ := hrefs r hr htemp
  exact ⟨st, h.code hst, hassigns⟩

end TidyBut

theorem Session.Still.tidy (h : s.Still t) (hs : s.Good names src) : TidyBut spare k s t where
  grows := h.grows
  code := by
    rw [h.code]
    exact List.Subset.refl _
  problems := h.problems
  settled d _ := .of_same (h.temporary d) (h.writes d)
  ordered ho := by
    obtain ⟨n, hn⟩ := h.bodies
    exact ho.of_bodies hs.arena h.grows hn

/-- The declaration that a statement assigns is not settled by it. -/
theorem Session.Gets.tidyBut {st : Stmt} (h : s.Gets st t)
    (ordered : s.arena.Ordered → t.arena.Ordered) :
    TidyBut (fun d => st.assigns d = true) k s t where
  grows := h.grows
  code := fun st' hst => (h.code st').2 (.inr hst)
  problems := Nat.le_of_eq h.problems.symm
  settled d hd := by
    refine .of_same (h.temporary d) ?_
    rw [h.writes, if_neg hd]
    rfl
  ordered := ordered

/-- A statement that assigns no temporary. -/
theorem tidy_addStmt (hs : s.Good names src) (hb : s.current? = some b) (st : Stmt)
    (hscope : s.arena.InScope (some b) st.refs st.blocks) (hwritten : s.arena.Written st.value.refs)
    (hnamed : ∀ d, st.assigns d = true → s.arena.isTemporary d = false) :
    After s (Lower.addStmt b st) fun _ t => Tidy k s t := by
  have hgets := gets_addStmt hs hb st
  refine (hgets.tidyBut (ordered_addStmt hs hb hscope hwritten)).settle fun d hd => ?_
  refine .of_named hgets.grows ?_
  rw [hgets.temporary]
  exact hnamed d hd

/-! ## An assignment on its way -/

/-- The temporary was made since `s`; it is assigned `n` times in `t`, and all others are settled. -/
structure Pending (k n : Nat) (temp : DeclId) (s t : Session) : Prop where
  tidy : TidyBut (· = temp) k s t
  new : s.arena.isTemporary temp = false
  made : t.arena.isTemporary temp = true
  writes : t.arena.writes temp = n

theorem pending_freshTemp (hs : s.Good names src) (hb : s.current? = some b) (span : Span) :
    After s (Lower.freshTemp b span) fun temp t => Pending k 0 temp s t := by
  obtain ⟨x, hx, ho⟩ := hs.current hb
  have hnone : s.arena.decl? ⟨s.arena.decls.length⟩ = none := List.getElem?_eq_none (Nat.le_refl _)
  have hgrows := Arena.Grows.withDecl s.arena b (Lower.tempDecl s b span)
  have hbodies : (s.arena.withDecl b (Lower.tempDecl s b span)).bodies =
      s.arena.bodies ++ .replicate 0 [] := (Arena.bodies_withDecl ..).trans (List.append_nil _).symm
  have hcode := Arena.code_of_bodies hbodies
  have hwrites : ∀ d, (s.arena.withDecl b (Lower.tempDecl s b span)).writes d = s.arena.writes d := by
    intro d
    unfold Arena.writes
    rw [hcode]
  have hdecl : ∀ d, (s.arena.withDecl b (Lower.tempDecl s b span)).decl? d =
      if d.index = s.arena.decls.length then some (Lower.tempDecl s b span) else s.arena.decl? d :=
    Arena.decl?_pushDecl s.arena _
  unfold After
  rw [Lower.run_freshTemp hx ho]
  refine ⟨⟨hgrows, ?_, Nat.le_refl _, fun d hd => .of_same ?_ (hwrites d), fun h => ?_⟩, ?_, ?_, ?_⟩
  · show s.arena.code ⊆ (s.arena.withDecl b _).code
    rw [hcode]
    exact List.Subset.refl _
  · show (s.arena.withDecl b _).isTemporary d = s.arena.isTemporary d
    unfold Arena.isTemporary
    rw [hdecl, if_neg fun h => hd (by rw [← h])]
  · exact h.of_bodies hs.arena hgrows hbodies
  · unfold Arena.isTemporary
    rw [hnone]
    rfl
  · show (s.arena.withDecl b _).isTemporary _ = true
    unfold Arena.isTemporary
    rw [hdecl, if_pos rfl]
    rfl
  · exact (hwrites _).trans (Arena.writes_eq_zero hs.arena hnone)

namespace Pending

theorem after (h : Tidy k s t) (h' : Pending k n temp t u) : Pending k n temp s u where
  tidy := (h.mono fun _ => False.elim).trans h'.tidy
  new := h.grows.isTemporary_eq_false h'.new
  made := h'.made
  writes := h'.writes

theorem trans (h : Pending k n temp s t) (h' : Tidy k t u) : Pending k n temp s u where
  tidy := h.tidy.trans (h'.mono fun _ => False.elim)
  new := h.new
  made := h'.grows.isTemporary h.made
  writes := ((h'.settled temp id).old h.made).trans h.writes

/-- The temporary is assigned. -/
theorem assign (h : Pending k n temp s t) (ht : t.Good names src) (hb : t.current? = some b)
    {value : Expr} {span : Span}
    (hscope : t.arena.InScope (some b) (⟨temp, span⟩ :: value.refs) ([] ++ value.blocks))
    (hwritten : t.arena.Written value.refs) :
    After t (Lower.addStmt b (.assign ⟨temp, span⟩ value span)) fun _ u =>
      Pending k (n + 1) temp s u := by
  have hgets := gets_addStmt ht hb (.assign ⟨temp, span⟩ value span)
  have htidy := hgets.tidyBut (k := k) (ordered_addStmt ht hb hscope hwritten)
  refine ⟨h.tidy.trans (htidy.mono fun d hd => (eq_of_beq hd).symm), h.new, ?_, ?_⟩
  · rw [hgets.temporary]
    exact h.made
  · rw [hgets.writes, h.writes, Stmt.assigns_assign, beq_self_eq_true, if_pos rfl]

/-- An assignment that is given up: its temporary need not be read. -/
theorem failed (h : Pending k n temp s t) (hn : n ≤ k) (hproblems : s.problems < t.problems) :
    Tidy k s t := by
  refine h.tidy.settle fun d hd => ?_
  subst hd
  refine ⟨fun hs => ?_, fun _ _ => h.writes ▸ hn, fun _ _ hsame => ?_⟩
  · rw [h.new] at hs
    cases hs
  · omega

end Pending

/-- What is known of the value of an expression that was lowered from `s` to `t`: its temporaries are
written. If it is a mere use of a temporary, the expression is an assignment, and the temporary was
made for it. -/
structure ValueOf (e : Expression) (s t : Session) (v : Expr) : Prop where
  written : t.arena.Written v.refs
  target : ∀ r, v = .ref r → t.arena.isTemporary r.decl = true →
    e.isAssignment = true ∧ s.arena.isTemporary r.decl = false ∧ t.arena.writes r.decl = 1

theorem ValueOf.of_written {e : Expression} {v : Expr} (h : t.arena.Written v.refs)
    (hv : v.isRef = false) : ValueOf e s t v := by
  refine ⟨h, fun r hr => ?_⟩
  rw [hr] at hv
  cases hv

/-- A name means no temporary. -/
theorem ValueOf.of_named {e : Expression} {r : DeclRef} (h : t.arena.isTemporary r.decl = false) :
    ValueOf e s t (.ref r) := by
  refine ⟨fun r' hr htemp => ?_, fun r' hr htemp => ?_⟩
  · rw [List.mem_singleton.1 hr, h] at htemp
    cases htemp
  · cases hr
    rw [h] at htemp
    cases htemp

theorem written_of_writes {r : DeclRef} (h : 0 < t.arena.writes r.decl) : t.arena.Written [r] := by
  intro r' hr _
  rw [List.mem_singleton.1 hr]
  exact Arena.writes_pos.1 h

/-- The value of an assignment is its temporary, which is assigned once so far. -/
theorem ValueOf.of_temporary {e : Expression} {r : DeclRef} (he : e.isAssignment = true)
    (hnew : s.arena.isTemporary r.decl = false) (hwrites : t.arena.writes r.decl = 1) :
    ValueOf e s t (.ref r) where
  written := written_of_writes (hwrites ▸ Nat.one_pos)
  target r' hr _ := by
    cases hr
    exact ⟨he, hnew, hwrites⟩

/-- The temporary is assigned to the target. If the target is a temporary too, it is that of an
assignment and is assigned for the second time. -/
theorem Pending.finish {left : Expression} {target : DeclRef} {span : Span}
    (h : Pending k 1 temp s t) (h' : Tidy k t u) (hv : ValueOf left t u (.ref target))
    (hk : 1 ≤ k) (hchained : left.isAssignment = true → 2 ≤ k) (hu : u.Good names src)
    (hb : u.current? = some b)
    (hscope : u.arena.InScope (some b) ([target] ++ [⟨temp, span⟩]) ([] ++ [])) :
    After u (Lower.addStmt b (.assign target (.ref ⟨temp, span⟩) span)) fun _ w =>
      Tidy k s w ∧ w.arena.writes temp = 1 := by
  have hlater := h.trans h'
  have hgets := gets_addStmt hu hb (.assign target (.ref ⟨temp, span⟩) span)
  have hwritten : u.arena.Written [⟨temp, span⟩] := written_of_writes (hlater.writes ▸ Nat.one_pos)
  have htidy := hgets.tidyBut (k := k) (ordered_addStmt hu hb hscope hwritten)
  have hne : target.decl ≠ temp := by
    intro heq
    obtain ⟨_, hnew, _⟩ := hv.target target rfl (heq ▸ hlater.made)
    rw [heq, h.made] at hnew
    cases hnew
  have hwrites := hgets.writes temp
  rw [hlater.writes, Stmt.assigns_assign, beq_false_of_ne hne, if_neg Bool.false_ne_true] at hwrites
  have hwhole : TidyBut (fun d => d = temp ∨ d = target.decl) k s _ :=
    (hlater.tidy.mono fun _ => .inl).trans (htidy.mono fun _ hd => .inr (eq_of_beq hd).symm)
  refine ⟨hwhole.settle fun d hd => ?_, hwrites⟩
  rcases hd with rfl | rfl
  · refine ⟨fun hs => ?_, fun _ _ => hwrites ▸ hk, fun _ _ _ => ⟨?_, _, (hgets.code _).2 (.inl rfl), ?_⟩⟩
    · rw [h.new] at hs
      cases hs
    · exact Arena.writes_pos.1 (hwrites ▸ Nat.one_pos)
    · exact List.any_eq_true.2 ⟨_, List.mem_singleton_self _, beq_self_eq_true d⟩
  · cases htemp : u.arena.isTemporary target.decl with
    | false => exact .of_named hwhole.grows ((hgets.temporary _).trans htemp)
    | true =>
      obtain ⟨hassignment, hnew, hone⟩ := hv.target target rfl htemp
      have htwice := hgets.writes target.decl
      rw [hone, Stmt.assigns_assign, beq_self_eq_true, if_pos rfl] at htwice
      refine ⟨fun hs => ?_, fun _ _ => htwice ▸ hchained hassignment, fun _ _ hsame => ?_⟩
      · rw [h.tidy.grows.isTemporary_eq_false hnew] at hs
        cases hs
      · -- Nothing was reported while the target was lowered, so its temporary was read.
        have hle := h.tidy.problems
        have hle' := h'.problems
        have hsame' := hgets.problems
        obtain ⟨⟨st, hst, hassigns⟩, st', hst', hreads⟩ :=
          (h'.settled target.decl id).used hnew htemp (by omega)
        exact ⟨⟨st, htidy.code hst, hassigns⟩, st', htidy.code hst', hreads⟩

/-! ## Rules -/

/-- Lowering an expression is tidy, and something is known of its value. -/
def ExprTidy (k : Nat) (e : Expression) (s : Session) (r : Option Expr) (t : Session) : Prop :=
  Tidy k s t ∧ ∀ v, r = some v → ValueOf e s t v

theorem ExprTidy.of_none {e : Expression} (h : Tidy k s t) : ExprTidy k e s none t :=
  ⟨h, fun _ hv => by cases hv⟩

theorem ExprTidy.of_some {e : Expression} {v : Expr} (h : Tidy k s t) (hv : ValueOf e s t v) :
    ExprTidy k e s (some v) t := by
  refine ⟨h, fun w hw => ?_⟩
  obtain rfl := Option.some.inj hw
  exact hv

theorem Tidy.refl (hs : s.Good names src) : Tidy k s s := (Still.refl s).tidy hs

theorem exprTidy_reject {e : Expression} (hs : s.Good names src) (construct : String)
    (span : Span) : After s (do Lower.reject construct span; return none) (ExprTidy k e s) :=
  .of_none ((still_report s _).tidy hs)

/-- An assignment that is rejected. -/
theorem Pending.rejected {e : Expression} (h : Pending k n temp s t) (hn : n ≤ k)
    (ht : t.Good names src) (construct : String) (span : Span) :
    After t (do Lower.reject construct span; return none) (ExprTidy k e s) := by
  have hstill := still_report t (.unsupported construct span)
  have hlt := problems_report t (.unsupported construct span)
  have hle := h.tidy.problems
  exact .of_none ((h.trans (hstill.tidy ht)).failed hn (Nat.lt_of_le_of_lt hle hlt))

theorem After.bindTidy {α : Type} {e : Expression} {f : Option Expr → Lower α}
    {post : α → Session → Prop} (hs : s.Good names anyNode)
    (he : After s (Lower.expression names e) (ExprTidy k e s))
    (hnone : ∀ t, t.Good names anyNode → Tidy k s t → s.problems < t.problems →
      After t (f none) post)
    (hsome : ∀ v t, t.Good names anyNode → s.Frame 0 t →
      t.arena.InScope t.current? v.refs v.blocks → Tidy k s t → ValueOf e s t v →
      After t (f (some v)) post) :
    After s (Lower.expression names e >>= f) post :=
  .bindExpression hs he (fun t ht h => hnone t ht h.1)
    fun v t ht hst hscope h => hsome v t ht hst hscope h.1 (h.2 v rfl)

theorem tidy_inBlock {body : Lower Unit} (hs : s.Good names anyNode) (hc : s.MayOpen c)
    (hdoes : Does names anyNode s.arena.blocks.length ((Lower.openBlock c).run s).2 body anything)
    (hbody : ∀ t, t.Good names anyNode → t.current? = some c →
      After t body fun _ u => Tidy k t u) :
    After s (Lower.inBlock c body) fun _ t => Tidy k s t := by
  have hopen := hs.openBlock hc
  have hstart : s.Still ((Lower.openBlock c).run s).2 := .of_arena rfl (Nat.le_refl _)
  have hwork := hbody _ hopen rfl
  obtain ⟨ht, hst⟩ := hdoes.1.good_frame hopen
  have hend := still_closeBlock ht (hst.current rfl)
  exact ((hstart.tidy hs).trans hwork).trans (hend.tidy ht)

theorem tidy_functionBody (hs : s.Good names anyNode) (hc : s.MayOpen c)
    (typeParams : List TypeParameter) (params : List Parameter) {statements : Lower Unit}
    (hdoes : AlwaysDoes names anyNode statements)
    (hbody : ∀ t, t.Good names anyNode → After t statements fun _ u => Tidy k t u) :
    After s (Lower.functionBody names c typeParams params statements) fun _ t => Tidy k s t := by
  unfold Lower.functionBody
  refine .bind hs (does_typeParameters typeParams) (still_typeParameters s typeParams)
    fun _ t ht _ hopen htypes => ?_
  have hopened := ht.openBlock (hopen c hc)
  have hwork : Does names anyNode t.arena.blocks.length ((Lower.openBlock c).run t).2
      (do Lower.parameters names c params; statements) anything := by
    refine .bind hopened (does_parameters hopened rfl fun _ _ => trivial) fun _ u hu huv _ => ?_
    exact hdoes _ u hu huv.arena.size
  refine (htypes.tidy hs).trans (tidy_inBlock ht (hopen c hc) hwork fun u hu hcur => ?_)
  refine .bind hu (does_parameters hu hcur fun _ _ => trivial) (still_parameters hu hcur params)
    fun _ v hv _ _ hparams => ?_
  exact (hparams.tidy hu).trans (hbody v hv)

/-! ## Expressions and statements -/

mutual

theorem tidy_expression (e : Expression) (he : Allows k (.expression e))
    (h : Covers (Allows k) (e.inner everywhere)) (hk : 1 ≤ k) (s : Session)
    (hs : s.Good names anyNode) : After s (Lower.expression names e) (ExprTidy k e s) := by
  cases e with
  | int value span =>
    simp only [Lowering.expression]
    exact .of_some (.refl hs) (.of_written .nil rfl)
  | float value span =>
    simp only [Lowering.expression]
    exact .of_some (.refl hs) (.of_written .nil rfl)
  | identifier id =>
    simp only [Lowering.expression]
    refine .bind hs (does_resolveName hs id) (still_resolveName hs id) fun r t _ _ _ hr => ?_
    obtain ⟨hstill, hnamed⟩ := hr
    cases r with
    | none => exact .of_none (hstill.tidy hs)
    | some x => exact .of_some (hstill.tidy hs) (.of_named (hnamed x rfl))
  | binary operator left right span =>
    simp only [Lowering.expression]
    simp only [Expression.inner, covers_append, covers_enterExpression] at h
    cases operator.toIR? with
    | none => exact exprTidy_reject hs _ _
    | some op =>
      refine .bindTidy hs (tidy_expression left h.1.1 h.1.2 hk s hs)
        (fun t _ hl _ => .of_none hl) fun lhs t ht _ hscope hl hlhs => ?_
      refine .bindTidy ht (tidy_expression right h.2.1 h.2.2 hk t ht)
        (fun u _ hr _ => .of_none (hl.trans hr)) fun rhs u _ _ _ hr hrhs => ?_
      exact .of_some (hl.trans hr)
        (.of_written ((hr.written hscope hlhs.written).append hrhs.written) rfl)
  | assignment operator left right span =>
    simp only [Expression.inner, covers_append, covers_enterExpression] at h
    cases operator with
    | assign =>
      simp only [Lowering.expression]
      refine .bind hs does_currentBlock (still_currentBlock s) fun b s₁ hs₁ h₁ hb still₁ => ?_
      refine .bind hs₁ (does_freshTemp hs₁ hb span) (pending_freshTemp (k := k) hs₁ hb span)
        fun temp s₂ hs₂ h₂ htemp made => ?_
      have made := made.after (still₁.tidy hs)
      refine .bindTidy hs₂ (tidy_expression right h.2.1 h.2.2 hk s₂ hs₂)
        (fun s₃ _ t₃ hlt => ?_) fun value s₃ hs₃ h₃ hvalue t₃ hheld => ?_
      · have hle := made.tidy.problems
        exact .of_none ((made.trans t₃).failed (Nat.zero_le k) (by omega))
      have hb₃ : s₃.current? = some b := h₃.current (h₂.current hb)
      rw [hb₃] at hvalue
      have htemp₃ := h₃.arena.sees htemp
      have hscope := (Arena.InScope.ref (r := ⟨temp, span⟩) htemp₃).append hvalue
      refine .bind hs₃ (does_addStmt hs₃ hb₃ hscope)
        ((made.trans t₃).assign hs₃ hb₃ hscope hheld.written) fun _ s₄ hs₄ h₄ _ assigned => ?_
      have hb₄ := h₄.current hb₃
      refine .bindTidy hs₄ (tidy_expression left h.1.1 h.1.2 hk s₄ hs₄)
        (fun s₅ _ t₅ hlt => ?_) fun target s₅ hs₅ h₅ htarget t₅ hheld₅ => ?_
      · have hle := assigned.tidy.problems
        exact .of_none ((assigned.trans t₅).failed hk (by omega))
      cases target with
      | ref target =>
        have hb₅ := h₅.current hb₄
        rw [hb₅] at htarget
        have htemp₅ := h₅.arena.sees (h₄.arena.sees htemp₃)
        have hscope₅ := htarget.append (.ref (r := ⟨temp, span⟩) htemp₅)
        refine .bind hs₅ (does_addStmt hs₅ hb₅ hscope₅)
          (assigned.finish t₅ hheld₅ hk he hs₅ hb₅ hscope₅) fun _ s₆ _ _ _ hdone => ?_
        exact .of_some hdone.1 (.of_temporary rfl assigned.new hdone.2)
      | int | float | binary | func | call =>
        exact (assigned.trans t₅).rejected hk hs₅ _ _
    | addAssign | subtractAssign | multiplyAssign | divideAssign | moduloAssign =>
      simp only [Lowering.expression]
      exact exprTidy_reject hs _ _
  | call callee typeArgs args span =>
    simp only [Lowering.expression]
    simp only [Expression.inner, covers_append, covers_enterExpression] at h
    cases ascriptionsSpan? typeArgs with
    | some place => exact exprTidy_reject hs _ _
    | none =>
      refine .bindTidy hs (tidy_expression callee h.1.1.1 h.1.1.2 hk s hs)
        (fun t _ hc _ => .of_none hc) fun f t ht _ hscope hc hf => ?_
      refine .bind ht (does_expressions args (covers_anyNode _) 0 t ht (Nat.zero_le _))
        (tidy_expressions args h.2 hk t ht) fun r u _ _ _ hargs => ?_
      cases r with
      | none => exact .of_none (hc.trans hargs.1)
      | some values =>
        exact .of_some (hc.trans hargs.1)
          (.of_written ((hargs.1.written hscope hf.written).append (hargs.2 values rfl)) rfl)
  | function name typeParams params result body span =>
    simp only [Lowering.expression]
    simp only [Expression.inner, covers_append, covers_enterKind] at h
    refine .bind hs does_currentBlock (still_currentBlock s) fun b s₁ hs₁ h₁ hb still₁ => ?_
    refine .bind hs₁ (does_createChild hs₁ hb body.span) (still_createChild hs₁ hb body.span)
      fun c s₂ hs₂ h₂ hc still₂ => ?_
    have hbody : AlwaysDoes names anyNode (Lower.group names body) :=
      does_group body (covers_anyNode _)
    refine .bind hs₂ (does_functionBody hs₂ hc.1.opens (Nat.zero_le _) (fun _ _ => trivial) hbody)
      (tidy_functionBody hs₂ hc.1.opens typeParams params hbody (tidy_group body h.2.2 hk))
      fun _ s₃ _ _ _ t₃ => ?_
    exact .of_some (((still₁.trans still₂).tidy hs).trans t₃) (.of_written .nil rfl)
  | parenthesized inner span =>
    simp only [Lowering.expression]
    simp only [Expression.inner, covers_enterExpression] at h
    obtain ⟨htidy, hvalue⟩ := tidy_expression inner h.1 h.2 hk s hs
    exact ⟨htidy, fun v hv => ⟨(hvalue v hv).written, (hvalue v hv).target⟩⟩
  | string | template | boolean | null | this | super | array | object | unary | logical
  | conditional | member | index | new | comma | instanceOf | typeCast =>
    simp only [Lowering.expression]
    exact exprTidy_reject hs _ _

theorem tidy_expressions (es : List Expression) (h : Covers (Allows k) (innerExpressions everywhere es))
    (hk : 1 ≤ k) (s : Session) (hs : s.Good names anyNode) :
    After s (Lower.expressions names es) fun r t =>
      Tidy k s t ∧ ∀ vs, r = some vs → t.arena.Written (Expr.refsAll vs) := by
  cases es with
  | nil =>
    simp only [Lowering.expressions]
    exact ⟨.refl hs, fun vs hvs => by cases hvs; exact .nil⟩
  | cons e rest =>
    simp only [Lowering.expressions]
    simp only [innerExpressions, covers_append, covers_enterExpression] at h
    refine .bindTidy hs (tidy_expression e h.1.1 h.1.2 hk s hs)
      (fun t _ he _ => ⟨he, fun _ hvs => by cases hvs⟩) fun v t ht _ hscope he hv => ?_
    refine .bind ht (does_expressions rest (covers_anyNode _) 0 t ht (Nat.zero_le _))
      (tidy_expressions rest h.2 hk t ht) fun r u _ _ _ hrest => ?_
    cases r with
    | none => exact ⟨he.trans hrest.1, fun _ hvs => by cases hvs⟩
    | some vs =>
      refine ⟨he.trans hrest.1, fun ws hws => ?_⟩
      cases hws
      exact (hrest.1.written hscope hv.written).append (hrest.2 vs rfl)

theorem tidy_initialValue (e : Option Expression) (h : Covers (Allows k) (innerExpression? everywhere e))
    (hk : 1 ≤ k) {b : BlockId} {target : DeclRef} {span : Span} (s : Session)
    (hs : s.Good names anyNode) (hb : s.current? = some b)
    (htarget : s.arena.Sees b target.decl) (hnamed : s.arena.isTemporary target.decl = false) :
    After s (Lower.initialValue names b target span e) fun _ t => Tidy k s t := by
  cases e with
  | none =>
    simp only [Lowering.initialValue]
    exact .refl hs
  | some e =>
    simp only [Lowering.initialValue]
    simp only [innerExpression?, covers_enterExpression] at h
    refine .bindTidy hs (tidy_expression e h.1 h.2 hk s hs) (fun t _ he _ => he)
      fun v t ht hst hv he hheld => ?_
    rw [hst.current hb] at hv
    have hscope := (Arena.InScope.ref (hst.arena.sees htarget)).append hv
    refine he.trans (tidy_addStmt ht (hst.current hb) _ hscope hheld.written fun d hd => ?_)
    obtain ⟨x, hx, _⟩ := htarget
    rw [← eq_of_beq hd, hst.arena.isTemporary_eq hx]
    exact hnamed

theorem tidy_variableDecl (d : VariableDecl) (h : Covers (Allows k) (d.inner everywhere))
    (hk : 1 ≤ k) (s : Session) (hs : s.Good names anyNode) :
    After s (Lower.variableDecl names d) fun _ t => Tidy k s t := by
  obtain ⟨kind, pattern, type, initial, span⟩ := d
  simp only [VariableDecl.inner, covers_append] at h
  cases pattern with
  | identifier id =>
    simp only [Lowering.variableDecl]
    refine .bind hs (does_ascription? hs type) (still_ascription? names s type)
      fun r s₁ hs₁ _ hr still₁ => ?_
    refine .bind hs₁ does_currentBlock (still_currentBlock s₁) fun b s₂ hs₂ h₂ hb still₂ => ?_
    have htyped : ∀ t, r = some t → ∃ x, type = some x ∧ Names names s₂.arena x t := by
      intro t ht
      obtain ⟨x, hx, head, nameSpan, place, decl, rfl, hdecl, hname⟩ := hr t ht
      exact ⟨_, hx, head, nameSpan, place, decl, rfl, h₂.arena.typeDecl hdecl, hname⟩
    have hd : anyNode (.statement (.variableDecl ⟨kind, .identifier id, type, initial, span⟩)) :=
      trivial
    refine .bind hs₂ (does_addDecl hs₂ hb (by simp) (annotated_of_names hd rfl htyped))
      (still_addDecl hs₂ hb (by simp)) fun d s₃ hs₃ h₃ hsees hdecl => ?_
    refine (((still₁.trans still₂).trans hdecl.1).tidy hs).trans ?_
    exact tidy_initialValue initial h.2 hk s₃ hs₃ (h₃.current hb) hsees hdecl.2
  | array | object =>
    simp only [Lowering.variableDecl]
    exact (still_report s _).tidy hs

theorem tidy_functionDecl (d : FunctionDecl) (h : Covers (Allows k) (d.inner everywhere))
    (hk : 1 ≤ k) (s : Session) (hs : s.Good names anyNode) :
    After s (Lower.functionDecl names d) fun _ t => Tidy k s t := by
  obtain ⟨id, typeParams, params, result, body, span⟩ := d
  simp only [FunctionDecl.inner, covers_append, covers_enterKind] at h
  simp only [Lowering.functionDecl]
  refine .bind hs does_currentBlock (still_currentBlock s) fun b s₁ hs₁ h₁ hb still₁ => ?_
  refine .bind hs₁ (does_addDecl hs₁ hb (by simp) (fun _ ht => by cases ht))
    (still_addDecl hs₁ hb (by simp)) fun d s₂ hs₂ h₂ hsees hdecl => ?_
  have hb₂ := h₂.current hb
  refine .bind hs₂ (does_linkHoisted hb₂ _ d) (still_linkHoisted hs₂ hb₂ _ d)
    fun _ s₃ hs₃ h₃ _ still₃ => ?_
  have hb₃ := h₃.current hb₂
  refine .bind hs₃ (does_createChild hs₃ hb₃ body.span) (still_createChild hs₃ hb₃ body.span)
    fun c s₄ hs₄ h₄ hc still₄ => ?_
  have hb₄ := h₄.current hb₃
  have still := still₃.trans still₄
  have hscope : s₄.arena.InScope (some b) ([⟨d, id.span⟩] ++ []) ([] ++ [c]) :=
    (Arena.InScope.ref (h₄.arena.sees (h₃.arena.sees hsees))).append (.block hc.1.parent)
  refine .bind hs₄ (does_addStmt hs₄ hb₄ hscope) (tidy_addStmt (k := k) hs₄ hb₄ _ hscope .nil ?_)
    fun _ s₅ hs₅ h₅ hopen tidy₅ => ?_
  · intro e he
    rw [← eq_of_beq he, still.temporary]
    exact hdecl.2
  · have hbody : AlwaysDoes names anyNode (Lower.group names body) :=
      does_group body (covers_anyNode _)
    have hstart := (((still₁.trans hdecl.1).trans still).tidy hs).trans tidy₅
    exact hstart.trans (tidy_functionBody hs₅ (hopen c hc.1.opens) typeParams params hbody
      (tidy_group body h.2.2 hk))

theorem tidy_group (g : Source.Block) (h : Covers (Allows k) (g.inner everywhere)) (hk : 1 ≤ k)
    (s : Session) (hs : s.Good names anyNode) :
    After s (Lower.group names g) fun _ t => Tidy k s t := by
  obtain ⟨statements, span⟩ := g
  simp only [Lowering.group]
  exact tidy_statementList statements h hk s hs

theorem tidy_statementAt (branch : Bool) (st : Statement)
    (h : Covers (Allows k) (st.inner everywhere)) (hk : 1 ≤ k) (s : Session)
    (hs : s.Good names anyNode) :
    After s (Lower.statementAt names branch st) fun _ t => Tidy k s t := by
  cases st with
  | variableDecl d =>
    simp only [Lowering.statementAt]
    exact tidy_variableDecl d h hk s hs
  | functionDecl d =>
    simp only [Lowering.statementAt]
    exact tidy_functionDecl d h hk s hs
  | namespaceDecl name members span =>
    simp only [Lowering.statementAt]
    simp only [Statement.inner, covers_append] at h
    refine .bind hs does_currentBlock (still_currentBlock s) fun b s₁ hs₁ h₁ hb still₁ => ?_
    refine .bind hs₁ (does_createChild hs₁ hb span) (still_createChild hs₁ hb span)
      fun c s₂ hs₂ h₂ hc still₂ => ?_
    refine ((still₁.trans still₂).tidy hs).trans (tidy_inBlock hs₂ hc.1.opens ?_ fun t ht _ => ?_)
    · exact does_statementList members (covers_anyNode _) _ _ (hs₂.openBlock hc.1.opens)
        (Nat.le_refl _)
    · exact tidy_statementList members h.2 hk t ht
  | expression value span =>
    simp only [Lowering.statementAt]
    simp only [Statement.inner, covers_enterExpression] at h
    refine .bindTidy hs (tidy_expression value h.1 h.2 hk s hs) (fun t _ he _ => he)
      fun v s₁ hs₁ _ hscope tidy₁ hv => ?_
    refine .bind hs₁ does_currentBlock (still_currentBlock s₁) fun b s₂ hs₂ h₂ hb still₂ => ?_
    have tidy₂ : Tidy k s₁ s₂ := still₂.tidy hs₁
    have hscope₂ := h₂.inScope hscope
    rw [hb] at hscope₂
    refine (tidy₁.trans tidy₂).trans (tidy_addStmt hs₂ hb (.drop v span) hscope₂ ?_ ?_)
    · exact tidy₂.written hscope hv.written
    · exact fun _ hd => by cases hd
  | ifElse condition thenBranch elseBranch span =>
    simp only [Lowering.statementAt]
    simp only [Statement.inner, covers_append, covers_enterExpression, covers_enterStatement] at h
    refine .bindTidy hs (tidy_expression condition h.1.1.1 h.1.1.2 hk s hs) (fun t _ he _ => he)
      fun cond s₁ hs₁ h₁ hscope tidy₁ hcond => ?_
    refine .bind hs₁ does_currentBlock (still_currentBlock s₁) fun b s₂ hs₂ h₂ hb still₂ => ?_
    refine .bind hs₂ (does_createChild hs₂ hb thenBranch.span)
      (still_createChild hs₂ hb thenBranch.span) fun c s₃ hs₃ h₃ hc still₃ => ?_
    have hb₃ := h₃.current hb
    refine .bind hs₃ (does_elseBlock? hs₃ hb₃ elseBranch) (still_elseBlock? hs₃ hb₃ elseBranch)
      fun e s₄ hs₄ h₄ he still₄ => ?_
    have hb₄ := h₄.current hb₃
    have tidy₄ : Tidy k s₁ s₄ := ((still₂.trans still₃).trans still₄).tidy hs₁
    have hscope₄ := h₄.inScope (h₃.inScope (h₂.inScope hscope))
    rw [hb₄] at hscope₄
    have hbranches : s₄.arena.InScope (some b) [] (c :: e.toList) := by
      refine ⟨by simp, fun x hx => ⟨b, rfl, ?_⟩⟩
      rcases List.mem_cons.1 hx with rfl | hx
      · exact h₄.arena.parent_some hc.1.parent
      · exact (he.1 x (Option.mem_toList.1 hx)).parent
    have hstmt := hbranches.append hscope₄
    refine .bind hs₄ (does_addStmt hs₄ hb₄ hstmt) (tidy_addStmt (k := k) hs₄ hb₄
      (.ifElse cond c e span) hstmt (tidy₄.written hscope hcond.written)
      fun _ hd => by cases hd) fun _ s₅ hs₅ h₅ hopen tidy₅ => ?_
    have hc₅ := hopen c (he.2 c hc.1.opens)
    have hthen : AlwaysDoes names anyNode (Lower.statementAt names true thenBranch) :=
      does_statementAt true thenBranch trivial (covers_anyNode _)
    have hwork := hthen _ _ (hs₅.openBlock hc₅) (Nat.le_refl _)
    refine .bind hs₅ (does_inBlock hs₅ hc₅ (Nat.zero_le _) hwork) (tidy_inBlock hs₅ hc₅ hwork
      fun t ht _ => tidy_statementAt true thenBranch h.1.2.2 hk t ht)
      fun _ s₆ hs₆ _ hopen₆ tidy₆ => ?_
    refine (((tidy₁.trans tidy₄).trans tidy₅).trans tidy₆).trans ?_
    refine tidy_elseBody e elseBranch h.2 hk s₆ hs₆ fun x hx => ?_
    have hx' := he.1 x hx
    have hidx := hx'.index
    have hlt := hc.1.opens.index_lt
    refine hopen₆ x (hopen x hx'.opens) ?_
    rintro rfl
    omega
  | whileLoop condition body span =>
    simp only [Lowering.statementAt]
    simp only [Statement.inner, covers_append, covers_enterExpression, covers_enterStatement] at h
    refine .bindTidy hs (tidy_expression condition h.1.1 h.1.2 hk s hs) (fun t _ he _ => he)
      fun cond s₁ hs₁ h₁ hscope tidy₁ hcond => ?_
    refine .bind hs₁ does_currentBlock (still_currentBlock s₁) fun b s₂ hs₂ h₂ hb still₂ => ?_
    refine .bind hs₂ (does_createChild hs₂ hb body.span) (still_createChild hs₂ hb body.span)
      fun c s₃ hs₃ h₃ hc still₃ => ?_
    have hb₃ := h₃.current hb
    have tidy₃ : Tidy k s₁ s₃ := (still₂.trans still₃).tidy hs₁
    have hscope₃ := h₃.inScope (h₂.inScope hscope)
    rw [hb₃] at hscope₃
    have hstmt := (Arena.InScope.block hc.1.parent).append hscope₃
    refine .bind hs₃ (does_addStmt hs₃ hb₃ hstmt) (tidy_addStmt (k := k) hs₃ hb₃
      (.whileLoop cond c span) hstmt (tidy₃.written hscope hcond.written)
      fun _ hd => by cases hd) fun _ s₄ hs₄ _ hopen tidy₄ => ?_
    have hc₄ := hopen c hc.1.opens
    refine ((tidy₁.trans tidy₃).trans tidy₄).trans (tidy_inBlock hs₄ hc₄ ?_ fun t ht _ => ?_)
    · exact does_statementAt true body trivial (covers_anyNode _) _ _ (hs₄.openBlock hc₄)
        (Nat.le_refl _)
    · exact tidy_statementAt true body h.2.2 hk t ht
  | block braces =>
    simp only [Lowering.statementAt]
    cases branch with
    | true => exact tidy_group braces h hk s hs
    | false =>
      refine .bind hs does_currentBlock (still_currentBlock s) fun b s₁ hs₁ h₁ hb still₁ => ?_
      refine .bind hs₁ (does_createChild hs₁ hb braces.span) (still_createChild hs₁ hb braces.span)
        fun c s₂ hs₂ h₂ hc still₂ => ?_
      refine ((still₁.trans still₂).tidy hs).trans (tidy_inBlock hs₂ hc.1.opens ?_ fun t ht _ => ?_)
      · exact does_group braces (covers_anyNode _) _ _ (hs₂.openBlock hc.1.opens) (Nat.le_refl _)
      · exact tidy_group braces h hk t ht
  | empty span =>
    simp only [Lowering.statementAt]
    exact .refl hs
  | classDecl | typeAlias | importDecl | exportDecl | switch | doWhile | forLoop | forOf | breakTo
  | continueTo | returnValue | throwValue | tryCatch =>
    simp only [Lowering.statementAt]
    exact (still_report s _).tidy hs

theorem tidy_elseBody (e : Option BlockId) (branch : Option Statement)
    (h : Covers (Allows k) (innerStatement? everywhere branch)) (hk : 1 ≤ k) (s : Session)
    (hs : s.Good names anyNode) (he : ∀ x, e = some x → s.MayOpen x) :
    After s (Lower.elseBody names e branch) fun _ t => Tidy k s t := by
  cases branch with
  | none =>
    cases e <;> simp only [Lowering.elseBody] <;> exact .refl hs
  | some st =>
    simp only [innerStatement?, covers_enterStatement] at h
    cases e with
    | none =>
      simp only [Lowering.elseBody]
      exact .refl hs
    | some x =>
      simp only [Lowering.elseBody]
      have hx := he x rfl
      refine tidy_inBlock hs hx ?_ fun t ht _ => tidy_statementAt true st h.2 hk t ht
      exact does_statementAt true st trivial (covers_anyNode _) _ _ (hs.openBlock hx) (Nat.le_refl _)

theorem tidy_statementList (sts : List Statement)
    (h : Covers (Allows k) (innerStatements everywhere sts)) (hk : 1 ≤ k) (s : Session)
    (hs : s.Good names anyNode) :
    After s (Lower.statementList names sts) fun _ t => Tidy k s t := by
  cases sts with
  | nil =>
    simp only [Lowering.statementList]
    exact .refl hs
  | cons st rest =>
    simp only [Lowering.statementList]
    simp only [innerStatements, covers_append, covers_enterStatement] at h
    refine .bind hs (does_statementAt false st trivial (covers_anyNode _) 0 s hs (Nat.zero_le _))
      (tidy_statementAt false st h.1.2 hk s hs) fun _ t ht _ _ hst => ?_
    exact hst.trans (tidy_statementList rest h.2 hk t ht)

end

/-! ## Sessions -/

theorem tidy_module (hs : Reachable names anyNode s) {m : Module}
    (h : Covers (Allows k) (innerStatements everywhere m.statements)) (hk : 1 ≤ k) :
    Tidy k s ((Lower.module names m).run s).2 := by
  have hin := hs.enterUnit m
  have hstatements := tidy_statementList m.statements h hk _ hin.good
  obtain ⟨hgood, _⟩ := hs.unitStatements m
  rw [run_module hs m]
  exact (((still_enterUnit names m s).tidy hs.good).trans hstatements).trans
    ((still_leaveUnit s _).tidy hgood)

theorem tidy_run (names : SymbolTable) {steps : List Step} (hk : 1 ≤ k)
    (h : ∀ n, Lowered steps n → Allows k n) : Tidy k {} (Session.run names steps {}) := by
  have hkept : Kept names (Allows k) (fun _ => True) (Tidy k {}) := by
    refine ⟨fun s chosen _ h => ?_, fun s m hs hm h => h.trans (tidy_module hs hm hk), ?_⟩
    · exact ⟨h.grows, h.code, h.problems, fun d hd => ⟨(h.settled d hd).old, (h.settled d hd).bound,
        (h.settled d hd).used⟩, h.ordered⟩
    · intro s st hs _ hst h
      exact h.trans (tidy_statementAt false st hst hk s hs.good)
  have hstart : Reachable names anyNode {} := .start
  refine hkept.run hstart (.refl hstart.good) (fun _ _ => trivial) ?_
  exact fun _ hstep _ hpiece v hv => h _ (covers_lowered hstep hpiece v hv)

/-- Two assignments to a temporary are always enough. -/
theorem allows_two (n : Node) : Allows 2 n := fun _ => Nat.le_refl 2

theorem ordered_run (names : SymbolTable) (steps : List Step) :
    (Session.run names steps {}).arena.Ordered := by
  refine (tidy_run names (Nat.le_succ 1) fun n _ => allows_two n).ordered fun body hbody => ?_
  cases hbody

/-- In every session a statement that reads a temporary stands in the block that owns the temporary,
after a statement that assigns it. So a temporary that is never assigned is never read. If no problem
was reported, every temporary is assigned and read. -/
theorem run_temporaries_defined (names : SymbolTable) (steps : List Step) :
    let s := Session.run names steps {}
    (∀ (b : BlockId) (x : IR.Block) (i : Nat) (st : Stmt) (d : DeclId) (y : Decl),
      s.arena.block? b = some x → x.stmts[i]? = some st → s.arena.decl? d = some y →
      y.isTemporary = true → st.reads d = true → y.owner = b ∧
        ∃ (j : Nat) (first : Stmt), j < i ∧ x.stmts[j]? = some first ∧ first.assigns d = true) ∧
    (∀ d, s.arena.isTemporary d = true → s.arena.writes d = 0 →
      ∀ st ∈ s.arena.code, st.reads d = false) ∧
    (s.log.records = [] → ∀ d, s.arena.isTemporary d = true →
      (∃ st ∈ s.arena.code, st.assigns d = true) ∧ ∃ st ∈ s.arena.code, st.reads d = true) := by
  intro s
  have ha := (reachable_run names steps).good.arena
  have hordered : s.arena.Ordered := ordered_run names steps
  have htidy : Tidy 2 {} s := tidy_run names (Nat.le_succ 1) fun n _ => allows_two n
  refine ⟨fun b x i st d y hx hi hy hkind hreads => ?_, ?_, fun hsilent d htemp => ?_⟩
  · have htemp := (Arena.isTemporary_of_decl? hy).trans hkind
    obtain ⟨r, hr, rfl⟩ := Stmt.exists_ref_of_reads hreads
    refine ⟨?_, hordered _ (Arena.stmts_mem_bodies hx) i st r.decl hi htemp hreads⟩
    exact Arena.owner_of_use ha hx (List.mem_of_getElem? hi) (List.mem_append_right _ hr) hy hkind
  · exact fun d htemp hnever st hst => hordered.reads_eq_false htemp hnever hst
  · refine (htidy.settled d id).used rfl htemp ?_
    unfold Session.problems
    rw [hsilent]
    rfl

/-! ## Targets -/

/-- The value of an expression is a mere use of a temporary only if the expression is an
assignment. -/
theorem Desugars.isTemporary_ref {means : Ident → Option DeclId} {temporary : DeclId → Bool}
    (hnamed : ∀ id d, means id = some d → temporary d = false) (e : Expression) {l : List Stmt}
    {r : DeclRef} (h : Desugars means temporary e l (.ref r)) :
    temporary r.decl = e.isAssignment := by
  cases e with
  | identifier id =>
    cases h with
    | identifier found => exact hnamed _ _ found
  | assignment operator left right span =>
    cases h with
    | assignment fresh first second => exact fresh
  | parenthesized inner span =>
    cases h with
    | parenthesized inside => exact Desugars.isTemporary_ref hnamed inner inside
  | _ => cases h

/-- An assignment with a value ends with the assignment of its temporary to its target. The target is
a temporary exactly if it is an assignment itself. -/
theorem assignment_target (hs : s.Good names anyNode) (left right : Expression) (span : Span) :
    After s (Lower.expression names (.assignment .assign left right span)) fun r t =>
      ∀ v, r = some v → ∃ before target temp,
        t.currentStmts = before ++ [.assign target (.ref temp) span] ∧ v = .ref temp ∧
          t.arena.isTemporary temp.decl = true ∧
          t.arena.isTemporary target.decl = left.isAssignment := by
  intro v hv
  obtain ⟨lifted, happends, hdesugars⟩ := desugars_expression _ s hs v hv
  obtain ⟨_, hframe⟩ := (does_expression (.assignment .assign left right span) (covers_anyNode _) 0 s
    hs (Nat.zero_le _)).1.good_frame hs
  cases hdesugars with
  | @assignment _ _ _ l r value target temp fresh first second =>
    refine ⟨s.currentStmts ++ (r ++ ([.assign ⟨temp, span⟩ value span] ++ l)), target, ⟨temp, span⟩,
      ?_, rfl, fresh, Desugars.isTemporary_ref (fun id d hmeans => ?_) left second⟩
    · rw [happends.stmts]
      simp only [List.append_assoc]
    · obtain ⟨x, hx, htemp⟩ := means_isTemporary hmeans
      rw [hframe.arena.isTemporary_eq hx, htemp]

/-- What may not be assigned is rejected, once both sides have a value. -/
theorem assignment_rejected (hs : s.Good names anyNode) {left : Expression} (right : Expression)
    (span : Span) (hleft : left.isTarget = false) :
    After s (Lower.expression names (.assignment .assign left right span)) fun r t =>
      r = none ∧ (right.lowers names s.env = true → left.lowers names s.env = true →
        t.log.records.getLast? =
          some (Problem.unsupported ("assignment to " ++ left.kind.description) left.span).record) := by
  have hfinds := finds_expression (.assignment .assign left right span) s hs
  have hvalue := hfinds.value
  have hreports := hfinds.reports
  unfold Expression.lowers at hvalue
  unfold Reports Expression.findings at hreports
  rw [hleft, Bool.and_false] at hvalue
  refine ⟨Option.isSome_eq_false_iff.1 hvalue |> Option.isNone_iff_eq_none.1, fun hr hl => ?_⟩
  rw [hreports]
  simp only [hr, hl, hleft, if_true, Bool.not_false, Bool.and_self, List.map_append, List.map_cons,
    List.map_nil, ← List.append_assoc, List.getLast?_concat]
  rfl

/-- In every session a temporary is assigned at most twice, and twice only if an assignment stands as
the target of another. In an assignment the last statement assigns a temporary exactly if the target
is an assignment itself; a target that is neither a name nor an assignment is rejected. -/
theorem run_temporaries_written (names : SymbolTable) (steps : List Step) :
    (let a := (Session.run names steps {}).arena
     ∀ d, a.isTemporary d = true → a.writes d ≤ 2 ∧
      (1 < a.writes d → ∃ n, Lowered steps n ∧ n.isChained = true)) ∧
    ∀ (s : Session) (left right : Expression) (span : Span), Reachable names anyNode s →
      let r := (Lower.expression names (.assignment .assign left right span)).run s
      (∀ v, r.1 = some v → ∃ before target temp,
        r.2.currentStmts = before ++ [.assign target (.ref temp) span] ∧ v = .ref temp ∧
          r.2.arena.isTemporary temp.decl = true ∧
          r.2.arena.isTemporary target.decl = left.isAssignment) ∧
      (left.isTarget = false → r.1 = none ∧
        (right.lowers names s.env = true → left.lowers names s.env = true →
          r.2.log.records.getLast? = some
            (Problem.unsupported ("assignment to " ++ left.kind.description) left.span).record)) := by
  refine ⟨fun d htemp => ⟨?_, fun htwice => ?_⟩, fun s left right span hs => ?_⟩
  · have htidy := tidy_run names (k := 2) (Nat.le_succ 1) fun n (_ : Lowered steps n) => allows_two n
    exact (htidy.settled d id).bound rfl htemp
  · by_contra hnone
    have hallows : ∀ n, Lowered steps n → Allows 1 n := by
      intro n hn hchained
      exact absurd ⟨n, hn, hchained⟩ hnone
    have honce := ((tidy_run names (Nat.le_refl 1) hallows).settled d id).bound rfl htemp
    omega
  · exact ⟨assignment_target hs.good left right span, assignment_rejected hs.good right span⟩

/-- In `(x = 1) = 2` the temporary of the inner assignment is assigned twice, and nothing is
reported. -/
theorem assignment_to_assignment_accepted :
    let names : SymbolTable := ⟨["x"]⟩
    let x : Ident := ⟨⟨0⟩, .synthetic⟩
    let declaration : Statement :=
      .variableDecl ⟨.letBinding, .identifier x, none, none, .synthetic⟩
    let inner : Expression := .assignment .assign (.identifier x) (.int 1 .synthetic) .synthetic
    let outer : Expression :=
      .assignment .assign (.parenthesized inner .synthetic) (.int 2 .synthetic) .synthetic
    let steps : List Step := [.module ⟨[declaration, .expression outer .synthetic], .synthetic⟩]
    let s := Session.run names steps {}
    s.log.records = [] ∧ s.arena.isTemporary ⟨2⟩ = true ∧ s.arena.writes ⟨2⟩ = 2 ∧
      ∃ n, Lowered steps n ∧ n.isChained = true := by
  intro names x declaration inner outer steps s
  have htemp : s.arena.isTemporary ⟨2⟩ = true := by decide +kernel
  have hwrites : s.arena.writes ⟨2⟩ = 2 := by decide +kernel
  have hsilent : s.log.records = [] := by decide +kernel
  obtain ⟨hbound, _⟩ := run_temporaries_written names steps
  exact ⟨hsilent, htemp, hwrites, (hbound ⟨2⟩ htemp).2 (Nat.lt_of_lt_of_eq Nat.one_lt_two hwrites.symm)⟩

end

end BlockLowering
