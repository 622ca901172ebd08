import BlockLowering.Proofs.Desugaring
import BlockLowering.Proofs.Scoping

/-!
# Conditions of loops

A loop runs its condition before every round. The assignments in the condition are lifted out of it
like those of any other expression, to the block around the loop, where they run once.
`while_appends_only_loop_iff` counts them: a loop is lowered to a single statement exactly if its
condition makes no assignment.
-/

namespace BlockLowering

open IR Source Session

section

variable {names : SymbolTable} {s : Session}

/-- Lowering a loop appends what its condition appends, and then the loop. -/
theorem appends_whileLoop (hs : s.Good names anyNode) (branch : Bool) (condition : Expression)
    (body : Statement) (span : Span) {c : Expr}
    (lowers : ((Lower.expression names condition).run s).1 = some c) :
    After s (Lower.statementAt names branch (.whileLoop condition body span)) fun _ t =>
      ∃ lifted b, Appends (lifted ++ [.whileLoop c b span]) s t ∧
        (∀ stmt ∈ lifted, stmt.isAssign = true) ∧ lifted.length = 2 * condition.assignments := by
  simp only [Lowering.statementAt]
  have hcondition : After s (Lower.expression names condition) fun r t =>
      r = some c ∧ Desugared names condition s r t :=
    ⟨lowers, desugars_expression condition s hs⟩
  refine .bind hs (does_expression condition (covers_anyNode _) 0 s hs (Nat.zero_le _)) hcondition
    fun r s₁ hs₁ _ hscope hr => ?_
  obtain ⟨rfl, hdesugared⟩ := hr
  obtain ⟨lifted, a₁, hd⟩ := hdesugared c rfl
  refine .bind hs₁ does_currentBlock (appends_currentBlock s₁) fun block s₂ hs₂ h₂ hb a₂ => ?_
  refine .bind hs₂ (does_createChild hs₂ hb body.span) (appends_createChild hs₂ hb body.span)
    fun b s₃ hs₃ h₃ hc a₃ => ?_
  have hb₃ := h₃.current hb
  have hcond := h₃.inScope (h₂.inScope (hscope c rfl))
  rw [hb₃] at hcond
  have hstmt := (Arena.InScope.block hc.1.parent).append hcond
  refine .bind hs₃ (does_addStmt hs₃ hb₃ hstmt) (appends_addStmt hs₃ hb₃ hstmt)
    fun _ s₄ hs₄ h₄ hopen a₄ => ?_
  have hc₄ := hopen b hc.1.opens
  have hbody : AlwaysDoes names anyNode (Lower.statementAt names true body) :=
    does_statementAt true body trivial (covers_anyNode _)
  have a₅ := appends_inBlock hs₄ (h₄.current hb₃) hc₄ (h₄.arena.parent_some hc.1.parent)
    (hbody _ _ (hs₄.openBlock hc₄) (Nat.le_refl _))
  refine ⟨lifted, b, ?_, hd.isAssign, hd.length_eq⟩
  have happ := a₁.trans (a₂.trans (a₃.trans (a₄.trans a₅)))
  simpa using happ

/-- In any state that lowering passes through, a loop whose condition can be lowered is appended to
the innermost open block behind two assignments for each assignment of the condition. So the loop is
all that is appended exactly if its condition makes no assignment. -/
theorem while_appends_only_loop_iff {c : Expr} (reachable : Reachable names anyNode s)
    (branch : Bool) (condition : Expression) (body : Statement) (span : Span)
    (lowers : ((Lower.expression names condition).run s).1 = some c) :
    let t := ((Lower.statementAt names branch (.whileLoop condition body span)).run s).2
    ∃ lifted b, t.currentStmts = s.currentStmts ++ (lifted ++ [.whileLoop c b span]) ∧
      (∀ stmt ∈ lifted, stmt.isAssign = true) ∧ lifted.length = 2 * condition.assignments ∧
      (t.currentStmts = s.currentStmts ++ [.whileLoop c b span] ↔ condition.assignments = 0) := by
  intro t
  obtain ⟨lifted, b, happ, hassign, hlength⟩ :=
    appends_whileLoop reachable.good branch condition body span lowers
  refine ⟨lifted, b, happ.stmts, hassign, hlength, ?_⟩
  rw [happ.stmts, List.append_right_inj, List.append_left_eq_self]
  rw [← List.length_eq_zero_iff, hlength]
  omega

/-- In `while (x = 1) {}` the assignment to `x` runs once, before the loop. -/
theorem while_assignment_runs_once :
    let names : SymbolTable := ⟨["x"]⟩
    let x : Ident := ⟨⟨0⟩, .synthetic⟩
    let zero : Expression := .int 0 .synthetic
    let s := Session.run names
      [.statement (.variableDecl ⟨.letBinding, .identifier x, none, some zero, .synthetic⟩)] {}
    let condition : Expression :=
      .assignment .assign (.identifier x) (.int 1 .synthetic) .synthetic
    let t := ((Lower.statementAt names false
      (.whileLoop condition (.block ⟨[], .synthetic⟩) .synthetic)).run s).2
    ∃ c first second b, ((Lower.expression names condition).run s).1 = some c ∧
      t.currentStmts = s.currentStmts ++ [first, second, .whileLoop c b .synthetic] ∧
      first.isAssign = true ∧ second.isAssign = true := by
  intro names x zero s condition t
  have hsome : ((Lower.expression names condition).run s).1.isSome = true := by
    decide +kernel
  obtain ⟨c, hc⟩ := Option.isSome_iff_exists.1 hsome
  have reachable : Reachable names anyNode s := Reachable.start.run fun _ _ _ _ => covers_anyNode _
  obtain ⟨lifted, b, hstmts, hassign, hlength, _⟩ := while_appends_only_loop_iff reachable false
    condition (.block ⟨[], .synthetic⟩) .synthetic hc
  obtain ⟨first, second, rfl⟩ := List.length_eq_two.1 hlength
  refine ⟨c, first, second, b, hc, hstmts, ?_, ?_⟩
  · exact hassign first (by simp)
  · exact hassign second (by simp)

end

end BlockLowering
