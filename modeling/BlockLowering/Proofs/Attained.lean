import BlockLowering.Proofs.ClosedScopes

/-!
# The states of a session

`Attained` holds of the states in which statements and expressions are lowered: between the steps of
a session, in the unit block and in the body of a module, and inside any statement or expression.
It is `Reachable` with one thing more: a body counts as the body of the unit exactly while it is
open (`Attained.bodyOpen`).
-/

namespace BlockLowering

open IR Source Session

/-- The states of a session, from the empty one on. The body of a unit is opened and closed together
with its registration in the session. -/
inductive Attained (names : SymbolTable) : Session → Prop
  | start : Attained names {}
  | options {s : Session} (h : Attained names s) (chosen : Options) :
      Attained names { s with options := chosen }
  | types {s : Session} (h : Attained names s) : Attained names (Lower.ensureTypeScope.run s).2
  | root {s : Session} (h : Attained names s) (span : Span) :
      Attained names ((Lower.createRoot span).run s).2
  | act {s t : Session} (h : Attained names s) (h' : Act names anyNode s t) : Attained names t
  | enter {s : Session} {c : BlockId} (h : Attained names s) (opens : s.MayOpen c) :
      Attained names ((Lower.openBlock c).run s).2
  | leave {s : Session} {c : BlockId} (h : Attained names s) (here : s.current? = some c)
      (inner : s.unitBody ≠ some c) : Attained names ((Lower.closeBlock c).run s).2
  | enterBody {s : Session} {c : BlockId} (h : Attained names s) (opens : s.MayOpen c) :
      Attained names { ((Lower.openBlock c).run s).2 with unitBody := some c }
  /-- The body of an outer unit is open meanwhile. -/
  | leaveBody {s : Session} {c : BlockId} {outer : Option BlockId} (h : Attained names s)
      (here : s.current? = some c) (stillOpen : ∀ b, outer = some b → b ∈ s.openBlocks.tail) :
      Attained names { ((Lower.closeBlock c).run s).2 with unitBody := outer }

section

variable {names : SymbolTable} {s t : Session} {c : BlockId} {n : Nat}

namespace Attained

theorem reachable (h : Attained names s) : Reachable names anyNode s := by
  induction h with
  | start => exact .start
  | options _ chosen ih => exact ih.options chosen
  | types _ ih => exact ih.types
  | root _ span ih => exact ih.root span
  | act _ h' ih => exact ih.act h'
  | enter _ opens ih => exact ih.enter opens
  | leave _ here _ ih => exact ih.leave here
  | enterBody _ opens ih => exact (ih.enter opens).unitBody _
  | leaveBody _ here _ ih => exact (ih.leave here).unitBody _

theorem good (h : Attained names s) : s.Good names anyNode := h.reachable.good

/-- While a module is being lowered, its body is open. -/
theorem bodyOpen (h : Attained names s) : s.BodyOpen := by
  induction h with
  | start => exact nofun
  | options _ _ ih => exact ih
  | @types s _ ih =>
    obtain ⟨scopes, ids, hrun⟩ := run_ensureTypeScope_fields s
    rw [hrun]
    exact ih
  | root _ _ ih => exact ih
  | @act s t hs h' ih =>
    have hframe := (h'.good_frame (n := 0) hs.good).2
    intro b hb
    rw [hframe.unitBody] at hb
    have hmem := ih b hb
    rcases hframe.stack with hsame | ⟨hnil, _⟩
    · rwa [hsame]
    · rw [hnil] at hmem
      cases hmem
  | enter _ _ ih => exact fun b hb => List.mem_cons_of_mem _ (ih b hb)
  | @leave s c hs here inner ih =>
    rw [hs.good.run_closeBlock here]
    intro b hb
    have hmem := ih b hb
    rw [openBlocks_eq_cons here] at hmem
    refine (List.mem_cons.1 hmem).resolve_left ?_
    rintro rfl
    exact inner hb
  | enterBody _ _ _ =>
    intro b hb
    obtain rfl := Option.some.inj hb
    exact List.mem_cons_self
  | leaveBody hs here stillOpen _ =>
    rw [hs.good.run_closeBlock here]
    exact stillOpen

/-- Runs lead from states of a session to states of a session. -/
theorem runs (h : Attained names s) (hrun : Runs names anyNode n s t) : Attained names t := by
  induction hrun with
  | done s => exact h
  | act h' => exact h.act h'
  | trans _ _ ih ih' => exact ih' (ih h)
  | @within s t c opens _ hrun ih =>
    have hin := h.enter opens
    have hframe := (hrun.good_frame hin.good).2
    refine (ih hin).leave (hframe.current rfl) fun hunit => ?_
    -- What is opened only now is not the body of the unit.
    rw [hframe.unitBody] at hunit
    exact opens.closed (h.bodyOpen c hunit)

/-! ## Modules -/

theorem openUnit (h : Attained names s) (m : Module) : Attained names (s.openUnit m) := by
  have hopen := mayOpen_createRoot h.types.good m.span
  rw [Session.nextUnit_types] at hopen
  exact (h.types.root m.span).enter hopen

theorem enterUnit (h : Attained names s) (m : Module) : Attained names (s.enterUnit names m) := by
  obtain ⟨hbody, _, heq⟩ := s.enterUnit_eq names m
  have h₀ := h.openUnit m
  have d₁ := does_placeholders (n := 0) h₀.good rfl m.functionNames
  have h₁ := h₀.runs d₁.1
  have hb₁ := (d₁.1.good_frame h₀.good).2.current rfl
  have d₂ := does_createChild (n := 0) h₁.good hb₁ m.span
  have hopen := d₂.2.1.opens
  rw [hbody] at hopen
  rw [← heq]
  exact (h₁.runs d₂.1).enterBody hopen

theorem unitStatements (h : Attained names s) (m : Module) :
    Attained names (s.unitStatements names m) := by
  have hin := h.enterUnit m
  exact hin.runs
    (does_statementList m.statements (covers_anyNode _) 0 _ hin.good (Nat.zero_le _)).1

theorem module (h : Attained names s) (m : Module) :
    Attained names ((Lower.module names m).run s).2 := by
  have hin := h.unitStatements m
  have hstack := h.reachable.openBlocks_unitStatements m
  have hcur : (s.unitStatements names m).current? = some s.nextBody := by
    unfold current?
    rw [hstack]
    rfl
  have hopen : ∀ b, s.unitBody = some b → b ∈ (s.unitStatements names m).openBlocks.tail := by
    intro b hb
    rw [hstack]
    exact List.mem_cons_of_mem _ (h.bodyOpen b hb)
  have hbody := hin.leaveBody hcur hopen
  rw [hin.good.run_closeBlock hcur, hstack] at hbody
  have hunit := hbody.leave (c := s.nextUnit) rfl fun hb =>
    Nat.lt_irrefl _ (h.good.known _ (h.bodyOpen _ hb))
  rw [hbody.good.run_closeBlock rfl] at hunit
  rw [run_module h.reachable m]
  exact hunit

end Attained

/-- Between its steps a session is in one of its states. -/
theorem attained_run (names : SymbolTable) (steps : List Step) :
    Attained names (Session.run names steps {}) := by
  have hkept : Kept names anyNode (fun _ => True) (Attained names) := by
    constructor
    · intro s chosen _ h
      exact h.options chosen
    · intro s m _ _ h
      exact h.module m
    · intro s st _ _ _ h
      exact h.runs
        (does_statementAt false st trivial (covers_anyNode _) 0 s h.good (Nat.zero_le _)).1
  exact hkept.run .start .start (fun _ _ => trivial) fun _ _ _ _ => covers_anyNode _

end

end BlockLowering
