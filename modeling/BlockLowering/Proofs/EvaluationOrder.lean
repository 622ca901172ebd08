import BlockLowering.Proofs.Desugaring
import BlockLowering.Proofs.Scoping
import BlockLowering.Proofs.WellFormed

/-!
# Order of evaluation

Seen from outside, a program is a sequence of events: a declaration is read, a declaration is
written, a function is called. The source text asks for the events of an expression from left to
right. Lowering lifts the assignments out of an expression, so what stays behind in it, the other
reads and the calls, happens after them. `expression_events_eq_iff` says for which expressions
nothing is reordered by that: where an operand leaves a read or a call behind, no operand to its
right may make an assignment.
-/

namespace BlockLowering

open IR Source Session

inductive Event where
  | read (d : DeclId)
  | write (d : DeclId)
  | call
deriving DecidableEq, Repr

def Event.isWrite : Event → Bool
  | write _ => true
  | _ => false

/-! ## Events of lowered code -/

mutual

/-- Operands are evaluated from left to right and a callee before the arguments; the call comes
last. Uses of a `silent` declaration are not seen. -/
def IR.Expr.events (silent : DeclId → Bool) : Expr → List Event
  | .ref target => if silent target.decl then [] else [.read target.decl]
  | .binary _ lhs rhs _ => lhs.events silent ++ rhs.events silent
  | .call callee args _ => (callee.events silent ++ Expr.eventsAll silent args) ++ [.call]
  | .int .. | .float .. | .func .. => []

def IR.Expr.eventsAll (silent : DeclId → Bool) : List Expr → List Event
  | [] => []
  | e :: rest => e.events silent ++ Expr.eventsAll silent rest

end

/-- The events of one statement; of a branch or a loop, those of its condition only. -/
def IR.Stmt.events (silent : DeclId → Bool) : Stmt → List Event
  | .assign target value _ =>
    value.events silent ++ if silent target.decl then [] else [.write target.decl]
  | .drop value _ => value.events silent
  | .ifElse cond _ _ _ | .whileLoop cond _ _ => cond.events silent

/-- The events of statements and of a value that is used after them. -/
def loweredEvents (silent : DeclId → Bool) (stmts : List Stmt) (value : Expr) : List Event :=
  stmts.flatMap (Stmt.events silent) ++ value.events silent

/-! ## Events of source text -/

namespace Source

/-- The identifier that an assignment to the expression writes. -/
def Expression.assigned? : Expression → Option Ident
  | .identifier id => some id
  | .parenthesized inner _ => inner.assigned?
  | _ => none

mutual

/-- Literals, identifiers, parentheses, arithmetic and equality, calls, and assignments to
identifiers. -/
def Expression.isPlain : Expression → Bool
  | .int .. | .float .. | .identifier _ => true
  | .binary operator left right _ =>
    acceptedOperators.contains operator && left.isPlain && right.isPlain
  | .assignment .assign left right _ => left.assigned?.isSome && right.isPlain
  | .call callee [] args _ => callee.isPlain && Expression.allPlain args
  | .parenthesized inner _ => inner.isPlain
  | _ => false

def Expression.allPlain : List Expression → Bool
  | [] => true
  | e :: rest => e.isPlain && Expression.allPlain rest

end

mutual

/-- The events of a plain expression, from left to right: an assignment evaluates its right side and
writes its target. -/
def Expression.events (means : Ident → Option DeclId) : Expression → List Event
  | .identifier id => ((means id).map .read).toList
  | .binary _ left right _ => left.events means ++ right.events means
  | .assignment _ left right _ =>
    right.events means ++ ((left.assigned?.bind means).map .write).toList
  | .call callee _ args _ => (callee.events means ++ Expression.eventsAll means args) ++ [.call]
  | .parenthesized inner _ => inner.events means
  | _ => []

def Expression.eventsAll (means : Ident → Option DeclId) : List Expression → List Event
  | [] => []
  | e :: rest => e.events means ++ Expression.eventsAll means rest

end

/-- The value reads a declaration or calls a function where it is used. -/
def Expression.isPending : Expression → Bool
  | .identifier _ | .call .. => true
  | .binary _ left right _ => left.isPending || right.isPending
  | .parenthesized inner _ => inner.isPending
  | _ => false

mutual

/-- No operand that is pending stands to the left of one that makes an assignment. -/
def Expression.isOrdered : Expression → Bool
  | .binary _ left right _ =>
    left.isOrdered && right.isOrdered && (!left.isPending || right.assignments == 0)
  | .assignment _ _ right _ => right.isOrdered
  | .call callee _ args _ =>
    callee.isOrdered && Expression.allOrdered args &&
      (!callee.isPending || Expression.assignmentsAll args == 0)
  | .parenthesized inner _ => inner.isOrdered
  | _ => true

def Expression.allOrdered : List Expression → Bool
  | [] => true
  | e :: rest =>
    e.isOrdered && Expression.allOrdered rest &&
      (!e.isPending || Expression.assignmentsAll rest == 0)

end

end Source

/-! ## Two stages -/

/-- The events `whole` happen in two stages, `first` those in what was lifted out and `later` those
where the value is used. Nothing is written in the second stage, and it is no shorter than the end
of `whole` in which nothing is written. -/
structure Staged (first later whole : List Event) (assignments : Nat) (isPending isOrdered : Bool) :
    Prop where
  length : first.length + later.length = whole.length
  reads : ∀ x ∈ later, x.isWrite = false
  tail : ∀ before after, whole = before ++ after → (∀ x ∈ after, x.isWrite = false) →
    after.length ≤ later.length
  first_eq_nil : first = [] ↔ assignments = 0
  later_eq_nil : later = [] ↔ isPending = false
  ordered : first ++ later = whole ↔ isOrdered = true

namespace Staged

variable {first later whole first' later' whole' : List Event} {n n' : Nat} {p p' o o' : Bool}
  {x : Event}

theorem nil : Staged [] [] [] 0 false true where
  length := rfl
  reads := by simp
  tail before after h _ := by simp [List.nil_eq_append_iff.1 h]
  first_eq_nil := by simp
  later_eq_nil := by simp
  ordered := by simp

/-- One more event that is not a write, at the end of the second stage. -/
theorem snoc (h : Staged first later whole n p o) (hx : x.isWrite = false) :
    Staged first (later ++ [x]) (whole ++ [x]) n true o where
  length := by simp [← h.length, Nat.add_assoc]
  reads := List.forall_mem_append.2 ⟨h.reads, List.forall_mem_singleton.2 hx⟩
  tail before after hsplit hafter := by
    rcases List.eq_nil_or_concat' after with rfl | ⟨rest, y, rfl⟩
    · simp
    · rw [← List.append_assoc] at hsplit
      have hrest := h.tail before rest (List.append_inj_left' hsplit rfl)
        fun z hz => hafter z (List.mem_append_left _ hz)
      simp only [List.length_append, List.length_singleton]
      omega
  first_eq_nil := h.first_eq_nil
  later_eq_nil := by simp
  ordered := by
    rw [← h.ordered, ← List.append_assoc, List.append_left_inj]

/-- A write at the end draws the second stage into the first. -/
theorem write (h : Staged first later whole n p o) (d : DeclId) :
    Staged (first ++ (later ++ [.write d])) [] (whole ++ [.write d]) (n + 1) false o where
  length := by simp [← h.length, Nat.add_assoc]
  reads := by simp
  tail before after hsplit hafter := by
    rcases List.eq_nil_or_concat' after with rfl | ⟨rest, y, rfl⟩
    · simp
    · rw [← List.append_assoc] at hsplit
      have hy : [Event.write d] = [y] := List.append_inj_right' hsplit rfl
      have hwrite := hafter y (by simp)
      rw [← List.singleton_inj.1 hy] at hwrite
      cases hwrite
  first_eq_nil := by simp
  later_eq_nil := by simp
  ordered := by
    rw [← h.ordered, List.append_nil, ← List.append_assoc, List.append_left_inj]

/-- An end without writes lies in the second part, or the second part has no writes at all. -/
theorem tail_append (h : Staged first later whole n p o)
    (h' : Staged first' later' whole' n' p' o') (before after : List Event)
    (hsplit : whole ++ whole' = before ++ after) (hafter : ∀ x ∈ after, x.isWrite = false) :
    after.length ≤ (later ++ later').length := by
  rw [List.length_append]
  rcases List.append_eq_append_iff.1 hsplit with ⟨mid, _, hwhole⟩ | ⟨mid, hwhole, rfl⟩
  · have hle := h'.tail mid after hwhole hafter
    omega
  · rw [List.forall_mem_append] at hafter
    have hmid := h.tail before mid hwhole hafter.1
    have hle := h'.tail [] whole' rfl hafter.2
    rw [List.length_append]
    omega

/-- Two stages each, one expression after the other: all is in order if both are, and if nothing of
the first is left behind by the assignments of the second. -/
theorem append_eq_iff (h : Staged first later whole n p o)
    (h' : Staged first' later' whole' n' p' o') :
    (first ++ first') ++ (later ++ later') = whole ++ whole' ↔
      (first ++ later = whole ∧ first' ++ later' = whole') ∧ (later = [] ∨ first' = []) := by
  have hlen := h.length
  have hlen' := h'.length
  constructor
  · intro heq
    have hreads := List.forall_mem_append.2 ⟨h.reads, h'.reads⟩
    -- The second stage is an end of the whole without writes: it lies inside `whole'`, where it is
    -- too long unless `later` is empty, or it covers `whole'`, which then has no writes at all.
    have hgap : later = [] ∨ first' = [] := by
      rcases List.append_eq_append_iff.1 heq.symm with ⟨mid, _, hwhole⟩ | ⟨mid, _, hlate⟩
      · have hle := h'.tail mid _ hwhole hreads
        rw [List.length_append] at hle
        exact .inl (List.eq_nil_of_length_eq_zero (by omega))
      · rw [hlate, List.forall_mem_append] at hreads
        have hle := h'.tail [] whole' rfl hreads.2
        exact .inr (List.eq_nil_of_length_eq_zero (by omega))
    have hsides : (first ++ later) ++ (first' ++ later') = whole ++ whole' := by
      rw [← heq]
      rcases hgap with rfl | rfl <;> simp
    exact ⟨List.append_inj hsides (by rw [List.length_append, hlen]), hgap⟩
  · rintro ⟨⟨rfl, rfl⟩, rfl | rfl⟩ <;> simp

theorem append (h : Staged first later whole n p o) (h' : Staged first' later' whole' n' p' o') :
    Staged (first ++ first') (later ++ later') (whole ++ whole') (n + n') (p || p')
      (o && o' && (!p || n' == 0)) where
  length := by
    have hlen := h.length
    have hlen' := h'.length
    simp only [List.length_append]
    omega
  reads := List.forall_mem_append.2 ⟨h.reads, h'.reads⟩
  tail := h.tail_append h'
  first_eq_nil := by
    rw [List.append_eq_nil_iff, h.first_eq_nil, h'.first_eq_nil]
    omega
  later_eq_nil := by
    rw [List.append_eq_nil_iff, h.later_eq_nil, h'.later_eq_nil, Bool.or_eq_false_iff]
  ordered := by
    rw [h.append_eq_iff h', h.ordered, h'.ordered, h.later_eq_nil, h'.first_eq_nil]
    simp

end Staged

section

variable {names : SymbolTable} {means : Ident → Option DeclId} {temporary : DeclId → Bool}

/-- Nothing is lifted out of the target of a plain assignment. -/
theorem Desugars.of_assigned {left : Expression} {id : Ident} {l : List Stmt} {target : DeclRef}
    (hd : Desugars means temporary left l (.ref target)) (hid : left.assigned? = some id) :
    l = [] ∧ means id = some target.decl := by
  cases left with
  | identifier name =>
    cases hd with
    | identifier found =>
      cases hid
      exact ⟨rfl, found⟩
  | parenthesized inner span =>
    cases hd with
    | parenthesized inside => exact inside.of_assigned hid
  | _ => cases hid

mutual

/-- Lowering splits the events of a plain expression into two stages. -/
theorem Desugars.staged (named : ∀ id d, means id = some d → temporary d = false) {e : Expression}
    {l : List Stmt} {v : Expr} (hd : Desugars means temporary e l v) (plain : e.isPlain = true) :
    Staged (l.flatMap (Stmt.events temporary)) (v.events temporary) (e.events means) e.assignments
      e.isPending e.isOrdered := by
  cases hd with
  | int => exact .nil
  | float => exact .nil
  | @identifier id d found =>
    have hread : Staged [] [.read d] [.read d] 0 true true := Staged.nil.snoc rfl
    have hseen : (Expr.ref ⟨d, id.span⟩).events temporary = [.read d] := by
      rw [Expr.events, if_neg (by simp [named id d found])]
    have hsource : (Expression.identifier id).events means = [.read d] := by
      rw [Expression.events, found]
      rfl
    rw [hseen, hsource]
    exact hread
  | binary known first second =>
    simp only [Expression.isPlain, Bool.and_eq_true] at plain
    rw [List.flatMap_append]
    exact (first.staged named plain.1.2).append (second.staged named plain.2)
  | @assignment left right span l r value target temp fresh first second =>
    simp only [Expression.isPlain, Bool.and_eq_true] at plain
    obtain ⟨id, hid⟩ := Option.isSome_iff_exists.1 plain.1
    -- The temporary is silent, so the two assignments show the value's events and one write.
    obtain ⟨rfl, hd⟩ := second.of_assigned hid
    have hnone : left.assignments = 0 := by
      have hlength := second.length_eq
      rw [List.length_nil] at hlength
      omega
    have hwrite := (first.staged named plain.2).write target.decl
    have hfirst : (r ++ ([Stmt.assign ⟨temp, span⟩ value span] ++
          ([] ++ [Stmt.assign target (.ref ⟨temp, span⟩) span]))).flatMap (Stmt.events temporary) =
        r.flatMap (Stmt.events temporary) ++ (value.events temporary ++ [.write target.decl]) := by
      simp [Stmt.events, Expr.events, fresh, named id _ hd]
    have hlater : (Expr.ref ⟨temp, span⟩).events temporary = [] := by
      rw [Expr.events, if_pos fresh]
    have hsource : (Expression.assignment .assign left right span).events means =
        right.events means ++ [.write target.decl] := by
      rw [Expression.events, hid, Option.bind_some, hd]
      rfl
    rw [hfirst, hlater, hsource, Expression.assignments, hnone]
    exact hwrite
  | call first rest =>
    simp only [Expression.isPlain, Bool.and_eq_true] at plain
    obtain ⟨p, hargs⟩ := rest.staged named plain.2
    rw [List.flatMap_append]
    exact ((first.staged named plain.1).append hargs).snoc rfl
  | function => cases plain
  | parenthesized inside => exact inside.staged named plain

theorem DesugarsAll.staged (named : ∀ id d, means id = some d → temporary d = false)
    {es : List Expression} {l : List Stmt} {vs : List Expr}
    (hd : DesugarsAll means temporary es l vs) (plain : Expression.allPlain es = true) :
    ∃ p, Staged (l.flatMap (Stmt.events temporary)) (Expr.eventsAll temporary vs)
      (Expression.eventsAll means es) (Expression.assignmentsAll es) p
      (Expression.allOrdered es) := by
  cases hd with
  | nil => exact ⟨false, .nil⟩
  | cons first others =>
    simp only [Expression.allPlain, Bool.and_eq_true] at plain
    obtain ⟨p, hothers⟩ := others.staged named plain.2
    rw [List.flatMap_append]
    exact ⟨_, (first.staged named plain.1).append hothers⟩

end

/-- In any state that lowering passes through, what a plain expression appends to the innermost open
block are assignments. Together with the value that is left they do what the source text says, in
the same order, exactly if no operand that is pending stands to the left of an assignment. -/
theorem expression_events_eq_iff {s : Session} {e : Expression} {v : Expr}
    (reachable : Reachable names anyNode s) (plain : e.isPlain = true)
    (lowers : ((Lower.expression names e).run s).1 = some v) :
    let t := ((Lower.expression names e).run s).2
    ∃ lifted, t.currentStmts = s.currentStmts ++ lifted ∧
      (∀ stmt ∈ lifted, stmt.isAssign = true) ∧
      (loweredEvents t.arena.isTemporary lifted v = e.events (s.means names) ↔
        e.isOrdered = true) := by
  intro t
  have hs := reachable.good
  obtain ⟨lifted, happ, hd⟩ := desugars_expression e s hs v lowers
  have hdoes := does_expression e (covers_anyNode _) 0 s hs (Nat.zero_le _)
  have hgrows := (hdoes.1.good_frame hs).2.arena
  have hnamed : ∀ id d, s.means names id = some d → t.arena.isTemporary d = false := by
    intro id d hmeans
    obtain ⟨x, hx, htemp⟩ := means_isTemporary hmeans
    rw [hgrows.isTemporary_eq hx, htemp]
  exact ⟨lifted, happ.stmts, hd.isAssign, (hd.staged hnamed plain).ordered⟩

/-- In `x + (x = 1)` the left operand is read after the assignment. -/
theorem sum_with_assignment_reordered :
    let names : SymbolTable := ⟨["x"]⟩
    let x : Ident := ⟨⟨0⟩, .synthetic⟩
    let zero : Expression := .int 0 .synthetic
    let s := Session.run names
      [.statement (.variableDecl ⟨.letBinding, .identifier x, none, some zero, .synthetic⟩)] {}
    let assignment : Expression :=
      .assignment .assign (.identifier x) (.int 1 .synthetic) .synthetic
    let e : Expression :=
      .binary .add (.identifier x) (.parenthesized assignment .synthetic) .synthetic
    ∃ v lifted, ((Lower.expression names e).run s).1 = some v ∧
      ((Lower.expression names e).run s).2.currentStmts = s.currentStmts ++ lifted ∧
      loweredEvents ((Lower.expression names e).run s).2.arena.isTemporary lifted v ≠
        e.events (s.means names) := by
  intro names x zero s assignment e
  have hsome : ((Lower.expression names e).run s).1.isSome = true := by
    decide +kernel
  obtain ⟨v, hv⟩ := Option.isSome_iff_exists.1 hsome
  have reachable : Reachable names anyNode s := Reachable.start.run fun _ _ _ _ => covers_anyNode _
  obtain ⟨lifted, hstmts, _, hiff⟩ := expression_events_eq_iff reachable (by decide) hv
  refine ⟨v, lifted, hv, hstmts, fun heq => ?_⟩
  have hordered := hiff.1 heq
  cases hordered

end

end BlockLowering
