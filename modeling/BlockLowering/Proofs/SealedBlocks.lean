import BlockLowering.Proofs.ArenaCalls

/-!
# Sealed blocks

A sealed block takes no declarations and no statements any more: whatever is called afterwards, the
attempts to add one are refused and its lists stay as they are. Children are not guarded in this
way. A call for a child of a sealed block is accepted, and the child is listed.
-/

namespace BlockLowering.IR.Arena

variable {a : Arena} {b : BlockId} {x : Block} {c : Call} {calls : List Call}

/-- The children that `b` gets by the calls, in order. -/
def newChildren (a : Arena) (b : BlockId) : List Call → List BlockId
  | [] => []
  | c :: rest =>
    (if c.parent? = some b then [⟨a.blocks.length⟩] else []) ++ (a.call c).1.newChildren b rest

theorem parent?_eq_some_iff : c.parent? = some b ↔ ∃ span, c = .createChild b span := by
  cases c <;> simp [Call.parent?]

theorem newChildren_eq_nil_iff :
    a.newChildren b calls = [] ↔ ∀ span, .createChild b span ∉ calls := by
  induction calls generalizing a with
  | nil => simp [newChildren]
  | cons c rest ih =>
    have hfirst : (if c.parent? = some b then [(⟨a.blocks.length⟩ : BlockId)] else []) = [] ↔
        ∀ span, .createChild b span ≠ c := by
      by_cases hc : c.parent? = some b
      · obtain ⟨span, rfl⟩ := parent?_eq_some_iff.1 hc
        simp [hc]
      · rw [if_neg hc]
        refine ⟨fun _ span heq => hc ?_, fun _ => rfl⟩
        exact parent?_eq_some_iff.2 ⟨span, heq.symm⟩
    rw [newChildren, List.append_eq_nil_iff, ih, hfirst]
    simp only [List.mem_cons, not_or, forall_and, ne_eq]

/-- To a sealed block a call adds at most a child. -/
theorem effect_of_sealed (hs : x.isSealed = true) :
    c.effect a b x =
      { x with
        children := x.children ++ if c.parent? = some b then [⟨a.blocks.length⟩] else [] } := by
  obtain ⟨id, parent, decls, children, stmts, span, isSealed⟩ := x
  cases hs
  cases c with
  | createChild outer | sealBlock outer =>
    by_cases hb : outer = b <;> simp [Call.effect, Call.parent?, hb]
  | _ => simp [Call.effect, Call.parent?]

/-- No calls change anything else in a sealed block. -/
theorem block?_perform_of_sealed (h : a.block? b = some x) (hs : x.isSealed = true)
    (calls : List Call) :
    (a.perform calls).block? b =
      some { x with children := x.children ++ a.newChildren b calls } := by
  induction calls generalizing a x with
  | nil => rw [perform_nil, h, newChildren, List.append_nil]
  | cons c rest ih =>
    have hlt := index_lt_of_block? h
    have hcall := block?_call a c b
    rw [if_neg (by omega), h, Option.map_some, effect_of_sealed hs] at hcall
    rw [perform_cons, ih hcall hs, newChildren, ← List.append_assoc]

/-- After a block is sealed, whatever is called, only its list of children changes. It gets the
children that were asked for, so it stays as it is exactly if none is asked for. Declarations and
statements are refused at any time, a child never. -/
theorem sealed_block_gets_children {before : List Call}
    (h : (empty.perform before).sealBlock b = .ok a) (calls : List Call) :
    ∃ x, a.block? b = some x ∧
      (a.perform calls).block? b =
        some { x with children := x.children ++ a.newChildren b calls } ∧
      (a.newChildren b calls = [] ↔ ∀ span, .createChild b span ∉ calls) ∧
      (∀ name type kind span, ((a.perform calls).addDecl b name type kind span).2 =
        .error (.sealedToDecls b)) ∧
      (∀ stmt, (a.perform calls).addStmt b stmt = .error (.sealedToStmts b)) ∧
      ∀ span, ((a.perform calls).createChild b span).2 = .ok ⟨(a.perform calls).blocks.length⟩ := by
  obtain ⟨y, hy, rfl⟩ : ∃ y, (empty.perform before).block? b = some y ∧
      (empty.perform before).withSealed b = a := by
    cases hy : (empty.perform before).block? b with
    | none =>
      rw [sealBlock_unknown hy] at h
      cases h
    | some y =>
      rw [sealBlock_eq hy] at h
      exact ⟨y, rfl, Except.ok.inj h⟩
  have hid := id_eq_of_block?_perform hy
  have hx : ((empty.perform before).withSealed b).block? b = some { y with isSealed := true } := by
    rw [block?_withSealed, if_pos rfl, hy]
    rfl
  have hlater := block?_perform_of_sealed hx rfl calls
  refine ⟨_, hx, hlater, newChildren_eq_nil_iff, fun name type kind span => ?_, fun stmt => ?_,
    fun span => ?_⟩
  · rw [addDecl_sealed hlater rfl, ← hid]
  · rw [addStmt_sealed hlater rfl, ← hid]
  · rw [createChild_eq hlater]

/-- A root that is sealed and then gets a child. -/
theorem child_added_to_sealed_root :
    let before : List Call := [.createRoot .synthetic]
    let a := (empty.perform before).withSealed ⟨0⟩
    let calls : List Call := [.createChild ⟨0⟩ .synthetic]
    (empty.perform before).sealBlock ⟨0⟩ = .ok a ∧
      ∃ x, a.block? ⟨0⟩ = some x ∧ x.children = [] ∧
        (a.perform calls).block? ⟨0⟩ = some { x with children := [⟨1⟩] } ∧
        ∀ stmt, (a.perform calls).addStmt ⟨0⟩ stmt = .error (.sealedToStmts ⟨0⟩) := by
  intro before a calls
  have hsealed : (empty.perform before).sealBlock ⟨0⟩ = .ok a := rfl
  obtain ⟨x, hx, hlater, _, _, hstmts, _⟩ := sealed_block_gets_children hsealed calls
  have hchildren : x.children = [] := by
    cases hx
    rfl
  refine ⟨hsealed, x, hx, hchildren, ?_, hstmts⟩
  rw [hlater, hchildren]
  rfl

end BlockLowering.IR.Arena
