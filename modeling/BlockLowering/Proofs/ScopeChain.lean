import BlockLowering.IR.Arena

/-!
# Scope chains

`Inside a b c` says that `c` is `b` or lies around it, without a bound on the number of steps. Where
every parent has a smaller number than its child, the bounded chains of the arena are long enough:
`encloses_of_inside` finds every block around another, and `ancestors_eq_cons` unrolls a chain at
its first parent.
-/

namespace BlockLowering.IR.Arena

variable {a a' : Arena} {b c p : BlockId}

/-- The block right around a block. -/
def parent? (a : Arena) (b : BlockId) : Option BlockId := (a.block? b).bind Block.parent

/-- From `b` one comes to `c` by going from block to parent, in any number of steps. -/
inductive Inside (a : Arena) : BlockId → BlockId → Prop
  | self (b : BlockId) : Inside a b b
  | outward {b p c : BlockId} (parent : a.parent? b = some p) (rest : Inside a p c) : Inside a b c

/-- Parents were there before their children. -/
def ParentsBelow (a : Arena) : Prop := ∀ b p, a.parent? b = some p → p.index < b.index

/-- The declarations that blocks list are there. -/
def Listed (a : Arena) : Prop :=
  ∀ b x, a.block? b = some x → ∀ e ∈ x.decls, e.index < a.decls.length

theorem chain_succ (a : Arena) (n : Nat) (b : BlockId) :
    a.chain (n + 1) b = b :: ((a.parent? b).map (a.chain n)).getD [] := by
  unfold chain parent?
  cases (a.block? b).bind Block.parent <;> rfl

theorem inside_of_mem_chain {n : Nat} (h : c ∈ a.chain n b) : a.Inside b c := by
  induction n generalizing b with
  | zero => simp [chain] at h
  | succ n ih =>
    rw [chain_succ, List.mem_cons] at h
    rcases h with rfl | h
    · exact .self c
    · cases hp : a.parent? b with
      | none => simp [hp] at h
      | some p =>
        rw [hp] at h
        exact .outward hp (ih h)

theorem index_le_of_inside (ha : a.ParentsBelow) (h : a.Inside b c) : c.index ≤ b.index := by
  induction h with
  | self b => exact Nat.le_refl _
  | outward hp _ ih => exact Nat.le_trans ih (Nat.le_of_lt (ha _ _ hp))

/-- A longer chain has no further members once its length exceeds the number of its start. -/
theorem chain_succ_eq (ha : a.ParentsBelow) {n : Nat} (hn : b.index < n) :
    a.chain (n + 1) b = a.chain n b := by
  induction n generalizing b with
  | zero => omega
  | succ n ih =>
    rw [chain_succ, chain_succ]
    cases hp : a.parent? b with
    | none => rfl
    | some p =>
      have hlt := ha b p hp
      simp only [Option.map_some, Option.getD_some]
      rw [ih (by omega)]

theorem index_lt_of_parent? (h : a.parent? b = some p) : b.index < a.blocks.length := by
  unfold parent? block? at h
  rw [Option.bind_eq_some_iff] at h
  obtain ⟨block, hblock, _⟩ := h
  exact (List.getElem?_eq_some_iff.1 hblock).1

/-- The chain from a block is the block, then the chain from its parent. -/
theorem ancestors_eq_cons (ha : a.ParentsBelow) (h : a.parent? b = some p) :
    a.ancestors b = b :: a.ancestors p := by
  have hlt := ha b p h
  have hb := index_lt_of_parent? h
  unfold ancestors
  rw [chain_succ, h, chain_succ_eq ha (by omega)]
  rfl

/-- The chain from a root is the root alone. -/
theorem ancestors_eq_singleton (h : a.parent? b = none) : a.ancestors b = [b] := by
  unfold ancestors
  rw [chain_succ, h]
  rfl

theorem mem_ancestors_of_inside (ha : a.ParentsBelow) (h : a.Inside b c) :
    c ∈ a.ancestors b := by
  induction h with
  | self b =>
    unfold ancestors
    rw [chain_succ]
    exact List.mem_cons_self
  | outward hp _ ih =>
    rw [ancestors_eq_cons ha hp]
    exact List.mem_cons_of_mem _ ih

theorem encloses_of_inside (ha : a.ParentsBelow) (h : a.Inside b c) : a.encloses c b = true := by
  unfold encloses
  rw [List.any_eq_true]
  exact ⟨c, mem_ancestors_of_inside ha h, by simp⟩

/-- Blocks that keep their parents keep what is around them. -/
theorem Inside.mono (hp : ∀ b p, a.parent? b = some p → a'.parent? b = some p)
    (h : a.Inside b c) : a'.Inside b c := by
  induction h with
  | self b => exact .self b
  | outward h _ ih => exact .outward (hp _ _ h) ih

/-- A chain can be computed in any arena that has the same parents below its start. -/
theorem chain_congr {k : Nat} (ha : a.ParentsBelow)
    (hp : ∀ b, b.index < k → a'.parent? b = a.parent? b) (hb : b.index < k) (n : Nat) :
    a'.chain n b = a.chain n b := by
  induction n generalizing b with
  | zero => rfl
  | succ n ih =>
    rw [chain_succ, chain_succ, hp b hb]
    cases h : a.parent? b with
    | none => rfl
    | some p =>
      have hlt := ha b p h
      simp only [Option.map_some, Option.getD_some]
      rw [ih (by omega)]

/-- Growth does not change the chain from an old block. -/
theorem ancestors_congr (ha : a.ParentsBelow) (ha' : a'.ParentsBelow)
    (hp : ∀ b, b.index < a.blocks.length → a'.parent? b = a.parent? b)
    (hb : b.index < a.blocks.length) (hsize : a.blocks.length ≤ a'.blocks.length) :
    a'.ancestors b = a.ancestors b := by
  have hgrow : ∀ k, a'.chain (a.blocks.length + 1 + k) b = a'.chain (a.blocks.length + 1) b := by
    intro k
    induction k with
    | zero => rfl
    | succ k ih => rw [← Nat.add_assoc, chain_succ_eq ha' (by omega), ih]
  obtain ⟨k, hk⟩ := Nat.exists_eq_add_of_le hsize
  unfold ancestors
  rw [hk, show a.blocks.length + k + 1 = a.blocks.length + 1 + k by omega, hgrow k]
  exact chain_congr ha hp hb _

end BlockLowering.IR.Arena
