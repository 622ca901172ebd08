import BlockLowering.Proofs.ArenaCalls

/-!
# Finite scope chains

The blocks around a block are found by going from parent to parent. A call for a new child is
accepted if its parent is there once the child has been made, so it may name the very number that
the child is about to get. The child is its own parent then, and the walk outwards from it never
ends. In any other case a parent is older than its children, every walk ends, and it ends at a root.
-/

namespace BlockLowering.IR.Arena

variable {a : Arena} {b c p : BlockId} {calls : List Call} {n : Nat}

/-- The walk from `b` outwards comes to an end: of some number of steps not all are taken. -/
def Ends (a : Arena) (b : BlockId) : Prop := ∃ n, (a.chain n b).length < n

/-- One of the calls asks for a child of the very block `b` that it makes. -/
def MadeInItself (calls : List Call) (b : BlockId) : Prop :=
  ∃ before span after, calls = before ++ .createChild b span :: after ∧
    (empty.perform before).blocks.length = b.index

/-! ## Walks -/

theorem length_chain_le (a : Arena) (n : Nat) (b : BlockId) : (a.chain n b).length ≤ n := by
  induction n generalizing b with
  | zero => exact Nat.le_refl 0
  | succ n ih =>
    rw [chain_succ, List.length_cons]
    cases a.parent? b with
    | none => exact Nat.succ_le_succ (Nat.zero_le n)
    | some p => exact Nat.succ_le_succ (ih p)

/-- From a block that is its own parent one never gets away. -/
theorem chain_of_self (h : a.parent? b = some b) (n : Nat) : a.chain n b = List.replicate n b := by
  induction n with
  | zero => rfl
  | succ n ih =>
    rw [chain_succ, h, List.replicate_succ, ← ih]
    rfl

/-- One step more than the number of the start is enough. -/
theorem chain_eq_of_lt (ha : a.ParentsBelow) (hn : b.index < n) :
    a.chain n b = a.chain (b.index + 1) b := by
  induction hn with
  | refl => rfl
  | step hn ih => rw [chain_succ_eq ha hn, ih]

theorem ends_of_parentsBelow (ha : a.ParentsBelow) (b : BlockId) : a.Ends b := by
  refine ⟨b.index + 2, ?_⟩
  rw [chain_eq_of_lt ha (by omega)]
  exact Nat.lt_succ_of_le (length_chain_le a _ b)

theorem chain_eq_ancestors (ha : a.ParentsBelow) (hn : b.index < n) :
    a.chain n b = a.ancestors b := by
  unfold ancestors
  by_cases hb : b.index < a.blocks.length + 1
  · rw [chain_eq_of_lt ha hn, chain_eq_of_lt ha hb]
  · -- The walk from an unknown number is over at once.
    have hnone : a.parent? b = none := by
      unfold parent? block?
      rw [List.getElem?_eq_none (by omega)]
      rfl
    obtain ⟨k, rfl⟩ := Nat.exists_eq_succ_of_ne_zero (Nat.ne_of_gt (Nat.zero_lt_of_lt hn))
    rw [chain_succ, chain_succ, hnone]
    rfl

theorem encloses_iff (ha : a.ParentsBelow) : a.encloses c b = true ↔ a.Inside b c := by
  refine ⟨fun h => ?_, encloses_of_inside ha⟩
  unfold encloses at h
  rw [List.any_eq_true] at h
  obtain ⟨d, hd, heq⟩ := h
  rw [← eq_of_beq heq]
  exact inside_of_mem_chain hd

/-- Going outwards one comes to a block without a parent. -/
theorem exists_root (ha : a.ParentsBelow) (b : BlockId) :
    ∃ root, a.Inside b root ∧ a.parent? root = none := by
  induction hn : b.index using Nat.strongRecOn generalizing b with
  | ind n ih =>
    cases hp : a.parent? b with
    | none => exact ⟨b, .self b, hp⟩
    | some p =>
      have hlt := ha b p hp
      obtain ⟨root, hroot, hnone⟩ := ih p.index (by omega) p rfl
      exact ⟨root, .outward hp hroot, hnone⟩

/-! ## Accepted calls -/

theorem createChild_accepted {span : Span} (h : (a.call (.createChild p span)).2 = none) :
    p.index ≤ a.blocks.length := by
  by_contra hlt
  have hanswer : refusal? (a.createChild p span).2 = none := h
  rw [createChild_unknown (Nat.lt_of_not_le hlt)] at hanswer
  cases hanswer

/-- A block is never older than its parent. -/
theorem parent_le (h : empty.refusals calls = []) (hp : (empty.perform calls).parent? b = some p) :
    p.index ≤ b.index := by
  obtain ⟨before, span, after, rfl, hlength⟩ := parent?_perform_iff.1 hp
  rw [refusals_append, List.append_eq_nil_iff, refusals, List.append_eq_nil_iff,
    Option.toList_eq_nil_iff] at h
  rw [← hlength]
  exact createChild_accepted h.2.1

/-- The blocks around a block are there. -/
theorem block_of_inside (h : empty.refusals calls = []) (hc : (empty.perform calls).Inside b c)
    {x : Block} (hx : (empty.perform calls).block? b = some x) :
    ∃ y, (empty.perform calls).block? c = some y := by
  induction hc generalizing x with
  | self b => exact ⟨x, hx⟩
  | @outward b p c hp _ ih =>
    have hle := parent_le h hp
    have hlt := index_lt_of_parent? hp
    exact ih (x := _) (List.getElem?_eq_getElem (Nat.lt_of_le_of_lt hle hlt))

theorem parentsBelow_iff (h : empty.refusals calls = []) :
    (empty.perform calls).ParentsBelow ↔ ∀ b, ¬MadeInItself calls b := by
  constructor
  · intro ha b hself
    exact Nat.lt_irrefl _ (ha b b (parent?_perform_iff.2 hself))
  · intro hnone b p hp
    have hle := parent_le h hp
    have hne : p.index ≠ b.index := by
      intro heq
      obtain rfl : p = b := congrArg BlockId.mk heq
      exact hnone p (parent?_perform_iff.1 hp)
    omega

/-- If no call is refused, a parent has at most the number of its child. Parents come before their
children, and all walks outwards end, exactly if no call makes a block inside itself. Then every
walk ends after as many steps as the number of its start at the latest, ancestors are found and
names looked up as without a bound, and every block has a root around it. From a block that is made
inside itself the walk repeats the block for ever. -/
theorem scope_chains_end_iff (h : empty.refusals calls = []) :
    let a := empty.perform calls
    (∀ b p, a.parent? b = some p → p.index ≤ b.index) ∧
    (a.ParentsBelow ↔ ∀ b, ¬MadeInItself calls b) ∧
    ((∀ b, a.Ends b) ↔ ∀ b, ¬MadeInItself calls b) ∧
    ((∀ b, ¬MadeInItself calls b) → ∀ b,
      (∀ n, b.index < n → a.chain n b = a.ancestors b ∧
        ∀ name, ((a.chain n b).findSome? fun c => a.findInBlock? c name) = a.lookup? b name) ∧
      (∀ c, a.encloses c b = true ↔ a.Inside b c) ∧
      ∀ x, a.block? b = some x →
        ∃ root y, a.encloses root b = true ∧ a.block? root = some y ∧ y.isRoot = true) ∧
    ∀ b, MadeInItself calls b → ∀ n, a.chain n b = List.replicate n b := by
  intro a
  have hself : ∀ b, MadeInItself calls b → ∀ n, a.chain n b = List.replicate n b :=
    fun b hb => chain_of_self (parent?_perform_iff.2 hb)
  refine ⟨fun b p => parent_le h, parentsBelow_iff h, ⟨fun hends b hb => ?_, fun hnone b => ?_⟩,
    fun hnone b => ?_, hself⟩
  · obtain ⟨n, hn⟩ := hends b
    rw [hself b hb, List.length_replicate] at hn
    exact Nat.lt_irrefl n hn
  · exact ends_of_parentsBelow ((parentsBelow_iff h).2 hnone) b
  · have ha := (parentsBelow_iff h).2 hnone
    refine ⟨fun n hn => ?_, fun c => encloses_iff ha, fun x hx => ?_⟩
    · rw [chain_eq_ancestors ha hn]
      exact ⟨rfl, fun _ => rfl⟩
    obtain ⟨root, hroot, hparent⟩ := exists_root ha b
    obtain ⟨y, hy⟩ := block_of_inside h hroot hx
    refine ⟨root, y, encloses_of_inside ha hroot, hy, ?_⟩
    rw [parent?_eq hy] at hparent
    unfold Block.isRoot
    rw [hparent]
    rfl

/-- The second of two blocks, made inside itself: the call is accepted, and the walk from the block
does not end. -/
theorem second_block_made_in_itself :
    let calls : List Call := [.createRoot .synthetic, .createChild ⟨1⟩ .synthetic]
    let a := empty.perform calls
    empty.refusals calls = [] ∧ a.parent? ⟨1⟩ = some ⟨1⟩ ∧ ¬a.ParentsBelow ∧
      (∀ n, a.chain n ⟨1⟩ = List.replicate n ⟨1⟩) ∧ ¬∀ b, a.Ends b := by
  intro calls a
  have haccepted : empty.refusals calls = [] := by decide
  have hmade : MadeInItself calls ⟨1⟩ := ⟨[.createRoot .synthetic], .synthetic, [], rfl, rfl⟩
  obtain ⟨_, hbelow, hends, _, hwalk⟩ := scope_chains_end_iff haccepted
  exact ⟨haccepted, by decide, fun ha => hbelow.1 ha ⟨1⟩ hmade, hwalk ⟨1⟩ hmade,
    fun hall => hends.1 hall ⟨1⟩ hmade⟩

end BlockLowering.IR.Arena
