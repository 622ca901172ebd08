import Mathlib.Logic.Relation
import BlockLowering.Proofs.BlockRoles
import BlockLowering.Proofs.BlockUses

/-!
# Blocks reached from the body of a module

A block has its place in the order of execution if one comes to it from the body of its module by
going from statements to the blocks that they name. The IR has no statement that merely enters a
block, so the members of a namespace and the brace groups in a list of statements are scopes that
nothing enters. All other blocks are named by a statement of the block around them.
-/

namespace BlockLowering

open IR Source Session

namespace IR.Arena

variable {names : SymbolTable} {src : Node → Prop} {a : Arena} {b c d : BlockId}

/-- A statement of `b` names `c`: as a branch, as the body of a loop or as a function body. -/
def Mentions (a : Arena) (b c : BlockId) : Prop :=
  ∃ x, a.block? b = some x ∧ ∃ st ∈ x.stmts, c ∈ st.blocks

/-- One comes from `b` to `c` by following the blocks that statements name. -/
def Reaches (a : Arena) : BlockId → BlockId → Prop := Relation.ReflTransGen a.Mentions

theorem mem_named : c ∈ a.named ↔ ∃ b, a.Mentions b c := by
  unfold named
  rw [List.mem_flatMap]
  constructor
  · rintro ⟨st, hst, hc⟩
    obtain ⟨b, x, hx, hmem⟩ := mem_code.1 hst
    exact ⟨b, x, hx, st, hmem, hc⟩
  · rintro ⟨b, x, hx, st, hmem, hc⟩
    exact ⟨st, mem_code.2 ⟨b, x, hx, hmem⟩, hc⟩

/-- If a block is named, its parent names it. -/
theorem mentions_iff (ha : a.WellScoped names src) :
    a.Mentions b c ↔ a.parent? c = some b ∧ c ∈ a.named := by
  have hparent : ∀ b, a.Mentions b c → a.parent? c = some b := by
    rintro b ⟨x, hx, st, hst, hc⟩
    obtain ⟨_, hb, hp⟩ := (ha.stmts b x hx st hst).blocks c hc
    rw [hp, hb]
  constructor
  · intro h
    exact ⟨hparent b h, mem_named.2 ⟨b, h⟩⟩
  · rintro ⟨hp, hnamed⟩
    obtain ⟨b', h⟩ := mem_named.1 hnamed
    obtain rfl := Option.some.inj (hp.symm.trans (hparent b' h))
    exact h

end IR.Arena

namespace Source.Module

/-- The roles of the blocks inside the body of a module. -/
def roles (m : Module) : List Role := statementsRoles m.statements

/-- The role of a block of a module that is lowered by itself. Its unit and its body come first. -/
def role? (m : Module) (c : BlockId) : Option Role :=
  if c.index < 2 then none else m.roles[c.index - 2]?

theorem role?_eq_some {m : Module} {c : BlockId} {role : Role} :
    m.role? c = some role ↔ ∃ k, m.roles[k]? = some role ∧ c = ⟨2 + k⟩ := by
  obtain ⟨i⟩ := c
  unfold role?
  constructor
  · intro h
    by_cases hi : i < 2
    · rw [if_pos hi] at h
      cases h
    · rw [if_neg hi] at h
      exact ⟨i - 2, h, congrArg BlockId.mk (by omega)⟩
  · rintro ⟨k, hk, hi⟩
    obtain rfl := BlockId.mk.inj hi
    rw [if_neg (Nat.not_lt.2 (Nat.le_add_right 2 k)), Nat.add_sub_cancel_left]
    exact hk

end Source.Module

/-- How the statements of a module lead from its body to its other blocks. -/
structure BlocksReached (m : Module) (unit body : BlockId) (a : Arena) : Prop where
  size : a.blocks.length = 2 + m.roles.length
  /-- Functions, branches and loops are named by the block around them, and nothing else is. -/
  mentions : ∀ b c, a.Mentions b c ↔
    a.parent? c = some b ∧ ∃ role, m.role? c = some role ∧ role.isNamed = true
  /-- No two places name the same block. -/
  once : a.named.Nodup
  /-- What is not reached lies in a namespace or in a brace group. -/
  reaches : ∀ c, c.index < a.blocks.length → c ≠ unit → (a.Reaches body c ↔
    ∀ d, a.Inside c d → m.role? d ≠ some .members ∧ m.role? d ≠ some .group)
  reachesAll : (∀ c, c.index < a.blocks.length → c ≠ unit → a.Reaches body c) ↔
    .members ∉ m.roles ∧ .group ∉ m.roles

section

variable {names : SymbolTable} {m : Module} {options : Options} {c : BlockId}

/-- The blocks of a module and the ones that statements name, if nothing is reported. -/
theorem named_lowerModule (h : (lowerModule names m options).log.records = []) :
    (lowerModule names m options).arena.blocks.length = 2 + m.roles.length ∧
      ∀ c, c ∈ (lowerModule names m options).arena.named ↔
        ∃ role, m.role? c = some role ∧ role.isNamed = true := by
  have hstart := (reachable_initial names anyNode options).enterUnit m
  have hbuilds : Builds m.roles [] ((initial options).enterUnit names m)
      ((initial options).unitStatements names m) :=
    builds_statementList m.statements _ hstart.good rfl
  have hlength : ((initial options).enterUnit names m).arena.blocks.length = 2 :=
    Session.length_enterUnit names m (initial options)
  have hcode : ((initial options).enterUnit names m).arena.code = [] :=
    (still_enterUnit names m (initial options)).code
  rw [lowerModule_eq] at h ⊢
  have hend := still_leaveUnit (initial options) ((initial options).unitStatements names m)
  have hsilent : ((initial options).unitStatements names m).problems =
      ((initial options).enterUnit names m).problems := by
    have hle := hbuilds.problems
    have hzero : ((initial options).unitStatements names m).problems = 0 :=
      congrArg List.length h
    omega
  constructor
  · show ((Arena.withSealed _ _).withSealed _).blocks.length = _
    rw [Arena.length_withSealed, Arena.length_withSealed, hbuilds.size hsilent, hlength]
  · intro c
    have hnamed := hbuilds.named hsilent c
    rw [hlength, mem_namedFrom] at hnamed
    unfold Arena.named at hnamed ⊢
    rw [hcode] at hnamed
    rw [hend.code]
    simp only [List.flatMap_nil, List.not_mem_nil, or_false, false_or] at hnamed
    rw [hnamed]
    simp only [Module.role?_eq_some]
    constructor
    · rintro ⟨k, role, hrole, hisNamed, hc⟩
      exact ⟨role, ⟨k, hrole, hc⟩, hisNamed⟩
    · rintro ⟨role, ⟨k, hrole, hc⟩, hisNamed⟩
      exact ⟨k, role, hrole, hisNamed, hc⟩

/-- The blocks of a module hang together: under the unit there is only the body, and every other
block has a parent that came before it. -/
theorem parent_lowerModule (hc : c.index < (lowerModule names m options).arena.blocks.length)
    (hunit : c ≠ (initial options).nextUnit) (hbody : c ≠ (initial options).nextBody) :
    ∃ p, (lowerModule names m options).arena.parent? c = some p ∧ p.index < c.index ∧
      p ≠ (initial options).nextUnit := by
  have hstart := reachable_initial names anyNode options
  have hlinked := (reachable_run names [.options options, .module m]).linked.children
  have hblock : (lowerModule names m options).arena.block? c =
      some (lowerModule names m options).arena.blocks[c.index] := List.getElem?_eq_getElem hc
  generalize hx : (lowerModule names m options).arena.blocks[c.index] = x at hblock
  have hid := hlinked.ids c x hblock
  have hparent := Arena.parent?_eq hblock
  cases hp : x.parent with
  | none =>
    -- A block without a parent is a root, and the only root is the unit.
    obtain ⟨hroots, hopen⟩ := addsRoots_module hstart m
    have hroot : c ∈ (lowerModule names m options).arena.roots := by
      rw [← hid]
      refine List.mem_map_of_mem (List.mem_filter.2 ⟨List.mem_of_getElem? hblock, ?_⟩)
      unfold Block.isRoot
      rw [hp]
      rfl
    have hmem := (hroots.roots hopen).mem_iff.1 hroot
    rw [run_module hstart m] at hmem
    exact absurd (List.mem_singleton.1 hmem) hunit
  | some p =>
    rw [hp] at hparent
    refine ⟨p, hparent, hlinked.parents c p hparent, ?_⟩
    rintro rfl
    have hchild := ((hlinked.children _ _ (block?_module_nextUnit hstart m)).2 c).2 hparent
    exact hbody (List.mem_singleton.1 hchild)

section

variable (h : (lowerModule names m options).log.records = [])

include h

theorem mentions_lowerModule (b c : BlockId) :
    (lowerModule names m options).arena.Mentions b c ↔
      (lowerModule names m options).arena.parent? c = some b ∧
        ∃ role, m.role? c = some role ∧ role.isNamed = true := by
  have hgood := (reachable_run names [.options options, .module m]).good
  rw [← (named_lowerModule h).2 c]
  exact Arena.mentions_iff hgood.arena

/-- A block that is reached is named, and so are all blocks around it inside of the body. -/
theorem roles_of_reaches
    (hc : (lowerModule names m options).arena.Reaches (initial options).nextBody c) (d : BlockId)
    (hd : (lowerModule names m options).arena.Inside c d) :
    m.role? d ≠ some .members ∧ m.role? d ≠ some .group := by
  have hbelow := (reachable_run names [.options options, .module m]).linked.children.parents
  induction hc with
  | refl =>
    have hnone : m.role? d = none := if_pos (Nat.lt_succ_of_le (Arena.index_le_of_inside hbelow hd))
    rw [hnone]
    exact ⟨nofun, nofun⟩
  | tail _ hstep ih =>
    obtain ⟨hparent, role, hrole, hnamed⟩ := (mentions_lowerModule h _ _).1 hstep
    cases hd with
    | self =>
      rw [hrole]
      constructor
      · rintro ⟨⟩
        cases hnamed
      · rintro ⟨⟩
        cases hnamed
    | outward hp hrest =>
      obtain rfl := Option.some.inj (hparent.symm.trans hp)
      exact ih hrest

/-- Where no namespace and no brace group is around, parents lead back to the body. -/
theorem reaches_of_roles (hlt : c.index < (lowerModule names m options).arena.blocks.length)
    (hunit : c ≠ (initial options).nextUnit)
    (hroles : ∀ d, (lowerModule names m options).arena.Inside c d →
      m.role? d ≠ some .members ∧ m.role? d ≠ some .group) :
    (lowerModule names m options).arena.Reaches (initial options).nextBody c := by
  -- On the number of the block: its parent came before it.
  generalize hn : c.index = n
  induction n using Nat.strongRecOn generalizing c with
  | ind n ih =>
    by_cases hbody : c = (initial options).nextBody
    · rw [hbody]
      exact .refl
    · obtain ⟨p, hparent, hp, hne⟩ := parent_lowerModule hlt hunit hbody
      have hreached := ih p.index (hn ▸ hp) (Nat.lt_trans hp hlt) hne
        (fun d hd => hroles d (.outward hparent hd)) rfl
      obtain ⟨role, hrole⟩ : ∃ role, m.role? c = some role := by
        have hsize := (named_lowerModule h).1
        have hzero : c.index ≠ 0 := fun h0 => hunit (congrArg BlockId.mk h0)
        have hone : c.index ≠ 1 := fun h1 => hbody (congrArg BlockId.mk h1)
        exact ⟨_, (if_neg (by omega)).trans (List.getElem?_eq_getElem (by omega))⟩
      have hnamed : role.isNamed = true := by
        have hself := hroles c (.self c)
        rw [hrole] at hself
        cases role with
        | function | branch | loop => rfl
        | members => exact absurd rfl hself.1
        | group => exact absurd rfl hself.2
      exact hreached.tail ((mentions_lowerModule h p c).2 ⟨hparent, role, hrole, hnamed⟩)

end

/-- If lowering a module reports nothing, a block is reached from the body exactly if neither it nor
a block around it belongs to a namespace or to a brace group in a list of statements. -/
theorem lowerModule_blocks_reached (names : SymbolTable) (m : Module) (options : Options)
    (h : (lowerModule names m options).log.records = []) :
    BlocksReached m (initial options).nextUnit (initial options).nextBody
      (lowerModule names m options).arena where
  size := (named_lowerModule h).1
  mentions := mentions_lowerModule h
  once := by
    apply List.nodup_iff_count_le_one.2
    intro c
    unfold Arena.named
    rw [← Arena.count_uses]
    exact count_use_le_one names [.options options, .module m] c
  reaches c hlt hunit := ⟨roles_of_reaches h, reaches_of_roles h hlt hunit⟩
  reachesAll := by
    constructor
    · intro hall
      have hrole : ∀ role ∈ m.roles, role ≠ .members ∧ role ≠ .group := by
        intro role hmem
        obtain ⟨k, hk⟩ := List.mem_iff_getElem?.1 hmem
        have hsize := (named_lowerModule h).1
        have hlt := (List.getElem?_eq_some_iff.1 hk).1
        have hreached := hall ⟨2 + k⟩ (by show 2 + k < _; omega) fun heq => by
          have hindex : 2 + k = 0 := BlockId.mk.inj heq
          omega
        have hself := roles_of_reaches h hreached _ (.self _)
        rw [Module.role?_eq_some.2 ⟨k, hk, rfl⟩] at hself
        exact ⟨fun he => hself.1 (congrArg some he), fun he => hself.2 (congrArg some he)⟩
      exact ⟨fun hm => (hrole _ hm).1 rfl, fun hg => (hrole _ hg).2 rfl⟩
    · rintro ⟨hmembers, hgroup⟩ c hlt hunit
      apply reaches_of_roles h hlt hunit
      intro d _
      constructor
      · intro hd
        obtain ⟨k, hk, _⟩ := Module.role?_eq_some.1 hd
        exact hmembers (List.mem_of_getElem? hk)
      · intro hd
        obtain ⟨k, hk, _⟩ := Module.role?_eq_some.1 hd
        exact hgroup (List.mem_of_getElem? hk)

/-- `while (1) { { 2; } } function f() { 3; }`: the loop and the function are reached, and the brace
group inside the loop is not. -/
theorem loop_reached_without_group :
    let names : SymbolTable := ⟨["f"]⟩
    let inner : Statement := .block ⟨[.expression (.int 2 .synthetic) .synthetic], .synthetic⟩
    let loop : Statement :=
      .whileLoop (.int 1 .synthetic) (.block ⟨[inner], .synthetic⟩) .synthetic
    let f : Statement := .functionDecl ⟨⟨⟨0⟩, .synthetic⟩, [], [], none,
      ⟨[.expression (.int 3 .synthetic) .synthetic], .synthetic⟩, .synthetic⟩
    let m : Module := ⟨[loop, f], .synthetic⟩
    let a := (lowerModule names m {}).arena
    (lowerModule names m {}).log.records = [] ∧ m.roles = [.loop, .group, .function] ∧
      BlocksReached m ⟨0⟩ ⟨1⟩ a ∧ a.Reaches ⟨1⟩ ⟨2⟩ ∧ ¬a.Reaches ⟨1⟩ ⟨3⟩ := by
  intro names inner loop f m a
  have hsilent : (lowerModule names m {}).log.records = [] := by decide +kernel
  have horder : BlocksReached m ⟨0⟩ ⟨1⟩ a := lowerModule_blocks_reached names m {} hsilent
  have hloop : a.Mentions ⟨1⟩ ⟨2⟩ :=
    (horder.mentions ⟨1⟩ ⟨2⟩).2 ⟨by decide +kernel, .loop, by decide +kernel, rfl⟩
  refine ⟨hsilent, by decide +kernel, horder, .single hloop, ?_⟩
  intro hgroup
  have hrole := (horder.reaches ⟨3⟩ (by decide +kernel) (by decide)).1 hgroup ⟨3⟩ (.self _)
  exact hrole.2 (by decide +kernel)

/-- In `{ 1; }` the brace group has a block, and nothing leads to it. -/
theorem lone_group_not_reached :
    let m : Module :=
      ⟨[.block ⟨[.expression (.int 1 .synthetic) .synthetic], .synthetic⟩], .synthetic⟩
    let a := (lowerModule ⟨[]⟩ m {}).arena
    (lowerModule ⟨[]⟩ m {}).log.records = [] ∧
      ¬∀ c : BlockId, c.index < a.blocks.length → c ≠ (initial {}).nextUnit →
        a.Reaches (initial {}).nextBody c := by
  intro m a
  refine ⟨by decide +kernel, fun hall => ?_⟩
  have hgroup : a.Reaches ⟨1⟩ ⟨2⟩ := hall ⟨2⟩ (by decide +kernel) (by decide)
  rcases hgroup.cases_tail with heq | ⟨b, _, hstep⟩
  · cases heq
  · have hnone : a.named = [] := by decide +kernel
    have hnamed := Arena.mem_named.2 ⟨b, hstep⟩
    rw [hnone] at hnamed
    cases hnamed

end

end BlockLowering
