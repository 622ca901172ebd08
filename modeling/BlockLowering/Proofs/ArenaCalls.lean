import Mathlib.Data.List.Induction
import BlockLowering.Proofs.ArenaGrowth

/-!
# Calls of an arena

An arena may be called in any order and with any numbers, also with numbers that it never gave out.
A call that is refused leaves behind what its operation leaves behind, and the next call goes on
from there. `block?_call` says what a call does to every block, new ones included; what a sequence
of calls does to blocks is derived from it.
-/

namespace BlockLowering.IR

/-- A call of one of the operations that change an arena. -/
inductive Call where
  | createRoot (span : Span)
  | createChild (parent : BlockId) (span : Span)
  | addDecl (block : BlockId) (name : String) (type : Option TypeRef) (kind : DeclKind)
      (span : Span)
  | addStmt (block : BlockId) (stmt : Stmt)
  | sealBlock (block : BlockId)
  | linkPlaceholder (placeholder target : DeclId)
  | createTypeScope (builtins : List String)

/-- Why an answer is a refusal. -/
def refusal? {α : Type} : Except Refusal α → Option Refusal
  | .ok _ => none
  | .error reason => some reason

namespace Call

/-- The block that the call makes at number `b`. -/
def newBlock? (b : BlockId) : Call → Option Block
  | createRoot span => some (.fresh b none span)
  | createChild parent span => some (.fresh b (some parent) span)
  | _ => none

/-- The parent that the call asks for. -/
def parent? : Call → Option BlockId
  | createChild parent _ => some parent
  | _ => none

/-- What the block `x` at number `b` becomes by the call. -/
def effect (a : Arena) (b : BlockId) (x : Block) : Call → Block
  | createChild parent _ =>
    if parent = b then { x with children := x.children ++ [⟨a.blocks.length⟩] } else x
  | addDecl block _ _ _ _ =>
    if block = b ∧ x.isSealed = false then { x with decls := x.decls ++ [⟨a.decls.length⟩] } else x
  | addStmt block stmt =>
    if block = b ∧ x.isSealed = false then { x with stmts := x.stmts ++ [stmt] } else x
  | sealBlock block => if block = b then { x with isSealed := true } else x
  | _ => x

end Call

namespace Arena

variable {a : Arena} {b p : BlockId} {x : Block} {c : Call} {calls : List Call} {span : Span}

/-- The arena that an operation answers with; a refusal leaves the arena as it is. -/
def settle (a : Arena) : Except Refusal Arena → Arena × Option Refusal
  | .ok a' => (a', none)
  | .error reason => (a, some reason)

/-- The arena after a call, and why the call was refused, if it was. -/
def call (a : Arena) : Call → Arena × Option Refusal
  | .createRoot span => ((a.createRoot span).1, none)
  | .createChild parent span =>
    let (a, answer) := a.createChild parent span
    (a, refusal? answer)
  | .addDecl block name type kind span =>
    let (a, answer) := a.addDecl block name type kind span
    (a, refusal? answer)
  | .addStmt block stmt => a.settle (a.addStmt block stmt)
  | .sealBlock block => a.settle (a.sealBlock block)
  | .linkPlaceholder placeholder target =>
    a.settle ((a.linkPlaceholder placeholder target).map Prod.fst)
  | .createTypeScope builtins => ((a.createTypeScope builtins).1, none)

/-- The arena after all calls, refused ones included. -/
def perform (a : Arena) (calls : List Call) : Arena := calls.foldl (fun a c => (a.call c).1) a

/-- The refusals of the calls, in order. -/
def refusals (a : Arena) : List Call → List Refusal
  | [] => []
  | c :: rest => (a.call c).2.toList ++ (a.call c).1.refusals rest

@[simp] theorem perform_nil (a : Arena) : a.perform [] = a := rfl

@[simp] theorem perform_cons (a : Arena) (c : Call) (rest : List Call) :
    a.perform (c :: rest) = (a.call c).1.perform rest := rfl

theorem perform_concat (a : Arena) (calls : List Call) (c : Call) :
    a.perform (calls ++ [c]) = ((a.perform calls).call c).1 := by
  unfold perform
  rw [List.foldl_append, List.foldl_cons, List.foldl_nil]

theorem refusals_append (a : Arena) (l r : List Call) :
    a.refusals (l ++ r) = a.refusals l ++ (a.perform l).refusals r := by
  induction l generalizing a with
  | nil => rfl
  | cons c rest ih =>
    rw [List.cons_append, refusals, refusals, ih, perform_cons, List.append_assoc]

/-! ## Blocks after a call -/

theorem block?_eq_none (h : b.index = a.blocks.length) : a.block? b = none :=
  List.getElem?_eq_none (Nat.le_of_eq h.symm)

/-- A call that makes no block has its effect on the blocks that are there. -/
theorem block?_of_newBlock? (h : c.newBlock? b = none) :
    (if b.index = a.blocks.length then c.newBlock? b else a.block? b) = a.block? b := by
  by_cases hb : b.index = a.blocks.length
  · rw [if_pos hb, h, block?_eq_none hb]
  · rw [if_neg hb]

theorem block?_updateBlock_map (a : Arena) (p : BlockId) (f : Block → Block) (b : BlockId) :
    (a.updateBlock p f).block? b = (a.block? b).map fun x => if p = b then f x else x := by
  rw [block?_updateBlock]
  by_cases hb : b = p
  · simp only [if_pos hb, if_pos hb.symm]
  · simp only [if_neg hb, if_neg (Ne.symm hb), Option.map_id']

/-- What changes no block that is there changes nothing. -/
theorem map_block?_eq {f : Block → Block} (h : ∀ x, a.block? b = some x → f x = x) :
    (a.block? b).map f = a.block? b := by
  cases hx : a.block? b with
  | none => rfl
  | some x => exact congrArg some (h x hx)

section

variable {f : Block → Block}

/-- An addition to a block that is not there has no effect. -/
theorem map_block?_of_unknown (h : a.block? p = none) :
    ((a.block? b).map fun x => if p = b ∧ x.isSealed = false then f x else x) = a.block? b := by
  refine map_block?_eq fun x hx => if_neg ?_
  rintro ⟨rfl, _⟩
  rw [h] at hx
  cases hx

/-- An addition to a sealed block has no effect. -/
theorem map_block?_of_sealed (h : a.block? p = some x) (hs : x.isSealed = true) :
    ((a.block? b).map fun x => if p = b ∧ x.isSealed = false then f x else x) = a.block? b := by
  refine map_block?_eq fun y hy => if_neg ?_
  rintro ⟨rfl, hopen⟩
  rw [h] at hy
  cases hy
  rw [hs] at hopen
  cases hopen

theorem map_block?_of_open (h : a.block? p = some x) (ho : x.isSealed = false) :
    ((a.block? b).map fun x => if p = b ∧ x.isSealed = false then f x else x) =
      (a.updateBlock p f).block? b := by
  rw [block?_updateBlock_map]
  by_cases hb : p = b
  · rw [← hb, h, Option.map_some, Option.map_some, if_pos ⟨rfl, ho⟩, if_pos rfl]
  · simp only [hb, false_and, if_false]

end

/-- A call makes at most one block, at the next number, and then has its effect on every block. -/
theorem block?_call (a : Arena) (c : Call) (b : BlockId) :
    (a.call c).1.block? b =
      (if b.index = a.blocks.length then c.newBlock? b else a.block? b).map fun x =>
        c.effect a b x := by
  cases c with
  | createRoot span =>
    rw [show (a.call (.createRoot span)).1 = (a.allocBlock none span).1 from rfl, block?_allocBlock]
    exact Option.map_id'.symm
  | createChild parent span =>
    have halloc : (if b.index = a.blocks.length then (Call.createChild parent span).newBlock? b
        else a.block? b) = (a.allocBlock (some parent) span).1.block? b :=
      (block?_allocBlock a (some parent) span b).symm
    rw [halloc]
    show (a.createChild parent span).1.block? b = _
    by_cases hp : parent.index ≤ a.blocks.length
    · rw [createChild_of_le hp]
      exact block?_updateBlock_map _ parent _ b
    · rw [createChild_unknown (by omega)]
      refine (map_block?_eq fun x hx => if_neg ?_).symm
      rintro rfl
      have hlt := index_lt_of_block? hx
      rw [length_allocBlock] at hlt
      omega
  | addDecl block name type kind span =>
    rw [block?_of_newBlock? rfl]
    show (a.addDecl block name type kind span).1.block? b = _
    cases hx : a.block? block with
    | none =>
      rw [addDecl_unknown hx]
      exact (map_block?_of_unknown hx).symm
    | some x =>
      cases hs : x.isSealed with
      | true =>
        rw [addDecl_sealed hx hs]
        exact (map_block?_of_sealed hx hs).symm
      | false =>
        rw [addDecl_eq hx hs]
        exact (map_block?_of_open hx hs).symm
  | addStmt block stmt =>
    rw [block?_of_newBlock? rfl]
    show (a.settle (a.addStmt block stmt)).1.block? b = _
    cases hx : a.block? block with
    | none =>
      rw [addStmt_unknown hx]
      exact (map_block?_of_unknown hx).symm
    | some x =>
      cases hs : x.isSealed with
      | true =>
        rw [addStmt_sealed hx hs]
        exact (map_block?_of_sealed hx hs).symm
      | false =>
        rw [addStmt_eq hx hs]
        exact (map_block?_of_open hx hs).symm
  | sealBlock block =>
    rw [block?_of_newBlock? rfl]
    show (a.settle (a.sealBlock block)).1.block? b = _
    cases hx : a.block? block with
    | none =>
      rw [sealBlock_unknown hx]
      refine (map_block?_eq (a := a) fun x hb => if_neg ?_).symm
      rintro rfl
      rw [hx] at hb
      cases hb
    | some x =>
      rw [sealBlock_eq hx]
      exact block?_updateBlock_map a block _ b
  | linkPlaceholder placeholder target =>
    rw [block?_of_newBlock? rfl]
    refine Eq.trans ?_ Option.map_id'.symm
    show (a.settle ((a.linkPlaceholder placeholder target).map Prod.fst)).1.block? b = _
    unfold linkPlaceholder
    cases a.decl? placeholder with
    | none => rfl
    | some d =>
      dsimp only
      split <;> rfl
  | createTypeScope builtins =>
    rw [block?_of_newBlock? rfl]
    exact Option.map_id'.symm

/-- Blocks keep their numbers and their parents. -/
theorem effect_fields (a : Arena) (b : BlockId) (x : Block) (c : Call) :
    (c.effect a b x).id = x.id ∧ (c.effect a b x).parent = x.parent := by
  cases c with
  | createChild | addDecl | addStmt | sealBlock =>
    unfold Call.effect
    dsimp only
    split <;> exact ⟨rfl, rfl⟩
  | createRoot | linkPlaceholder | createTypeScope => exact ⟨rfl, rfl⟩

/-- The new block, if there is one, gets the parent that the call asks for; this does not depend on
what is there. -/
theorem parent?_call (a : Arena) (c : Call) (b : BlockId) :
    (a.call c).1.parent? b = if b.index = a.blocks.length then c.parent? else a.parent? b := by
  have hparent : ∀ o : Option Block, (o.map fun x => c.effect a b x).bind Block.parent =
      o.bind Block.parent := by
    intro o
    cases o with
    | none => rfl
    | some x => exact (effect_fields a b x c).2
  unfold parent?
  rw [block?_call, hparent]
  by_cases hb : b.index = a.blocks.length
  · rw [if_pos hb, if_pos hb]
    cases c <;> rfl
  · rw [if_neg hb, if_neg hb]

/-- A block has the number at which it stands. -/
theorem id_eq_of_block?_perform (h : (empty.perform calls).block? b = some x) : x.id = b := by
  induction calls using List.reverseRecOn generalizing x with
  | nil => simp [empty, block?] at h
  | append_singleton calls c ih =>
    rw [perform_concat, block?_call, Option.map_eq_some_iff] at h
    obtain ⟨y, hy, rfl⟩ := h
    rw [(effect_fields _ b y c).1]
    by_cases hb : b.index = (empty.perform calls).blocks.length
    · rw [if_pos hb] at hy
      cases c <;> cases hy <;> rfl
    · rw [if_neg hb] at hy
      exact ih hy

/-- The call that made a block asked for its parent. -/
theorem parent?_perform_iff :
    (empty.perform calls).parent? b = some p ↔
      ∃ before span after, calls = before ++ .createChild p span :: after ∧
        (empty.perform before).blocks.length = b.index := by
  induction calls using List.reverseRecOn with
  | nil => simp [empty, parent?, block?]
  | append_singleton calls c ih =>
    rw [perform_concat, parent?_call]
    constructor
    · intro h
      by_cases hb : b.index = (empty.perform calls).blocks.length
      · rw [if_pos hb] at h
        cases c with
        | createChild parent span =>
          cases h
          exact ⟨calls, span, [], rfl, hb.symm⟩
        | _ => cases h
      · rw [if_neg hb] at h
        obtain ⟨before, span, after, rfl, hlength⟩ := ih.1 h
        exact ⟨before, span, after ++ [c], by simp, hlength⟩
    · rintro ⟨before, span, after, hcalls, hlength⟩
      cases after using List.reverseRecOn with
      | nil =>
        obtain ⟨rfl, hc⟩ := List.append_inj' hcalls rfl
        cases hc
        rw [if_pos hlength.symm]
        rfl
      | append_singleton after last =>
        rw [← List.cons_append, ← List.append_assoc] at hcalls
        obtain ⟨hcalls, _⟩ := List.append_inj' hcalls rfl
        have h := ih.2 ⟨before, span, after, hcalls, hlength⟩
        have hlt := index_lt_of_parent? h
        rw [if_neg (by omega), h]

end Arena

end BlockLowering.IR
