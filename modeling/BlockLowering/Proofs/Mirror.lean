import Mathlib.Data.List.Forall2
import BlockLowering.Proofs.Lockstep

/-!
# One session inside another

A second session does the same as a first one, but it has done other things before. `Placement` says
what it had before and where it puts what comes now; `Mirrors` says that it now holds, besides what it
had, exactly what the first session holds, at other numbers. Every operation of lowering keeps this,
and what the first session finds by name or by number the second finds too.
-/

namespace BlockLowering

open IR Diagnostic Source Session

/-- Where a second session puts what a first session makes. -/
structure Placement where
  shift : Shift
  /-- The number of the first temporary. -/
  temps : Nat
  /-- The declarations that roots list before their own. -/
  extra : List DeclId
  /-- The blocks that are open around. -/
  outer : List BlockId
  /-- The diagnostics of before. -/
  records : List Record
  /-- What is known of the declarations of before. -/
  older : List Decl → Prop

variable {k : Placement} {text name : String}

/-- A block as the second session has it. -/
def IR.Block.placed (k : Placement) (x : IR.Block) : IR.Block :=
  x.shift k.shift (if x.isRoot then k.extra else [])

/-! ## Arenas -/

namespace IR.Arena

/-- After its older part, `a'` holds what `a` holds. -/
structure Mirrors (k : Placement) (text : String) (a a' : Arena) : Prop where
  size : a'.blocks.length = a.blocks.length + k.shift.blocks
  block : ∀ b : BlockId, a'.block? (b.shift k.shift) = (a.block? b).map (Block.placed k)
  count : a'.decls.length = a.decls.length + k.shift.decls
  decl : ∀ d x, a.decl? d = some x →
    ∃ y, a'.decl? (d.shift k.shift) = some y ∧ Decl.Shifted k.shift k.temps text x y
  older : k.older (a'.decls.take k.shift.decls)
  types : a'.typeScopes = a.typeScopes

namespace Mirrors

variable {a a' : Arena} {b : BlockId} {d p : DeclId} {x y : Decl}

theorem updateBlock (h : a.Mirrors k text a') {f f' : Block → Block}
    (hf : ∀ x, (f x).placed k = f' (x.placed k)) (b : BlockId) :
    (a.updateBlock b f).Mirrors k text (a'.updateBlock (b.shift k.shift) f') where
  size := by rw [length_updateBlock, length_updateBlock, h.size]
  block c := by
    rw [block?_updateBlock, block?_updateBlock, h.block]
    by_cases hc : c = b
    · rw [if_pos hc, if_pos (congrArg _ hc)]
      cases a.block? c with
      | none => rfl
      | some x => exact congrArg some (hf x).symm
    · rw [if_neg hc, if_neg fun e => hc (BlockId.shift_injective e)]
  count := h.count
  decl := h.decl
  older := h.older
  types := h.types

theorem withStmt (h : a.Mirrors k text a') (b : BlockId) (stmt : Stmt) :
    (a.withStmt b stmt).Mirrors k text (a'.withStmt (b.shift k.shift) (stmt.shift k.shift)) := by
  refine h.updateBlock (fun x => ?_) b
  unfold Block.placed Block.shift
  simp only [List.map_append]
  rfl

theorem withSealed (h : a.Mirrors k text a') (b : BlockId) :
    (a.withSealed b).Mirrors k text (a'.withSealed (b.shift k.shift)) := by
  refine h.updateBlock (fun x => ?_) b
  rfl

/-- The next declaration gets the next number in both arenas. -/
theorem nextDecl (h : a.Mirrors k text a') :
    (⟨a'.decls.length⟩ : DeclId) = (⟨a.decls.length⟩ : DeclId).shift k.shift :=
  congrArg DeclId.mk h.count

theorem nextBlock (h : a.Mirrors k text a') :
    (⟨a'.blocks.length⟩ : BlockId) = (⟨a.blocks.length⟩ : BlockId).shift k.shift :=
  congrArg BlockId.mk h.size

theorem pushDecl (h : a.Mirrors k text a') (hxy : Decl.Shifted k.shift k.temps text x y) :
    ({ a with decls := a.decls ++ [x] } : Arena).Mirrors k text
      { a' with decls := a'.decls ++ [y] } where
  size := h.size
  block := h.block
  count := by
    rw [List.length_append, List.length_append, h.count]
    simp only [List.length_singleton]
    omega
  decl d z hz := by
    rw [decl?_pushDecl] at hz ⊢
    have hindex : (d.shift k.shift).index = d.index + k.shift.decls := rfl
    by_cases hd : d.index = a.decls.length
    · rw [if_pos hd] at hz
      obtain rfl := Option.some.inj hz
      rw [if_pos (by rw [hindex, h.count, hd])]
      exact ⟨y, rfl, hxy⟩
    · rw [if_neg hd] at hz
      rw [if_neg (by rw [hindex, h.count]; omega)]
      exact h.decl d z hz
  older := by
    rw [List.take_append_of_le_length (by rw [h.count]; omega)]
    exact h.older
  types := h.types

theorem withDecl (h : a.Mirrors k text a') (hxy : Decl.Shifted k.shift k.temps text x y)
    (b : BlockId) : (a.withDecl b x).Mirrors k text (a'.withDecl (b.shift k.shift) y) := by
  refine (h.pushDecl hxy).updateBlock (fun z => ?_) b
  unfold Block.placed Block.shift
  simp only [List.map_append, ← List.append_assoc, h.nextDecl]
  rfl

/-- A new block inside another. Only new roots would list older declarations. -/
theorem allocBlock (h : a.Mirrors k text a') (b : BlockId) (span : Span) :
    (a.allocBlock (some b) span).1.Mirrors k text
      (a'.allocBlock (some (b.shift k.shift)) span).1 where
  size := by
    rw [length_allocBlock, length_allocBlock, h.size]
    omega
  block c := by
    have hindex : (c.shift k.shift).index = c.index + k.shift.blocks := rfl
    rw [block?_allocBlock, block?_allocBlock, h.block]
    by_cases hc : c.index = a.blocks.length
    · rw [if_pos hc, if_pos (by rw [hindex, h.size, hc])]
      rfl
    · rw [if_neg hc, if_neg (by rw [hindex, h.size]; omega)]
  count := h.count
  decl := h.decl
  older := h.older
  types := h.types

theorem withChild (h : a.Mirrors k text a') (b : BlockId) (span : Span) :
    (a.withChild b span).Mirrors k text (a'.withChild (b.shift k.shift) span) := by
  refine (h.allocBlock b span).updateBlock (fun x => ?_) b
  unfold Block.placed Block.shift
  simp only [List.map_append, h.nextBlock]
  rfl

/-- A link is made in both arenas. -/
theorem withLink (h : a.Mirrors k text a') (hx : a.decl? p = some x)
    (hfree : x.kind = .placeholder none) (d : DeclId) :
    (a.withLink p d).Mirrors k text (a'.withLink (p.shift k.shift) (d.shift k.shift)) where
  size := h.size
  block := h.block
  count := by
    unfold Arena.withLink
    rw [List.length_modify, List.length_modify, h.count]
  decl e z hz := by
    rw [decl?_withLink] at hz ⊢
    by_cases he : e = p
    · rw [if_pos he, he, hx] at hz
      obtain rfl := Option.some.inj hz
      obtain ⟨y, hy, hxy⟩ := h.decl p x hx
      rw [he, if_pos rfl, hy]
      have hname : x.isTemporary = false := by
        unfold Decl.isTemporary
        rw [hfree]
        rfl
      refine ⟨_, rfl, ?_⟩
      exact ⟨fun _ => hxy.name hname, fun htemp => (by cases htemp), hxy.type, rfl, hxy.owner,
        hxy.span⟩
    · rw [if_neg he] at hz
      rw [if_neg fun e' => he (DeclId.shift_injective e')]
      exact h.decl e z hz
  older := by
    have hle : (a'.decls.take k.shift.decls).length ≤ (p.shift k.shift).index := by
      rw [List.length_take]
      exact Nat.le_trans (Nat.min_le_left _ _) (Nat.le_add_left _ _)
    show k.older ((a'.decls.modify (p.shift k.shift).index _).take k.shift.decls)
    rw [List.take_modify, List.modify_eq_self hle]
    exact h.older
  types := h.types

/-! ## Looking things up -/

theorem parent? (h : a.Mirrors k text a') (b : BlockId) :
    a'.parent? (b.shift k.shift) = (a.parent? b).map (BlockId.shift k.shift) := by
  unfold Arena.parent?
  rw [h.block]
  cases a.block? b <;> rfl

theorem inside {c : BlockId} (h : a.Mirrors k text a') (hbc : a.Inside b c) :
    a'.Inside (b.shift k.shift) (c.shift k.shift) := by
  induction hbc with
  | self b => exact .self _
  | outward hp _ ih =>
    refine .outward ?_ ih
    rw [h.parent?, hp]
    rfl

theorem ancestors (h : a.Mirrors k text a') (ha : a.ParentsBelow)
    (hb : b.index < a.blocks.length) :
    a'.ancestors (b.shift k.shift) = (a.ancestors b).map (BlockId.shift k.shift) := by
  have hchain : ∀ (n : Nat) (c : BlockId),
      a'.chain n (c.shift k.shift) = (a.chain n c).map (BlockId.shift k.shift) := by
    intro n
    induction n with
    | zero => exact fun _ => rfl
    | succ n ih =>
      intro c
      rw [chain_succ, chain_succ, h.parent?]
      cases a.parent? c with
      | none => rfl
      | some q => exact congrArg _ (ih q)
  have hlong : ∀ n, a.chain (a.blocks.length + 1 + n) b = a.chain (a.blocks.length + 1) b := by
    intro n
    induction n with
    | zero => rfl
    | succ n ih => rw [← Nat.add_assoc, chain_succ_eq ha (by omega), ih]
  have hsum : a.blocks.length + k.shift.blocks + 1 = a.blocks.length + 1 + k.shift.blocks := by
    omega
  unfold Arena.ancestors
  rw [h.size, hchain, hsum, hlong]

theorem declares (h : a.Mirrors k text a') (hx : a.decl? d = some x) (name : String) :
    a'.declares name (d.shift k.shift) = a.declares name d := by
  obtain ⟨y, hy, hxy⟩ := h.decl d x hx
  have htemp : y.isTemporary = x.isTemporary := by
    unfold Decl.isTemporary
    rw [hxy.kind]
    cases x.kind <;> rfl
  unfold Arena.declares
  rw [hx, hy]
  show (!y.isTemporary && y.name == name) = (!x.isTemporary && x.name == name)
  rw [htemp]
  cases hcase : x.isTemporary with
  | true => rfl
  | false => rw [hxy.name hcase]

/-- The declarations of a list are found at their new numbers. -/
theorem find?_map {ds : List DeclId} {test test' : DeclId → Bool}
    (htest : ∀ d ∈ ds, test' (d.shift k.shift) = test d) :
    (ds.map (DeclId.shift k.shift)).find? test' = (ds.find? test).map (DeclId.shift k.shift) := by
  induction ds with
  | nil => rfl
  | cons d rest ih =>
    rw [List.map_cons, List.find?_cons, List.find?_cons, htest d List.mem_cons_self]
    cases test d with
    | true => rfl
    | false => exact ih fun e he => htest e (List.mem_cons_of_mem d he)

theorem findInBlock? {names : SymbolTable} {src : Node → Prop} (h : a.Mirrors k text a')
    (ha : a.WellScoped names src) (hb : a.parent? b ≠ none ∨ k.extra = []) (name : String) :
    a'.findInBlock? (b.shift k.shift) name =
      (a.findInBlock? b name).map (DeclId.shift k.shift) := by
  unfold Arena.findInBlock?
  rw [h.block]
  cases hx : a.block? b with
  | none => rfl
  | some x =>
    have hplain : (x.placed k).decls = x.decls.map (DeclId.shift k.shift) := by
      unfold Block.placed
      rcases hb with hb | hextra
      · rw [parent?_eq hx] at hb
        cases hp : x.parent with
        | none => exact absurd hp hb
        | some q =>
          unfold Block.isRoot
          rw [hp]
          rfl
      · rw [hextra, ite_self]
        rfl
    show (x.placed k).decls.find? _ = (x.decls.find? _).map _
    rw [hplain]
    refine find?_map fun d hd => ?_
    obtain ⟨y, hy, _⟩ := ha.owners b x hx d hd
    exact h.declares hy name

theorem lookup? {names : SymbolTable} {src : Node → Prop} (h : a.Mirrors k text a')
    (ha : a.WellScoped names src) (hb : b.index < a.blocks.length) (hextra : k.extra = [])
    (name : String) :
    a'.lookup? (b.shift k.shift) name = (a.lookup? b name).map (DeclId.shift k.shift) := by
  unfold Arena.lookup?
  rw [h.ancestors ha.parents hb, List.findSome?_map, List.map_findSome?]
  congr 1
  funext c
  exact h.findInBlock? ha (.inr hextra) name

theorem isFree (h : a.Mirrors k text a') (hx : a.decl? d = some x) (name : String) :
    a'.isFree name (d.shift k.shift) = a.isFree name d := by
  obtain ⟨y, hy, hxy⟩ := h.decl d x hx
  have hkind := hxy.kind
  unfold Arena.isFree
  rw [hx, hy]
  show (y.name == name && y.kind == .placeholder none) =
    (x.name == name && x.kind == .placeholder none)
  by_cases hfree : x.kind = .placeholder none
  · have hname : x.isTemporary = false := by
      unfold Decl.isTemporary
      rw [hfree]
      rfl
    rw [hkind, hfree, hxy.name hname]
    rfl
  · have hfree' : y.kind ≠ .placeholder none := by
      intro e
      rw [hkind] at e
      cases hcase : x.kind with
      | placeholder target =>
        rw [hcase] at e hfree
        cases target with
        | none => exact hfree rfl
        | some d => cases e
      | _ =>
        rw [hcase] at e
        cases e
    rw [beq_eq_false_iff_ne.2 hfree, beq_eq_false_iff_ne.2 hfree', Bool.and_false, Bool.and_false]

/-- The declarations around a block, where roots list no other ones. -/
theorem declsAround (h : a.Mirrors k text a') (hextra : k.extra = []) (b : BlockId) :
    a'.declsAround (b.shift k.shift) = (a.declsAround b).map (DeclId.shift k.shift) := by
  unfold Arena.declsAround
  rw [h.parent?]
  cases a.parent? b with
  | none => rfl
  | some q =>
    show ((a'.block? (q.shift k.shift)).map Block.decls).getD [] =
      (((a.block? q).map Block.decls).getD []).map _
    rw [h.block]
    cases a.block? q with
    | none => rfl
    | some x =>
      show (x.placed k).decls = x.decls.map _
      unfold Block.placed
      rw [hextra, ite_self]
      rfl

/-! ## The tables as lists -/

theorem drop_blocks (h : a.Mirrors k text a') :
    a'.blocks.drop k.shift.blocks = a.blocks.map (Block.placed k) := by
  apply List.ext_getElem?
  intro i
  rw [List.getElem?_drop, List.getElem?_map, Nat.add_comm]
  exact h.block ⟨i⟩

theorem drop_decls (h : a.Mirrors k text a') :
    List.Forall₂ (Decl.Shifted k.shift k.temps text) a.decls (a'.decls.drop k.shift.decls) := by
  rw [List.forall₂_iff_get]
  refine ⟨by rw [List.length_drop, h.count]; omega, fun i hi hi' => ?_⟩
  obtain ⟨y, hy, hxy⟩ := h.decl ⟨i⟩ a.decls[i] (List.getElem?_eq_getElem hi)
  have hget : a'.decls[i + k.shift.decls]? = some y := hy
  obtain ⟨hlt, hget⟩ := List.getElem?_eq_some_iff.1 hget
  rw [List.get_eq_getElem, List.get_eq_getElem, List.getElem_drop]
  simp only [Nat.add_comm k.shift.decls, hget]
  exact hxy

end Mirrors

end IR.Arena

/-! ## Sessions -/

/-- Inside of a block, the second session mirrors the first. -/
structure Session.Mirrors (k : Placement) (s t : Session) : Prop where
  arena : s.arena.Mirrors k s.options.tempPrefix t.arena
  stack : t.openBlocks = s.openBlocks.map (BlockId.shift k.shift) ++ k.outer
  inside : s.openBlocks ≠ []
  unitBody : t.unitBody = s.unitBody.map (BlockId.shift k.shift)
  inForce : t.typeScopes = s.typeScopes
  nextTemp : t.nextTemp = s.nextTemp + k.temps
  text : t.options.tempPrefix = s.options.tempPrefix
  log : t.log.records = k.records ++ s.log.records

namespace Session.Mirrors

variable {names : SymbolTable} {src : Node → Prop} {s t u v : Session} {b c : BlockId} {n : Nat}

theorem of_arena {a a' : Arena} (h : Mirrors k s t) (ha : a.Mirrors k s.options.tempPrefix a') :
    Mirrors k { s with arena := a } { t with arena := a' } :=
  ⟨ha, h.stack, h.inside, h.unitBody, h.inForce, h.nextTemp, h.text, h.log⟩

theorem current (h : Mirrors k s t) (hb : s.current? = some b) :
    t.current? = some (b.shift k.shift) := by
  unfold Session.current?
  rw [h.stack, openBlocks_eq_cons hb]
  rfl

theorem exists_current (h : Mirrors k s t) : ∃ b, s.current? = some b := by
  refine Option.ne_none_iff_exists'.1 fun hnone => ?_
  exact h.inside (List.head?_eq_none_iff.1 hnone)

/-- The innermost block is open in both sessions. -/
theorem opened (h : Mirrors k s t) (hs : s.Good names src) (hb : s.current? = some b) :
    (∃ x, s.arena.block? b = some x ∧ x.isSealed = false) ∧
      ∃ y, t.arena.block? (b.shift k.shift) = some y ∧ y.isSealed = false := by
  obtain ⟨x, hx, ho⟩ := hs.current hb
  refine ⟨⟨x, hx, ho⟩, x.placed k, ?_, ho⟩
  rw [h.arena.block, hx]
  rfl

theorem currentBlock (h : Mirrors k s t) :
    Twin (Mirrors k) s t Lower.currentBlock Lower.currentBlock (BlockId.shift k.shift) := by
  obtain ⟨b, hb⟩ := h.exists_current
  unfold Twin
  rw [Lower.run_currentBlock_some hb, Lower.run_currentBlock_some (h.current hb)]
  exact ⟨rfl, h⟩

theorem report (h : Mirrors k s t) (problem : Problem) :
    Twin (Mirrors k) s t (Lower.report problem) (Lower.report problem) id := by
  refine ⟨rfl, h.arena, h.stack, h.inside, h.unitBody, h.inForce, h.nextTemp, h.text, ?_⟩
  show t.log.records ++ [problem.record] = k.records ++ (s.log.records ++ [problem.record])
  rw [h.log, List.append_assoc]

/-- The faults of two sessions are not compared. -/
theorem withRefused (h : Mirrors k s t) (refused refused' : List Refusal) :
    Mirrors k (s.withRefused refused) (t.withRefused refused') :=
  ⟨h.arena, h.stack, h.inside, h.unitBody, h.inForce, h.nextTemp, h.text, h.log⟩

/-- A name is resolved where look-up finds the same. -/
theorem resolveName (h : Mirrors k s t) (id : Ident)
    (hlook : ∀ b, s.current? = some b →
      t.arena.lookup? (b.shift k.shift) (names.resolve id.name) =
        (s.arena.lookup? b (names.resolve id.name)).map (DeclId.shift k.shift)) :
    Twin (Mirrors k) s t (Lower.resolveName names id) (Lower.resolveName names id)
      (Option.map (DeclRef.shift k.shift)) := by
  obtain ⟨b, hb⟩ := h.exists_current
  unfold Twin Lower.resolveName
  simp only [Lower.run_bind, Lower.run_currentBlock_some hb,
    Lower.run_currentBlock_some (h.current hb), Lower.run_lookup_eq]
  rw [hlook b hb]
  cases s.arena.lookup? b (names.resolve id.name) with
  | some d => exact ⟨rfl, h.withRefused _ _⟩
  | none => exact ⟨rfl, ((h.withRefused _ _).report _).2⟩

theorem resolveType (h : Mirrors k s t) (a : Ascription) :
    t.resolveType names a = s.resolveType names a := by
  have hfind : t.findType? = s.findType? := by
    funext name
    unfold Session.findType? Arena.typeScope?
    rw [h.inForce, h.arena.types]
  unfold Session.resolveType
  rw [hfind]

theorem ascription? (h : Mirrors k s t) (written : Option Ascription) :
    Twin (Mirrors k) s t (Lower.ascription? names written) (Lower.ascription? names written)
      id := by
  cases written with
  | none => exact ⟨rfl, h⟩
  | some a =>
    unfold Twin Lower.ascription?
    simp only [Lower.run_bind, Lower.run_get]
    rw [h.resolveType]
    cases s.resolveType names a with
    | ok type => exact ⟨rfl, h⟩
    | error problem => exact ⟨rfl, (h.report problem).2⟩

theorem freshTemp (h : Mirrors k s t) (hs : s.Good names src) (hb : s.current? = some b)
    (span : Span) :
    Twin (Mirrors k) s t (Lower.freshTemp b span) (Lower.freshTemp (b.shift k.shift) span)
      (DeclId.shift k.shift) := by
  obtain ⟨⟨x, hx, ho⟩, y, hy, ho'⟩ := h.opened hs hb
  have hshifted : Decl.Shifted k.shift k.temps s.options.tempPrefix (Lower.tempDecl s b span)
      (Lower.tempDecl t (b.shift k.shift) span) := by
    refine ⟨fun hnot => ?_, fun _ => ⟨s.nextTemp, rfl, ?_⟩, rfl, rfl, rfl, rfl⟩
    · cases hnot
    · unfold Lower.tempDecl
      rw [h.text, h.nextTemp]
  unfold Twin
  rw [Lower.run_freshTemp hx ho, Lower.run_freshTemp hy ho']
  refine ⟨h.arena.nextDecl, h.arena.withDecl hshifted b, h.stack, h.inside, h.unitBody,
    h.inForce, ?_, h.text, h.log⟩
  show t.nextTemp + 1 = s.nextTemp + 1 + k.temps
  rw [h.nextTemp]
  omega

theorem addDecl (h : Mirrors k s t) (hs : s.Good names src) (hb : s.current? = some b)
    {kind : DeclKind} (hkind : kind ≠ .temporary ∧ kind.shift k.shift = kind) (name : String)
    (type : Option TypeRef) (span : Span) :
    Twin (Mirrors k) s t (Lower.addDecl b name type kind span)
      (Lower.addDecl (b.shift k.shift) name type kind span) (DeclId.shift k.shift) := by
  obtain ⟨⟨x, hx, ho⟩, y, hy, ho'⟩ := h.opened hs hb
  have hshifted : Decl.Shifted k.shift k.temps s.options.tempPrefix ⟨name, type, kind, b, span⟩
      ⟨name, type, kind, b.shift k.shift, span⟩ := by
    refine ⟨fun _ => rfl, fun htemp => ?_, rfl, hkind.2.symm, rfl, rfl⟩
    exact absurd (eq_of_beq htemp) hkind.1
  unfold Twin
  rw [Lower.run_addDecl hx ho, Lower.run_addDecl hy ho']
  exact ⟨h.arena.nextDecl, h.of_arena (h.arena.withDecl hshifted b)⟩

theorem createChild (h : Mirrors k s t) (hs : s.Good names src) (hb : s.current? = some b)
    (span : Span) :
    Twin (Mirrors k) s t (Lower.createChild b span) (Lower.createChild (b.shift k.shift) span)
      (BlockId.shift k.shift) := by
  obtain ⟨⟨x, hx, _⟩, y, hy, _⟩ := h.opened hs hb
  unfold Twin
  rw [Lower.run_createChild hx, Lower.run_createChild hy]
  exact ⟨h.arena.nextBlock, h.of_arena (h.arena.withChild b span)⟩

theorem addStmt (h : Mirrors k s t) (hs : s.Good names src) (hb : s.current? = some b)
    (stmt : Stmt) :
    Twin (Mirrors k) s t (Lower.addStmt b stmt)
      (Lower.addStmt (b.shift k.shift) (stmt.shift k.shift)) id := by
  obtain ⟨⟨x, hx, ho⟩, y, hy, ho'⟩ := h.opened hs hb
  unfold Twin
  rw [Lower.run_addStmt hx ho, Lower.run_addStmt hy ho']
  exact ⟨rfl, h.of_arena (h.arena.withStmt b stmt)⟩

theorem openBlock (h : Mirrors k s t) (c : BlockId) :
    Twin (Mirrors k) s t (Lower.openBlock c) (Lower.openBlock (c.shift k.shift)) id := by
  refine ⟨rfl, h.arena, ?_, List.cons_ne_nil _ _, h.unitBody, h.inForce, h.nextTemp, h.text, h.log⟩
  show c.shift k.shift :: t.openBlocks = (c :: s.openBlocks).map (BlockId.shift k.shift) ++ k.outer
  rw [h.stack]
  rfl

/-- A block is left in both sessions. -/
theorem closeBlock (h : Mirrors k s t) (hu : u.Good names src)
    (frame : Frame n ((Lower.openBlock c).run s).2 u) (h' : Mirrors k u v) :
    Twin (Mirrors k) u v (Lower.closeBlock c) (Lower.closeBlock (c.shift k.shift)) id := by
  have hstack : u.openBlocks = c :: s.openBlocks := frame.stack_openBlock
  have hcur : u.current? = some c := frame.current rfl
  obtain ⟨⟨x, hx, _⟩, y, hy, _⟩ := h'.opened hu hcur
  have hstack' : v.openBlocks =
      c.shift k.shift :: (s.openBlocks.map (BlockId.shift k.shift) ++ k.outer) := by
    rw [h'.stack, hstack]
    rfl
  unfold Twin
  rw [Lower.run_closeBlock hx hstack, Lower.run_closeBlock hy hstack']
  exact ⟨rfl, h'.arena.withSealed c, rfl, h.inside, h'.unitBody, h'.inForce, h'.nextTemp, h'.text,
    h'.log⟩

/-- Where roots list no other declarations, the same placeholder is free. -/
theorem freePlaceholder? (h : Mirrors k s t) (hs : s.Good names src) (hextra : k.extra = [])
    (b : BlockId) (name : String) :
    t.freePlaceholder? (b.shift k.shift) name =
      (s.freePlaceholder? b name).map (DeclId.shift k.shift) := by
  unfold Session.freePlaceholder?
  rw [h.unitBody]
  by_cases hunit : s.unitBody = some b
  · rw [hunit, if_pos rfl, Option.map_some, if_pos rfl, h.arena.declsAround hextra]
    refine Arena.Mirrors.find?_map fun d hd => ?_
    unfold Arena.declsAround at hd
    cases hq : (s.arena.parent? b).bind s.arena.block? with
    | none =>
      rw [hq] at hd
      cases hd
    | some x =>
      rw [hq] at hd
      obtain ⟨q, _, hx⟩ := Option.bind_eq_some_iff.1 hq
      obtain ⟨y, hy, _⟩ := hs.arena.owners q x hx d hd
      exact h.arena.isFree hy name
  · have hunit' : s.unitBody.map (BlockId.shift k.shift) ≠ some (b.shift k.shift) := by
      intro e
      obtain ⟨c, hc, hcb⟩ := Option.map_eq_some_iff.1 e
      exact hunit (hc.trans (congrArg some (BlockId.shift_injective hcb)))
    rw [if_neg hunit, if_neg hunit']
    rfl

theorem linkHoisted (h : Mirrors k s t) (hs : s.Good names src) (hextra : k.extra = [])
    (b : BlockId) (name : String) (d : DeclId) :
    Twin (Mirrors k) s t (Lower.linkHoisted b name d)
      (Lower.linkHoisted (b.shift k.shift) name (d.shift k.shift)) id := by
  unfold Twin
  rw [Lower.run_linkHoisted_eq, Lower.run_linkHoisted_eq, h.freePlaceholder? hs hextra]
  cases hp : s.freePlaceholder? b name with
  | none => exact ⟨rfl, h.withRefused _ _⟩
  | some p =>
    obtain ⟨x, hx, _, hfree⟩ := Lower.freePlaceholder?_spec hp
    exact ⟨rfl, (h.withRefused _ _).of_arena (h.arena.withLink hx hfree d)⟩

end Session.Mirrors

end BlockLowering
