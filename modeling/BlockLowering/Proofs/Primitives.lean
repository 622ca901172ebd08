import BlockLowering.Proofs.ArenaGrowth
import BlockLowering.Session.Run

/-!
# Effects of the single operations

What the operations of a session do where the arena refuses nothing: at a block that is there and
not sealed. Later proofs use these equations and do not open the operations again.
-/

namespace BlockLowering

open IR

/-- The innermost open block. -/
def Session.current? (s : Session) : Option BlockId := s.openBlocks.head?

namespace Lower

variable {s : Session} {b : BlockId} {x : IR.Block}

theorem run_bind {α β : Type} (x : Lower α) (f : α → Lower β) (s : Session) :
    (x >>= f).run s = (f (x.run s).1).run (x.run s).2 := rfl

theorem run_get (s : Session) : (get : Lower Session).run s = (s, s) := rfl

theorem run_set (s t : Session) : (set t : Lower Unit).run s = ((), t) := rfl

theorem run_addStmt (h : s.arena.block? b = some x) (ho : x.isSealed = false) (stmt : Stmt) :
    (addStmt b stmt).run s = ((), { s with arena := s.arena.withStmt b stmt }) := by
  unfold addStmt
  rw [run_bind, run_get]
  simp only [Arena.addStmt_eq h ho]
  rfl

theorem run_addDecl (h : s.arena.block? b = some x) (ho : x.isSealed = false) (name : String)
    (type : Option TypeRef) (kind : DeclKind) (span : Span) :
    (addDecl b name type kind span).run s =
      (⟨s.arena.decls.length⟩,
        { s with arena := s.arena.withDecl b ⟨name, type, kind, b, span⟩ }) := by
  unfold addDecl
  rw [run_bind, run_get]
  simp only [Arena.addDecl_eq h ho]
  rfl

/-- The declaration of the next temporary. -/
def tempDecl (s : Session) (b : BlockId) (span : Span) : Decl :=
  ⟨s.options.tempPrefix ++ toString s.nextTemp, none, .temporary, b, span⟩

theorem run_freshTemp (h : s.arena.block? b = some x) (ho : x.isSealed = false) (span : Span) :
    (freshTemp b span).run s =
      (⟨s.arena.decls.length⟩,
        { s with
          nextTemp := s.nextTemp + 1
          arena := s.arena.withDecl b (tempDecl s b span) }) := by
  unfold freshTemp
  rw [run_bind, run_get]
  exact run_addDecl (s := { s with nextTemp := s.nextTemp + 1 }) h ho _ _ _ _

theorem run_createChild (h : s.arena.block? b = some x) (span : Span) :
    (createChild b span).run s =
      (⟨s.arena.blocks.length⟩, { s with arena := s.arena.withChild b span }) := by
  unfold createChild
  rw [run_bind, run_get]
  simp only [Arena.createChild_eq h]
  rfl

theorem run_sealBlock (h : s.arena.block? b = some x) :
    (sealBlock b).run s = ((), { s with arena := s.arena.withSealed b }) := by
  unfold sealBlock
  rw [run_bind, run_get]
  simp only [Arena.sealBlock_eq h]
  rfl

theorem run_closeBlock {rest : List BlockId} (h : s.arena.block? b = some x)
    (ho : s.openBlocks = b :: rest) :
    (closeBlock b).run s =
      ((), { s with openBlocks := rest, arena := s.arena.withSealed b }) := by
  unfold closeBlock
  rw [run_bind, run_get, run_bind, run_set]
  simp only [ho, List.head?_cons, List.tail_cons, ne_eq, not_true_eq_false, if_false]
  exact run_sealBlock (s := { s with openBlocks := rest }) h

theorem run_currentBlock_some (h : s.current? = some b) : currentBlock.run s = (b, s) := by
  unfold currentBlock
  rw [run_bind, run_get]
  unfold Session.current? at h
  cases ho : s.openBlocks with
  | nil =>
    rw [ho] at h
    cases h
  | cons c rest =>
    rw [ho] at h
    obtain rfl := Option.some.inj h
    rfl

theorem run_currentBlock_none (h : s.openBlocks = []) :
    currentBlock.run s =
      (⟨s.arena.blocks.length⟩,
        { s with
          arena := (s.arena.createRoot .synthetic).1
          openBlocks := [⟨s.arena.blocks.length⟩] }) := by
  unfold currentBlock
  rw [run_bind, run_get]
  simp only [h]
  rfl

end Lower

/-! ## Reads -/

namespace IR.Arena

variable {a : Arena} {b : BlockId} {x : Block} {p : Decl → Bool}

theorem block_eq_ok : a.block b = .ok x ↔ a.block? b = some x := by
  unfold block
  cases a.block? b with
  | none => simp
  | some y => simp

theorem block?_of_error {reason : Refusal} (h : a.block b = .error reason) :
    a.block? b = none := by
  unfold block at h
  cases hx : a.block? b with
  | none => rfl
  | some y =>
    rw [hx] at h
    cases h

theorem search_fst (a : Arena) (p : Decl → Bool) (ids : List DeclId) :
    (a.search p ids).1 = ids.find? fun id => (a.decl? id).any p := by
  induction ids with
  | nil => rfl
  | cons id rest ih =>
    unfold search decl
    rw [List.find?_cons]
    cases a.decl? id with
    | none => exact ih
    | some d =>
      dsimp only
      rw [Option.any_some]
      cases p d with
      | true => rfl
      | false => exact ih

/-- Nothing is refused where all numbers are known. -/
theorem search_snd {ids : List DeclId} (h : ∀ id ∈ ids, id.index < a.decls.length) :
    (a.search p ids).2 = [] := by
  induction ids with
  | nil => rfl
  | cons id rest ih =>
    have hd : a.decl? id = some _ := List.getElem?_eq_getElem (h id List.mem_cons_self)
    unfold search decl
    rw [hd]
    dsimp only
    split
    · rfl
    · exact ih fun e he => h e (List.mem_cons_of_mem id he)

/-- What is found among the declarations around a block is what is looked up block by block. -/
theorem find?_listedFrom (a : Arena) (b : BlockId) (name : String) :
    (a.listedFrom b).find? (fun id => (a.decl? id).any (Decl.isCalled name)) =
      a.lookup? b name := by
  have hdeclares : (fun id => (a.decl? id).any (Decl.isCalled name)) = a.declares name := by
    funext id
    unfold declares
    cases a.decl? id <;> rfl
  rw [hdeclares]
  unfold listedFrom lookup?
  rw [List.find?_flatMap]
  congr 1
  funext c
  unfold findInBlock?
  cases a.block? c <;> rfl

theorem Listed.listedFrom (h : a.Listed) (b : BlockId) :
    ∀ d ∈ a.listedFrom b, d.index < a.decls.length := by
  intro d hd
  obtain ⟨c, _, hd⟩ := List.mem_flatMap.1 hd
  cases hx : a.block? c with
  | none =>
    rw [hx] at hd
    cases hd
  | some x =>
    rw [hx] at hd
    exact h c x hx d hd

end IR.Arena

/-- The session with the faults of reads that were refused. -/
def Session.withRefused (s : Session) (refused : List Refusal) : Session :=
  { s with faults := s.faults ++ refused.map .refused }

theorem Session.withRefused_nil (s : Session) : s.withRefused [] = s := by
  unfold withRefused
  rw [List.map_nil, List.append_nil]

namespace Lower

variable {s : Session} {b : BlockId} {x : IR.Block}

theorem run_readBlock (h : s.arena.block b = .ok x) : (readBlock b).run s = (some x, s) := by
  unfold readBlock
  rw [run_bind, run_get]
  dsimp only
  rw [h]
  rfl

theorem run_readBlock_refused {reason : Refusal} (h : s.arena.block b = .error reason) :
    (readBlock b).run s = (none, s.withRefused [reason]) := by
  unfold readBlock
  rw [run_bind, run_get]
  dsimp only
  rw [h]
  rfl

theorem run_findDecl (p : Decl → Bool) (ids : List DeclId) (s : Session) :
    (findDecl p ids).run s = (ids.find? fun id => (s.arena.decl? id).any p,
      s.withRefused (s.arena.search p ids).2) := by
  rw [← Arena.search_fst]
  rfl

/-- Looking a name up gives what it means, whether or not a read is refused. -/
theorem run_lookup_eq (b : BlockId) (name : String) (s : Session) :
    (lookup b name).run s = (s.arena.lookup? b name,
      s.withRefused (s.arena.search (Decl.isCalled name) (s.arena.listedFrom b)).2) := by
  rw [← Arena.find?_listedFrom]
  exact run_findDecl _ _ s

theorem run_lookup (h : s.arena.Listed) (b : BlockId) (name : String) :
    (lookup b name).run s = (s.arena.lookup? b name, s) := by
  rw [run_lookup_eq, Arena.search_snd (h.listedFrom b), Session.withRefused_nil]

end Lower

/-! ## Placeholders -/

/-- The declaration is a placeholder of this name that leads nowhere yet. -/
def IR.Arena.isFree (a : Arena) (name : String) (id : DeclId) : Bool :=
  (a.decl? id).any (Decl.isFree name)

theorem IR.Arena.isFree_iff {a : Arena} {name : String} {d : DeclId} :
    a.isFree name d = true ↔
      ∃ x, a.decl? d = some x ∧ x.name = name ∧ x.kind = .placeholder none := by
  unfold Arena.isFree
  cases a.decl? d with
  | none => simp
  | some x => simp [Decl.isFree]

/-- The declarations that the block right around a block lists. -/
def IR.Arena.declsAround (a : Arena) (b : BlockId) : List DeclId :=
  (((a.parent? b).bind a.block?).map Block.decls).getD []

/-- The placeholder that a function of this name gets at a block. -/
def Session.freePlaceholder? (s : Session) (b : BlockId) (name : String) : Option DeclId :=
  if s.unitBody = some b then (s.arena.declsAround b).find? (s.arena.isFree name) else none

namespace Lower

theorem freePlaceholder?_spec {s : Session} {b : BlockId} {name : String} {p : DeclId}
    (h : s.freePlaceholder? b name = some p) :
    ∃ x, s.arena.decl? p = some x ∧ x.name = name ∧ x.kind = .placeholder none := by
  unfold Session.freePlaceholder? at h
  split at h
  · exact Arena.isFree_iff.1 (List.find?_some h)
  · cases h

/-- What is refused in reading the block around a block for a placeholder. -/
def refusedAround (a : Arena) (b : BlockId) (name : String) : List Refusal :=
  match a.block b with
  | .error reason => [reason]
  | .ok body =>
    match body.parent.map a.block with
    | none => []
    | some (.error reason) => [reason]
    | some (.ok unit) => (a.search (Decl.isFree name) unit.decls).2

theorem run_freePlaceholder (b : BlockId) (name : String) (s : Session) :
    (freePlaceholder b name).run s = ((s.arena.declsAround b).find? (s.arena.isFree name),
      s.withRefused (refusedAround s.arena b name)) := by
  unfold freePlaceholder refusedAround Arena.declsAround Arena.parent?
  rw [run_bind]
  cases hx : s.arena.block b with
  | error reason =>
    rw [run_readBlock_refused hx, Arena.block?_of_error hx]
    rfl
  | ok x =>
    rw [run_readBlock hx, Arena.block_eq_ok.1 hx]
    dsimp only [Option.bind_some]
    cases hp : x.parent with
    | none => exact congrArg (Prod.mk none) s.withRefused_nil.symm
    | some unit =>
      dsimp only [Option.map_some, Option.bind_some]
      rw [run_bind]
      cases hu : s.arena.block unit with
      | error reason =>
        rw [run_readBlock_refused hu, Arena.block?_of_error hu]
        rfl
      | ok u =>
        rw [run_readBlock hu, Arena.block_eq_ok.1 hu]
        exact run_findDecl _ _ s

/-- Nothing is refused at a block that is there, if parents and declarations are. -/
theorem refusedAround_eq_nil {a : Arena} {b : BlockId} {x : IR.Block} (hl : a.Listed)
    (ha : a.ParentsBelow) (hx : a.block? b = some x) (name : String) :
    refusedAround a b name = [] := by
  unfold refusedAround
  rw [Arena.block_eq_ok.2 hx]
  cases hp : x.parent with
  | none => simp only [hp, Option.map_none]
  | some unit =>
    have hparent : a.parent? b = some unit := (Arena.parent?_eq hx).trans hp
    have hlt := Nat.lt_trans (ha b unit hparent) (Arena.index_lt_of_block? hx)
    have hu : a.block? unit = some _ := List.getElem?_eq_getElem hlt
    simp only [hp, Option.map_some, Arena.block_eq_ok.2 hu]
    exact Arena.search_snd (hl unit _ hu)

/-- What is refused in linking a function of this name that is declared in a block. -/
def refusedToLink (s : Session) (b : BlockId) (name : String) : List Refusal :=
  if s.unitBody = some b then refusedAround s.arena b name else []

/-- The free placeholder, if there is one, is linked, whether or not a read is refused. -/
theorem run_linkHoisted_eq (b : BlockId) (name : String) (d : DeclId) (s : Session) :
    (linkHoisted b name d).run s =
      ((), match s.freePlaceholder? b name with
        | some p => { s.withRefused (refusedToLink s b name) with arena := s.arena.withLink p d }
        | none => s.withRefused (refusedToLink s b name)) := by
  unfold linkHoisted refusedToLink
  rw [run_bind, run_get]
  by_cases hunit : s.unitBody = some b
  · have hfind : s.freePlaceholder? b name = (s.arena.declsAround b).find? (s.arena.isFree name) :=
      if_pos hunit
    simp only [if_pos hunit]
    rw [run_bind, run_freePlaceholder, ← hfind]
    cases hp : s.freePlaceholder? b name with
    | none => rfl
    | some p =>
      obtain ⟨x, hx, _, hfree⟩ := freePlaceholder?_spec hp
      dsimp only
      unfold linkPlaceholder
      rw [run_bind, run_get]
      simp only [Session.withRefused, Arena.linkPlaceholder_eq hx hfree]
      rfl
  · have hnone : s.freePlaceholder? b name = none := if_neg hunit
    simp only [if_neg hunit]
    rw [hnone, Session.withRefused_nil]
    rfl

end Lower

/-! ## The log -/

namespace Lower

section

variable {α β : Type} {x : Lower α} {f : α → Lower β}

/-- Nothing is reported. -/
def Silent (x : Lower α) : Prop := ∀ s, (x.run s).2.log = s.log

theorem Silent.pure (a : α) : Silent (pure a : Lower α) := fun _ => rfl

theorem Silent.bind (hx : Silent x) (hf : ∀ a, Silent (f a)) : Silent (x >>= f) := by
  intro s
  rw [run_bind, hf _ _, hx s]

end

theorem silent_createChild (b : BlockId) (span : Span) : Silent (createChild b span) := by
  intro s
  unfold createChild
  rw [run_bind, run_get]
  rcases s.arena.createChild b span with ⟨arena, reason | id⟩ <;> rfl

theorem silent_addDecl (b : BlockId) (name : String) (type : Option TypeRef) (kind : DeclKind)
    (span : Span) : Silent (addDecl b name type kind span) := by
  intro s
  unfold addDecl
  rw [run_bind, run_get]
  rcases s.arena.addDecl b name type kind span with ⟨arena, reason | id⟩ <;> rfl

theorem silent_addStmt (b : BlockId) (stmt : Stmt) : Silent (addStmt b stmt) := by
  intro s
  unfold addStmt
  rw [run_bind, run_get]
  cases s.arena.addStmt b stmt <;> rfl

theorem silent_sealBlock (b : BlockId) : Silent (sealBlock b) := by
  intro s
  unfold sealBlock
  rw [run_bind, run_get]
  cases s.arena.sealBlock b <;> rfl

theorem silent_freshTemp (b : BlockId) (span : Span) : Silent (freshTemp b span) := by
  intro s
  unfold freshTemp
  rw [run_bind, run_get, run_bind, run_set]
  exact silent_addDecl _ _ _ _ _ _

theorem silent_currentBlock : Silent currentBlock := by
  intro s
  cases h : s.openBlocks with
  | nil =>
    rw [run_currentBlock_none h]
  | cons b rest =>
    have hb : s.current? = some b := congrArg List.head? h
    rw [run_currentBlock_some hb]

theorem silent_lookup (b : BlockId) (name : String) : Silent (lookup b name) := by
  intro s
  rw [run_lookup_eq]
  rfl

theorem silent_linkHoisted (b : BlockId) (name : String) (d : DeclId) :
    Silent (linkHoisted b name d) := by
  intro s
  rw [run_linkHoisted_eq]
  cases s.freePlaceholder? b name <;> rfl

theorem silent_closeBlock (b : BlockId) : Silent (closeBlock b) := by
  intro s
  unfold closeBlock
  rw [run_bind, run_get, run_bind, run_set]
  by_cases h : s.openBlocks.head? ≠ some b
  · simp only [if_pos h]
    exact silent_sealBlock b _
  · simp only [if_neg h]
    exact silent_sealBlock b _

theorem silent_elseBlock? (b : BlockId) (branch : Option Source.Statement) :
    Silent (elseBlock? b branch) := by
  cases branch with
  | none => exact .pure _
  | some st => exact .bind (silent_createChild b st.span) fun _ => .pure _

end Lower

end BlockLowering
