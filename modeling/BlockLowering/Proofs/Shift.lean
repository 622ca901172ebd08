import BlockLowering.IR.Arena

/-!
# Code at other numbers

A module that is lowered later in a session gets other numbers than one that is lowered first. A
`Shift` says how far block numbers and declaration numbers move; shifting code moves every number in
it and changes nothing else.
-/

namespace BlockLowering.IR

/-- How far the numbers of blocks and declarations move. -/
structure Shift where
  blocks : Nat
  decls : Nat

/-- No number moves. -/
def Shift.zero : Shift := ⟨0, 0⟩

section

variable (r : Shift)

def BlockId.shift (b : BlockId) : BlockId := ⟨b.index + r.blocks⟩

def DeclId.shift (d : DeclId) : DeclId := ⟨d.index + r.decls⟩

def DeclRef.shift (x : DeclRef) : DeclRef := ⟨x.decl.shift r, x.span⟩

mutual

def Expr.shift : Expr → Expr
  | .ref target => .ref (target.shift r)
  | .int value span => .int value span
  | .float value span => .float value span
  | .binary op lhs rhs span => .binary op lhs.shift rhs.shift span
  | .func body span => .func (body.shift r) span
  | .call callee args span => .call callee.shift (Expr.shiftAll args) span

def Expr.shiftAll : List Expr → List Expr
  | [] => []
  | e :: rest => e.shift :: Expr.shiftAll rest

end

def Stmt.shift : Stmt → Stmt
  | .assign target value span => .assign (target.shift r) (value.shift r) span
  | .drop value span => .drop (value.shift r) span
  | .ifElse cond thenBlock elseBlock span =>
    .ifElse (cond.shift r) (thenBlock.shift r) (elseBlock.map (BlockId.shift r)) span
  | .whileLoop cond body span => .whileLoop (cond.shift r) (body.shift r) span

def DeclKind.shift : DeclKind → DeclKind
  | .placeholder target => .placeholder (target.map (DeclId.shift r))
  | kind => kind

/-- A block at other numbers, with the declarations `extra` listed before its own. -/
def Block.shift (extra : List DeclId) (x : Block) : Block where
  id := x.id.shift r
  parent := x.parent.map (BlockId.shift r)
  decls := extra ++ x.decls.map (DeclId.shift r)
  children := x.children.map (BlockId.shift r)
  stmts := x.stmts.map (Stmt.shift r)
  span := x.span
  isSealed := x.isSealed

/-- A declaration at other numbers, with the same name. -/
def Decl.shift (x : Decl) : Decl := { x with kind := x.kind.shift r, owner := x.owner.shift r }

/-- A declaration at other numbers. Temporaries are numbered in their names, after a text: the number
of a temporary moves by `temps`. All other names stay. -/
structure Decl.Shifted (temps : Nat) (text : String) (x y : Decl) : Prop where
  name : x.isTemporary = false → y.name = x.name
  number : x.isTemporary = true →
    ∃ n, x.name = text ++ toString n ∧ y.name = text ++ toString (n + temps)
  type : y.type = x.type
  kind : y.kind = x.kind.shift r
  owner : y.owner = x.owner.shift r
  span : y.span = x.span

end

variable {r : Shift}

theorem BlockId.shift_injective {b c : BlockId} (h : b.shift r = c.shift r) : b = c := by
  obtain ⟨i⟩ := b
  obtain ⟨j⟩ := c
  simpa [BlockId.shift] using h

theorem DeclId.shift_injective {d e : DeclId} (h : d.shift r = e.shift r) : d = e := by
  obtain ⟨i⟩ := d
  obtain ⟨j⟩ := e
  simpa [DeclId.shift] using h

/-- Where temporaries keep their numbers, all names stay. -/
theorem Decl.Shifted.eq_shift {text : String} {x y : Decl} (h : Decl.Shifted r 0 text x y) :
    y = x.shift r := by
  have hname : y.name = x.name := by
    cases htemp : x.isTemporary with
    | false => exact h.name htemp
    | true =>
      obtain ⟨n, hx, hy⟩ := h.number htemp
      exact hy.trans hx.symm
  obtain ⟨name, type, kind, owner, span⟩ := y
  obtain ⟨rfl, rfl, rfl, rfl, rfl⟩ : name = x.name ∧ type = x.type ∧ kind = x.kind.shift r ∧
    owner = x.owner.shift r ∧ span = x.span := ⟨hname, h.type, h.kind, h.owner, h.span⟩
  rfl

/-! ## Shifting by nothing -/

@[simp] theorem BlockId.shift_zero (b : BlockId) : b.shift .zero = b := rfl

@[simp] theorem DeclId.shift_zero (d : DeclId) : d.shift .zero = d := rfl

@[simp] theorem DeclRef.shift_zero (x : DeclRef) : x.shift .zero = x := rfl

mutual

theorem Expr.shift_zero (e : Expr) : e.shift .zero = e := by
  cases e with
  | ref | int | float | func => rfl
  | binary op lhs rhs span => simp only [Expr.shift, lhs.shift_zero, rhs.shift_zero]
  | call callee args span => simp only [Expr.shift, callee.shift_zero, Expr.shiftAll_zero args]

theorem Expr.shiftAll_zero (es : List Expr) : Expr.shiftAll .zero es = es := by
  cases es with
  | nil => rfl
  | cons e rest => simp only [Expr.shiftAll, e.shift_zero, Expr.shiftAll_zero rest]

end

theorem Stmt.shift_zero (s : Stmt) : s.shift .zero = s := by
  have hblock : BlockId.shift .zero = id := by
    funext b
    rfl
  cases s with
  | assign | drop | whileLoop => simp [Stmt.shift, Expr.shift_zero]
  | ifElse cond thenBlock elseBlock span =>
    simp only [Stmt.shift, Expr.shift_zero, BlockId.shift_zero, hblock, Option.map_id_fun, id_eq]

end BlockLowering.IR
