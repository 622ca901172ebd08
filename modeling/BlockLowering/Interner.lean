import BlockLowering.SymbolTable

/-!
# Interners

An interner is a symbol table whose symbols fit into 32 bits. It keeps both directions: the handle
of every text that it has seen, and the texts by position. A handle is one more than the position of
its text, so no handle is zero. Positions are cut to 32 bits, and the largest handle stands for the
last two positions that 32 bits can hold.
-/

namespace BlockLowering

/-- A 32-bit number other than zero. -/
structure Handle where
  value : UInt32
  ne_zero : value ≠ 0
deriving DecidableEq, Repr

namespace Handle

/-- The largest 32-bit number. -/
def largest : UInt32 := 4294967295

theorem add_one_ne_zero {n : UInt32} (h : n ≠ largest) : n + 1 ≠ 0 := by
  intro hzero
  apply h
  have heq : n + 1 - 1 = 0 - 1 := congrArg (· - 1) hzero
  rwa [UInt32.add_sub_cancel] at heq

/-- One more than `n`, but no more than the largest number. -/
def ofRaw (n : UInt32) : Handle :=
  if h : n = largest then ⟨largest, by decide⟩ else ⟨n + 1, add_one_ne_zero h⟩

/-- The handle for a position, of which 32 bits count. -/
def ofPosition (n : Nat) : Handle := ofRaw (UInt32.ofNat n)

/-- The position that a handle stands for. -/
def position (h : Handle) : Nat := (h.value - 1).toNat

end Handle

/-- The handles of the texts seen so far, and these texts in the order in which they were first
seen. -/
structure Interner where
  handles : List (String × Handle)
  texts : List String
deriving DecidableEq, Repr

namespace Interner

def empty : Interner := ⟨[], []⟩

instance : Inhabited Interner := ⟨empty⟩

/-- The number of texts. -/
def size (t : Interner) : Nat := t.texts.length

/-- The handle of a text that was seen before. -/
def find? (t : Interner) (text : String) : Option Handle := t.handles.lookup text

/-- The handle of a text; a new text gets the handle of the next position. -/
def intern (t : Interner) (text : String) : Interner × Handle :=
  match t.find? text with
  | some handle => (t, handle)
  | none =>
    let handle := Handle.ofPosition t.size
    (⟨(text, handle) :: t.handles, t.texts ++ [text]⟩, handle)

/-- The text of a handle; a handle without a text here has the empty text. -/
def resolve (t : Interner) (handle : Handle) : String :=
  (t.texts[handle.position]?).getD ""

/-- Intern texts one after another; the handles are those that the calls return. -/
def internAll (t : Interner) : List String → Interner × List Handle
  | [] => (t, [])
  | text :: rest =>
    let (t, handle) := t.intern text
    let (t, handles) := t.internAll rest
    (t, handle :: handles)

end Interner

end BlockLowering
