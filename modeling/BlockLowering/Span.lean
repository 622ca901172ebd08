import BlockLowering.Text.Bytes

/-!
# Source spans

A span is a half-open range of byte offsets into a source text. Offsets are 64-bit words and may
lie anywhere, also past the end of the text or in reverse order; only `Span.slice?` looks at a text.
-/

namespace BlockLowering

/-- The bytes from `start` up to, not including, `stop`. -/
structure Span where
  start : UInt64
  stop : UInt64
deriving DecidableEq, Repr

namespace Span

/-- The span of everything that no source text holds. -/
def synthetic : Span := ⟨0, 0⟩

instance : Inhabited Span := ⟨synthetic⟩

/-- The number of bytes covered; a reversed span covers none. -/
def length (s : Span) : Nat := s.stop.toNat - s.start.toNat

/-- Nothing is covered. -/
def isEmpty (s : Span) : Bool := s.stop ≤ s.start

/-- The least span that covers both. -/
def merge (s t : Span) : Span := ⟨min s.start t.start, max s.stop t.stop⟩

/-- The least span that covers `first` and everything in `rest`. -/
def hull (first : Span) (rest : List Span) : Span := rest.foldl merge first

/-- The covered text, if both ends are character boundaries of `source` in the right order. -/
def slice? (s : Span) (source : String) : Option String :=
  if s.start ≤ s.stop then
    (Text.splitBytes? s.start.toNat source.toList).bind fun (_, rest) =>
      (Text.splitBytes? s.length rest).map fun (covered, _) => String.ofList covered
  else
    none

/-- A span is written with two dots between its ends. -/
def render (s : Span) : String := toString s.start.toNat ++ ".." ++ toString s.stop.toNat

end Span

end BlockLowering
