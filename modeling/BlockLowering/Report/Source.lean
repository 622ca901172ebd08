import BlockLowering.Text.Bytes

/-!
# Source files and locations

Lines start at the beginning of a text and after every line feed, so a text always has a last line,
possibly empty. A place past the end of the text is on the last line.
-/

namespace BlockLowering.Report

/-- A source text and the name under which it is shown. -/
structure SourceFile where
  path : String
  text : String
deriving Repr

/-- The lines of a text, each with its line feed. -/
def splitLines : List Char → List (List Char)
  | [] => [[]]
  | c :: cs =>
    if c = '\n' then
      ['\n'] :: splitLines cs
    else
      match splitLines cs with
      | [] => [[c]]
      | line :: rest => (c :: line) :: rest

/-- A place in a text: the index of its line and the bytes before it there. -/
structure Place where
  line : Nat
  offset : Nat
deriving DecidableEq, Repr

/-- The line that holds the byte, and the bytes before it on that line. -/
def placeIn : List (List Char) → Nat → Place
  | [], byte | [_], byte => ⟨0, byte⟩
  | line :: rest, byte =>
    if byte < Text.byteLength line then
      ⟨0, byte⟩
    else
      let place := placeIn rest (byte - Text.byteLength line)
      ⟨place.line + 1, place.offset⟩

/-- A place as people count: lines and characters from one. -/
structure Location where
  line : Nat
  column : Nat
deriving DecidableEq, Repr

namespace SourceFile

def lines (f : SourceFile) : List (List Char) := splitLines f.text.toList

def place (f : SourceFile) (byte : Nat) : Place := placeIn f.lines byte

/-- The line with this index; there is none past the last. -/
def line (f : SourceFile) (index : Nat) : List Char := f.lines.getD index []

/-- The location of a byte; a byte inside a character counts as the character's start, and one past
the line as the line's end. -/
def location (f : SourceFile) (byte : Nat) : Location :=
  let place := f.place byte
  ⟨place.line + 1, Text.charsWithin place.offset (f.line place.line) + 1⟩

end SourceFile

end BlockLowering.Report
