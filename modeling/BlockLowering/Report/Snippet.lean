import BlockLowering.Report.Basic

/-!
# Reports for people

A report is shown with the lines that its label covers. The label underlines a range on one line
with carets and marks a longer range with a bar along its lines. A gutter in front holds the line
numbers.
-/

namespace BlockLowering.Report

/-! ## Columns -/

/-- A character on a line, the bytes before it and the columns it takes. -/
structure Cell where
  char : Char
  offset : Nat
  width : Nat

/-- A tab reaches to the next multiple of four columns, and control characters take no room. -/
def columnsOf (column : Nat) (c : Char) : Nat :=
  if c = '\t' then 4 - column % 4
  else if c.toNat < 0x20 ∨ c.toNat = 0x7f then 0
  else 1

/-- The cells of a line from a byte and a column on. -/
def cellsFrom (offset column : Nat) : List Char → List Cell
  | [] => []
  | c :: cs =>
    let width := columnsOf column c
    ⟨c, offset, width⟩ :: cellsFrom (offset + c.utf8Size) (column + width) cs

def cells (line : List Char) : List Cell := cellsFrom 0 0 line

/-- The line without its end. -/
def trimEnd (line : List Char) : List Char :=
  (line.reverse.dropWhile fun c => c = '\n' ∨ c = '\r' ∨ c = '\x00').reverse

/-- The line as it is shown; tabs become spaces. -/
def shown (line : List Char) : List Char :=
  (cells line).flatMap fun cell =>
    if cell.char = '\t' then List.replicate cell.width ' ' else [cell.char]

/-- As many dashes as the cells before a byte take columns. -/
def dashesBefore (byte : Nat) (line : List Char) : List Char :=
  ((cells line).takeWhile fun cell => cell.offset < byte).flatMap fun cell =>
    List.replicate cell.width '─'

/-- Carets under the bytes from `start` up to `stop`, and spaces before them. The line has one more
column at its end, so that its end can be marked. -/
def carets (start stop : Nat) (line : List Char) : List Char :=
  let past : Cell := ⟨' ', Text.byteLength line, 1⟩
  (cells line ++ [past]).flatMap fun cell =>
    if start < cell.offset + cell.char.utf8Size ∧ cell.offset < stop then
      List.replicate cell.width '^'
    else if cell.offset < stop then
      List.replicate cell.width ' '
    else
      []

/-! ## The gutter -/

/-- The number of digits of a line number. -/
def digitCount (n : Nat) : Nat := (Nat.toDigits 10 n).length

/-- A line behind an empty gutter. -/
def plain (width : Nat) (content : List Char) : List Char :=
  List.replicate width ' ' ++ ' ' :: content

/-- A line behind a gutter that holds its number. -/
def numbered (width number : Nat) (content : List Char) : List Char :=
  let digits := Nat.toDigits 10 number
  List.replicate (width - digits.length) ' ' ++ digits ++ ' ' :: content

/-! ## Labels -/

/-- The words behind a mark, if there are any. -/
def trailing (message : String) : List Char :=
  if message.isEmpty then [] else ' ' :: message.toList

/-- A range on one line is underlined; an empty range gets one caret. -/
def lineSnippet (width number : Nat) (line : List Char) (start stop : Nat) (message : String) :
    List (List Char) :=
  [plain width ['│'],
    numbered width number (['│', ' '] ++ shown line),
    plain width (['│', ' '] ++ carets start (max stop (start + 1)) line ++
      trailing message)]

/-- The first line of a longer range. The mark has a line of its own unless only blanks stand before
the range. -/
def firstLine (width number : Nat) (line : List Char) (start : Nat) : List (List Char) :=
  if start ≤ Text.byteLength (line.takeWhile Char.isWhitespace) then
    [numbered width number (['│', ' ', '╭', ' '] ++ shown line)]
  else
    [numbered width number (['│', ' ', ' ', ' '] ++ shown line),
      plain width (['│', ' ', '╭'] ++ dashesBefore (start + 1) line ++ ['^'])]

/-- A later line of a longer range. -/
def barLine (width number : Nat) (line : List Char) : List Char :=
  numbered width number (['│', ' ', '│', ' '] ++ shown line)

/-- The mark below the last line of a longer range. -/
def lastMark (width : Nat) (line : List Char) (stop : Nat) (message : String) : List Char :=
  plain width (['│', ' ', '╰'] ++ dashesBefore stop line ++ '^' :: trailing message)

/-- A range over several lines. The first four and the last two of its lines are shown; two or more
lines between them give way to a break. -/
def rangeSnippet (width : Nat) (file : SourceFile) (start stop : Place) (message : String) :
    List (List Char) :=
  let lineAt (i : Nat) := trimEnd (file.line i)
  let bars (first count : Nat) :=
    (List.range' first count).map fun i => barLine width (i + 1) (lineAt i)
  let later :=
    if stop.line - start.line ≤ 6 then
      bars (start.line + 1) (stop.line - start.line)
    else
      bars (start.line + 1) 3 ++ plain width ['·', ' ', '│'] :: bars (stop.line - 1) 2
  plain width ['│', ' ', ' '] ::
    firstLine width (start.line + 1) (lineAt start.line) start.offset ++ later ++
      [lastMark width (lineAt stop.line) stop.offset message]

/-- The lines from the header of a label to the end of its range. -/
def labelLines (width : Nat) (file : SourceFile) (label : Label) : List (List Char) :=
  let start := file.place label.span.start.toNat
  let stop := file.place label.span.stop.toNat
  let location := file.location label.span.start.toNat
  let header := ['┌', '─', ' '] ++ file.path.toList ++ ':' :: (toString location.line).toList ++
    ':' :: (toString location.column).toList
  plain width header ::
    if start.line = stop.line then
      lineSnippet width location.line (trimEnd (file.line start.line)) start.offset stop.offset
        label.message
    else
      rangeSnippet width file start stop label.message

/-- The digits that the line numbers of a label need. -/
def labelWidth (file : SourceFile) (label : Label) : Nat :=
  max (digitCount ((file.place label.span.start.toNat).line + 1))
    (digitCount ((file.place label.span.stop.toNat).line + 1))

/-- A label's range lies on several lines. -/
def isRange (file : SourceFile) (label : Label) : Bool :=
  (file.place label.span.start.toNat).line != (file.place label.span.stop.toNat).line

/-! ## Notes -/

/-- The lines of a note; the end of a line may be a line feed with or without a carriage return. -/
def noteText (note : String) : List (List Char) :=
  (splitLines note.toList).filterMap fun line =>
    match line.reverse with
    | [] => none
    | '\n' :: '\r' :: front => some front.reverse
    | '\n' :: front => some front.reverse
    | _ => some line

/-- The first line of a note has a bullet. -/
def noteLines (width : Nat) (note : String) : List (List Char) :=
  (noteText note).mapIdx fun i line =>
    plain width ((if i = 0 then '=' else ' ') :: ' ' :: line)

/-! ## The whole report -/

/-- Why a report cannot be shown. -/
inductive RenderError where
  | fileMissing
deriving DecidableEq, Repr

def RenderError.message : RenderError → String
  | fileMissing => "file missing"

/-- The code in brackets; an empty one is not shown. -/
def codeMark (r : Report) : List Char :=
  let code := (r.code.getD "").toList
  if code.isEmpty then [] else '[' :: code ++ [']']

def titleLine (r : Report) : List Char :=
  ['e', 'r', 'r', 'o', 'r'] ++ codeMark r ++ [':', ' '] ++ r.message.toList

/-- The labels with their files. -/
def placed (r : Report) (files : List SourceFile) :
    Except RenderError (List (SourceFile × Label)) :=
  r.labels.mapM fun label =>
    match files[label.file]? with
    | some file => .ok (file, label)
    | none => .error .fileMissing

/-- The border between the last label and the notes. -/
def border (width : Nat) (labels : List (SourceFile × Label)) : List (List Char) :=
  match labels.getLast? with
  | none => []
  | some (file, label) =>
    [plain width (if isRange file label then ['│', ' ', ' '] else ['│'])]

/-- The report with the source lines of its labels, each label by itself. -/
def render (r : Report) (files : List SourceFile) : Except RenderError String := do
  let labels ← r.placed files
  let width := (labels.map fun (file, label) => labelWidth file label).foldl max 0
  let body := labels.flatMap fun (file, label) => labelLines width file label
  let notes := r.notes.flatMap (noteLines width)
  let border := if r.notes.isEmpty then [] else border width labels
  let lines := titleLine r :: body ++ border ++ notes ++ [[]]
  return String.ofList (lines.flatMap fun line => line ++ ['\n'])

end BlockLowering.Report
