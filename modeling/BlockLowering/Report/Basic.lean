import BlockLowering.Diagnostic.Record
import BlockLowering.Report.Source

/-!
# Reports

A report is a diagnostic ready to be shown: a message with labels that point into source files and
notes below them. Files are known by their position in a list.
-/

namespace BlockLowering

namespace Report

/-- A remark on a range of a file. -/
structure Label where
  file : Nat
  span : Span
  message : String
deriving DecidableEq, Repr

end Report

open Report in
/-- An error with its labels and notes. -/
structure Report where
  message : String
  code : Option String
  labels : List Label
  notes : List String
deriving DecidableEq, Repr

namespace Report

/-- The remark at the place of a problem. -/
def labelText : Diagnostic.Code → String
  | .unsupportedConstruct => "not supported here"
  | .nameNotFound => "not found in this scope"

/-- The notes on a problem. -/
def notesOn : Diagnostic.Code → List String
  | .unsupportedConstruct =>
    ["this construct was skipped; the rest of the unit was still lowered"]
  | .nameNotFound => []

/-- The report on a record whose span is in the file number `file`. -/
def ofRecord (record : Diagnostic.Record) (file : Nat) : Report where
  message := record.message
  code := some record.code.text
  labels := record.span.toList.map fun span => ⟨file, span, labelText record.code⟩
  notes := notesOn record.code

end Report

end BlockLowering
