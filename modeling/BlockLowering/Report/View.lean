import BlockLowering.Diagnostic.Codec
import BlockLowering.Report.Basic

/-!
# Reports for other programs

A view of a report names files and gives locations, so that a program can read it without the
sources. Labels of a file that is not there are left out.
-/

namespace BlockLowering.Report

open Json

structure LabelView where
  file : String
  startLine : UInt64
  startColumn : UInt64
  endLine : UInt64
  endColumn : UInt64
  message : Option String
  style : String
deriving DecidableEq, Repr

structure View where
  code : Option String
  severity : String
  message : String
  labels : List LabelView
  notes : List String
deriving DecidableEq, Repr

namespace LabelView

def toJson (l : LabelView) : Json :=
  record [("file", text l.file),
    ("start_line", natural l.startLine.toNat), ("start_column", natural l.startColumn.toNat),
    ("end_line", natural l.endLine.toNat), ("end_column", natural l.endColumn.toNat),
    ("message", ofOption text l.message), ("style", text l.style)]

def ofJson? (j : Json) : Option LabelView := do
  let [file, startLine, startColumn, endLine, endColumn, message, style] ← fieldsNamed?
    ["file", "start_line", "start_column", "end_line", "end_column", "message", "style"] j | none
  return ⟨← required? text? file, ← required? word? startLine, ← required? word? startColumn,
    ← required? word? endLine, ← required? word? endColumn, ← optional? text? message,
    ← required? text? style⟩

/-- The view of a label in its file. -/
def ofLabel (file : SourceFile) (label : Label) : LabelView :=
  let start := file.location label.span.start.toNat
  let stop := file.location label.span.stop.toNat
  ⟨file.path, .ofNat start.line, .ofNat start.column, .ofNat stop.line, .ofNat stop.column,
    some label.message, "primary"⟩

end LabelView

namespace View

def toJson (v : View) : Json :=
  record [("code", ofOption text v.code), ("severity", text v.severity),
    ("message", text v.message), ("labels", .array (v.labels.map LabelView.toJson)),
    ("notes", .array (v.notes.map text))]

def ofJson? (j : Json) : Option View := do
  let [code, severity, message, labels, notes] ← fieldsNamed?
    ["code", "severity", "message", "labels", "notes"] j | none
  return ⟨← optional? text? code, ← required? text? severity, ← required? text? message,
    ← required? (list? LabelView.ofJson?) labels, ← required? (list? text?) notes⟩

end View

/-- The view of a report. -/
def view (r : Report) (files : List SourceFile) : View where
  code := r.code
  severity := "error"
  message := r.message
  labels := r.labels.filterMap fun l => files[l.file]?.map fun f => LabelView.ofLabel f l
  notes := r.notes

/-- The report as JSON for other programs. -/
def json (r : Report) (files : List SourceFile) : String := (r.view files).toJson.pretty

end BlockLowering.Report
