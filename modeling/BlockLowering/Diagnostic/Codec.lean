import BlockLowering.Diagnostic.Record
import BlockLowering.Json.Decode
import BlockLowering.Json.Reader

/-!
# Diagnostics as JSON

Records are written with all their fields in order; a missing span is null.
-/

namespace BlockLowering

open Json

namespace Span

def toJson (s : Span) : Json :=
  record [("start", natural s.start.toNat), ("end", natural s.stop.toNat)]

def ofJson? (j : Json) : Option Span := do
  let [start, stop] ← fieldsNamed? ["start", "end"] j | none
  return ⟨← required? word? start, ← required? word? stop⟩

end Span

namespace Diagnostic

namespace Code

/-- The name of a code where programs read it. -/
def name : Code → String
  | unsupportedConstruct => "UnsupportedConstruct"
  | nameNotFound => "NameNotFound"

def ofName? (name : String) : Option Code :=
  [unsupportedConstruct, nameNotFound].find? fun code => code.name == name

def toJson (code : Code) : Json := Json.text code.name

def ofJson? (j : Json) : Option Code := (choice? j).bind ofName?

end Code

namespace Record

def toJson (r : Record) : Json :=
  record [("code", r.code.toJson), ("span", ofOption Span.toJson r.span),
    ("args", .array (r.args.map text))]

def ofJson? (j : Json) : Option Record := do
  let [code, span, args] ← fieldsNamed? ["code", "span", "args"] j | none
  return ⟨← required? Code.ofJson? code, ← optional? Span.ofJson? span,
    ← required? (list? text?) args⟩

end Record

namespace Log

def toJson (log : Log) : Json := record [("records", .array (log.records.map Record.toJson))]

def ofJson? (j : Json) : Option Log := do
  let [records] ← fieldsNamed? ["records"] j | none
  return ⟨← required? (list? Record.ofJson?) records⟩

/-- The log as a line of text. -/
def write (log : Log) : String := log.toJson.compact

/-- The log that a text holds. -/
def read? (text : String) : Option Log := (parse? text).bind ofJson?

end Log

end Diagnostic

end BlockLowering
